import Mathlib.Logic.Relation
import QorechainPqc.Keys.Reference
import QorechainPqc.SignBytes.Separation

/-!
# Networks, wallets and upgrades

Upgrades are applied on networks, wallets sign transactions for them with what they have last seen of a record, the same
keys sign messages of other purposes, and anyone submits signatures, in any interleaving (`Step`). A network frames what
is submitted to it with its own record. Wallets and networks use whatever binding they like.

Signatures cannot be forged: what a network finds valid was signed by the key at some time.

* `accepted_was_signed`: behind everything that a network accepts is the same transaction, signed with the key in the
  form that the network accepts now, and for v2 for this network.
* `accepted_one_way`: a network that has accepted a v2 transaction accepts no v1 transaction any more.
-/

namespace QorechainPqc

open Detect Framing Text Binding

/-! ## Messages -/

/-- The chain id of a network. -/
structure ChainId where
  bytes : Bytes
  nonempty : bytes ≠ []
  zero_notMem : (0 : UInt8) ∉ bytes

/-- A transaction, whose parts are short enough that no length spells `qore`. -/
structure Transaction where
  b0 : Bytes
  auth : Bytes
  b0_short : b0.length < Format.qoreLength
  auth_short : auth.length < Format.qoreLength

namespace ChainId

/-- The form that the network accepts, with a record of upgrades. -/
def form (id : ChainId) (record : Observations Bytes) : Version :=
  rule (legacyIds.contains id.bytes) (observed upgrades record)

/-- The message of a transaction. -/
def message (id : ChainId) (record : Observations Bytes) (tx : Transaction) : Bytes :=
  match id.form record with
  | .v1 => Format.v1 tx.b0 tx.auth
  | .v2 => Format.v2 id.bytes tx.b0 tx.auth

variable {id id' : ChainId} {record record' : Observations Bytes} {tx tx' : Transaction}

theorem message_of_v1 (h : id.form record = .v1) : id.message record tx = Format.v1 tx.b0 tx.auth := by
  rw [message, h]

theorem message_of_v2 (h : id.form record = .v2) : id.message record tx = Format.v2 id.bytes tx.b0 tx.auth := by
  rw [message, h]

/-- An older record is the end of a newer one. -/
theorem form_mono (h : record <:+ record') (hv : id.form record = .v2) : id.form record' = .v2 := by
  have hgrows : Grows record record' := fun name height hm => ⟨height, h.mem hm, le_rfl⟩
  refine rule_eq_v2.mpr ((rule_eq_v2.mp hv).imp_right fun hs => ?_)
  exact observed_mono hgrows hs

theorem eq_of_v1 (h : Format.v1 tx.b0 tx.auth = Format.v1 tx'.b0 tx'.auth) : tx = tx' := by
  have hlt {n : Nat} (hn : n < Format.qoreLength) : n < 2 ^ 32 := Nat.lt_trans hn (by decide)
  have he := Format.v1_selfDelimiting.prefix_eq (a := (tx.b0, tx.auth)) (b := (tx'.b0, tx'.auth))
    ⟨hlt tx.b0_short, hlt tx.auth_short⟩ ⟨hlt tx'.b0_short, hlt tx'.auth_short⟩ (h ▸ List.prefix_rfl)
  obtain ⟨b0, auth, hb, ha⟩ := tx
  obtain ⟨b0', auth', hb', ha'⟩ := tx'
  cases he
  rfl

/-- **A message determines its transaction**, its form, and in the v2 form its network. -/
theorem eq_of_message (h : id.message record tx = id'.message record' tx') :
    tx = tx' ∧ id.form record = id'.form record' ∧ (id.form record = .v2 → id.bytes = id'.bytes) := by
  have hlt {n : Nat} (hn : n < Format.qoreLength) : n < 2 ^ 32 := Nat.lt_trans hn (by decide)
  cases hv : id.form record with
  | v1 =>
    cases hv' : id'.form record' with
    | v1 =>
      rw [message_of_v1 hv, message_of_v1 hv'] at h
      exact ⟨eq_of_v1 h, rfl, nofun⟩
    | v2 =>
      rw [message_of_v1 hv, message_of_v2 hv'] at h
      exact absurd h (Format.v1_ne_v2 tx.b0_short _ _ _ _)
  | v2 =>
    cases hv' : id'.form record' with
    | v1 =>
      rw [message_of_v2 hv, message_of_v1 hv'] at h
      exact absurd h.symm (Format.v1_ne_v2 tx'.b0_short _ _ _ _)
    | v2 =>
      rw [message_of_v2 hv, message_of_v2 hv'] at h
      have hid : id.bytes = id'.bytes := Format.v2_chainId_inj (hlt tx.b0_short) (hlt tx'.b0_short)
        (hlt tx.auth_short) (hlt tx'.auth_short) h
      rw [hid, Format.v2, Format.v2] at h
      exact ⟨eq_of_v1 (List.append_cancel_left (List.append_cancel_left h)), rfl, fun _ => hid⟩

/-- No message starts with a domain string of another purpose. -/
theorem not_reserved {d : Bytes} (hd : d ∈ Format.otherDomains) : ¬d <+: id.message record tx := by
  cases hv : id.form record with
  | v1 =>
    rw [message_of_v1 hv]
    exact Format.not_reserved_v1 hd tx.b0_short _
  | v2 =>
    rw [message_of_v2 hv]
    exact Format.not_reserved_v2 hd _ _ _

end ChainId

/-- A caller of a binding who frames a transaction for a network, with a view of its record. -/
structure Frames {b : Binding} (x : Context b) (id : ChainId) (view : Observations Bytes) (tx : Transaction) :
    Prop where
  chain : b.wire x.chain = id.bytes
  records : b.Records x.heights view
  b0 : x.b0 = tx.b0
  auth : x.auth = tx.auth

namespace Frames

variable {b : Binding} {x : Context b} {id : ChainId} {view : Observations Bytes} {tx : Transaction}

/-- The binding selects the form of the network. -/
theorem selected (h : Frames x id view tx) : x.selected = id.form view := by
  have hlegacy : b.legacy x.chain = legacyIds.contains id.bytes := by
    rw [legacy_eq x.chain_wf, h.chain, compared_of_notMem id.zero_notMem]
    rfl
  rw [Context.selected, hlegacy, switched_of_records h.records]
  rfl

/-- **What a binding returns** is the message. -/
theorem out_eq (h : Frames x id view tx) {bs : Bytes} (hout : x.out = .bytes bs) : bs = id.message view tx := by
  rw [Context.out_bytes hout, h.selected]
  cases hv : id.form view with
  | v1 =>
    rw [ChainId.message_of_v1 hv, ← h.b0, ← h.auth]
    rfl
  | v2 =>
    rw [ChainId.message_of_v2 hv, ← h.b0, ← h.auth, ← h.chain]
    rfl

end Frames

/-! ## The world -/

/-- A key of a wallet. -/
structure Key where
  level : MlDsa.Level
  publicKey : Bytes

variable {N : Type}

/-- A wallet has signed a transaction for a network, with what it had seen of the record. -/
structure Signing (N : Type) where
  key : Key
  network : N
  view : Observations Bytes
  tx : Transaction
  message : Bytes

/-- A network has accepted a transaction, with its record at that time. -/
structure Acceptance (N : Type) where
  key : Key
  network : N
  record : Observations Bytes
  tx : Transaction

/-- The records of the networks, newest upgrades first; what wallets have signed, as transactions and for other
purposes; and what networks have accepted, newest first. -/
structure World (N : Type) where
  record : N → Observations Bytes
  signings : List (Signing N)
  others : List (Key × Bytes)
  accepted : List (Acceptance N)

/-- A key has signed a message. -/
def World.Signed (w : World N) (key : Key) (m : Bytes) : Prop :=
  (∃ e ∈ w.signings, e.key = key ∧ e.message = m) ∨ (key, m) ∈ w.others

/-- Nothing has been signed yet. -/
def World.start (record : N → Observations Bytes) : World N := ⟨record, [], [], []⟩

namespace World

section Steps

variable (V : Fips204) (lib : Backends) (ids : N → ChainId)

/-- One step of a network, a wallet, or someone who submits a signature, which the network checks with some binding. -/
inductive Step [DecidableEq N] : World N → World N → Prop
  | upgrade {w : World N} (i : N) (name : Option Bytes) (height : Int) :
      Step w { w with record := Function.update w.record i ((name, height) :: w.record i) }
  | sign {w : World N} (key : Key) (i : N) {view : Observations Bytes} (hview : view <:+ w.record i) {b : Binding}
      (x : Context b) {tx : Transaction} (hx : Frames x (ids i) view tx) {bs : Bytes} (hout : x.out = .bytes bs) :
      Step w { w with signings := ⟨key, i, view, tx, bs⟩ :: w.signings }
  | signOther {w : World N} (key : Key) {m d : Bytes} (hd : d ∈ Format.otherDomains) (hm : d <+: m) :
      Step w { w with others := (key, m) :: w.others }
  | submit {w : World N} (key : Key) (i : N) {b : Binding} (y : Context b) {tx : Transaction}
      (hy : Frames y (ids i) (w.record i) tx) {bs : Bytes} (hout : y.out = .bytes bs) (sig : Bytes)
      (hforge : V.verdict key.level key.publicKey bs sig = true → w.Signed key bs) {v : Bool}
      (hv : Checks lib key.level key.publicKey bs sig v) :
      Step w { w with accepted := if v then ⟨key, i, w.record i, tx⟩ :: w.accepted else w.accepted }

/-- What any interleaving can lead to. -/
def Happens [DecidableEq N] (record : N → Observations Bytes) (w : World N) : Prop :=
  Relation.ReflTransGen (Step V lib ids) (start record) w

/-- The transaction that was accepted is the one that was signed, in the form of the network, and for v2 for it. -/
structure Origin (e : Signing N) (a : Acceptance N) : Prop where
  key : e.key = a.key
  tx : e.tx = a.tx
  form : (ids e.network).form e.view = (ids a.network).form a.record
  network : (ids a.network).form a.record = .v2 → (ids e.network).bytes = (ids a.network).bytes

/-- The invariant. -/
structure Inv (w : World N) : Prop where
  signings : ∀ e ∈ w.signings, e.message = (ids e.network).message e.view e.tx
  others : ∀ o ∈ w.others, ∃ d ∈ Format.otherDomains, d <+: o.2
  accepted : ∀ a ∈ w.accepted, ∃ e ∈ w.signings, Origin ids e a
  records : ∀ a ∈ w.accepted, a.record <:+ w.record a.network
  order : w.accepted.Pairwise fun newer older => newer.network = older.network → older.record <:+ newer.record

end Steps

variable {V : Fips204} {lib : Backends} {ids : N → ChainId} {w w' : World N}

/-! ### One step -/

/-- What was signed and is the message of a transaction was signed as this transaction. -/
theorem Inv.origin (hw : Inv ids w) {key : Key} {i : N} {tx : Transaction} {record : Observations Bytes}
    (h : w.Signed key ((ids i).message record tx)) : ∃ e ∈ w.signings, Origin ids e ⟨key, i, record, tx⟩ := by
  rcases h with ⟨e, he, hkey, hmessage⟩ | hother
  · rw [hw.signings e he] at hmessage
    obtain ⟨htx, hform, hid⟩ := ChainId.eq_of_message hmessage
    exact ⟨e, he, hkey, htx, hform, fun hv => hid (hform.trans hv)⟩
  · obtain ⟨d, hd, hprefix⟩ := hw.others _ hother
    exact absurd hprefix (ChainId.not_reserved hd)

theorem Inv.sign (hw : Inv ids w) {e : Signing N} (he : e.message = (ids e.network).message e.view e.tx) :
    Inv ids { w with signings := e :: w.signings } where
  signings := List.forall_mem_cons.mpr ⟨he, hw.signings⟩
  others := hw.others
  accepted a ha := by
    obtain ⟨e', he', horigin⟩ := hw.accepted a ha
    exact ⟨e', List.mem_cons_of_mem _ he', horigin⟩
  records := hw.records
  order := hw.order

theorem Inv.accept (hw : Inv ids w) {a : Acceptance N} (ha : ∃ e ∈ w.signings, Origin ids e a)
    (hr : a.record = w.record a.network) : Inv ids { w with accepted := a :: w.accepted } where
  signings := hw.signings
  others := hw.others
  accepted := List.forall_mem_cons.mpr ⟨ha, hw.accepted⟩
  records := List.forall_mem_cons.mpr ⟨hr ▸ List.suffix_rfl, hw.records⟩
  order := by
    refine List.pairwise_cons.mpr ⟨fun older ho hn => ?_, hw.order⟩
    rw [hr, hn]
    exact hw.records older ho

theorem inv_start (record : N → Observations Bytes) : Inv ids (start record) where
  signings _ h := absurd h List.not_mem_nil
  others _ h := absurd h List.not_mem_nil
  accepted _ h := absurd h List.not_mem_nil
  records _ h := absurd h List.not_mem_nil
  order := List.Pairwise.nil

variable [DecidableEq N]

theorem Inv.upgrade (hw : Inv ids w) (i : N) (name : Option Bytes) (height : Int) :
    Inv ids { w with record := Function.update w.record i ((name, height) :: w.record i) } := by
  refine { hw with records := fun a ha => (hw.records a ha).trans ?_ }
  by_cases hi : a.network = i
  · subst hi
    simp only [Function.update_self]
    exact List.suffix_cons _ _
  · simp only [Function.update_of_ne hi]
    exact List.suffix_rfl

/-- **One step** keeps the invariant. -/
theorem Inv.step (hlib : lib.Compute V) (hw : Inv ids w) (h : Step V lib ids w w') : Inv ids w' := by
  cases h with
  | upgrade i name height => exact hw.upgrade i name height
  | sign key i hview x hx hout => exact hw.sign (hx.out_eq hout)
  | signOther key hd hm => exact { hw with others := List.forall_mem_cons.mpr ⟨⟨_, hd, hm⟩, hw.others⟩ }
  | submit key i y hy hout sig hforge hv =>
    split
    · rename_i hvalid
      have hsigned := hforge ((hv.eq_verdict hlib).symm.trans hvalid)
      rw [hy.out_eq hout] at hsigned
      exact hw.accept (hw.origin hsigned) rfl
    · exact hw

/-- **Every run** keeps the invariant. -/
theorem Happens.inv (hlib : lib.Compute V) {record : N → Observations Bytes} (h : Happens V lib ids record w) :
    Inv ids w := by
  induction h with
  | refl => exact inv_start record
  | tail _ hstep ih => exact ih.step hlib hstep

end World

/-! ## Results -/

open World

variable [DecidableEq N]

/-- **What is accepted was signed**: behind every accepted transaction is a wallet that has signed this transaction with
this key, for this network in the v2 form, or in the v1 form for a legacy network of which it had seen no switch, by a
legacy network that had not switched. -/
theorem accepted_was_signed (V : Fips204) {lib : Backends} (hlib : lib.Compute V) (ids : N → ChainId)
    (record : N → Observations Bytes) {w : World N} (h : Happens V lib ids record w) :
    ∀ a ∈ w.accepted, ∃ e ∈ w.signings, e.key = a.key ∧ e.tx = a.tx ∧
      ((ids e.network).form e.view = .v2 ∧ (ids a.network).form a.record = .v2 ∧
          (ids e.network).bytes = (ids a.network).bytes ∨
        (ids e.network).bytes ∈ legacyIds ∧ observed upgrades e.view = false ∧
          (ids a.network).bytes ∈ legacyIds ∧ observed upgrades a.record = false) := by
  intro a ha
  obtain ⟨e, he, horigin⟩ := (h.inv hlib).accepted a ha
  refine ⟨e, he, horigin.key, horigin.tx, ?_⟩
  cases hv : (ids a.network).form a.record with
  | v2 => exact .inl ⟨horigin.form.trans hv, rfl, horigin.network hv⟩
  | v1 =>
    obtain ⟨hla, hoa⟩ := rule_eq_v1.mp hv
    obtain ⟨hle, hoe⟩ := rule_eq_v1.mp (horigin.form.trans hv)
    exact .inr ⟨List.contains_iff_mem.mp hle, hoe, List.contains_iff_mem.mp hla, hoa⟩

/-- **One way**: a network that has accepted a v2 transaction accepts v2 transactions only. -/
theorem accepted_one_way (V : Fips204) {lib : Backends} (hlib : lib.Compute V) (ids : N → ChainId)
    (record : N → Observations Bytes) {w : World N} (h : Happens V lib ids record w) :
    w.accepted.Pairwise fun newer older => newer.network = older.network →
      (ids older.network).form older.record = .v2 → (ids newer.network).form newer.record = .v2 := by
  refine (h.inv hlib).order.imp fun {newer older} hle hn hv => ?_
  rw [hn]
  exact ChainId.form_mono (hle hn) hv

/-! ### A legacy network that switches -/

/-- The chain id of the legacy main network. -/
def vladi : ChainId := ⟨utf8 "qorechain-vladi".toList, by decide, by decide⟩

/-- A small transaction. -/
def smallTx : Transaction := ⟨[7], [9], by decide, by decide⟩

/-- A Go client of this network, with the heights that a record gives. -/
def goClient (record : Observations Bytes) : Context .go :=
  ⟨vladi.bytes, greatest record, smallTx.b0, smallTx.auth, trivial, smallTx.b0_short, smallTx.auth_short⟩

theorem goClient_frames (record : Observations Bytes) : Frames (goClient record) vladi record smallTx :=
  ⟨rfl, fun _ _ => rfl, rfl, rfl⟩

theorem goClient_out (record : Observations Bytes) : ∃ bs, (goClient record).out = .bytes bs := by
  have hroom (v : Version) : Binding.go.Room ((goClient record).size v) := by
    cases v with
    | v1 => exact ⟨show 10 ≤ Go.maxInt by decide, trivial⟩
    | v2 => exact ⟨show 56 ≤ Go.maxInt by decide, trivial⟩
  exact ⟨_, Context.out_of_room vladi.nonempty trivial (hroom _)⟩

/-- A run of this network: a transaction is signed and accepted before an upgrade, and again after it. -/
theorem happens_switch : ∃ w : World Unit, Happens MlDsa.Standard.ones.verify (.reference MlDsa.Standard.ones.verify)
    (fun _ => vladi) (fun _ => []) w ∧ w.accepted.map (fun a => vladi.form a.record) = [.v2, .v1] := by
  let S := MlDsa.Standard.ones
  let ids : Unit → ChainId := fun _ => vladi
  let seed := Sized.zeros 32
  let key : Key := ⟨.l44, (S.keygen .l44 seed).1.1⟩
  let sign (m : Bytes) : Bytes := (S.signDeterministic .l44 (S.keygen .l44 seed).2 m).1
  let record : Observations Bytes := [(some (utf8 "v3.1.98".toList), 5)]
  have hvalid (m : Bytes) : S.verify.verdict key.level key.publicKey m (sign m) = true := S.verdict_sign .l44 seed m _
  have hgo (m : Bytes) : Checks (.reference S.verify) key.level key.publicKey m (sign m) true := by
    rw [← hvalid m, ← Go.verify_eq (Backends.reference_circl S.verify .l44) key.publicKey m (sign m)]
    exact .go
  obtain ⟨bs, hout⟩ := goClient_out []
  obtain ⟨bs', hout'⟩ := goClient_out record
  have h : Happens S.verify (.reference S.verify) ids (fun _ => []) (start _) := .refl
  replace h := h.tail (.sign key () List.suffix_rfl (goClient []) (goClient_frames []) hout)
  replace h := h.tail (.submit key () (goClient []) (goClient_frames []) hout (sign bs)
    (fun _ => .inl ⟨_, List.mem_cons_self, rfl, rfl⟩) (hgo bs))
  replace h := h.tail (.upgrade () (some (utf8 "v3.1.98".toList)) 5)
  replace h := h.tail (.sign key () List.suffix_rfl (goClient record) (goClient_frames record) hout')
  replace h := h.tail (.submit key () (goClient record) (goClient_frames record) hout' (sign bs')
    (fun _ => .inl ⟨_, List.mem_cons_self, rfl, rfl⟩) (hgo bs'))
  refine ⟨_, h, ?_⟩
  simp only [if_true]
  decide

/-- `accepted_was_signed` in this run. -/
theorem accepted_was_signed_switch : ∃ w : World Unit, w.accepted.length = 2 ∧ ∀ a ∈ w.accepted, ∃ e ∈ w.signings,
    e.key = a.key ∧ e.tx = a.tx := by
  obtain ⟨w, h, hforms⟩ := happens_switch
  refine ⟨w, ?_, fun a ha => ?_⟩
  · have hlen := congrArg List.length hforms
    rwa [List.length_map] at hlen
  · obtain ⟨e, he, hkey, htx, -⟩ := accepted_was_signed _ (Backends.reference_compute _) _ _ h a ha
    exact ⟨e, he, hkey, htx⟩

/-- `accepted_one_way` in this run. -/
theorem accepted_one_way_switch : ∃ w : World Unit, w.accepted.map (fun a => vladi.form a.record) = [.v2, .v1] ∧
    w.accepted.Pairwise fun newer older => newer.network = older.network →
      vladi.form older.record = .v2 → vladi.form newer.record = .v2 := by
  obtain ⟨w, h, hforms⟩ := happens_switch
  exact ⟨w, hforms, accepted_one_way _ (Backends.reference_compute _) _ _ h⟩

end QorechainPqc
