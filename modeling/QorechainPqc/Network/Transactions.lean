import QorechainPqc.Keys.Agreement
import QorechainPqc.Network.World

/-!
# Transactions from key to verdict

A wallet frames a transaction with some binding and signs it with some binding, with a key pair that some binding has
made; the network frames what is submitted to it with some binding. Every verifier accepts the signature, unless the
wallet has missed the switch of a legacy network; then the message of the network is another one
(`transaction_accepted`).
-/

namespace QorechainPqc

open Detect Text Binding

/-- A wallet has missed that a legacy network has switched. -/
def Missed (id : ChainId) (view record : Observations Bytes) : Prop :=
  id.bytes ∈ legacyIds ∧ observed upgrades view = false ∧ observed upgrades record = true

/-- With an older record, the form is another one just if a switch was missed. -/
theorem ChainId.form_ne_iff {id : ChainId} {view record : Observations Bytes} (h : view <:+ record) :
    id.form view ≠ id.form record ↔ Missed id view record := by
  have hmono : observed upgrades view = true → observed upgrades record = true :=
    observed_mono fun _ height hm => ⟨height, h.mem hm, le_rfl⟩
  unfold ChainId.form Missed
  rw [← List.contains_iff_mem]
  cases hv : observed upgrades view with
  | true =>
    rw [hmono hv]
    exact iff_of_false (not_not_intro rfl) nofun
  | false => cases legacyIds.contains id.bytes <;> cases observed upgrades record <;> decide

variable {S : MlDsa.Standard} {K : MlKem.Standard} {X : Shake256}

/-- **From key to verdict**: a transaction that is framed for a network with an older record of it, and signed, gives a
signature that every verifier accepts on the message that the network frames, unless a switch was missed. If one was
missed, the network frames another message. -/
theorem transaction_accepted (L : Libraries S K X) (sys : Bytes → Prop) {bs : Backends}
    (hbs : bs.Compute S.verify) {b b' : Binding} {x : Context b} {y : Context b'} {id : ChainId}
    {view record : Observations Bytes} {tx : Transaction} (hx : Frames x id view tx) (hy : Frames y id record tx)
    (hview : view <:+ record) {m m' : Bytes} (hm : x.out = .bytes m) (hm' : y.out = .bytes m') :
    (¬Missed id view record → ∀ l pk sk sig,
      Keypair L sys l pk sk ∧ Signed L sys l sk m sig ∨ JavaKeypair L l pk sk ∧ JavaSigned L l sk m sig →
        Accepted bs l pk m' sig) ∧
    (Missed id view record → m ≠ m') := by
  have hmessage : m = id.message view tx := hx.out_eq hm
  have hmessage' : m' = id.message record tx := hy.out_eq hm'
  constructor
  · intro hseen l pk sk sig hsig
    have hform : id.form view = id.form record := not_not.mp fun hne => hseen ((ChainId.form_ne_iff hview).mp hne)
    have hsame : m' = m := by
      rw [hmessage, hmessage', ChainId.message, ChainId.message, hform]
    rw [hsame]
    rcases hsig with ⟨hkey, hsigned⟩ | ⟨hkey, hsigned⟩
    · exact hsigned.accepted hbs hkey
    · exact hsigned.accepted hbs hkey
  · intro hmissed hsame
    rw [hmessage, hmessage'] at hsame
    exact (ChainId.form_ne_iff hview).mpr hmissed (ChainId.eq_of_message hsame).2.1

/-- `transaction_accepted` for a Go client that has seen no upgrade, before and after the switch of its network. -/
theorem transaction_accepted_go :
    (∃ m sig, (goClient []).out = .bytes m ∧
      Accepted (.reference MlDsa.Standard.ones.verify) .l44 (Sized.fill 1312 (Sized.zeros 32).1).1 m sig) ∧
    ∃ m m', (goClient []).out = .bytes m ∧ (goClient [(some (utf8 "v3.1.98".toList), 5)]).out = .bytes m' ∧ m ≠ m' := by
  let L := Libraries.reference .ones .coins fun _ _ => 0
  let sys : Bytes → Prop := fun _ => True
  let record : Observations Bytes := [(some (utf8 "v3.1.98".toList), 5)]
  obtain ⟨m, hm⟩ := goClient_out []
  obtain ⟨m', hm'⟩ := goClient_out record
  constructor
  · have hkey : Keypair L sys .l44 (MlDsa.Standard.ones.keygen .l44 (.zeros 32)).1.1
        (MlDsa.Standard.ones.keygen .l44 (.zeros 32)).2.1 :=
      .goSeed (.zeros 32) (Go.keygenFromSeed_eq L.go_follows .l44 (.zeros 32))
    have hsigned : Signed L sys .l44 (MlDsa.Standard.ones.keygen .l44 (.zeros 32)).2.1 m
        (MlDsa.Standard.ones.signDeterministic .l44 (MlDsa.Standard.ones.keygen .l44 (.zeros 32)).2 m).1 :=
      .go (Go.sign_eq L.go_follows .l44 (.zeros 32) m)
    have hseen : ¬Missed vladi [] [] := fun h => absurd h.2.2 (by decide)
    have haccepted := transaction_accepted L sys (Backends.reference_compute _) (goClient_frames [])
      (goClient_frames []) List.suffix_rfl hm hm
    exact ⟨m, _, hm, haccepted.1 hseen .l44 _ _ _ (.inl ⟨hkey, hsigned⟩)⟩
  · have hmissed : Missed vladi [] record := ⟨by decide, by decide, by decide⟩
    exact ⟨m, m', hm, hm', (transaction_accepted L sys (Backends.reference_compute _) (goClient_frames [])
      (goClient_frames record) List.nil_suffix hm hm').2 hmissed⟩

end QorechainPqc
