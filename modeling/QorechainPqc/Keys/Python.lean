import QorechainPqc.Keys.Liboqs

/-!
# What the Python binding hands to liboqs

liboqs-python passes pointers on to C, where liboqs reads a fixed number of bytes from each. The methods therefore check
all keys, signatures and ciphertexts before anything else, and hold the liboqs object of a call in a `with` block.

`called_exactly`: in every run of every call, wherever an exception may land, liboqs is asked with the algorithm of the
object, with what `bytes` made of the arguments, of the exact sizes as `len` reports them, and on a liboqs object that
is there. At the end that object has been freed, unless an exception has landed between its construction and the `with`
block or while it was freed. The first argument that is not as demanded is refused before liboqs, or the lock, is asked
for anything.
-/

namespace QorechainPqc.Python

open Failing Program MonadExcept

/-! ## The liboqs object of a call -/

/-- An object of liboqs-python. -/
inductive Object
  | signature (s : Signature)
  | kem (k : KeyEncapsulation)

/-- What has become of the object of a call: whether there is one, whether its `with` block is still to be entered, and
whether an exception has landed there or in the call that frees it. -/
structure Custody where
  live : Option Object
  fresh : Bool
  lost : Bool

namespace Custody

/-- Before there is an object, and after it has been freed. -/
def closed : Custody := ⟨none, false, false⟩

/-- In the `with` block. -/
def inside (o : Object) : Custody := ⟨some o, false, false⟩

/-- What a request does to the object. -/
def next : ∀ q : Req, Refusable Exn Res q → Custody → Custody
  | .signatureNew s, .ok _, g => { g with live := some (.signature s), fresh := true }
  | .kemNew k, .ok _, g => { g with live := some (.kem k), fresh := true }
  | .signatureFree _, .ok _, g => { g with live := none }
  | .kemFree _, .ok _, g => { g with live := none }
  | .signatureFree _, .error _, g => { g with lost := true }
  | .kemFree _, .error _, g => { g with lost := true }
  | .boundary .body, .ok _, g => { g with fresh := false }
  | .boundary .body, .error _, g => { g with fresh := false, lost := g.lost || g.fresh }
  | _, _, g => g

/-- The object has been freed, or was lost. -/
def Settled (g : Custody) : Prop := g.fresh = false ∧ (g.live = none ∨ g.lost = true)

theorem settled_closed : closed.Settled := ⟨rfl, .inl rfl⟩

end Custody

/-- The algorithm and the sizes of the object whose method is called; the last is that of a signature or ciphertext. -/
structure Shape where
  alg : Str
  publicKey : Nat
  secretKey : Nat
  output : Nat

/-- An object that comes from an argument, and reports the length. -/
def Handed (given : BytesObject → Prop) (b : BytesObject) (n : Nat) : Prop := given b ∧ b.len = .ok n

/-- What liboqs relies on when it is asked for something, with the liboqs object that there is and with what `bytes`
made of the arguments. -/
def Req.Exact (x : Shape) (given : BytesObject → Prop) (live : Option Object) : Req → Prop
  | .signatureNew s => live = none ∧ s.alg = x.alg ∧ ∀ sk ∈ s.secretKey, Handed given sk x.secretKey
  | .signatureFree s => live = some (.signature s)
  | .generateKeypair s => live = some (.signature s)
  | .exportSecretKey s => live = some (.signature s)
  | .sign s message => live = some (.signature s) ∧ s.secretKey ≠ none ∧ given message
  | .verify s message signature publicKey =>
    live = some (.signature s) ∧ given message ∧ Handed given signature x.output ∧ Handed given publicKey x.publicKey
  | .kemNew k => live = none ∧ k.alg = x.alg ∧ ∀ sk ∈ k.secretKey, Handed given sk x.secretKey
  | .kemFree k => live = some (.kem k)
  | .kemGenerateKeypair k => live = some (.kem k)
  | .kemExportSecretKey k => live = some (.kem k)
  | .encapSecret k publicKey => live = some (.kem k) ∧ Handed given publicKey x.publicKey
  | .decapSecret k ciphertext => live = some (.kem k) ∧ k.secretKey ≠ none ∧ Handed given ciphertext x.output
  | _ => True

/-- Every request is exact; any answer may come. -/
def custody (x : Shape) (given : BytesObject → Prop) : Logic Req (Refusable Exn Res) Custody where
  pre q g := q.Exact x given g.live
  ok _ _ := True
  next := Custody.next

section Blocks

variable {x : Shape} {given : BytesObject → Prop} {g : Custody} {α : Type} {block : Py α}

/-- Requests that have nothing to do with the object. -/
def Req.Outer : Req → Prop
  | .boundary p => p ≠ .body
  | .lockAcquire | .lockRelease | .customZero | .switchSystem => True
  | _ => False

theorem stays_outer {q : Req} (hq : q.Outer) : Raising.Stays (custody x given) g (call q) := by
  cases q with
  | boundary p =>
    refine Raising.stays_ask trivial fun a _ => ?_
    cases p with
    | body => exact absurd rfl hq
    | _ => rfl
  | lockAcquire => exact Raising.stays_ask trivial fun _ _ => rfl
  | lockRelease => exact Raising.stays_ask trivial fun _ _ => rfl
  | customZero => exact Raising.stays_ask trivial fun _ _ => rfl
  | switchSystem => exact Raising.stays_ask trivial fun _ _ => rfl
  | _ => exact absurd hq id

/-- In the `with` block an exception does not lose the object. -/
theorem stays_body {o : Object} : Raising.Stays (custody x given) (.inside o) (call (.boundary .body)) :=
  Raising.stays_ask trivial fun a _ => by cases a <;> rfl

/-- `p` leaves the object settled, whatever way it is left. -/
def Settles (x : Shape) (given : BytesObject → Prop) (g : Custody) (p : Py α) : Prop :=
  p.ewp (custody x given) (fun _ => Custody.Settled) (fun _ => Custody.Settled) g

theorem settles_withLock (hg : g.Settled) (hblock : Settles x given g block) : Settles x given g (withLock block) := by
  have hentry : Raising.Stays (custody x given) g (call (.boundary .entry)) := stays_outer (by simp [Req.Outer])
  have hacquire : Raising.Stays (custody x given) g (call .lockAcquire) := stays_outer trivial
  have hlocked : Raising.Stays (custody x given) g (call (.boundary .locked)) := stays_outer (by simp [Req.Outer])
  have hrelease (g' : Custody) : Raising.Stays (custody x given) g' (call .lockRelease) := stays_outer trivial
  have hunlocked (g' : Custody) : Raising.Stays (custody x given) g' (call (.boundary .unlocked)) :=
    stays_outer (by simp [Req.Outer])
  -- the lock is released on every way out, and with it nothing changes
  have hraise (g' : Custody) (hg' : g'.Settled) : (call .lockRelease).ewp (custody x given) (fun _ => Custody.Settled)
      (fun _ => Custody.Settled) g' :=
    Raising.ewp_mono (hrelease g') (fun _ _ h => h ▸ hg') fun _ _ h => h ▸ hg'
  refine hentry.ewp_bind (fun _ => hacquire.ewp_bind (fun _ => ?_) fun _ => hg) fun _ => hg
  refine Raising.ewp_bind.mpr (Raising.ewp_tryFinally.mpr ?_)
  refine hlocked.ewp_bind (fun _ => ?_) fun _ => hraise g hg
  refine Raising.ewp_mono hblock (fun a g' hg' => ?_) fun _ g' hg' => hraise g' hg'
  refine Raising.ewp_mono (hrelease g') (fun _ g'' h => ?_) fun _ _ h => h ▸ hg'
  subst h
  exact (hunlocked g'').ewp_bind (fun _ => hg') fun _ => hg'

theorem settles_withSignature {s : Signature} (halg : s.alg = x.alg)
    (hsk : ∀ sk ∈ s.secretKey, Handed given sk x.secretKey)
    (hblock : Raising.Stays (custody x given) (.inside (.signature s)) block) :
    Settles x given .closed (withSignature s block) := by
  refine Raising.ewp_bind.mpr (Raising.ewp_ask.mpr ⟨⟨rfl, halg, hsk⟩, fun _ _ => ?_, fun _ _ => ?_⟩)
  · refine Raising.ewp_bind.mpr (Raising.ewp_ask.mpr ⟨trivial, fun _ _ => ?_, fun _ _ => ⟨rfl, .inr rfl⟩⟩)
    have hfree : (call (.signatureFree s)).ewp (custody x given) (fun _ => Custody.Settled) (fun _ => Custody.Settled)
        (.inside (.signature s)) :=
      Raising.ewp_ask.mpr ⟨rfl, fun _ _ => Custody.settled_closed, fun _ _ => ⟨rfl, .inr rfl⟩⟩
    exact hblock.ewp_tryFinally (fun _ => hfree) fun _ => hfree
  · exact Custody.settled_closed

theorem settles_withKem {k : KeyEncapsulation} (halg : k.alg = x.alg)
    (hsk : ∀ sk ∈ k.secretKey, Handed given sk x.secretKey)
    (hblock : Raising.Stays (custody x given) (.inside (.kem k)) block) :
    Settles x given .closed (withKem k block) := by
  refine Raising.ewp_bind.mpr (Raising.ewp_ask.mpr ⟨⟨rfl, halg, hsk⟩, fun _ _ => ?_, fun _ _ => ?_⟩)
  · refine Raising.ewp_bind.mpr (Raising.ewp_ask.mpr ⟨trivial, fun _ _ => ?_, fun _ _ => ⟨rfl, .inr rfl⟩⟩)
    have hfree : (call (.kemFree k)).ewp (custody x given) (fun _ => Custody.Settled) (fun _ => Custody.Settled)
        (.inside (.kem k)) :=
      Raising.ewp_ask.mpr ⟨rfl, fun _ _ => Custody.settled_closed, fun _ _ => ⟨rfl, .inr rfl⟩⟩
    exact hblock.ewp_tryFinally (fun _ => hfree) fun _ => hfree
  · exact Custody.settled_closed

/-- A request to the object that is there. -/
theorem stays_use {o : Object} {q : Req} (hq : q.Exact x given (some o)) (hnext : ∀ a g, Custody.next q a g = g) :
    Raising.Stays (custody x given) (.inside o) (call q) :=
  Raising.stays_ask hq fun a _ => hnext a _

/-- A `finally` block that has nothing to do with the object. -/
theorem settles_tryFinally {fin : Py Unit} (hblock : Settles x given g block)
    (hfin : ∀ g, Raising.Stays (custody x given) g fin) : Settles x given g (tryFinally block fin) := by
  refine Raising.ewp_tryFinally.mpr (Raising.ewp_mono hblock (fun _ g' hg' => ?_) fun _ g' hg' => ?_)
  · exact Raising.ewp_mono (hfin g') (fun _ _ h => h ▸ hg') fun _ _ h => h ▸ hg'
  · exact Raising.ewp_mono (hfin g') (fun _ _ h => h ▸ hg') fun _ _ h => h ▸ hg'

end Blocks

/-! ## The methods -/

section Methods

variable {x : Shape} {given : BytesObject → Prop}

def MlDsa.shape (self : MlDsa) : Shape := ⟨self.alg, self.publicKeyLen, self.secretKeyLen, self.signatureLen⟩

def MlKem.shape (self : MlKem) : Shape := ⟨self.alg, self.publicKeyLen, self.secretKeyLen, self.ciphertextLen⟩

theorem settles_keygen (self : MlDsa) : Settles self.shape given .closed self.keygen :=
  settles_withLock Custody.settled_closed (settles_withSignature rfl nofun
    (stays_results (stays_use rfl fun _ _ => rfl) (stays_use rfl fun _ _ => rfl) stays_body))

theorem settles_kemKeygen (self : MlKem) : Settles self.shape given .closed self.keygen :=
  settles_withLock Custody.settled_closed (settles_withKem rfl nofun
    (stays_results (stays_use rfl fun _ _ => rfl) (stays_use rfl fun _ _ => rfl) stays_body))

theorem settles_signWith {sk message : BytesObject} {alg : Str} (halg : alg = x.alg)
    (hsk : Handed given sk x.secretKey) (hm : given message) :
    Settles x given .closed (MlDsa.signWith ⟨alg, some sk⟩ message) := by
  refine settles_withSignature halg (fun k hk => ?_)
    (stays_result (stays_use ⟨rfl, nofun, hm⟩ fun _ _ => rfl) stays_body)
  obtain rfl := Option.some.inj hk
  exact hsk

theorem settles_signDeterministic {sk message : BytesObject} {alg : Str} (halg : alg = x.alg)
    (hsk : Handed given sk x.secretKey) (hm : given message) :
    Settles x given .closed (MlDsa.signDeterministic ⟨alg, some sk⟩ message) := by
  have hzero : Raising.Stays (custody x given) .closed (call .customZero) := stays_outer trivial
  have hzeroed : Raising.Stays (custody x given) .closed (call (.boundary .zeroed)) := stays_outer (by simp [Req.Outer])
  refine settles_withLock Custody.settled_closed ?_
  refine hzero.ewp_bind (fun _ => ?_) fun _ => Custody.settled_closed
  refine hzeroed.ewp_bind (fun _ => ?_) fun _ => Custody.settled_closed
  refine settles_tryFinally (settles_signWith halg hsk hm) fun g => ?_
  have hrestoring : Raising.Stays (custody x given) g (call (.boundary .restoring)) := stays_outer (by simp [Req.Outer])
  have hswitch : Raising.Stays (custody x given) g (call .switchSystem) := stays_outer trivial
  have hrestored : Raising.Stays (custody x given) g (call (.boundary .restored)) := stays_outer (by simp [Req.Outer])
  exact hrestoring.bind fun _ => hswitch.bind fun _ => hrestored

/-- A check in front of the rest. -/
theorem settles_ofExcept {α β : Type} {r : Except Exn β} {f : β → Py α}
    (h : ∀ b, r = .ok b → Settles x given .closed (f b)) : Settles x given .closed (ofExcept r >>= f) := by
  cases r with
  | ok b => exact h b rfl
  | error e => exact Custody.settled_closed

theorem settles_sign (self : MlDsa) (secretKey message : Arg) (hedged : Bool) :
    Settles self.shape (fun b => Arg.bytesLike (.ok b) ∈ [secretKey, message]) .closed
      (self.sign secretKey message hedged) := by
  refine settles_ofExcept fun sk hsk => settles_ofExcept fun m hm => ?_
  obtain ⟨rfl, hlen⟩ := requireBytes_eq_ok hsk
  obtain ⟨rfl, -⟩ := requireBytes_eq_ok hm
  have hsk : Handed (fun b => Arg.bytesLike (.ok b) ∈ [.bytesLike (.ok sk), .bytesLike (.ok m)]) sk self.secretKeyLen :=
    ⟨.head _, hlen _ rfl⟩
  have hm : Arg.bytesLike (.ok m) ∈ [Arg.bytesLike (.ok sk), .bytesLike (.ok m)] := .tail _ (.head _)
  cases hedged with
  | true => exact settles_withLock Custody.settled_closed (settles_signWith rfl hsk hm)
  | false => exact settles_signDeterministic rfl hsk hm

theorem settles_encapsulate (self : MlKem) (publicKey : Arg) :
    Settles self.shape (fun b => Arg.bytesLike (.ok b) ∈ [publicKey]) .closed (self.encapsulate publicKey) := by
  refine settles_ofExcept fun pk hpk => ?_
  obtain ⟨rfl, hlen⟩ := requireBytes_eq_ok hpk
  have huse : Raising.Stays (custody self.shape fun b => Arg.bytesLike (.ok b) ∈ [.bytesLike (.ok pk)])
      (.inside (.kem ⟨self.alg, none⟩)) (call (.encapSecret ⟨self.alg, none⟩ pk)) :=
    stays_use ⟨rfl, .head _, hlen _ rfl⟩ fun _ _ => rfl
  exact settles_withLock Custody.settled_closed (settles_withKem rfl nofun (stays_result huse stays_body))

theorem settles_decapsulate (self : MlKem) (secretKey ciphertext : Arg) :
    Settles self.shape (fun b => Arg.bytesLike (.ok b) ∈ [secretKey, ciphertext]) .closed
      (self.decapsulate secretKey ciphertext) := by
  refine settles_ofExcept fun sk hsk => settles_ofExcept fun ct hct => ?_
  obtain ⟨rfl, hlen⟩ := requireBytes_eq_ok hsk
  obtain ⟨rfl, hlen'⟩ := requireBytes_eq_ok hct
  have huse : Raising.Stays
      (custody self.shape fun b => Arg.bytesLike (.ok b) ∈ [.bytesLike (.ok sk), .bytesLike (.ok ct)])
      (.inside (.kem ⟨self.alg, some sk⟩)) (call (.decapSecret ⟨self.alg, some sk⟩ ct)) :=
    stays_use ⟨rfl, nofun, .tail _ (.head _), hlen' _ rfl⟩ fun _ _ => rfl
  refine settles_withKem rfl (fun k hk => ?_) (stays_result huse stays_body)
  obtain rfl := Option.some.inj hk
  exact ⟨.head _, hlen _ rfl⟩

theorem len_of_badLengths {self : MlDsa} {pk sig : BytesObject} (h : self.badLengths pk sig = .ok false) :
    pk.len = .ok self.publicKeyLen ∧ sig.len = .ok self.signatureLen := by
  unfold MlDsa.badLengths at h
  obtain ⟨n, hn, h⟩ := bind_eq_ok.mp h
  by_cases hp : n = self.publicKeyLen
  · rw [if_neg (not_not_intro hp)] at h
    obtain ⟨m, hm, h⟩ := bind_eq_ok.mp h
    simp only [ne_eq, decide_not, pure_eq_ok, Except.ok.injEq, Bool.not_eq_eq_eq_not, Bool.not_false,
      decide_eq_true_eq] at h
    exact ⟨hp ▸ hn, h ▸ hm⟩
  · rw [if_pos hp] at h
    cases h

theorem settles_verify (self : MlDsa) (publicKey message signature : Arg) :
    Settles self.shape (fun b => Arg.bytesLike (.ok b) ∈ [publicKey, message, signature]) .closed
      (self.verify publicKey message signature) := by
  unfold MlDsa.verify
  split
  · rename_i c c' c''
    refine settles_ofExcept fun pk hpk => settles_ofExcept fun m hm => settles_ofExcept fun sig hsig => ?_
    subst hpk hm hsig
    refine settles_ofExcept fun bad hbad => ?_
    cases bad with
    | true => exact Custody.settled_closed
    | false =>
      obtain ⟨hlen, hlen'⟩ := len_of_badLengths hbad
      have huse : Raising.Stays (custody self.shape fun b =>
          Arg.bytesLike (.ok b) ∈ [.bytesLike (.ok pk), .bytesLike (.ok m), .bytesLike (.ok sig)])
          (.inside (.signature ⟨self.alg, none⟩)) (call (.verify ⟨self.alg, none⟩ m sig pk)) :=
        stays_use ⟨rfl, .tail _ (.head _), ⟨.tail _ (.tail _ (.head _)), hlen'⟩, .head _, hlen⟩ fun _ _ => rfl
      have hblock : Settles self.shape _ .closed (withSignature ⟨self.alg, none⟩ _) :=
        settles_withSignature rfl nofun (stays_result huse stays_body)
      refine Raising.ewp_tryCatch.mpr (Raising.ewp_mono hblock (fun _ _ hg => hg) fun e g hg => ?_)
      split
      · exact hg
      · exact hg
  all_goals exact Custody.settled_closed

end Methods

/-! ## What is demanded -/

/-- What a method demands of an argument: the method and the argument that the refusal names, the value, and the length
if there is one. -/
structure Demand where
  fn : Str
  arg : Str
  value : Arg
  len : Option Nat

/-- The check. -/
def Demand.check (d : Demand) : Except Exn BytesObject := requireBytes d.fn d.arg d.value d.len

/-- The value passes for a bytes-like object, can be read, and reports the length that is demanded. -/
def Demand.Met (d : Demand) : Prop := ∃ b, d.value = .bytesLike (.ok b) ∧ ∀ n ∈ d.len, b.len = .ok n

/-- A value that nothing which the check reads of it raises for. -/
def Arg.Plain (v : Arg) : Prop :=
  (∃ b n m, v = .bytesLike (.ok b) ∧ b.len = .ok n ∧ b.lenAgain = .ok m) ∨ ∃ typeName, v = .other (.ok typeName)

/-- The refusal of an argument: a `ValueError` whose text starts with the method and the argument. -/
def Demand.Refused (d : Demand) (e : Exn) : Prop :=
  ∃ text, e = .valueError (d.fn ++ str ": " ++ d.arg ++ str " must be " ++ text)

theorem str_append (a b : String) : str (a ++ b) = str a ++ str b := by
  simp only [str, Text.codePoints, String.toList_append, List.map_append]

theorem Demand.check_of_met {d : Demand} (h : d.Met) : ∃ b, d.check = .ok b := by
  obtain ⟨b, hb, hlen⟩ := h
  refine ⟨b, ?_⟩
  rw [check, hb]
  exact requireBytes_of_len hlen

theorem Demand.check_of_not_met {d : Demand} (h : ¬d.Met) :
    ∃ e, d.check = .error e ∧ (d.value.Plain → d.Refused e) := by
  obtain ⟨fn, arg, value, len⟩ := d
  have hbytes : str " must be bytes" = str " must be " ++ str "bytes" := str_append " must be " "bytes"
  have hexactly : str " must be exactly " = str " must be " ++ str "exactly " := str_append " must be " "exactly "
  cases hc : Demand.check ⟨fn, arg, value, len⟩ with
  | ok b => exact absurd ⟨b, requireBytes_eq_ok hc⟩ h
  | error e =>
    refine ⟨e, rfl, ?_⟩
    rintro (⟨b, n, m, rfl, hn, hm⟩ | ⟨typeName, rfl⟩)
    · cases len with
      | none => cases hc
      | some k =>
        have hk : n ≠ k := fun hk => h ⟨b, rfl, fun j hj => by rw [hn, hk, Option.some.inj hj]⟩
        simp only [check, requireBytes, ok_bind, hn, hm, ne_eq, hk, not_false_eq_true, if_true, throw_eq_error,
          Except.error.injEq] at hc
        refine ⟨str "exactly " ++ (dec k ++ str " bytes, got " ++ dec m), ?_⟩
        rw [← hc]
        simp only [hexactly, List.append_assoc]
    · cases len with
      | none =>
        cases hc
        refine ⟨str "bytes" ++ (str ", got " ++ typeName), ?_⟩
        simp only [hbytes, List.append_assoc, List.nil_append]
      | some n =>
        cases hc
        refine ⟨str "bytes" ++ (str " of " ++ dec n ++ str " bytes" ++ str ", got " ++ typeName), ?_⟩
        simp only [hbytes, List.append_assoc]

/-- A method that starts with some checks. -/
def Checks {α : Type} : List Demand → Py α → Prop
  | [], _ => True
  | d :: ds, p => ∃ f, p = (ofExcept d.check >>= f) ∧ ∀ b, Checks ds (f b)

/-- The first demand that is not met decides. -/
theorem Checks.throws {α : Type} {front back : List Demand} {d : Demand} {p : Py α}
    (h : Checks (front ++ d :: back) p) (hfront : ∀ d' ∈ front, d'.Met) {e : Exn} (he : d.check = .error e) :
    p = throw e := by
  induction front generalizing p with
  | nil =>
    obtain ⟨f, rfl, -⟩ := h
    rw [he]
    rfl
  | cons d' front ih =>
    obtain ⟨f, rfl, hf⟩ := h
    obtain ⟨b, hb⟩ := Demand.check_of_met (hfront d' List.mem_cons_self)
    rw [hb]
    exact ih (hf b) fun d'' hd'' => hfront d'' (List.mem_cons_of_mem d' hd'')

namespace Call

/-- The algorithm and the sizes of the object that is called. -/
def shape : Call → Shape
  | keygen self | sign self _ _ _ | verify self _ _ _ => self.shape
  | kemKeygen self | encapsulate self _ | decapsulate self _ _ => self.shape

/-- The arguments. -/
def arguments : Call → List Arg
  | keygen _ | kemKeygen _ => []
  | sign _ secretKey message _ => [secretKey, message]
  | verify _ publicKey message signature => [publicKey, message, signature]
  | encapsulate _ publicKey => [publicKey]
  | decapsulate _ secretKey ciphertext => [secretKey, ciphertext]

/-- What `bytes` makes of an argument. -/
def Gives (c : Call) (b : BytesObject) : Prop := .bytesLike (.ok b) ∈ c.arguments

/-- What the method demands of its arguments, in order. `verify` refuses nothing. -/
def demands : Call → List Demand
  | sign self secretKey message _ =>
    [⟨self.level ++ str ".sign", str "secret_key", secretKey, some self.secretKeyLen⟩,
      ⟨self.level ++ str ".sign", str "message", message, none⟩]
  | encapsulate self publicKey =>
    [⟨self.level ++ str ".encapsulate", str "public_key", publicKey, some self.publicKeyLen⟩]
  | decapsulate self secretKey ciphertext =>
    [⟨self.level ++ str ".decapsulate", str "secret_key", secretKey, some self.secretKeyLen⟩,
      ⟨self.level ++ str ".decapsulate", str "ciphertext", ciphertext, some self.ciphertextLen⟩]
  | keygen _ | verify _ _ _ _ | kemKeygen _ => []

/-- **Every method** settles its object, and refuses the first argument that is not as demanded. -/
theorem outcome_spec (c : Call) : ∃ (α : Type) (p : Py α) (f : α → Returned), c.outcome = Except.map f <$> p.run ∧
    Settles c.shape c.Gives .closed p ∧ Checks c.demands p := by
  cases c with
  | keygen self => exact ⟨_, _, _, rfl, settles_keygen self, trivial⟩
  | sign self sk m hedged =>
    exact ⟨_, _, _, rfl, settles_sign self sk m hedged, _, rfl, fun _ => ⟨_, rfl, fun _ => trivial⟩⟩
  | verify self pk m sig => exact ⟨_, _, _, rfl, settles_verify self pk m sig, trivial⟩
  | kemKeygen self => exact ⟨_, _, _, rfl, settles_kemKeygen self, trivial⟩
  | encapsulate self pk => exact ⟨_, _, _, rfl, settles_encapsulate self pk, _, rfl, fun _ => trivial⟩
  | decapsulate self sk ct =>
    exact ⟨_, _, _, rfl, settles_decapsulate self sk ct, _, rfl, fun _ => ⟨_, rfl, fun _ => trivial⟩⟩

end Call

/-- What has become of the object after some events. -/
def Custody.after (tr : List (Event Req (Refusable Exn Res))) : Custody :=
  tr.foldl (fun g e => Custody.next e.1 e.2 g) .closed

/-- **Called exactly**: in every run of every call, every request to liboqs is exact for the object that there is; that
object has been freed at the end, or was lost to an exception in front of its `with` block or in the call that frees it;
and the first argument that is not as demanded is refused with nothing asked. -/
theorem called_exactly {c : Call} {tr : List (Event Req (Refusable Exn Res))} {r : Except Exn Returned}
    (hr : Run (fun _ _ => True) c.outcome tr r) :
    (∀ a e b, tr = a ++ e :: b → e.1.Exact c.shape c.Gives (Custody.after a).live) ∧
    ((Custody.after tr).live = none ∨ (Custody.after tr).lost = true) ∧
    (∀ front d back, c.demands = front ++ d :: back → (∀ d' ∈ front, d'.Met) → ¬d.Met →
      tr = [] ∧ ∃ e, r = .error e ∧ (d.value.Plain → d.Refused e)) := by
  obtain ⟨α, p, f, hout, hsettles, hchecks⟩ := c.outcome_spec
  have hwp : c.outcome.wp (custody c.shape c.Gives) (fun _ => Custody.Settled) .closed := by
    rw [hout, map_eq_pure_bind, Prog.wp_bind]
    exact Raising.wp_run_iff_ewp.mpr hsettles
  refine ⟨fun a e b htr => hr.pre_of_append hwp htr, (hr.wp hwp).2, fun front d back hds hfront hd => ?_⟩
  obtain ⟨e, he, hrefused⟩ := Demand.check_of_not_met hd
  rw [hds] at hchecks
  rw [hout, hchecks.throws hfront he] at hr
  have hthrow : tr = [] ∧ r = .error e := by
    cases hr
    exact ⟨rfl, rfl⟩
  exact ⟨hthrow.1, e, hthrow.2, hrefused⟩

/-- The object of a key generation. -/
def keygenObject : Signature := ⟨str MlDsa.Level.l44.oqsName, none⟩

/-- A key generation that is interrupted when the object is there and the `with` block is not entered. -/
def interruptedKeygen : List (Event Req (Refusable Exn Res)) :=
  [⟨.boundary .entry, .ok ()⟩, ⟨.lockAcquire, .ok ()⟩, ⟨.boundary .locked, .ok ()⟩,
    ⟨.signatureNew keygenObject, .ok ()⟩, ⟨.boundary .body, .error .keyboardInterrupt⟩, ⟨.lockRelease, .ok ()⟩]

/-- `called_exactly` for it: the object is lost. -/
theorem called_exactly_interrupted :
    Run (fun _ _ => True) (Call.keygen (.ofLevel .l44)).outcome interruptedKeygen (.error .keyboardInterrupt) ∧
    (Custody.after interruptedKeygen).live = some (.signature keygenObject) ∧
    (Custody.after interruptedKeygen).lost = true := by
  have hr : Run (fun _ _ => True) (Call.keygen (.ofLevel .l44)).outcome interruptedKeygen
      (.error .keyboardInterrupt) := by
    refine .ask trivial (.ask trivial (.ask trivial ?_))
    exact .ask trivial (.ask trivial (.ask trivial (.ret _)))
  have hlive : (Custody.after interruptedKeygen).live = some (.signature keygenObject) := rfl
  refine ⟨hr, hlive, (called_exactly hr).2.1.resolve_left fun hnone => ?_⟩
  rw [hlive] at hnone
  cases hnone

end QorechainPqc.Python
