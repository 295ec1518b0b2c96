import QorechainPqc.Keys.Reference
import QorechainPqc.Liboqs.Python
import QorechainPqc.Verify.Js

/-!
# SHAKE-256 in the bindings

`shake256` and `pubkeyHash` of the six bindings, over what their libraries offer: an object that is written to and read
from (Go, Rust), a function (JavaScript), an object that gives its digest (Python), the objects of Bouncy Castle, and
the contexts of OpenSSL, whose results the C binding does not look at.

`same_digest` says that all of them give the same bytes, and that a hash of a public key is the beginning of the longer
digests of it. `C.shake256_silent` says what the C binding leaves in its output buffer, whatever fails.
-/

namespace QorechainPqc

open Program

/-! ## Go -/

namespace Go

/-- The SHAKE-256 of `golang.org/x/crypto/sha3`. -/
structure Sha3 where
  State : Type
  newShake256 : State
  write : State → Bytes → State
  read : State → Nat → Bytes × State

/-- `make([]byte, n)`. -/
def makeBytes (n : Int) : Except Fault Bytes := if n < 0 then .error .panic else .ok (List.replicate n.toNat 0)

/-- `Shake256`. -/
def shake256 (sha3 : Sha3) (data : Bytes) (outLen : Int) : Except Fault Bytes := do
  let out ← makeBytes outLen
  let h := sha3.newShake256
  let h := sha3.write h data
  let (out, _) := sha3.read h out.length
  return out

/-- `PubkeyHash`. -/
def pubkeyHash (sha3 : Sha3) (publicKey : Bytes) (length : Int) : Except Fault Bytes := shake256 sha3 publicKey length

end Go

/-! ## Rust -/

namespace Rust

/-- The SHAKE-256 of the crate `sha3`: a hasher, and the reader that it becomes. -/
structure Sha3 where
  Shake256 : Type
  Reader : Type
  default : Shake256
  update : Shake256 → Bytes → Shake256
  finalizeXof : Shake256 → Reader
  read : Reader → Nat → Bytes × Reader

/-- `shake256_xof`, into a slice of `out` bytes. -/
def shake256Xof (sha3 : Sha3) (data : Bytes) (out : Nat) : Bytes :=
  let h := sha3.default
  let h := sha3.update h data
  let reader := sha3.finalizeXof h
  (sha3.read reader out).1

/-- `shake256`. -/
def shake256 (sha3 : Sha3) (data : Bytes) : Bytes := shake256Xof sha3 data 32

/-- `pubkey_hash`. -/
def pubkeyHash (sha3 : Sha3) (publicKey : Bytes) (len : Nat) : Bytes := shake256Xof sha3 publicKey len

/-- `pubkey_hash20`. -/
def pubkeyHash20 (sha3 : Sha3) (publicKey : Bytes) : Bytes := shake256Xof sha3 publicKey 20

/-- The hasher and its reader as one object. -/
def Sha3.write (sha3 : Sha3) : sha3.Shake256 ⊕ sha3.Reader → Bytes → sha3.Shake256 ⊕ sha3.Reader
  | .inl h, data => .inl (sha3.update h data)
  | .inr reader, _ => .inr reader

/-- Reading makes a hasher a reader. -/
def Sha3.next (sha3 : Sha3) : sha3.Shake256 ⊕ sha3.Reader → Nat → Bytes × (sha3.Shake256 ⊕ sha3.Reader)
  | .inl h, n => ((sha3.read (sha3.finalizeXof h) n).1, .inr (sha3.read (sha3.finalizeXof h) n).2)
  | .inr reader, n => ((sha3.read reader n).1, .inr (sha3.read reader n).2)

end Rust

/-! ## JavaScript -/

namespace Js

/-- A parameter with a default. -/
def Value.orDefault (v : Value) (n : Nat) : Value := if v = .undefined then .number (.finite n) else v

/-- `shake256`, over `shake256(data, { dkLen })` of `@noble/hashes`. -/
def shake256 (nobleShake : Arg → Value → Except Stop Bytes) (data : Arg) (outLen : Value) : Except Stop Bytes :=
  nobleShake data (outLen.orDefault 32)

/-- `pubkeyHash`. -/
def pubkeyHash (nobleShake : Arg → Value → Except Stop Bytes) (publicKey : Arg) (len : Value) : Except Stop Bytes :=
  shake256 nobleShake publicKey (len.orDefault 20)

end Js

/-! ## Python -/

namespace Python

/-- `hashlib.shake_256` with the `digest` of its objects. -/
structure Hashlib where
  Shake : Type
  shake256 : Arg → Except Exn Shake
  digest : Shake → Int → Except Exn Bytes

/-- `shake256`; the default length is 32. -/
def shake256 (hashlib : Hashlib) (data : Arg) (outLen : Option Int) : Except Exn Bytes := do
  let h ← hashlib.shake256 data
  hashlib.digest h (outLen.getD 32)

/-- `pubkey_hash`; the default length is 20. -/
def pubkeyHash (hashlib : Hashlib) (publicKey : Arg) (length : Option Int) : Except Exn Bytes :=
  shake256 hashlib publicKey (some (length.getD 20))

end Python

/-! ## C -/

namespace C

/-- What is asked of OpenSSL; a context may be `NULL`. -/
inductive EvpReq
  /-- `EVP_MD_CTX_new`. -/
  | ctxNew
  /-- `EVP_DigestInit_ex(ctx, EVP_shake256(), NULL)`. -/
  | digestInit (ctx : Option Nat)
  | digestUpdate (ctx : Option Nat) (data : Bytes)
  /-- `EVP_DigestFinalXOF(ctx, out, out_len)`. -/
  | digestFinalXof (ctx : Option Nat) (outLen : Nat)
  /-- `EVP_MD_CTX_free`. -/
  | ctxFree (ctx : Option Nat)

/-- The answers: a context or `NULL`, whether a call has succeeded, and what the last one has written, if it has. -/
abbrev EvpAns : EvpReq → Type
  | .ctxNew => Option Nat
  | .digestInit _ => Bool
  | .digestUpdate _ _ => Bool
  | .digestFinalXof _ _ => Option Bytes
  | .ctxFree _ => Unit

/-- `request` with the type of answers of the question. -/
abbrev evp (q : EvpReq) : Prog EvpReq EvpAns (EvpAns q) := Prog.request q

/-- `qpqc_shake256`: what the output buffer holds afterwards, given what it holds before. -/
def qpqcShake256 (data out : Bytes) : Prog EvpReq EvpAns Bytes := do
  let ctx ← evp .ctxNew
  let _ ← evp (.digestInit ctx)
  let _ ← evp (.digestUpdate ctx data)
  let written ← evp (.digestFinalXof ctx out.length)
  evp (.ctxFree ctx)
  return written.getD out

/-- `qpqc_pubkey_hash`. -/
def qpqcPubkeyHash (pk out : Bytes) : Prog EvpReq EvpAns Bytes := qpqcShake256 pk out

/-! ### OpenSSL -/

/-- Contexts: without a digest, or at some stage of one. A freed one is `none`. -/
abbrev Contexts := List (Option (Option (Xof.Stage UInt8)))

/-- The context that a pointer refers to, if there is one. -/
def Contexts.get (cs : Contexts) (ctx : Option Nat) : Option (Nat × Option (Xof.Stage UInt8)) := do
  let i ← ctx
  let stage ← (← cs[i]?)
  return (i, stage)

@[simp] theorem Contexts.get_some {cs : Contexts} {i : Nat} {stage : Option (Xof.Stage UInt8)}
    (h : cs[i]? = some (some stage)) : cs.get (some i) = some (i, stage) := by
  simp [get, h]

variable (X : Shake256)

/-- The answers that are relied on, where there is memory for a context. Without one, and after a `NULL`, nothing is
known; a call that fails leaves the context without a digest. -/
def evpAnswer (luck : Bool) (cs : Contexts) : ∀ q, Option (EvpAns q × Contexts)
  | .ctxNew => some (some cs.length, cs ++ [some none])
  | .digestInit ctx => match cs.get ctx with
    | some (i, _) =>
      if luck then some (true, cs.set i (some (some (.absorbing [])))) else some (false, cs.set i (some none))
    | none => none
  | .digestUpdate ctx data => match cs.get ctx with
    | some (i, stage) => match luck, stage.bind (·.absorb data) with
      | true, some stage => some (true, cs.set i (some (some stage)))
      | _, _ => some (false, cs.set i (some none))
    | none => none
  | .digestFinalXof ctx n => match cs.get ctx with
    | some (i, stage) => match luck, stage with
      | true, some stage => some (some (stage.squeeze X n).1, cs.set i (some (some (stage.squeeze X n).2)))
      | _, _ => some (none, cs.set i (some none))
    | none => none
  | .ctxFree ctx => match cs.get ctx with
    | some (i, _) => some ((), cs.set i none)
    | none => none

/-- The machine of these contexts, where a call on a context may fail or not. -/
def contexts (mayFail : Bool) : Machine EvpReq EvpAns Contexts := .ofDraws fun d => evpAnswer X (d || !mayFail)

/-- OpenSSL: what it keeps, how it answers, and which contexts a state of it stands for. -/
structure Evp (mayFail : Bool) where
  State : Type
  machine : Machine EvpReq EvpAns State
  Holds : State → Contexts → Prop
  follows : machine.Refines (contexts X mayFail) Holds

/-- There is one. -/
def Evp.reference (mayFail : Bool) : Evp X mayFail := ⟨Contexts, contexts X mayFail, Eq, Machine.refines_refl _⟩

variable {X}

theorem twp_contexts (data out : Bytes) (cs : Contexts) :
    (qpqcShake256 data out).twp (contexts X true)
      (fun out' cs' => (out' = X.digest data out.length ∨ out' = out) ∧ cs' = cs ++ [none]) cs ∧
    (qpqcShake256 data out).twp (contexts X false)
      (fun out' cs' => out' = X.digest data out.length ∧ cs' = cs ++ [none]) cs := by
  unfold qpqcShake256
  constructor
  · simp [contexts, Prog.twp_request_ofDraws, evpAnswer]
  · simp [contexts, Prog.twp_request_ofDraws, evpAnswer]

/-- **A digest or nothing**: whatever calls on the context fail, `qpqc_shake256` does not say so; its buffer holds the
digest, or what it held before, and the context is freed. If none fails, it holds the digest. -/
theorem shake256_silent (data out : Bytes) :
    (∀ (E : Evp X true) state cs, E.Holds state cs → (qpqcShake256 data out).twp E.machine
      (fun out' state' => (out' = X.digest data out.length ∨ out' = out) ∧ E.Holds state' (cs ++ [none])) state) ∧
    (∀ (E : Evp X false) state cs, E.Holds state cs → (qpqcShake256 data out).twp E.machine
      (fun out' state' => out' = X.digest data out.length ∧ E.Holds state' (cs ++ [none])) state) := by
  constructor
  · intro E state cs hcs
    exact E.follows.twp (fun _ _ _ hr h => ⟨h.1, h.2 ▸ hr⟩) hcs (twp_contexts data out cs).1
  · intro E state cs hcs
    exact E.follows.twp (fun _ _ _ hr h => ⟨h.1, h.2 ▸ hr⟩) hcs (twp_contexts data out cs).2

end C

/-! ## All bindings -/

/-- Libraries that follow FIPS-202, for lengths that all of them take, and an OpenSSL that fails in nothing. -/
structure HashLibraries (S : MlDsa.Standard) (K : MlKem.Standard) (X : Shake256) where
  go : Go.Sha3
  go_follows : Xof.Follows X go.newShake256 go.write go.read
  rust : Rust.Sha3
  rust_follows : Xof.Follows X (.inl rust.default) rust.write rust.next
  noble : Js.Arg → Js.Value → Except Js.Stop Bytes
  noble_follows : ∀ b (n : Nat), n < 2 ^ 29 → noble (.bytes b) (.number (.finite n)) = .ok (X.digest b n)
  hashlib : Python.Hashlib
  hashlib_follows : ∀ b, ∃ h, hashlib.shake256 (.ofBytes b) = .ok h ∧
    ∀ n : Nat, n < 2 ^ 29 → hashlib.digest h n = .ok (X.digest b n)
  java : Java.Implementation S K X
  evp : C.Evp X false

variable {S : MlDsa.Standard} {K : MlKem.Standard} {X : Shake256} (L : HashLibraries S K X)

/-- Every binding gives the `n` bytes `d` for an input, by `shake256` and by `pubkeyHash`. -/
structure Hashed (data : Bytes) (n : Nat) (d : Bytes) : Prop where
  go : Go.shake256 L.go data n = .ok d ∧ Go.pubkeyHash L.go data n = .ok d
  rust : Rust.shake256Xof L.rust data n = d ∧ Rust.pubkeyHash L.rust data n = d
  js : Js.shake256 L.noble (.bytes data) (.number (.finite n)) = .ok d ∧
    Js.pubkeyHash L.noble (.bytes data) (.number (.finite n)) = .ok d
  python : Python.shake256 L.hashlib (.ofBytes data) (some n) = .ok d ∧
    Python.pubkeyHash L.hashlib (.ofBytes data) (some n) = .ok d
  java : L.java.Returns (Java.shake256 (some data) n) (· = d) ∧ L.java.Returns (Java.pubkeyHash (some data) n) (· = d)
  c : ∀ out : Bytes, out.length = n → ∀ state cs, L.evp.Holds state cs →
    (C.qpqcShake256 data out).twp L.evp.machine (fun out' _ => out' = d) state ∧
      (C.qpqcPubkeyHash data out).twp L.evp.machine (fun out' _ => out' = d) state

theorem Go.shake256_eq (data : Bytes) (n : Nat) : Go.shake256 L.go data n = .ok (X.digest data n) := by
  have hn : ¬(n : Int) < 0 := Int.not_lt.mpr (Int.natCast_nonneg n)
  have hmake : makeBytes n = .ok (List.replicate n 0) := by
    rw [makeBytes, if_neg hn, Int.toNat_natCast]
  have hdigest := L.go_follows.digest data n
  simp only [Go.shake256, hmake, Failing.ok_bind, List.length_replicate, hdigest]
  rfl

theorem Rust.shake256Xof_eq (data : Bytes) (n : Nat) : Rust.shake256Xof L.rust data n = X.digest data n :=
  L.rust_follows.digest data n

theorem Js.orDefault_number (n m : Nat) : (Value.number (.finite n)).orDefault m = .number (.finite n) := if_neg nofun

theorem Js.shake256_eq (data : Bytes) {n : Nat} (hn : n < 2 ^ 29) :
    Js.shake256 L.noble (.bytes data) (.number (.finite n)) = .ok (X.digest data n) := by
  rw [Js.shake256, orDefault_number]
  exact L.noble_follows data n hn

theorem Python.shake256_eq (data : Bytes) {n : Nat} (hn : n < 2 ^ 29) :
    Python.shake256 L.hashlib (.ofBytes data) (some n) = .ok (X.digest data n) := by
  obtain ⟨h, hnew, hdigest⟩ := L.hashlib_follows data
  rw [Python.shake256, hnew]
  exact hdigest n hn

/-- Every length that all libraries take. -/
theorem hashed (data : Bytes) {n : Nat} (hn : n < 2 ^ 29) : Hashed L data n (X.digest data n) where
  go := ⟨Go.shake256_eq L data n, Go.shake256_eq L data n⟩
  rust := ⟨Rust.shake256Xof_eq L data n, Rust.shake256Xof_eq L data n⟩
  js := by
    refine ⟨Js.shake256_eq L data hn, ?_⟩
    rw [Js.pubkeyHash, Js.orDefault_number]
    exact Js.shake256_eq L data hn
  python := ⟨Python.shake256_eq L data hn, Python.shake256_eq L data hn⟩
  java := ⟨L.java.returns (Java.shake256_eq data n), L.java.returns (Java.pubkeyHash_eq data n)⟩
  c out hout state cs hcs := by
    subst hout
    have hout' := Prog.twp_mono ((C.shake256_silent data out).2 L.evp state cs hcs) fun _ _ h => h.1
    exact ⟨hout', hout'⟩

/-- The defaults: 32 bytes, and 20 bytes of a public key. -/
structure HashedByDefault (data : Bytes) (d h : Bytes) : Prop where
  rust : Rust.shake256 L.rust data = d ∧ Rust.pubkeyHash20 L.rust data = h
  js : Js.shake256 L.noble (.bytes data) .undefined = .ok d ∧ Js.pubkeyHash L.noble (.bytes data) .undefined = .ok h
  python : Python.shake256 L.hashlib (.ofBytes data) none = .ok d ∧
    Python.pubkeyHash L.hashlib (.ofBytes data) none = .ok h

/-- **One hash**: all bindings give the same digest of every length, a shorter one is the beginning of a longer one, and
the hash of a public key is by default the beginning of its default digest. -/
theorem same_digest (data : Bytes) :
    (∀ n < 2 ^ 29, ∃ d, Hashed L data n d ∧ d.length = n) ∧
    (∀ m n d d', m ≤ n → n < 2 ^ 29 → Hashed L data m d → Hashed L data n d' → d = d'.take m) ∧
    (∃ d, HashedByDefault L data d (d.take 20) ∧ d.length = 32) := by
  have hunique {n : Nat} {d : Bytes} (hd : Hashed L data n d) : d = X.digest data n :=
    hd.rust.1.symm.trans (Rust.shake256Xof_eq L data n)
  refine ⟨fun n hn => ⟨_, hashed L data hn, X.length_digest data n⟩, fun m n d d' hm hn hd hd' => ?_, ?_⟩
  · rw [hunique hd, hunique hd', X.take_digest data hm]
  · have h32 : 32 < 2 ^ 29 := by decide
    have h20 : 20 < 2 ^ 29 := by decide
    have htake : (X.digest data 32).take 20 = X.digest data 20 := X.take_digest data (by decide)
    refine ⟨X.digest data 32, ⟨⟨?_, ?_⟩, ⟨?_, ?_⟩, ?_, ?_⟩, X.length_digest data 32⟩
    · exact Rust.shake256Xof_eq L data 32
    · exact (Rust.shake256Xof_eq L data 20).trans htake.symm
    · exact Js.shake256_eq L data h32
    · rw [htake]
      exact Js.shake256_eq L data h20
    · exact Python.shake256_eq L data h32
    · rw [htake]
      exact Python.shake256_eq L data h20

/-- Libraries that keep an object as its stage. -/
def HashLibraries.reference (S : MlDsa.Standard) (K : MlKem.Standard) (X : Shake256) : HashLibraries S K X where
  go :=
    { State := Xof.Stage UInt8
      newShake256 := .absorbing []
      write := fun h data => (h.absorb data).getD h
      read := fun h n => h.squeeze X n }
  go_follows := ⟨id, rfl, fun h data s hs => congrArg (Option.getD · h) hs, fun _ _ => ⟨rfl, rfl⟩⟩
  rust :=
    { Shake256 := Bytes
      Reader := Bytes × Nat
      default := []
      update := fun h data => h ++ data
      finalizeXof := fun h => (h, 0)
      read := fun r n => (X.slice r.1 r.2 n, (r.1, r.2 + n)) }
  rust_follows := by
    refine ⟨Sum.elim .absorbing fun r => .squeezing r.1 r.2, rfl, fun h data s hs => ?_, fun h n => ?_⟩
    · cases h with
      | inl h => exact Option.some.inj hs
      | inr r => exact absurd hs nofun
    · cases h with
      | inl h => exact ⟨rfl, congrArg (Xof.Stage.squeezing h) (Nat.zero_add n)⟩
      | inr r => exact ⟨rfl, rfl⟩
  noble
    | .bytes b, .number (.finite q) => .ok (X.digest b q.num.toNat)
    | _, _ => .error .typeError
  noble_follows _ _ _ := rfl
  hashlib :=
    { Shake := Bytes
      shake256 := fun
        | .bytesLike content => (·.contents) <$> content
        | _ => .error .exception
      digest := fun h n => .ok (X.digest h n.toNat) }
  hashlib_follows b := ⟨b, rfl, fun _ _ => rfl⟩
  java := .reference S K X
  evp := .reference X false

instance : Nonempty (HashLibraries S K X) := ⟨.reference S K X⟩

end QorechainPqc
