import QorechainPqc.Lib.Except
import QorechainPqc.SignBytes.Java
import QorechainPqc.Verify.Verdict

/-!
# Verification in Go, Rust and Java

The verifying functions of the typed bindings, each over its library as a parameter, and what the library has to
compute for the function to give the verdict.

* Go: CIRCL refuses a public key of another size. Nothing is known of what it does with a signature of another size,
  and the function compares the length itself.
* Rust: `fips204` takes arrays, and the conversion to an array refuses other lengths.
* Java: nothing is known of what Bouncy Castle does with other sizes.
-/

namespace QorechainPqc

open Failing

/-! ## Go -/

namespace Go

/-- A `sign.Scheme` of CIRCL, as far as verification goes; `Verify` is called without options. -/
structure Scheme where
  PublicKey : Type
  signatureSize : Nat
  unmarshalBinaryPublicKey : Bytes → Except String PublicKey
  verify : PublicKey → Bytes → Bytes → Bool

/-- `SigScheme`. -/
structure SigScheme where
  name : String
  s : Scheme

/-- `SigScheme.Verify`. -/
def SigScheme.verify (sc : SigScheme) (publicKey message signature : Bytes) : Bool :=
  if signature.length ≠ sc.s.signatureSize then false
  else match sc.s.unmarshalBinaryPublicKey publicKey with
    | .error _ => false
    | .ok pk => sc.s.verify pk message signature

/-- `MLDSA44`, `MLDSA65` and `MLDSA87`. -/
def sigScheme (circl : MlDsa.Level → Scheme) (l : MlDsa.Level) : SigScheme := ⟨l.name, circl l⟩

/-- What CIRCL does: it computes FIPS-204 on exact sizes, and refuses public keys of other sizes. -/
structure Scheme.Computes (s : Scheme) (V : Fips204) (l : MlDsa.Level) : Prop where
  size : s.signatureSize = l.sizes.signature
  exact : ∀ pk msg sig, l.Exact pk sig → match s.unmarshalBinaryPublicKey pk with
    | .ok k => s.verify k msg sig = V l pk msg sig
    | .error _ => V l pk msg sig = false
  refuses : ∀ pk, pk.length ≠ l.sizes.publicKey → ∃ e, s.unmarshalBinaryPublicKey pk = .error e

variable {s : Scheme} {V : Fips204} {l : MlDsa.Level}

theorem verify_eq (h : s.Computes V l) {name : String} (pk msg sig : Bytes) :
    SigScheme.verify ⟨name, s⟩ pk msg sig = V.verdict l pk msg sig := by
  unfold SigScheme.verify
  by_cases hs : sig.length = l.sizes.signature
  · rw [if_neg (not_not_intro (hs.trans h.size.symm))]
    by_cases hp : pk.length = l.sizes.publicKey
    · rw [verdict_of_exact ⟨hp, hs⟩]
      have hx := h.exact pk msg sig ⟨hp, hs⟩
      cases hk : s.unmarshalBinaryPublicKey pk with
      | ok k => rw [hk] at hx; exact hx
      | error e => rw [hk] at hx; exact hx.symm
    · obtain ⟨e, hk⟩ := h.refuses pk hp
      rw [hk, verdict_of_publicKey hp]
  · rw [if_pos fun hn => hs (hn.trans h.size), verdict_of_signature hs]

end Go

/-! ## Rust -/

namespace Rust

/-- `[u8; N]`. -/
abbrev ByteArr (n : Nat) := { b : Bytes // b.length = n }

/-- `try_into` of a slice. -/
def tryInto (n : Nat) (b : Bytes) : Except Unit (ByteArr n) := if h : b.length = n then .ok ⟨b, h⟩ else .error ()

/-- A module of `fips204`, as far as verification goes. -/
structure Fips204Crate (l : MlDsa.Level) where
  PublicKey : Type
  tryFromBytes : ByteArr l.sizes.publicKey → Except String PublicKey
  verify : PublicKey → Bytes → ByteArr l.sizes.signature → Bytes → Bool

/-- `verify` of the module of a level. -/
def verify {l : MlDsa.Level} (scheme : Fips204Crate l) (publicKey message signature : Bytes) : Bool :=
  match tryInto l.sizes.publicKey publicKey with
  | .error _ => false
  | .ok pkArr => match tryInto l.sizes.signature signature with
    | .error _ => false
    | .ok sigArr => match scheme.tryFromBytes pkArr with
      | .ok pk => scheme.verify pk message sigArr []
      | .error _ => false

/-- What `fips204` does: it computes FIPS-204. -/
def Fips204Crate.Computes {l : MlDsa.Level} (scheme : Fips204Crate l) (V : Fips204) : Prop :=
  ∀ (pk : ByteArr l.sizes.publicKey) (msg : Bytes) (sig : ByteArr l.sizes.signature), match scheme.tryFromBytes pk with
    | .ok k => scheme.verify k msg sig [] = V l pk msg sig
    | .error _ => V l pk msg sig = false

theorem verify_eq {l : MlDsa.Level} {scheme : Fips204Crate l} {V : Fips204} (h : scheme.Computes V)
    (pk msg sig : Bytes) : verify scheme pk msg sig = V.verdict l pk msg sig := by
  unfold verify tryInto
  by_cases hp : pk.length = l.sizes.publicKey
  · by_cases hs : sig.length = l.sizes.signature
    · have hx := h ⟨pk, hp⟩ msg ⟨sig, hs⟩
      rw [dif_pos hp, dif_pos hs, verdict_of_exact ⟨hp, hs⟩]
      simp only
      cases hk : scheme.tryFromBytes ⟨pk, hp⟩ with
      | ok k => rw [hk] at hx; exact hx
      | error e => rw [hk] at hx; exact hx.symm
    · rw [dif_pos hp, dif_neg hs, verdict_of_signature hs]
  · rw [dif_neg hp, verdict_of_publicKey hp]

end Rust

/-! ## Java -/

namespace Java

/-- What a method throws. -/
inductive Thrown
  | illegalArgument (text : Str)
  | illegalState (text : Str)
  | nullPointer
  | arrayIndexOutOfBounds
  | negativeArraySize
  | bufferOverflow
  /-- Another `RuntimeException`. -/
  | runtimeException
  /-- The checked `CryptoException` of Bouncy Castle. -/
  | crypto
  /-- An `Error`. -/
  | error
deriving DecidableEq

/-- `instanceof RuntimeException`. -/
def Thrown.isRuntime : Thrown → Bool
  | .crypto => false
  | .error => false
  | _ => true

/-- Bouncy Castle, as far as verification goes: `new MLDSAPublicKeyParameters`, and an `MLDSASigner` that is initialised
with the key, updated with the message and asked about the signature. -/
structure BouncyCastle where
  PublicKey : Type
  publicKeyParameters : MlDsa.Level → Bytes → Except Thrown PublicKey
  verifySignature : PublicKey → Bytes → Bytes → Except Thrown Bool

/-- `unknownLevel`. -/
def unknownLevel (family level : Str) : Thrown := .illegalArgument (str "unknown " ++ family ++ str " level: " ++ level)

/-- A `switch` over the names of the ML-DSA levels; any other name throws. -/
def mldsaSwitch {α : Type} (level : Str) (f : MlDsa.Level → α) : Except Thrown α :=
  if level = str "ml-dsa-44" then .ok (f .l44)
  else if level = str "ml-dsa-65" then .ok (f .l65)
  else if level = str "ml-dsa-87" then .ok (f .l87)
  else .error (unknownLevel (str "ML-DSA") level)

def mldsaPublicKeyLength (level : Str) : Except Thrown Nat :=
  mldsaSwitch level fun | .l44 => 1312 | .l65 => 1952 | .l87 => 2592

def mldsaSignatureLength (level : Str) : Except Thrown Nat :=
  mldsaSwitch level fun | .l44 => 2420 | .l65 => 3309 | .l87 => 4627

def mldsaParams (level : Str) : Except Thrown MlDsa.Level := mldsaSwitch level id

/-- `mldsaVerify`; references may be `null`. -/
def mldsaVerify (bc : BouncyCastle) (level : Option Str) (publicKey message signature : Option Bytes) :
    Except Thrown Bool :=
  match level, publicKey, message, signature with
  | some level, some publicKey, some message, some signature =>
    match mldsaParams level with
    | .error (.illegalArgument _) => .ok false
    | .error e => .error e
    | .ok params => do
      let publicKeyLength ← mldsaPublicKeyLength level
      if publicKey.length ≠ publicKeyLength then return false
      let signatureLength ← mldsaSignatureLength level
      if signature.length ≠ signatureLength then return false
      try
        let pk ← bc.publicKeyParameters params publicKey
        bc.verifySignature pk message signature
      catch e =>
        if e.isRuntime then pure false else throw e
  | _, _, _, _ => .ok false

/-- What Bouncy Castle does on exact sizes: it computes FIPS-204, or throws a `RuntimeException` where it would say
no. -/
def BouncyCastle.Computes (bc : BouncyCastle) (V : Fips204) (l : MlDsa.Level) : Prop :=
  ∀ pk msg sig, l.Exact pk sig → Gives (fun e : Thrown => e.isRuntime = true)
    (bc.publicKeyParameters l pk >>= fun k => bc.verifySignature k msg sig) (V l pk msg sig)

section Levels

variable {α : Type} (f : MlDsa.Level → α)

theorem mldsaSwitch_name (l : MlDsa.Level) : mldsaSwitch (str l.name) f = .ok (f l) := by
  have h65 : str "ml-dsa-65" ≠ str "ml-dsa-44" := by decide
  have h87 : str "ml-dsa-87" ≠ str "ml-dsa-44" := by decide
  have h87' : str "ml-dsa-87" ≠ str "ml-dsa-65" := by decide
  cases l with
  | l44 => exact if_pos rfl
  | l65 => exact (if_neg h65).trans (if_pos rfl)
  | l87 => exact (if_neg h87).trans ((if_neg h87').trans (if_pos rfl))

/-- A name that is not a level's. -/
theorem mldsaSwitch_other {level : Str} (h : ∀ l : MlDsa.Level, level ≠ str l.name) :
    mldsaSwitch level f = .error (unknownLevel (str "ML-DSA") level) :=
  (if_neg (h .l44)).trans ((if_neg (h .l65)).trans (if_neg (h .l87)))

theorem mldsaPublicKeyLength_name (l : MlDsa.Level) :
    mldsaPublicKeyLength (str l.name) = .ok l.sizes.publicKey := by
  refine (mldsaSwitch_name _ l).trans ?_
  cases l <;> rfl

theorem mldsaSignatureLength_name (l : MlDsa.Level) :
    mldsaSignatureLength (str l.name) = .ok l.sizes.signature := by
  refine (mldsaSwitch_name _ l).trans ?_
  cases l <;> rfl

end Levels

variable {bc : BouncyCastle} {V : Fips204} {l : MlDsa.Level}

theorem mldsaVerify_eq (h : bc.Computes V l) (pk msg sig : Bytes) :
    mldsaVerify bc (some (str l.name)) (some pk) (some msg) (some sig) = .ok (V.verdict l pk msg sig) := by
  have hparams : mldsaParams (str l.name) = .ok l := mldsaSwitch_name id l
  simp only [mldsaVerify, hparams, mldsaPublicKeyLength_name, mldsaSignatureLength_name, ok_bind]
  by_cases hp : pk.length = l.sizes.publicKey
  · by_cases hs : sig.length = l.sizes.signature
    · rw [if_neg (not_not_intro hp), if_neg (not_not_intro hs), verdict_of_exact ⟨hp, hs⟩]
      exact (h pk msg sig ⟨hp, hs⟩).tryCatch_eq fun e he => if_pos he
    · rw [if_neg (not_not_intro hp), if_pos hs, verdict_of_signature hs]
      rfl
  · rw [if_pos hp, verdict_of_publicKey hp]
    rfl

end Java

end QorechainPqc
