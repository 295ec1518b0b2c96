import QorechainPqc.SignBytes.Js
import QorechainPqc.Verify.Verdict

/-!
# Verification in JavaScript

`wrapSig` of `index.js` over a scheme of `@noble/post-quantum`, and `batchVerify`. An argument may be any value: besides
a `Uint8Array` there are values whose type test or `length` answer something else or throw. The guards read both outside
the `try` block.

`verify_eq` gives `verify` on byte arrays, `batchVerify_eq` the index that `batchVerify` returns.
-/

namespace QorechainPqc.Js

open Failing Text

/-! ## Values -/

/-- An argument: a `Uint8Array`, or another value with what `instanceof Uint8Array` says of it and what reading its
`length` gives. -/
inductive Arg
  | bytes (b : Bytes)
  | other (isUint8Array : Except Stop Bool) (length : Except Stop Value)

/-- `undefined`. -/
def Arg.undefined : Arg := .other (.ok false) (.error .typeError)

/-- `isBytes`. -/
def isBytes : Arg → Except Stop Bool
  | .bytes _ => .ok true
  | .other isUint8Array _ => isUint8Array

/-- `v.length`. -/
def Arg.length : Arg → Except Stop Value
  | .bytes b => .ok (.number (.finite b.length))
  | .other _ length => length

/-! ## verify -/

/-- The lengths of a level, in `SIG_LENGTHS`. -/
structure SigLengths where
  seed : Nat
  publicKey : Nat
  secretKey : Nat
  signature : Nat

/-- `SIG_LENGTHS`. -/
def sigLengths : MlDsa.Level → SigLengths
  | .l44 => ⟨32, 1312, 2560, 2420⟩
  | .l65 => ⟨32, 1952, 4032, 3309⟩
  | .l87 => ⟨32, 2592, 4896, 4627⟩

/-- A scheme of `@noble/post-quantum`, as far as verification goes: of a signature, a message and a public key. -/
structure Noble where
  verify : Arg → Arg → Arg → Except Stop Value

/-- `!isBytes(v) || v.length !== n`. -/
def badLength (v : Arg) (n : Nat) : Except Stop Bool := do
  if !(← isBytes v) then return true
  return (← v.length) != .number (.finite n)

/-- `verify` of `wrapSig`. -/
def verify (noble : MlDsa.Level → Noble) (l : MlDsa.Level) (publicKey message signature : Arg) : Except Stop Bool := do
  if ← badLength publicKey (sigLengths l).publicKey then return false
  if ← badLength signature (sigLengths l).signature then return false
  if !(← isBytes message) then return false
  try
    let valid ← (noble l).verify signature message publicKey
    pure (valid == .boolean true)
  catch _ =>
    pure false

/-- What `@noble/post-quantum` does on exact sizes: it computes FIPS-204, or throws instead of saying no. -/
def Noble.Computes (noble : Noble) (V : Fips204) (l : MlDsa.Level) : Prop :=
  ∀ pk msg sig, l.Exact pk sig →
    Gives (fun _ : Stop => True) ((· == .boolean true) <$> noble.verify (.bytes sig) (.bytes msg) (.bytes pk))
      (V l pk msg sig)

theorem sigLengths_eq (l : MlDsa.Level) :
    (sigLengths l).publicKey = l.sizes.publicKey ∧ (sigLengths l).signature = l.sizes.signature := by
  cases l <;> exact ⟨rfl, rfl⟩

theorem badLength_bytes (b : Bytes) (n : Nat) : badLength (.bytes b) n = .ok (decide (b.length ≠ n)) := by
  have hlen : (Value.number (.finite b.length) != Value.number (.finite n)) = decide (b.length ≠ n) := by
    by_cases h : b.length = n
    · simp [h]
    · have hcast : (b.length : Rat) ≠ (n : Rat) := fun hc => h (Nat.cast_injective hc)
      simp [h, hcast]
  exact congrArg Except.ok hlen

variable {noble : MlDsa.Level → Noble} {V : Fips204} {l : MlDsa.Level}

/-- **`verify`** on byte arrays of any lengths. -/
theorem verify_eq (h : (noble l).Computes V l) (pk msg sig : Bytes) :
    verify noble l (.bytes pk) (.bytes msg) (.bytes sig) = .ok (V.verdict l pk msg sig) := by
  obtain ⟨hpk, hsig⟩ := sigLengths_eq l
  simp only [verify, badLength_bytes, hpk, hsig, ok_bind, decide_eq_true_eq]
  by_cases hp : pk.length = l.sizes.publicKey
  · by_cases hs : sig.length = l.sizes.signature
    · rw [if_neg (not_not_intro hp), if_neg (not_not_intro hs), verdict_of_exact ⟨hp, hs⟩]
      exact (h pk msg sig ⟨hp, hs⟩).tryCatch_eq fun _ _ => rfl
    · rw [if_neg (not_not_intro hp), if_pos hs, verdict_of_signature hs]
      rfl
  · rw [if_pos hp, verdict_of_publicKey hp]
    rfl

/-! ## batchVerify -/

/-- An item: `null` or `undefined`, or a value with what reading its fields gives. -/
inductive Item
  | nullish
  | fields (publicKey message signature : Except Stop Arg)

/-- `{ publicKey, message, signature } = items[i] ?? {}`. -/
def Item.read : Item → Except Stop (Arg × Arg × Arg)
  | .nullish => .ok (.undefined, .undefined, .undefined)
  | .fields publicKey message signature => do
    return (← publicKey, ← message, ← signature)

/-- The loop of `batchVerify` from item `i` on. -/
def batchVerifyFrom (verify : Arg → Arg → Arg → Except Stop Bool) (i : Nat) : List Item → Except Stop Int
  | [] => .ok (-1)
  | item :: items => do
    let (publicKey, message, signature) ← item.read
    if (← verify publicKey message signature) != true then return i
    batchVerifyFrom verify (i + 1) items

/-- `batchVerify`. -/
def batchVerify (verify : Arg → Arg → Arg → Except Stop Bool) (items : List Item) : Except Stop Int :=
  batchVerifyFrom verify 0 items

/-- An item of three byte arrays. -/
def Item.ofBytes (t : Bytes × Bytes × Bytes) : Item :=
  .fields (.ok (.bytes t.1)) (.ok (.bytes t.2.1)) (.ok (.bytes t.2.2))

/-- The index of the first item that fails, from `i` on, or `-1`. -/
def firstFailure (ok : Bytes × Bytes × Bytes → Bool) (ts : List (Bytes × Bytes × Bytes)) (i : Nat) : Int :=
  (ts.findIdx? fun t => !ok t).elim (-1) fun j => i + j

theorem firstFailure_cons (ok : Bytes × Bytes × Bytes → Bool) (t : Bytes × Bytes × Bytes)
    (ts : List (Bytes × Bytes × Bytes)) (i : Nat) :
    firstFailure ok (t :: ts) i = if ok t then firstFailure ok ts (i + 1) else i := by
  unfold firstFailure
  rw [List.findIdx?_cons]
  cases ok t with
  | false => simp
  | true =>
    cases ts.findIdx? fun t => !ok t with
    | none => rfl
    | some j =>
      simp only [Bool.not_true, Bool.false_eq_true, if_false, if_true, Option.map_some, Option.elim_some]
      omega

/-- **`batchVerify`** on byte arrays: with a verifier that answers, the index of the first item that fails. -/
theorem batchVerifyFrom_eq {verify : Arg → Arg → Arg → Except Stop Bool} {ok : Bytes × Bytes × Bytes → Bool}
    (h : ∀ t, verify (.bytes t.1) (.bytes t.2.1) (.bytes t.2.2) = .ok (ok t)) (ts : List (Bytes × Bytes × Bytes))
    (i : Nat) : batchVerifyFrom verify i (ts.map Item.ofBytes) = .ok (firstFailure ok ts i) := by
  induction ts generalizing i with
  | nil => rfl
  | cons t ts ih =>
    have hread : (Item.ofBytes t).read = .ok (.bytes t.1, .bytes t.2.1, .bytes t.2.2) := rfl
    rw [List.map_cons, batchVerifyFrom, hread, firstFailure_cons]
    simp only [ok_bind, h]
    cases ok t with
    | false => rfl
    | true => exact ih (i + 1)

end QorechainPqc.Js
