import QorechainPqc.Lib.Buffer
import QorechainPqc.Lib.Double
import QorechainPqc.Lib.Numeral
import QorechainPqc.SignBytes.Rule

/-!
# Sign-bytes in the Python binding

`qorpqc/__init__.py`: strings are lists of code points, and `struct.pack` refuses a number that
does not fit its field. A height may be a number or a numeric string, which `int` parses.

`hybridSignBytesV1_eq_ok` and `hybridSignBytesV2_eq_ok` say when the builders return and what,
`signBytesVersionForApplied_eq` is the rule for heights that can be read, and `height_decimal` says that canonical
numerals can.
-/

namespace QorechainPqc.Python

open Detect Failing Framing Text

/-! ## Values -/

/-- A string: code points, surrogates included. -/
abbrev Str := List CodePoint

/-- A string literal. -/
def str (s : String) : Str := codePoints s.toList

/-- The exceptions. -/
inductive Stop
  /-- `ValueError`; `shown` is the string that its text ends in. -/
  | valueError (text : String) (shown : Option Str)
  | overflowError
  | unicodeEncodeError
  | typeError
  /-- `struct.error`. -/
  | structError
  | memoryError
  /-- What an object raises by itself. -/
  | other
deriving DecidableEq

/-- A value as a height; `True` and `False` are the integers `1` and `0`. -/
inductive Value
  | none
  | int (i : Int)
  | float (x : Double)
  | str (s : Str)
  /-- Any other object, with what the test for `None` and `""` and `int` make of it. -/
  | other (height : Except Stop Int)
deriving DecidableEq

/-! ## int -/

/-- The white space outside ASCII. -/
def isWideSpace (p : CodePoint) : Bool :=
  (0x2000 ≤ p.val && p.val ≤ 0x200A) || [0x85, 0xA0, 0x1680, 0x2028, 0x2029, 0x202F, 0x205F, 0x3000].contains p.val

/-- The decimal digits outside ASCII, as the Unicode version of the interpreter has them: rows of ten, given by their
zeros. None of them is white space, nor `U+FEFF`. -/
structure Digits where
  zeros : List Nat
  rows : zeros.IsChain fun y z => y + 10 ≤ z
  outside : ∀ z ∈ zeros, ∀ p : CodePoint, z ≤ p.val → p.val < z + 10 →
    128 ≤ p.val ∧ isWideSpace p = false ∧ p.val ≠ 0xFEFF

/-- The zeros of Unicode 15, which Python 3.12 has. -/
def zeros15 : List Nat :=
  [0x660, 0x6F0, 0x7C0, 0x966, 0x9E6, 0xA66, 0xAE6, 0xB66, 0xBE6, 0xC66, 0xCE6, 0xD66, 0xDE6, 0xE50, 0xED0, 0xF20,
    0x1040, 0x1090, 0x17E0, 0x1810, 0x1946, 0x19D0, 0x1A80, 0x1A90, 0x1B50, 0x1BB0, 0x1C40, 0x1C50, 0xA620, 0xA8D0,
    0xA900, 0xA9D0, 0xA9F0, 0xAA50, 0xABF0, 0xFF10, 0x104A0, 0x10D30, 0x11066, 0x110F0, 0x11136, 0x111D0, 0x112F0,
    0x11450, 0x114D0, 0x11650, 0x116C0, 0x11730, 0x118E0, 0x11950, 0x11C50, 0x11D50, 0x11DA0, 0x11F50, 0x16A60,
    0x16AC0, 0x16B50, 0x1D7CE, 0x1D7D8, 0x1D7E2, 0x1D7EC, 0x1D7F6, 0x1E140, 0x1E2F0, 0x1E4F0, 0x1E950, 0x1FBF0]

/-- The digits of Unicode 15. -/
def Digits.unicode15 : Digits where
  zeros := zeros15
  rows := by simp [zeros15]
  outside z hz p hle hlt := by
    have hrange : ∀ z ∈ zeros15, 0x660 ≤ z ∧ (z + 10 ≤ 0x1680 ∨ 0x1680 < z ∧ z + 10 ≤ 0x2000 ∨
      0x3000 < z ∧ z + 10 ≤ 0xFEFF ∨ 0xFEFF < z) := by decide
    have hz := hrange z hz
    refine ⟨by omega, ?_, by omega⟩
    simp [isWideSpace]
    omega

/-- A code point as `int` reads it: white space and digits outside ASCII stand for those of ASCII. -/
def toAscii (digits : Digits) (p : CodePoint) : Char :=
  if p.val < 127 then Char.ofNat p.val
  else if isWideSpace p then ' '
  else match digits.zeros.find? fun z => z ≤ p.val && p.val < z + 10 with
    | some z => Char.ofNat (48 + (p.val - z))
    | none => '?'

def isSpace (c : Char) : Bool := (9 ≤ c.toNat && c.toNat ≤ 13) || c.toNat = 32

def digit? (c : Char) : Option Nat := if c.isDigit then some (c.toNat - 48) else none

/-- Digits with single underscores allowed between them. -/
def readGrouped (l : List Char) : Option Nat := (ungroup '_' l).bind (readDigits digit? 10)

/-- The number that a string spells in base 10. -/
def parseInt (digits : Digits) (s : Str) : Option Int :=
  readSigned '+' '-' readGrouped (strip isSpace (s.map (toAscii digits)))

/-- `int(s)` of a string. -/
def intOfStr (digits : Digits) (s : Str) : Except Stop Int :=
  match parseInt digits s with
  | some i => .ok i
  | none => .error (.valueError "invalid literal for int() with base 10" (some s))

/-- `int(x)` of a float. -/
def intOfFloat (x : Double) : Except Stop Int :=
  match x.toInt with
  | some i => .ok i
  | none => .error (if x = .nan then .valueError "cannot convert float NaN to integer" none else .overflowError)

/-! ## The version rule -/

def hybridSignBytesDomain : Bytes := utf8 "qorechain-pqc-hybrid-v2".toList

def signBytesV2Upgrades : List Str := [str "v3.2.0", str "v3.1.98"]

def legacySignBytesChains : List Str := [str "qorechain-vladi", str "qorechain-diana"]

variable (digits : Digits)

/-- `_height`. -/
def height : Value → Except Stop Int
  | .none => .ok 0
  | .int i => .ok i
  | .float x => intOfFloat x
  | .str s => if s = [] then .ok 0 else intOfStr digits s
  | .other height => height

/-- `sign_bytes_version_for`. -/
def signBytesVersionFor (chainId : Str) (v2AppliedHeight : Value) : Except Stop Str := do
  let h ← height digits v2AppliedHeight
  if decide (h > 0) || !legacySignBytesChains.contains chainId then return str "v2"
  return str "v1"

/-- `sign_bytes_version_for_applied`; `None` counts as an empty dict, and `get` answers `None` for an absent name. -/
def signBytesVersionForApplied (chainId : Str) (appliedHeights : Option (Str → Option Value)) : Except Stop Str := do
  let appliedHeights := appliedHeights.getD fun _ => none
  let best ← bestRead (fun name => height digits ((appliedHeights name).getD .none)) signBytesV2Upgrades
  signBytesVersionFor digits chainId (.int best)

/-- The rule's answer as the binding returns it. -/
def ofVersion : Version → Str
  | .v1 => str "v1"
  | .v2 => str "v2"

theorem signBytesVersionFor_int (chainId : Str) (h : Int) : signBytesVersionFor digits chainId (.int h) =
    .ok (ofVersion (rule (legacySignBytesChains.contains chainId) (decide (0 < h)))) := by
  have hh : height digits (.int h) = .ok h := rfl
  rw [signBytesVersionFor, hh, ok_bind]
  by_cases hp : 0 < h
  · rw [decide_eq_true hp, rule_eq_v2.mpr (Or.inr rfl)]; rfl
  · rw [decide_eq_false hp]
    cases legacySignBytesChains.contains chainId <;> rfl

/-- What the dict holds under a name. -/
def get (m : Option (Str → Option Value)) (name : Str) : Value := ((m.getD fun _ => none) name).getD .none

/-- The heights under the listed names can be read. -/
def ReadableHeights (m : Option (Str → Option Value)) : Prop :=
  Readable (fun name => height digits (get m name)) signBytesV2Upgrades

/-- The height under a name, if it can be read. -/
def heightOf (m : Option (Str → Option Value)) (name : Str) : Option Int := (height digits (get m name)).toOption

/-- **The version rule in Python**, for heights that can be read. -/
theorem signBytesVersionForApplied_eq (chainId : Str) {m : Option (Str → Option Value)}
    (hm : ReadableHeights digits m) : signBytesVersionForApplied digits chainId m =
      .ok (ofVersion (rule (legacySignBytesChains.contains chainId)
        (switched signBytesV2Upgrades (heightOf digits m)))) := by
  obtain ⟨best, hb, hs⟩ := bestRead_ok _ hm
  show (bestRead (fun name => height digits (get m name)) signBytesV2Upgrades >>= fun best =>
    signBytesVersionFor digits chainId (.int best)) = _
  rw [hb, ok_bind, signBytesVersionFor_int, hs]
  rfl

variable {digits}

/-- A version is returned for heights that can be read, only. -/
theorem readable_of_version {chainId : Str} {m : Option (Str → Option Value)} {v : Str}
    (h : signBytesVersionForApplied digits chainId m = .ok v) : ReadableHeights digits m := by
  obtain ⟨best, hb, _⟩ := bind_eq_ok.mp h
  exact readable_of_bestRead _ hb

/-! ## Heights as the node reports them -/

theorem toAscii_codePoint {c : Char} (h : c.toNat < 127) : toAscii digits (codePoint c) = c := by
  have hv : (codePoint c).val = c.toNat := rfl
  rw [toAscii, hv, if_pos h, Char.ofNat_toNat]

theorem digit?_isDigit (c : Char) (h : c.isDigit) : digit? (id c) = some (c.toNat - 48) := if_pos h

/-- The canonical numeral of a height is read as the height. -/
theorem height_decimal (i : Int) : height digits (.str (codePoints (decimal i))) = .ok i := by
  have hascii : (codePoints (decimal i)).map (toAscii digits) = decimal i := by
    rw [codePoints, List.map_map]
    conv_rhs => rw [← List.map_id (decimal i)]
    refine List.map_congr_left fun c hc => toAscii_codePoint ?_
    have := decimal_toNat hc
    omega
  have hstrip : strip isSpace (decimal i) = decimal i := by
    apply strip_of_forall
    intro c hc
    have := decimal_toNat hc
    simp [isSpace]
    omega
  have hdigits : ∀ n : Nat, readGrouped ((Nat.toDigits 10 n).map id) = some n := by
    intro n
    have hmem : '_' ∉ Nat.toDigits 10 n := fun h =>
      absurd (Nat.isDigit_of_mem_toDigits (by decide) (by decide) h) (by decide)
    have hread := readDigits_toDigits id digit?_isDigit n
    rw [List.map_id] at hread ⊢
    rw [readGrouped, ungroup_of_notMem Nat.toDigits_ne_nil hmem, Option.bind_some, hread]
  have hparse : parseInt digits (codePoints (decimal i)) = some i := by
    have hd : ∀ c : Char, c.isDigit → id c ≠ '+' ∧ id c ≠ id '-' := by
      intro c hc
      constructor
      · rintro rfl; exact absurd hc (by decide)
      · rintro rfl; exact absurd hc (by decide)
    have h := readSigned_decimal id (by decide) hd hdigits i
    rw [List.map_id] at h
    rw [parseInt, hascii, hstrip]
    exact h
  have hne : codePoints (decimal i) ≠ [] := fun h => decimal_ne_nil i (codePoints_eq_nil.mp h)
  rw [height, if_neg hne, intOfStr, hparse]

/-- How a node's answer reaches the dict: absent, or a height as a number or a canonical numeral. -/
inductive Spells : Value → Option Int → Prop
  | absent : Spells .none none
  | int (i : Int) : Spells (.int i) (some i)
  | str (i : Int) : Spells (.str (codePoints (decimal i))) (some i)

theorem Spells.height {v : Value} {h : Option Int} (hv : Spells v h) : height digits v = .ok (h.getD 0) := by
  cases hv with
  | absent => rfl
  | int i => rfl
  | str i => exact height_decimal i

/-! ## The builders -/

/-- `sys.maxsize`, which bounds the length of every object. -/
def maxsize : Nat := 2 ^ 63 - 1

/-- `x + y`. -/
def add (x y : Bytes) : Except Stop Bytes := (extend maxsize x y).elim (.error .memoryError) .ok

/-- `struct.pack(">I", n)`. -/
def packI (n : Nat) : Except Stop Bytes := if n < 2 ^ 32 then .ok (beBytes 4 n) else .error .structError

/-- `struct.pack(">Q", n)`. -/
def packQ (n : Nat) : Except Stop Bytes := if n < 2 ^ 64 then .ok (beBytes 8 n) else .error .structError

/-- `s.encode("utf-8")`. -/
def encode (s : Str) : Except Stop Bytes :=
  match s.mapM scalar? with
  | some cs => .ok (utf8 cs)
  | none => .error .unicodeEncodeError

/-- `hybrid_sign_bytes_v1`. -/
def hybridSignBytesV1 (bodyWithoutPqcExt authInfoBytes : Bytes) : Except Stop Bytes := do
  let out ← packI bodyWithoutPqcExt.length
  let out ← add out bodyWithoutPqcExt
  let out ← add out (← packI authInfoBytes.length)
  add out authInfoBytes

/-- `hybrid_sign_bytes_v2`. -/
def hybridSignBytesV2 (chainId : Str) (bodyWithoutPqcExt authInfoBytes : Bytes) : Except Stop Bytes := do
  if chainId = [] then throw (.valueError "hybrid_sign_bytes_v2: chain_id is required" none)
  let cid ← encode chainId
  let out ← add hybridSignBytesDomain (← packQ cid.length)
  let out ← add out cid
  add out (← hybridSignBytesV1 bodyWithoutPqcExt authInfoBytes)

/-- `hybrid_sign_bytes`. -/
def hybridSignBytes (version chainId : Str) (bodyWithoutPqcExt authInfoBytes : Bytes) : Except Stop Bytes :=
  if version = str "v2" then hybridSignBytesV2 chainId bodyWithoutPqcExt authInfoBytes
  else if version = str "v1" then hybridSignBytesV1 bodyWithoutPqcExt authInfoBytes
  else .error (.valueError "hybrid_sign_bytes: version must be 'v1' or 'v2', got" (some version))

theorem add_eq_ok {x y z : Bytes} : add x y = .ok z ↔ x.length + y.length ≤ maxsize ∧ z = x ++ y := by
  unfold add extend
  split
  · rename_i h; simp [h, eq_comm]
  · rename_i h; simp [h]

theorem packI_eq_ok {n : Nat} {z : Bytes} : packI n = .ok z ↔ n < 2 ^ 32 ∧ z = beBytes 4 n := by
  unfold packI
  split
  · rename_i h; rw [Except.ok.injEq, and_iff_right h, eq_comm]
  · rename_i h; simp only [reduceCtorEq, h, false_and]

theorem packQ_eq_ok {n : Nat} {z : Bytes} : packQ n = .ok z ↔ n < 2 ^ 64 ∧ z = beBytes 8 n := by
  unfold packQ
  split
  · rename_i h; rw [Except.ok.injEq, and_iff_right h, eq_comm]
  · rename_i h; simp only [reduceCtorEq, h, false_and]

theorem encode_codePoints (s : List Char) : encode (codePoints s) = .ok (utf8 s) := by
  rw [encode, mapM_scalar?_codePoints]

/-- **The v1 builder**, on every input: two lengths that fit their fields leave room enough. -/
theorem hybridSignBytesV1_eq_ok {b0 auth bs : Bytes} : hybridSignBytesV1 b0 auth = .ok bs ↔
    b0.length < 2 ^ 32 ∧ auth.length < 2 ^ 32 ∧ bs = Format.v1 b0 auth := by
  simp only [hybridSignBytesV1, bind_eq_ok, packI_eq_ok, add_eq_ok]
  constructor
  · rintro ⟨_, ⟨hb, rfl⟩, _, ⟨_, rfl⟩, _, ⟨ha, rfl⟩, _, ⟨_, rfl⟩, _, rfl⟩
    exact ⟨hb, ha, by simp [Format.v1, field]⟩
  · rintro ⟨hb, ha, rfl⟩
    refine ⟨_, ⟨hb, rfl⟩, _, ⟨?_, rfl⟩, _, ⟨ha, rfl⟩, _, ⟨?_, rfl⟩, ?_, by simp [Format.v1, field]⟩
    all_goals
      simp only [List.length_append, length_beBytes, maxsize]
      omega

/-- **The v2 builder**, on every input. -/
theorem hybridSignBytesV2_eq_ok {s : Str} {b0 auth bs : Bytes} : hybridSignBytesV2 s b0 auth = .ok bs ↔
    s ≠ [] ∧ ∃ cid, encode s = .ok cid ∧ b0.length < 2 ^ 32 ∧ auth.length < 2 ^ 32 ∧
      39 + cid.length + b0.length + auth.length ≤ maxsize ∧ bs = Format.v2 cid b0 auth := by
  unfold hybridSignBytesV2
  by_cases hs : s = []
  · simp [hs]
  have hdomain : hybridSignBytesDomain.length = 23 := Format.length_domain
  simp only [if_neg hs, bind_eq_ok, packQ_eq_ok, add_eq_ok, hybridSignBytesV1_eq_ok]
  constructor
  · rintro ⟨cid, he, _, ⟨hc, rfl⟩, _, ⟨_, rfl⟩, _, ⟨_, rfl⟩, _, ⟨hb, ha, rfl⟩, hl, rfl⟩
    simp only [List.length_append, length_beBytes, Format.length_v1, hdomain] at hl
    refine ⟨hs, cid, he, hb, ha, by omega, ?_⟩
    simp only [Format.v2, field, List.append_assoc]
    rfl
  · rintro ⟨-, cid, he, hb, ha, hl, rfl⟩
    have hcid : cid.length < 2 ^ 64 := by rw [maxsize] at hl; omega
    refine ⟨cid, he, _, ⟨hcid, rfl⟩, _, ⟨?_, rfl⟩, _, ⟨?_, rfl⟩, _, ⟨hb, ha, rfl⟩, ?_, ?_⟩
    · simp only [length_beBytes, hdomain, maxsize]; omega
    · simp only [List.length_append, length_beBytes, hdomain]; omega
    · simp only [List.length_append, length_beBytes, Format.length_v1, hdomain]; omega
    · simp only [Format.v2, field, List.append_assoc]
      rfl

end QorechainPqc.Python
