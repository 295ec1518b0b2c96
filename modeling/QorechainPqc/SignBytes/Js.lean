import QorechainPqc.Lib.Buffer
import QorechainPqc.Lib.Double
import QorechainPqc.Lib.Numeral
import QorechainPqc.SignBytes.Rule

/-!
# Sign-bytes in the JavaScript binding

`index.js`: nothing is typed, so chain ids, versions and heights are dynamic values, and strings are lists of UTF-16
code units. The builders collect the parts of the message and copy them into one `Uint8Array` at a running offset. A
height may be a number, a bigint or a numeric string, which `BigInt` parses.

`hybridSignBytesV1_eq` and `hybridSignBytesV2_eq` give the builders on every input, `signBytesVersionForApplied_eq` the
rule for heights that can be read, and `toHeight_decimal` that canonical numerals can.
-/

namespace QorechainPqc.Js

open Detect Failing Framing Text

/-! ## Values -/

/-- A string: UTF-16 code units. -/
abbrev Str := List UInt16

/-- A string literal. -/
def str (s : String) : Str := utf16 s.toList

/-- A value. -/
inductive Value
  | undefined
  | null
  | boolean (b : Bool)
  | number (n : Double)
  | bigint (i : Int)
  | string (s : Str)
  /-- An object or a symbol, with what `BigInt` makes of it, unless it throws. -/
  | other (bigint : Option Int)
deriving DecidableEq

/-- Why a call throws. -/
inductive Stop
  /-- An `Error` of the binding; `shown` is the value that its text ends in. -/
  | error (text : String) (shown : Option Value)
  | rangeError
  | syntaxError
  | typeError
  /-- What comes of an object or a symbol. -/
  | other
deriving DecidableEq

/-! ## BigInt -/

/-- `WhiteSpace` and `LineTerminator` of the language. -/
def isStrWhiteSpace (u : UInt16) : Bool :=
  (0x09 ≤ u.toNat && u.toNat ≤ 0x0D) || (0x2000 ≤ u.toNat && u.toNat ≤ 0x200A) ||
    [0x20, 0xA0, 0x1680, 0x2028, 0x2029, 0x202F, 0x205F, 0x3000, 0xFEFF].contains u.toNat

/-- The code unit of a character below `0x10000`. -/
def unit (c : Char) : UInt16 := UInt16.ofNat c.toNat

/-- The value of a digit or letter. -/
def digit? (u : UInt16) : Option Nat :=
  if 48 ≤ u.toNat && u.toNat ≤ 57 then some (u.toNat - 48)
  else if 97 ≤ u.toNat && u.toNat ≤ 122 then some (u.toNat - 87)
  else if 65 ≤ u.toNat && u.toNat ≤ 90 then some (u.toNat - 55)
  else none

/-- The base that `0x`, `0o` or `0b` announces, and what follows. -/
def nonDecimal? : Str → Option (Nat × Str)
  | z :: p :: rest =>
    if z ≠ unit '0' then none
    else if p = unit 'x' ∨ p = unit 'X' then some (16, rest)
    else if p = unit 'o' ∨ p = unit 'O' then some (8, rest)
    else if p = unit 'b' ∨ p = unit 'B' then some (2, rest)
    else none
  | _ => none

/-- `StringToBigInt`. -/
def stringToBigInt (s : Str) : Option Int :=
  let t := strip isStrWhiteSpace s
  if t = [] then some 0
  else match nonDecimal? t with
    | some (base, rest) => (readDigits digit? base rest).map Int.ofNat
    | none => readSigned (unit '+') (unit '-') (readDigits digit? 10) t

/-- `Math.trunc`. -/
def mathTrunc (n : Double) : Double := (n.toInt).elim n fun i => .finite i

/-- `BigInt(v)`. -/
def bigInt : Value → Except Stop Int
  | .undefined => .error .typeError
  | .null => .error .typeError
  | .boolean b => .ok (if b then 1 else 0)
  | .number (.finite q) => if q.den = 1 then .ok q.num else .error .rangeError
  | .number _ => .error .rangeError
  | .bigint i => .ok i
  | .string s => (stringToBigInt s).elim (.error .syntaxError) .ok
  | .other i => i.elim (.error .other) .ok

/-! ## The version rule -/

def hybridSignBytesV2Domain : Str := str "qorechain-pqc-hybrid-v2"

def signBytesV2Upgrades : List Str := [str "v3.2.0", str "v3.1.98"]

def legacySignBytesChains : List Str := [str "qorechain-vladi", str "qorechain-diana"]

/-- `toHeight`. -/
def toHeight (v : Value) : Except Stop Int :=
  if v = .undefined ∨ v = .null ∨ v = .string [] then .ok 0
  else bigInt (match v with
    | .number n => .number (mathTrunc n)
    | v => v)

/-- `LEGACY_SIGN_BYTES_CHAINS.includes(chainId)`. -/
def legacy (chainId : Value) : Bool := (legacySignBytesChains.map Value.string).contains chainId

/-- `signBytesVersionFor`. -/
def signBytesVersionFor (chainId v2AppliedHeight : Value) : Except Stop Str := do
  let h ← toHeight v2AppliedHeight
  if h > 0 then return str "v2"
  return if legacy chainId then str "v1" else str "v2"

/-- What a caller may pass for the applied heights. -/
inductive Applied
  /-- Nothing that holds a height under a name: `null`, `undefined`, a number, … -/
  | other
  /-- A `Map`. -/
  | map (get : Str → Option Value)
  /-- An object, by its own properties. -/
  | object (own : Str → Option Value)

/-- The helper `get` of `signBytesVersionForApplied`. -/
def get : Applied → Str → Value
  | .other, _ => .undefined
  | .map get, n => (get n).getD .undefined
  | .object own, n => (own n).getD .undefined

/-- `signBytesVersionForApplied`. -/
def signBytesVersionForApplied (chainId : Value) (appliedHeights : Applied) : Except Stop Str := do
  let best ← bestRead (fun name => toHeight (get appliedHeights name)) signBytesV2Upgrades
  signBytesVersionFor chainId (.bigint best)

/-- The rule's answer as the binding returns it. -/
def ofVersion : Version → Str
  | .v1 => str "v1"
  | .v2 => str "v2"

theorem signBytesVersionFor_bigint (chainId : Value) (h : Int) :
    signBytesVersionFor chainId (.bigint h) = .ok (ofVersion (rule (legacy chainId) (decide (0 < h)))) := by
  have hh : toHeight (.bigint h) = .ok h := rfl
  rw [signBytesVersionFor, hh, ok_bind]
  by_cases hp : 0 < h
  · rw [if_pos hp, decide_eq_true hp, rule_eq_v2.mpr (Or.inr rfl)]; rfl
  · rw [if_neg hp, decide_eq_false hp]
    cases legacy chainId <;> rfl

/-- The heights under the listed names can be read. -/
def ReadableHeights (m : Applied) : Prop := Readable (fun name => toHeight (get m name)) signBytesV2Upgrades

/-- The height under a name, if it can be read. -/
def heightOf (m : Applied) (name : Str) : Option Int := (toHeight (get m name)).toOption

/-- **The version rule in JavaScript**, for heights that can be read. -/
theorem signBytesVersionForApplied_eq (chainId : Value) {m : Applied} (hm : ReadableHeights m) :
    signBytesVersionForApplied chainId m =
      .ok (ofVersion (rule (legacy chainId) (switched signBytesV2Upgrades (heightOf m)))) := by
  obtain ⟨best, hb, hs⟩ := bestRead_ok _ hm
  rw [signBytesVersionForApplied, hb, ok_bind, signBytesVersionFor_bigint, hs]
  rfl

/-- A version is returned for heights that can be read, only. -/
theorem readable_of_version {chainId : Value} {m : Applied} {v : Str}
    (h : signBytesVersionForApplied chainId m = .ok v) : ReadableHeights m := by
  obtain ⟨best, hb, _⟩ := bind_eq_ok.mp h
  exact readable_of_bestRead _ hb

/-! ## Heights as the node reports them -/

theorem toHeight_number (i : Int) : toHeight (.number (.finite i)) = .ok i := by
  simp [toHeight, mathTrunc, Double.toInt_int, bigInt]

theorem unit_toNat {c : Char} (h : c.toNat < 0x10000) : (unit c).toNat = c.toNat := by
  rw [unit, UInt16.toNat_ofNat']
  omega

theorem utf16_eq_map {s : List Char} (h : ∀ c ∈ s, c.toNat < 0x10000) : utf16 s = s.map unit := by
  induction s with
  | nil => rfl
  | cons c s ih =>
    have hc : utf16Char c = [unit c] := if_pos (h c List.mem_cons_self)
    rw [utf16, List.flatMap_cons, hc, List.map_cons, ← ih fun d hd => h d (List.mem_cons_of_mem _ hd)]
    rfl

theorem digit?_unit (c : Char) (h : c.isDigit) : digit? (unit c) = some (c.toNat - 48) := by
  obtain ⟨h₁, h₂⟩ := isDigit_toNat h
  rw [digit?, unit_toNat (by omega), if_pos (by simp [h₁, h₂])]

/-- Distinct characters of the basic plane are spelled differently. -/
theorem unit_ne {c d : Char} (h : c ≠ d) (hc : c.toNat < 0x10000) (hd : d.toNat < 0x10000) : unit c ≠ unit d := by
  intro he
  have hn := congrArg UInt16.toNat he
  rw [unit_toNat hc, unit_toNat hd] at hn
  exact h (Char.toNat_inj.mp hn)

/-- A digit is spelled unlike any other character. -/
theorem unit_digit_ne {c d : Char} (hc : c.isDigit) (hd : d.isDigit = false) (h : d.toNat < 0x10000) :
    unit c ≠ unit d := by
  have hcode := isDigit_toNat hc
  refine unit_ne ?_ (by omega) h
  rintro rfl
  exact Bool.false_ne_true (hd.symm.trans hc)

theorem strip_decimal (i : Int) : strip isStrWhiteSpace ((decimal i).map unit) = (decimal i).map unit := by
  apply strip_of_forall
  intro u hu
  obtain ⟨c, hc, rfl⟩ := List.mem_map.mp hu
  have hcode := decimal_toNat hc
  have hu : (unit c).toNat = c.toNat := unit_toNat (by omega)
  simp [isStrWhiteSpace, hu]
  omega

/-- Another base is announced by one of six letters. -/
theorem nonDecimal?_eq_some {t rest : Str} {base : Nat} (h : nonDecimal? t = some (base, rest)) :
    ∃ p : UInt16, t = unit '0' :: p :: rest ∧
      (p.toNat = 120 ∨ p.toNat = 88 ∨ p.toNat = 111 ∨ p.toNat = 79 ∨ p.toNat = 98 ∨ p.toNat = 66) := by
  match t with
  | [] => cases h
  | [_] => cases h
  | z :: p :: rest' =>
    rw [nonDecimal?] at h
    split_ifs at h with hz hx ho hb
    all_goals
      obtain rfl := not_not.mp hz
      obtain ⟨-, rfl⟩ := Prod.mk.inj (Option.some.inj h)
      refine ⟨p, rfl, ?_⟩
    · rcases hx with rfl | rfl <;> simp [unit]
    · rcases ho with rfl | rfl <;> simp [unit]
    · rcases hb with rfl | rfl <;> simp [unit]

/-- A canonical numeral announces no other base. -/
theorem nonDecimal?_decimal (i : Int) : nonDecimal? ((decimal i).map unit) = none := by
  refine Option.eq_none_iff_forall_ne_some.mpr fun ⟨base, rest⟩ h => ?_
  obtain ⟨p, ht, hletter⟩ := nonDecimal?_eq_some h
  have hp : p ∈ (decimal i).map unit := by rw [ht]; simp
  obtain ⟨c, hc, rfl⟩ := List.mem_map.mp hp
  have hcode := decimal_toNat hc
  rw [unit_toNat (by omega)] at hletter
  omega

/-- The canonical numeral of a height is read as the height. -/
theorem toHeight_decimal (i : Int) : toHeight (.string (utf16 (decimal i))) = .ok i := by
  have hascii : ∀ c ∈ decimal i, c.toNat < 0x10000 := fun c hc => by have := decimal_toNat hc; omega
  have hne : (decimal i).map unit ≠ [] := by simpa using decimal_ne_nil i
  have hread : stringToBigInt ((decimal i).map unit) = some i := by
    simp only [stringToBigInt, strip_decimal, if_neg hne, nonDecimal?_decimal]
    exact readSigned_decimal unit (by decide)
      (fun c hc => ⟨unit_digit_ne hc rfl (by decide), unit_digit_ne hc rfl (by decide)⟩)
      (readDigits_toDigits unit digit?_unit) i
  rw [utf16_eq_map hascii]
  simp [toHeight, bigInt, hread, decimal_ne_nil]

/-- How a node's answer reaches the map: absent, or a height as a number, a bigint or a canonical numeral. -/
inductive Spells : Value → Option Int → Prop
  | absent : Spells .undefined none
  | number (i : Int) : Spells (.number (.finite i)) (some i)
  | bigint (i : Int) : Spells (.bigint i) (some i)
  | string (i : Int) : Spells (.string (utf16 (decimal i))) (some i)

theorem Spells.toHeight {v : Value} {h : Option Int} (hv : Spells v h) : toHeight v = .ok (h.getD 0) := by
  cases hv with
  | absent => rfl
  | number i => exact toHeight_number i
  | bigint i => rfl
  | string i => exact toHeight_decimal i

/-! ## The builders -/

/-- The longest `Uint8Array` there can be. -/
def maxLength : Nat := 2 ^ 53 - 1

/-- `new Uint8Array(n)`. -/
def newUint8Array (n : Nat) : Except Stop Buffer := if n ≤ maxLength then .ok (Buffer.alloc n) else .error .rangeError

/-- `be32`: `n >>> 0` keeps the low 32 bits. -/
def be32 (n : Nat) : Bytes := beBytes 4 (UInt32.ofNat n).toNat

/-- `be64`: `setBigUint64` keeps the low 64 bits. -/
def be64 (n : Nat) : Bytes := beBytes 8 (UInt64.ofNat n).toNat

/-- `concat`; `out.set(p, o)` throws where `p` does not fit behind `o`. -/
def concat (parts : List Bytes) : Except Stop Buffer := do
  let out ← newUint8Array (parts.foldl (fun a p => a + p.length) 0)
  (out.copyAll 0 parts).elim (.error .rangeError) .ok

/-- `TextEncoder.encode`. -/
def encode (s : Str) : Bytes := utf8 (decode16 '\uFFFD' s)

/-- `hybridSignBytesV1`. -/
def hybridSignBytesV1 (bodyWithoutPqcExt authInfoBytes : Bytes) : Except Stop Buffer :=
  concat [be32 bodyWithoutPqcExt.length, bodyWithoutPqcExt, be32 authInfoBytes.length, authInfoBytes]

/-- `hybridSignBytesV2`. -/
def hybridSignBytesV2 (chainId : Value) (bodyWithoutPqcExt authInfoBytes : Bytes) : Except Stop Buffer :=
  match chainId with
  | .string s =>
    if s.length = 0 then .error (.error "hybridSignBytesV2: chainId is required" none)
    else
      let cid := encode s
      concat [encode hybridSignBytesV2Domain, be64 cid.length, cid, be32 bodyWithoutPqcExt.length, bodyWithoutPqcExt,
        be32 authInfoBytes.length, authInfoBytes]
  | _ => .error (.error "hybridSignBytesV2: chainId is required" none)

/-- What the dispatcher throws at an unknown version; a bigint cannot be shown with `JSON.stringify`, nor can some
objects. -/
def badVersion : Value → Stop
  | .bigint _ => .typeError
  | .other _ => .other
  | version => .error "hybridSignBytes: version must be 'v1' or 'v2', got" (some version)

/-- `hybridSignBytes`. -/
def hybridSignBytes (version chainId : Value) (bodyWithoutPqcExt authInfoBytes : Bytes) : Except Stop Buffer :=
  if version = .string (str "v2") then hybridSignBytesV2 chainId bodyWithoutPqcExt authInfoBytes
  else if version = .string (str "v1") then hybridSignBytesV1 bodyWithoutPqcExt authInfoBytes
  else .error (badVersion version)

/-- **Concatenation**: the parts fill the array, unless it would be too long. -/
theorem concat_eq (parts : List Bytes) : concat parts =
    if parts.flatten.length ≤ maxLength then .ok (Buffer.filled parts.flatten 0) else .error .rangeError := by
  have hsum : parts.foldl (fun a p => a + p.length) 0 = parts.flatten.length := by
    rw [List.length_flatten, List.sum_eq_foldl, List.foldl_map]
  rw [concat, hsum, newUint8Array]
  split
  · rw [ok_bind, Buffer.copyAll_alloc, if_pos (Nat.le_refl _), Nat.sub_self]; rfl
  · rfl

theorem be32_eq (n : Nat) : be32 n = beBytes 4 n := beBytes_ofNat32 n

theorem be64_eq (n : Nat) : be64 n = beBytes 8 n := beBytes_ofNat64 n

theorem encode_utf16 (s : List Char) : encode (utf16 s) = utf8 s := by rw [encode, decode16_utf16]

theorem encode_domain : encode hybridSignBytesV2Domain = Format.domain := encode_utf16 _

/-- **The v1 builder**, on every input. -/
theorem hybridSignBytesV1_eq (b0 auth : Bytes) : hybridSignBytesV1 b0 auth =
    if 8 + b0.length + auth.length ≤ maxLength then .ok (Buffer.filled (Format.v1 b0 auth) 0)
    else .error .rangeError := by
  rw [hybridSignBytesV1, be32_eq, be32_eq, concat_eq, Format.flatten_v1, Format.length_v1]

/-- **The v2 builder**, on every non-empty chain id. -/
theorem hybridSignBytesV2_eq {s : Str} (hs : s ≠ []) (b0 auth : Bytes) : hybridSignBytesV2 (.string s) b0 auth =
    if 39 + (encode s).length + b0.length + auth.length ≤ maxLength then
      .ok (Buffer.filled (Format.v2 (encode s) b0 auth) 0)
    else .error .rangeError := by
  have hs0 : ¬ s.length = 0 := fun h => hs (List.length_eq_zero_iff.mp h)
  simp only [hybridSignBytesV2, if_neg hs0, encode_domain, be32_eq, be64_eq, concat_eq, Format.flatten_v2,
    Format.length_v2]

end QorechainPqc.Js
