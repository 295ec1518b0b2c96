import QorechainPqc.SignBytes.Js

/-!
# What the JavaScript builders may be given

The builders of `index.js` do not test `bodyWithoutPqcExt` and `authInfoBytes`. They read `length` for the length field,
for the size of the array and for the offsets, and hand the value to `TypedArray.prototype.set`, which copies the
elements of a typed array or of anything with a `length`, each converted to a number modulo 256. A `length` may be any
value, and may answer differently each time. A `Source` is what the builders find, and here they are over it.

Of a typed array with one-byte elements `set` copies the bytes as they are (`TypedArray.stored_of_size`).
-/

namespace QorechainPqc.Js.Dynamic

open Failing Framing Text

/-! ## Numbers and strings -/

/-- A number that is a natural one. -/
def nat (n : Nat) : Value := .number (.finite n)

/-- A decimal literal without a sign: digits with a point among them, and an exponent. -/
def unsignedDecimal? (s : Str) : Option Rat := do
  let (mantissa, exponent) := s.span fun u => u ≠ unit 'e' ∧ u ≠ unit 'E'
  let (whole, fraction) := mantissa.span fun u => u ≠ unit '.'
  let n ← readDigits digit? 10 (whole ++ fraction.drop 1)
  let e ← if exponent = [] then some 0 else readSigned (unit '+') (unit '-') (readDigits digit? 10) (exponent.drop 1)
  return n * 10 ^ (e - (fraction.drop 1).length)

/-- `StringToNumber`. -/
def stringToNumber (s : Str) : Double :=
  let t := strip isStrWhiteSpace s
  if t = [] then .finite 0
  else match nonDecimal? t with
    | some (base, rest) => (readDigits digit? base rest).elim .nan fun n => .nearest n
    | none =>
      let sign := t.head? = some (unit '-')
      let u := if sign ∨ t.head? = some (unit '+') then t.drop 1 else t
      if u = str "Infinity" then .infinite sign
      else (unsignedDecimal? u).elim .nan fun q => .nearest (if sign then -q else q)

/-- `ToNumber`, of anything but an object. -/
def toNumber : Value → Except Stop Double
  | .undefined => .ok .nan
  | .null => .ok (.finite 0)
  | .boolean b => .ok (.finite (if b then 1 else 0))
  | .number n => .ok n
  | .bigint _ => .error .typeError
  | .string s => .ok (stringToNumber s)
  | .other _ => .error .typeError

/-- `ToString`, of anything but an object. -/
def toStr : Value → Except Stop Str
  | .undefined => .ok (str "undefined")
  | .null => .ok (str "null")
  | .boolean b => .ok (if b then str "true" else str "false")
  | .number n => .ok (utf16 n.spell)
  | .bigint i => .ok (utf16 (decimal i))
  | .string s => .ok s
  | .other _ => .error .typeError

/-- `a + b`: with a string, the two behind each other. -/
def plus : Value → Value → Except Stop Value
  | .string s, b => do return .string (s ++ (← toStr b))
  | a, .string t => do return .string ((← toStr a) ++ t)
  | .bigint i, .bigint j => .ok (.bigint (i + j))
  | a, b => do return .number ((← toNumber a).add (← toNumber b))

/-- A value as an offset or a size. -/
def toIndex (v : Value) : Except Stop Nat := do
  match ← toNumber v with
  | .nan => return 0
  | .infinite _ => throw .rangeError
  | .finite q => if q.num.tdiv q.den < 0 then throw .rangeError else return (q.num.tdiv q.den).toNat

/-- `ToLength`: a value as the number of elements of an object. -/
def toLength (v : Value) : Except Stop Nat := do
  match ← toNumber v with
  | .nan => return 0
  | .infinite negative => return if negative then 0 else maxLength
  | .finite q => return min (q.num.tdiv q.den).toNat maxLength

/-- `be32`: `n >>> 0` keeps the low 32 bits of an integer, and makes `0` of what is not a number. -/
def be32 (n : Value) : Except Stop Bytes := do
  return beBytes 4 ((← toNumber n).toInt.elim 0 fun i => (i % 2 ^ 32).toNat)

/-- `ToUint8`. -/
def toUint8 : Double → UInt8
  | .finite q => UInt8.ofNat (q.num.tdiv q.den % 256).toNat
  | _ => 0

/-! ## Typed arrays -/

/-- The element types. -/
inductive Kind
  | int8
  | uint8
  | uint8Clamped
  | int16
  | uint16
  | int32
  | uint32
  | float16
  | float32
  | float64
  | bigInt64
  | bigUint64
deriving DecidableEq

/-- The bytes of an element. -/
def Kind.size : Kind → Nat
  | .int8 | .uint8 | .uint8Clamped => 1
  | .int16 | .uint16 | .float16 => 2
  | .int32 | .uint32 | .float32 => 4
  | .float64 | .bigInt64 | .bigUint64 => 8

/-- The elements are bigints. -/
def Kind.isBigInt : Kind → Bool
  | .bigInt64 | .bigUint64 => true
  | _ => false

/-- The number whose IEEE 754 encoding has `e` exponent bits, `m` significand bits and the value `n`. -/
def binary (e m n : Nat) : Double :=
  let negative := n / 2 ^ (e + m) % 2 = 1
  let exponent := n / 2 ^ m % 2 ^ e
  let significand := n % 2 ^ m
  if exponent = 2 ^ e - 1 then if significand = 0 then .infinite negative else .nan
  else
    let magnitude : Rat := if exponent = 0 then significand * 2 ^ (2 - 2 ^ (e - 1) - m : Int)
      else (2 ^ m + significand) * 2 ^ (1 + exponent - 2 ^ (e - 1) - m : Int)
    .finite (if negative then -magnitude else magnitude)

/-- The number that an element holds, from the value of its bytes; the elements of the two bigint types hold none. -/
def Kind.number (k : Kind) (n : Nat) : Double :=
  match k with
  | .int8 => .finite (Int.bmod n (2 ^ 8))
  | .int16 => .finite (Int.bmod n (2 ^ 16))
  | .int32 => .finite (Int.bmod n (2 ^ 32))
  | .uint8 | .uint8Clamped | .uint16 | .uint32 => .finite n
  | .float16 => binary 5 10 n
  | .float32 => binary 8 23 n
  | .float64 => binary 11 52 n
  | .bigInt64 | .bigUint64 => .nan

/-- A typed array: its element type and the bytes of its view, a whole number of elements. -/
structure TypedArray where
  kind : Kind
  raw : Bytes
  whole : kind.size ∣ raw.length

namespace TypedArray

/-- `length`. -/
def length (a : TypedArray) : Nat := a.raw.length / a.kind.size

/-- An element as a number; the bytes are little-endian. -/
def element (a : TypedArray) (i : Nat) : Double :=
  a.kind.number (beVal ((a.raw.drop (i * a.kind.size)).take a.kind.size).reverse)

/-- What `set` of a `Uint8Array` copies: the same bytes, or the elements as they are converted. -/
def stored (a : TypedArray) : Bytes :=
  if a.kind = .uint8 then a.raw else (List.range a.length).map fun i => toUint8 (a.element i)

end TypedArray

/-! ## Values -/

/-- What `set` finds. -/
inductive Contents
  /-- `undefined` or `null`. -/
  | nullish
  | string (s : Str)
  | typed (a : TypedArray)
  /-- A typed array whose buffer is detached. -/
  | detached
  /-- Anything else, arrays among them: the bytes of its buffer, if it has one, its `length`, and the elements as
  numbers, where they can be converted. -/
  | object (buffer : Option Bytes) (length : Except Stop Value) (element : Nat → Except Stop Double)

namespace Contents

/-- How many elements `set` copies. -/
def count : Contents → Except Stop Nat
  | nullish => .error .typeError
  | string s => .ok s.length
  | typed a => if a.kind.isBigInt then .error .typeError else .ok a.length
  | detached => .error .typeError
  | object _ length _ => length >>= toLength

/-- What `set` copies, one element after the other. -/
def stored : Contents → Except Stop Bytes
  | nullish => .error .typeError
  | string s => .ok (s.map fun u => toUint8 (stringToNumber [u]))
  | typed a => .ok a.stored
  | detached => .error .typeError
  | object _ length element => do
    let n ← length >>= toLength
    (List.range n).mapM fun i => (element i).map toUint8

/-- The bytes of a value, if it has a buffer: of a typed array those of its view. -/
def raw : Contents → Option Bytes
  | typed a => some a.raw
  | object buffer _ _ => buffer
  | _ => none

end Contents

/-- What the builders may be given: what the reads of `length` answer, as far as an operator takes it, and what there is
to be copied. -/
structure Source where
  /-- `length` as `be32` reads it. -/
  field : Except Stop Value
  /-- `length` as it is added up for the size of the array. -/
  room : Except Stop Value
  /-- `length` as it is added to the offset. -/
  step : Except Stop Value
  contents : Contents

namespace Source

/-- A value whose `length` is `n` whenever it is read. -/
def steady (n : Value) (contents : Contents) : Source := ⟨.ok n, .ok n, .ok n, contents⟩

/-- A typed array as it is made. -/
def typed (a : TypedArray) : Source := steady (nat a.length) (.typed a)

/-- A `Uint8Array`. -/
def bytes (b : Bytes) : Source := typed ⟨.uint8, b, one_dvd _⟩

end Source

/-! ## The builders -/

/-- `out.set(p, o)`. -/
def set (out : Buffer) (p : Source) (o : Value) : Except Stop Buffer := do
  let offset ← toIndex o
  let n ← p.contents.count
  if out.size < offset + n then throw .rangeError
  let bytes ← p.contents.stored
  (out.write offset bytes).elim (.error .rangeError) .ok

/-- The loop of `concat`, from offset `o` on. -/
def setAll (out : Buffer) (o : Value) : List Source → Except Stop Buffer
  | [] => .ok out
  | p :: ps => do
    let out ← set out p o
    let o ← plus o (← p.step)
    setAll out o ps

/-- The sum of the lengths, from `a` on. -/
def total (a : Value) (parts : List Source) : Except Stop Value :=
  parts.foldlM (fun a p => do plus a (← p.room)) a

/-- `concat`. -/
def concat (parts : List Source) : Except Stop Buffer := do
  let n ← total (nat 0) parts
  let out ← newUint8Array (← toIndex n)
  setAll out (nat 0) parts

/-- `hybridSignBytesV1`. -/
def hybridSignBytesV1 (bodyWithoutPqcExt authInfoBytes : Source) : Except Stop Buffer := do
  let n₀ ← be32 (← bodyWithoutPqcExt.field)
  let n₁ ← be32 (← authInfoBytes.field)
  concat [.bytes n₀, bodyWithoutPqcExt, .bytes n₁, authInfoBytes]

/-- `hybridSignBytesV2`. -/
def hybridSignBytesV2 (chainId : Value) (bodyWithoutPqcExt authInfoBytes : Source) : Except Stop Buffer :=
  match chainId with
  | .string s =>
    if s.length = 0 then .error (.error "hybridSignBytesV2: chainId is required" none)
    else do
      let cid := encode s
      let n₀ ← be32 (← bodyWithoutPqcExt.field)
      let n₁ ← be32 (← authInfoBytes.field)
      concat [.bytes (encode hybridSignBytesV2Domain), .bytes (be64 cid.length), .bytes cid, .bytes n₀,
        bodyWithoutPqcExt, .bytes n₁, authInfoBytes]
  | _ => .error (.error "hybridSignBytesV2: chainId is required" none)

/-! ## Natural numbers -/

theorem toUint8_int (i : Int) : toUint8 (.finite i) = UInt8.ofNat (i % 256).toNat := by
  simp [toUint8]

namespace TypedArray

theorem length_stored (a : TypedArray) : a.stored.length = a.length := by
  unfold stored
  split
  · next h => rw [length, h]; exact (Nat.div_one _).symm
  · rw [List.length_map, List.length_range]

theorem toUint8_number {k : Kind} (h : k.size = 1) (x : UInt8) : toUint8 (k.number x.toNat) = x := by
  have hx := x.toNat_lt
  have hback (i : Int) (hi : (i % 256).toNat = x.toNat) : toUint8 (.finite i) = x := by
    rw [toUint8_int, hi, UInt8.ofNat_toNat]
  cases k with
  | int8 =>
    have hmod : Int.bmod x.toNat (2 ^ 8) % (2 ^ 8 : Nat) = (x.toNat : Int) % (2 ^ 8 : Nat) := Int.bmod_emod
    exact hback _ (by omega)
  | uint8 => exact hback x.toNat (by omega)
  | uint8Clamped => exact hback x.toNat (by omega)
  | _ => cases h

/-- One-byte elements are copied as they are. -/
theorem stored_of_size {a : TypedArray} (h : a.kind.size = 1) : a.stored = a.raw := by
  unfold stored
  split
  · rfl
  · have hl : a.length = a.raw.length := by rw [length, h, Nat.div_one]
    refine List.ext_getElem ?_ fun i hi hi' => ?_
    · rw [List.length_map, List.length_range, hl]
    rw [List.getElem_map, List.getElem_range, element, h, Nat.mul_one]
    have hbyte : beVal (((a.raw.drop i).take 1).reverse) = a.raw[i].toNat := by
      rw [List.drop_eq_getElem_cons hi', List.take_succ_cons, List.take_zero, List.reverse_singleton]
      exact beVal_snoc [] _ |>.trans (Nat.zero_add _)
    rw [hbyte, toUint8_number h]

end TypedArray

namespace Contents

theorem length_stored {c : Contents} {n : Nat} {bs : Bytes} (hn : c.count = .ok n) (hbs : c.stored = .ok bs) :
    bs.length = n := by
  cases c with
  | nullish => cases hn
  | string s =>
    cases hn
    cases hbs
    exact List.length_map _
  | typed a =>
    rw [count] at hn
    split at hn
    · cases hn
    · cases hn
      cases hbs
      exact a.length_stored
  | detached => cases hn
  | object buffer length element =>
    have hn : (length >>= toLength) = .ok n := hn
    rw [stored, hn, ok_bind] at hbs
    rw [length_of_mapM hbs, List.length_range]

/-- `set` can copy the value: it has `n` elements, and they can be converted. -/
def Copies (c : Contents) (n : Nat) : Prop := c.count = .ok n ∧ ∃ bs, c.stored = .ok bs

end Contents

end QorechainPqc.Js.Dynamic
