import QorechainPqc.SignBytes.Js
import QorechainPqc.SignBytes.Python

/-!
# Strings that are read as heights

`BigInt` and `int` read most strings alike, but not all. A `JsForm` is one that `BigInt` alone may read: only white
space, a numeral in another base, or `U+FEFF` next to a decimal one. A `PythonForm` is one that `int` alone may read:
with an underscore, `U+0085` or a digit outside ASCII. `python_rejects`, `js_rejects` and `read_alike` say that these
are all.

A string of Python is any list of code points, and the same string of JavaScript its code units.
-/

namespace QorechainPqc

open Text

/-! ## What JavaScript reads -/

namespace Js

theorem isStrWhiteSpace_iff {u : UInt16} : isStrWhiteSpace u = true ↔
    9 ≤ u.toNat ∧ u.toNat ≤ 13 ∨ 0x2000 ≤ u.toNat ∧ u.toNat ≤ 0x200A ∨ u.toNat = 0x20 ∨ u.toNat = 0xA0 ∨
      u.toNat = 0x1680 ∨ u.toNat = 0x2028 ∨ u.toNat = 0x2029 ∨ u.toNat = 0x202F ∨ u.toNat = 0x205F ∨
      u.toNat = 0x3000 ∨ u.toNat = 0xFEFF := by
  simp [isStrWhiteSpace, or_assoc]

/-- White space, a sign, a digit or a letter. -/
def Legible (u : UInt16) : Prop :=
  isStrWhiteSpace u = true ∨ u.toNat = 43 ∨ u.toNat = 45 ∨ 48 ≤ u.toNat ∧ u.toNat ≤ 57 ∨
    65 ≤ u.toNat ∧ u.toNat ≤ 90 ∨ 97 ≤ u.toNat ∧ u.toNat ≤ 122

theorem legible_of_digit? {u : UInt16} {d : Nat} (h : digit? u = some d) : Legible u := by
  unfold digit? at h
  split at h
  · rename_i hu
    simp only [Bool.and_eq_true, decide_eq_true_eq] at hu
    exact Or.inr (by omega)
  · split at h
    · rename_i hu
      simp only [Bool.and_eq_true, decide_eq_true_eq] at hu
      exact Or.inr (by omega)
    · split at h
      · rename_i hu
        simp only [Bool.and_eq_true, decide_eq_true_eq] at hu
        exact Or.inr (by omega)
      · cases h

/-- One more digit of a decimal numeral. -/
theorem pushDigit_ten (n : Nat) (u : UInt16) : pushDigit digit? 10 n u =
    if 48 ≤ u.toNat ∧ u.toNat ≤ 57 then some (10 * n + (u.toNat - 48)) else none := by
  unfold pushDigit digit?
  simp only [Bool.and_eq_true, decide_eq_true_eq]
  split
  · rw [Option.bind_some, if_pos (by omega)]
  · split
    · rw [Option.bind_some, if_neg (by omega)]
    · split
      · rw [Option.bind_some, if_neg (by omega)]
      · rfl

/-- What is read is legible. -/
theorem legible_of_stringToBigInt {s : Str} {i : Int} (h : stringToBigInt s = some i) : ∀ u ∈ s, Legible u := by
  intro u hu
  have hstrip : isStrWhiteSpace u = true ∨ u ∈ strip isStrWhiteSpace s := mem_strip hu
  rcases hstrip with hw | ht
  · exact Or.inl hw
  simp only [stringToBigInt, if_neg (List.ne_nil_of_mem ht)] at h
  split at h
  · rename_i base rest hn
    obtain ⟨n, hn', -⟩ := Option.map_eq_some_iff.mp h
    obtain ⟨p, hp, hletter⟩ := nonDecimal?_eq_some hn
    rw [hp] at ht
    rcases List.mem_cons.mp ht with rfl | ht
    · simp [Legible, unit]
    rcases List.mem_cons.mp ht with rfl | ht
    · exact Or.inr (by omega)
    obtain ⟨d, hd, -⟩ := (mem_of_readDigits hn').2 u ht
    exact legible_of_digit? hd
  · obtain ⟨l, n, hn, -, hmem⟩ := mem_of_readSigned h
    rcases hmem u ht with rfl | rfl | hl
    · simp [Legible, unit]
    · simp [Legible, unit]
    · obtain ⟨d, hd, -⟩ := (mem_of_readDigits hn).2 u hl
      exact legible_of_digit? hd

end Js

/-! ## What Python reads -/

namespace Python

theorem isWideSpace_iff {p : CodePoint} : isWideSpace p = true ↔
    0x2000 ≤ p.val ∧ p.val ≤ 0x200A ∨ p.val = 0x85 ∨ p.val = 0xA0 ∨ p.val = 0x1680 ∨ p.val = 0x2028 ∨
      p.val = 0x2029 ∨ p.val = 0x202F ∨ p.val = 0x205F ∨ p.val = 0x3000 := by
  simp [isWideSpace]

variable {digits : Digits}

/-- A decimal digit outside ASCII. -/
def WideDigit (digits : Digits) (p : CodePoint) : Prop := ∃ z ∈ digits.zeros, z ≤ p.val ∧ p.val < z + 10

/-- No digit is white space, nor a letter or sign of ASCII. -/
theorem WideDigit.range {p : CodePoint} (h : WideDigit digits p) : 128 ≤ p.val ∧ p.val ≠ 0xFEFF ∧
    ¬(0x2000 ≤ p.val ∧ p.val ≤ 0x200A ∨ p.val = 0x85 ∨ p.val = 0xA0 ∨ p.val = 0x1680 ∨ p.val = 0x2028 ∨
      p.val = 0x2029 ∨ p.val = 0x202F ∨ p.val = 0x205F ∨ p.val = 0x3000) := by
  obtain ⟨z, hz, hle, hlt⟩ := h
  obtain ⟨hge, hspace, hmark⟩ := digits.outside z hz p hle hlt
  refine ⟨hge, hmark, fun hw => ?_⟩
  rw [isWideSpace_iff.mpr hw] at hspace
  cases hspace

/-- The four kinds of code points. -/
theorem toAscii_cases (p : CodePoint) : p.val < 127 ∧ toAscii digits p = Char.ofNat p.val ∨
    127 ≤ p.val ∧ isWideSpace p = true ∧ toAscii digits p = ' ' ∨ WideDigit digits p ∨
    127 ≤ p.val ∧ isWideSpace p = false ∧ toAscii digits p = '?' := by
  unfold toAscii
  split
  · rename_i h
    exact Or.inl ⟨h, rfl⟩
  · rename_i h
    split
    · rename_i hs
      exact Or.inr (Or.inl ⟨by omega, hs, rfl⟩)
    · rename_i hs
      split
      · rename_i z hz
        have hd := List.find?_some hz
        simp only [Bool.and_eq_true, decide_eq_true_eq] at hd
        exact Or.inr (Or.inr (Or.inl ⟨z, List.mem_of_find?_eq_some hz, hd⟩))
      · exact Or.inr (Or.inr (Or.inr ⟨by omega, Bool.eq_false_iff.mpr hs, rfl⟩))

theorem ofNat_toNat {n : Nat} (h : n < 127) : (Char.ofNat n).toNat = n := by
  rw [Char.ofNat, dif_pos (Or.inl (by omega))]
  rfl

/-- White space, a sign, an underscore or a digit. -/
def Legible (c : Char) : Prop := isSpace c = true ∨ c = '+' ∨ c = '-' ∨ c = '_' ∨ c.isDigit = true

theorem isDigit_of_digit? {c : Char} {d : Nat} (h : digit? c = some d) : c.isDigit = true := by
  unfold digit? at h
  split at h
  · assumption
  · cases h

/-- What is read is legible, and a digit occurs. -/
theorem legible_of_parseInt {s : Str} {i : Int} (h : parseInt digits s = some i) :
    (∀ p ∈ s, Legible (toAscii digits p)) ∧ ∃ p ∈ s, (toAscii digits p).isDigit = true := by
  obtain ⟨l, n, hn, hl, hsigned⟩ := mem_of_readSigned h
  obtain ⟨l', hgroup, hdigits⟩ := Option.bind_eq_some_iff.mp hn
  obtain ⟨hl', hgrouped⟩ := mem_of_ungroup hgroup
  obtain ⟨hne, hdigit⟩ := mem_of_readDigits hdigits
  constructor
  · intro p hp
    have hstrip : isSpace (toAscii digits p) = true ∨ toAscii digits p ∈ strip isSpace (s.map (toAscii digits)) :=
      mem_strip (List.mem_map_of_mem hp)
    rcases hstrip with hw | ht
    · exact Or.inl hw
    rcases hsigned _ ht with hc | hc | hc
    · simp [Legible, hc]
    · simp [Legible, hc]
    rcases hgrouped _ hc with hc | hc
    · simp [Legible, hc]
    · obtain ⟨d, hd, -⟩ := hdigit _ hc
      simp [Legible, isDigit_of_digit? hd]
  · obtain ⟨c, hc⟩ := List.exists_mem_of_ne_nil l' hne
    obtain ⟨d, hd, -⟩ := hdigit c hc
    obtain ⟨p, hp, rfl⟩ := List.mem_map.mp (strip_subset (hl (hl' hc)))
    exact ⟨p, hp, isDigit_of_digit? hd⟩

theorem isSpace_iff {c : Char} : isSpace c = true ↔ 9 ≤ c.toNat ∧ c.toNat ≤ 13 ∨ c.toNat = 32 := by
  simp [isSpace]

/-- A character of ASCII stands for itself, except for the blank and the question mark. -/
theorem toAscii_eq_iff {p : CodePoint} {c : Char} (hw : ¬WideDigit digits p) (hc : c.toNat < 127) (hs : c ≠ ' ')
    (hq : c ≠ '?') : toAscii digits p = c ↔ p.val = c.toNat := by
  rcases toAscii_cases p with ⟨hp, he⟩ | ⟨hp, -, he⟩ | hd | ⟨hp, -, he⟩
  · rw [he, ← Char.toNat_inj, ofNat_toNat hp]
  · rw [he]
    exact iff_of_false hs.symm (by omega)
  · exact absurd hd hw
  · rw [he]
    exact iff_of_false hq.symm (by omega)

theorem isDigit_toAscii {p : CodePoint} (hw : ¬WideDigit digits p) :
    (toAscii digits p).isDigit = true ↔ 48 ≤ p.val ∧ p.val ≤ 57 := by
  rcases toAscii_cases p with ⟨hp, he⟩ | ⟨hp, -, he⟩ | hd | ⟨hp, -, he⟩
  · rw [he]
    constructor
    · intro h
      have := isDigit_toNat h
      rwa [ofNat_toNat hp] at this
    · intro h
      simp only [Char.isDigit, Bool.and_eq_true, decide_eq_true_eq, ge_iff_le, UInt32.le_iff_toNat_le]
      have hn : (Char.ofNat p.val).val.toNat = p.val := ofNat_toNat hp
      rw [hn]
      exact h
  · rw [he]
    exact iff_of_false (by decide) (by omega)
  · exact absurd hd hw
  · rw [he]
    exact iff_of_false (by decide) (by omega)

/-- One more digit of a decimal numeral. -/
theorem pushDigit_ten (n : Nat) (c : Char) :
    pushDigit digit? 10 n c = if c.isDigit then some (10 * n + (c.toNat - 48)) else none := by
  unfold pushDigit digit?
  split
  · rename_i hc
    have := isDigit_toNat hc
    rw [Option.bind_some, if_pos (by omega)]
  · rfl

theorem readGrouped_of_notMem {l : List Char} (h : '_' ∉ l) : readGrouped l = readDigits digit? 10 l := by
  by_cases hl : l = []
  · rw [hl]; rfl
  · rw [readGrouped, ungroup_of_notMem hl h, Option.bind_some]

end Python

/-! ## One string in both languages -/

variable {digits : Python.Digits}

/-- The code points that the two languages take alike, the underscore apart. -/
structure Shared (digits : Python.Digits) (p : CodePoint) : Prop where
  basic : p.val < 0x10000
  mark : p.val ≠ 0xFEFF
  nextLine : p.val ≠ 0x85
  digit : ¬Python.WideDigit digits p

namespace Shared

variable {p : CodePoint}

theorem toNat (h : Shared digits p) : (UInt16.ofNat p.val).toNat = p.val := by
  have := h.basic
  rw [UInt16.toNat_ofNat']
  omega

theorem white (h : Shared digits p) :
    Js.isStrWhiteSpace (UInt16.ofNat p.val) = Python.isSpace (Python.toAscii digits p) := by
  have hmark := h.mark
  have hnext := h.nextLine
  rw [Bool.eq_iff_iff, Js.isStrWhiteSpace_iff, h.toNat]
  rcases Python.toAscii_cases p with ⟨hp, he⟩ | ⟨hp, hs, he⟩ | hd | ⟨hp, hs, he⟩
  · rw [he, Python.isSpace_iff, Python.ofNat_toNat hp]
    omega
  · rw [he]
    have := Python.isWideSpace_iff.mp hs
    exact iff_of_true (by omega) rfl
  · exact absurd hd h.digit
  · rw [he]
    have := mt Python.isWideSpace_iff.mpr (Bool.eq_false_iff.mp hs)
    exact iff_of_false (by omega) (by decide)

theorem sign (h : Shared digits p) {c : Char} (hc : c = '+' ∨ c = '-') :
    UInt16.ofNat p.val = Js.unit c ↔ Python.toAscii digits p = c := by
  have hcode : (Js.unit c).toNat = c.toNat ∧ c.toNat < 127 ∧ c ≠ ' ' ∧ c ≠ '?' := by
    rcases hc with rfl | rfl
    · decide
    · decide
  obtain ⟨hu, hlt, hs, hq⟩ := hcode
  rw [Python.toAscii_eq_iff h.digit hlt hs hq, ← UInt16.toNat_inj, h.toNat, hu]

theorem pushDigit (h : Shared digits p) (n : Nat) : pushDigit Js.digit? 10 n (UInt16.ofNat p.val) =
    Text.pushDigit Python.digit? 10 n (Python.toAscii digits p) := by
  rw [Python.pushDigit_ten, Js.pushDigit_ten, h.toNat]
  by_cases hd : 48 ≤ p.val ∧ p.val ≤ 57
  · have hcode : (Python.toAscii digits p).toNat = p.val := by
      rcases Python.toAscii_cases p with ⟨hp, he⟩ | ⟨hp, -⟩ | hw | ⟨hp, -⟩
      · rw [he, Python.ofNat_toNat hp]
      · omega
      · exact absurd hw h.digit
      · omega
    rw [if_pos hd, if_pos ((Python.isDigit_toAscii h.digit).mpr hd), hcode]
  · rw [if_neg hd, if_neg (mt (Python.isDigit_toAscii h.digit).mp hd)]

end Shared

/-- **Decimal numerals** are read alike where all code points are shared. -/
theorem decimal_alike {s : Python.Str} (h : ∀ p ∈ s, Shared digits p) (hu : ∀ p ∈ s, p.val ≠ 95) :
    readSigned (Js.unit '+') (Js.unit '-') (readDigits Js.digit? 10) (strip Js.isStrWhiteSpace (units s)) =
      Python.parseInt digits s := by
  have hstrip : strip (Js.isStrWhiteSpace ∘ fun p : CodePoint => UInt16.ofNat p.val) s =
      strip (Python.isSpace ∘ Python.toAscii digits) s := strip_congr fun p hp => (h p hp).white
  rw [units_eq_map fun p hp => (h p hp).basic, strip_map, hstrip, Python.parseInt, strip_map]
  have hsub : strip (Python.isSpace ∘ Python.toAscii digits) s ⊆ s := strip_subset
  refine readSigned_congr (fun p hp => (h p (hsub hp)).sign (Or.inl rfl))
    (fun p hp => (h p (hsub hp)).sign (Or.inr rfl)) fun t ht => ?_
  have hgroup : '_' ∉ t.map (Python.toAscii digits) := by
    intro hmem
    obtain ⟨p, hp, he⟩ := List.mem_map.mp hmem
    have hps := hsub (ht hp)
    exact hu p hps ((Python.toAscii_eq_iff (h p hps).digit (by decide) (by decide) (by decide)).mp he)
  rw [Python.readGrouped_of_notMem hgroup]
  exact readDigits_congr fun p hp n => (h p (hsub (ht hp))).pushDigit n

/-! ## Strings that one language alone may read -/

/-- White space only, a numeral in another base, or `U+FEFF` somewhere. -/
def JsForm (s : Python.Str) : Prop :=
  s ≠ [] ∧ strip Js.isStrWhiteSpace (units s) = [] ∨
    (Js.nonDecimal? (strip Js.isStrWhiteSpace (units s))).isSome = true ∨ ∃ p ∈ s, p.val = 0xFEFF

/-- An underscore, `U+0085`, or a digit outside ASCII. -/
def PythonForm (digits : Python.Digits) (s : Python.Str) : Prop :=
  ∃ p ∈ s, p.val = 95 ∨ p.val = 0x85 ∨ Python.WideDigit digits p

section Forms

variable {s : Python.Str}

theorem Js.toHeight_string (s : Js.Str) : (Js.toHeight (.string s)).toOption = Js.stringToBigInt s := by
  by_cases hs : s = []
  · rw [hs]; rfl
  · simp only [Js.toHeight, Js.bigInt, reduceCtorEq, Js.Value.string.injEq, hs, or_self, if_false]
    cases Js.stringToBigInt s <;> rfl

theorem Python.height_str (hs : s ≠ []) : (Python.height digits (.str s)).toOption = Python.parseInt digits s := by
  rw [Python.height, if_neg hs, Python.intOfStr]
  cases Python.parseInt digits s <;> rfl

/-- A code point among legible code units is legible, hence shared or `U+FEFF`. -/
theorem Js.shared_of_legible (h : ∀ u ∈ units s, Js.Legible u) {p : CodePoint} (hp : p ∈ s) :
    (p.val ≠ 0xFEFF → Shared digits p) ∧ p.val ≠ 95 ∧ p.val ≠ 0x85 ∧ ¬Python.WideDigit digits p := by
  rcases units_of_mem hp with ⟨hlt, hu⟩ | ⟨-, u, hu, hhigh⟩
  · have hunit : (UInt16.ofNat p.val).toNat = p.val := by
      rw [UInt16.toNat_ofNat']
      omega
    have hleg := h _ hu
    rw [Js.Legible, Js.isStrWhiteSpace_iff, hunit] at hleg
    have hwide : ¬Python.WideDigit digits p := fun hd => by
      have := hd.range
      omega
    exact ⟨fun hmark => ⟨hlt, hmark, by omega, hwide⟩, by omega, by omega, hwide⟩
  · have hleg := h u hu
    rw [Js.Legible, Js.isStrWhiteSpace_iff] at hleg
    simp only [isHigh, Bool.and_eq_true, decide_eq_true_eq] at hhigh
    omega

theorem Python.legible_toNat {c : Char} (h : Python.Legible c) : 9 ≤ c.toNat ∧ c.toNat ≤ 13 ∨ c.toNat = 32 ∨
    c.toNat = 43 ∨ c.toNat = 45 ∨ c.toNat = 95 ∨ 48 ≤ c.toNat ∧ c.toNat ≤ 57 := by
  rcases h with h | rfl | rfl | rfl | h
  · have := Python.isSpace_iff.mp h
    omega
  · decide
  · decide
  · decide
  · have := isDigit_toNat h
    omega

/-- A legible code point is one of ASCII, white space or a digit. -/
theorem Python.val_of_legible {p : CodePoint} (h : Python.Legible (Python.toAscii digits p)) :
    (9 ≤ p.val ∧ p.val ≤ 13 ∨ p.val = 32 ∨ p.val = 43 ∨ p.val = 45 ∨ p.val = 95 ∨ 48 ≤ p.val ∧ p.val ≤ 57) ∨
      127 ≤ p.val ∧ Python.isWideSpace p = true ∨ Python.WideDigit digits p := by
  rcases Python.toAscii_cases p with ⟨hp, he⟩ | ⟨hp, hs, -⟩ | hd | ⟨-, -, he⟩
  · have := Python.legible_toNat h
    rw [he, Python.ofNat_toNat hp] at this
    exact Or.inl this
  · exact Or.inr (Or.inl ⟨hp, hs⟩)
  · exact Or.inr (Or.inr hd)
  · have := Python.legible_toNat h
    rw [he] at this
    exact absurd this (by decide)

theorem Python.shared_of_legible (hf : ¬PythonForm digits s) {p : CodePoint} (hp : p ∈ s)
    (h : Python.Legible (Python.toAscii digits p)) : Shared digits p ∧ p.val ≠ 95 := by
  have hwide : ¬Python.WideDigit digits p := fun hd => hf ⟨p, hp, Or.inr (Or.inr hd)⟩
  have hunder : p.val ≠ 95 := fun he => hf ⟨p, hp, Or.inl he⟩
  have hnext : p.val ≠ 0x85 := fun he => hf ⟨p, hp, Or.inr (Or.inl he)⟩
  rcases Python.val_of_legible h with hv | ⟨-, hs⟩ | hd
  · exact ⟨⟨by omega, by omega, hnext, hwide⟩, hunder⟩
  · have := Python.isWideSpace_iff.mp hs
    exact ⟨⟨by omega, by omega, hnext, hwide⟩, hunder⟩
  · exact absurd hd hwide

section Parsed

variable {i : Int} (hi : Python.parseInt digits s = some i)
include hi

/-- The digit in what Python reads is no white space. -/
theorem not_blank_of_parseInt : strip Js.isStrWhiteSpace (units s) ≠ [] := by
  intro h
  have hwhite := strip_eq_nil.mp h
  obtain ⟨-, p, hp, hdigit⟩ := Python.legible_of_parseInt hi
  obtain ⟨-, -, -, hwide⟩ := Js.shared_of_legible (fun u hu => Or.inl (hwhite u hu)) hp
  have hrange := (Python.isDigit_toAscii hwide).mp hdigit
  rcases units_of_mem hp with ⟨hlt, hu⟩ | ⟨hge, -⟩
  · have hw := Js.isStrWhiteSpace_iff.mp (hwhite _ hu)
    rw [UInt16.toNat_ofNat'] at hw
    omega
  · omega

/-- No letter announces another base. -/
theorem nonDecimal?_of_parseInt : Js.nonDecimal? (strip Js.isStrWhiteSpace (units s)) = none := by
  refine Option.eq_none_iff_forall_ne_some.mpr fun ⟨base, rest⟩ hr => ?_
  obtain ⟨u, ht, hletter⟩ := Js.nonDecimal?_eq_some hr
  have hu : u ∈ strip Js.isStrWhiteSpace (units s) := by
    rw [ht]
    exact List.mem_cons_of_mem _ List.mem_cons_self
  obtain ⟨p, hp, hpu⟩ := mem_of_units (strip_subset hu) (by omega)
  rcases Python.val_of_legible ((Python.legible_of_parseInt hi).1 p hp) with hv | ⟨hge, -⟩ | hd
  · omega
  · omega
  · have := hd.range
    omega

theorem no_mark_of_parseInt : ∀ p ∈ s, p.val ≠ 0xFEFF := by
  intro p hp hmark
  rcases Python.val_of_legible ((Python.legible_of_parseInt hi).1 p hp) with hv | ⟨-, hw⟩ | hd
  · omega
  · have := Python.isWideSpace_iff.mp hw
    omega
  · have := hd.range
    omega

end Parsed

/-- Python reads none of the one kind. -/
theorem python_rejects (h : JsForm s) : (Python.height digits (.str s)).toOption = none := by
  have hs : s ≠ [] := by
    rintro rfl
    rcases h with ⟨hne, -⟩ | hbase | ⟨p, hp, -⟩
    · exact hne rfl
    · cases hbase
    · cases hp
  rw [Python.height_str hs]
  cases hi : Python.parseInt digits s with
  | none => rfl
  | some i =>
    rcases h with ⟨-, hblank⟩ | hbase | ⟨p, hp, hmark⟩
    · exact absurd hblank (not_blank_of_parseInt hi)
    · rw [nonDecimal?_of_parseInt hi] at hbase
      cases hbase
    · exact absurd hmark (no_mark_of_parseInt hi p hp)

/-- JavaScript reads none of the other kind. -/
theorem js_rejects (h : PythonForm digits s) : (Js.toHeight (.string (units s))).toOption = none := by
  rw [Js.toHeight_string]
  cases hi : Js.stringToBigInt (units s) with
  | none => rfl
  | some i =>
    obtain ⟨p, hp, hform⟩ := h
    obtain ⟨-, hunder, hnext, hwide⟩ := Js.shared_of_legible (Js.legible_of_stringToBigInt hi) hp
    rcases hform with h | h | h
    · exact absurd h hunder
    · exact absurd h hnext
    · exact absurd h hwide

/-- **All other strings** are read alike. -/
theorem read_alike (hj : ¬JsForm s) (hp : ¬PythonForm digits s) :
    (Js.toHeight (.string (units s))).toOption = (Python.height digits (.str s)).toOption := by
  by_cases hs : s = []
  · rw [hs]; rfl
  have hblank : strip Js.isStrWhiteSpace (units s) ≠ [] := fun h => hj (Or.inl ⟨hs, h⟩)
  have hbase : Js.nonDecimal? (strip Js.isStrWhiteSpace (units s)) = none :=
    Option.not_isSome_iff_eq_none.mp fun h => hj (Or.inr (Or.inl h))
  have hmark : ∀ p ∈ s, p.val ≠ 0xFEFF := fun p hp h => hj (Or.inr (Or.inr ⟨p, hp, h⟩))
  rw [Js.toHeight_string, Python.height_str hs]
  by_cases hshared : ∀ p ∈ s, Shared digits p ∧ p.val ≠ 95
  · rw [← decimal_alike (fun p hp => (hshared p hp).1) fun p hp => (hshared p hp).2]
    simp only [Js.stringToBigInt, if_neg hblank, hbase]
  · have hjs : Js.stringToBigInt (units s) = none := by
      refine Option.eq_none_iff_forall_ne_some.mpr fun i hi => hshared fun p hp => ?_
      have hleg : (p.val ≠ 0xFEFF → Shared digits p) ∧ p.val ≠ 95 ∧ _ :=
        Js.shared_of_legible (Js.legible_of_stringToBigInt hi) hp
      exact ⟨hleg.1 (hmark p hp), hleg.2.1⟩
    have hpython : Python.parseInt digits s = none := by
      refine Option.eq_none_iff_forall_ne_some.mpr fun i hi => hshared fun p hp' => ?_
      exact Python.shared_of_legible hp hp' ((Python.legible_of_parseInt hi).1 p hp')
    rw [hjs, hpython]

end Forms

end QorechainPqc
