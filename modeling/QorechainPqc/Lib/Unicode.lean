import Mathlib.Data.List.Basic

/-!
# Unicode strings as programming languages hold them

Well-formed text is a `List Char` (scalar values). Three runtime forms are given: UTF-8 bytes (`utf8`), UTF-16 code
units (`utf16`) and code points that may be surrogates (`CodePoint`). Both encoders are injective (`utf8_inj`,
`utf16_inj`). `units` gives the code units of any code points.

A list of code units need not be well-formed. `decode16 r` reads it and puts `r` for each unpaired surrogate; on the
code units of a text it gives the text back (`decode16_utf16`), and it tells them apart from all other lists just where
the text has no `r` of its own (`decode16_determines`).
-/

namespace Text

/-! ## UTF-8 -/

/-- The UTF-8 bytes of a text. -/
def utf8 (s : List Char) : List UInt8 := s.flatMap String.utf8EncodeChar

@[simp] theorem utf8_nil : utf8 [] = [] := rfl

theorem utf8_inj {s t : List Char} (h : utf8 s = utf8 t) : s = t := by
  have hb : (String.ofList s).toByteArray = (String.ofList t).toByteArray := by
    rw [String.toByteArray_ofList, String.toByteArray_ofList]
    exact congrArg List.toByteArray h
  exact String.ofList_injective (String.toByteArray_inj.mp hb)

theorem utf8_injective : Function.Injective utf8 := fun _ _ => utf8_inj

@[simp] theorem utf8_eq_nil {s : List Char} : utf8 s = [] ↔ s = [] :=
  ⟨fun h => utf8_inj (t := []) h, fun h => h ▸ rfl⟩

/-! ## UTF-16 -/

/-- The code units of a scalar value: one below `0x10000`, a surrogate pair above. -/
def utf16Char (c : Char) : List UInt16 :=
  if c.toNat < 0x10000 then [UInt16.ofNat c.toNat]
  else [UInt16.ofNat (0xD800 + (c.toNat - 0x10000) / 0x400), UInt16.ofNat (0xDC00 + (c.toNat - 0x10000) % 0x400)]

/-- The UTF-16 code units of a text. -/
def utf16 (s : List Char) : List UInt16 := s.flatMap utf16Char

/-- A high surrogate, which a low one may follow. -/
def isHigh (u : UInt16) : Bool := 0xD800 ≤ u.toNat && u.toNat < 0xDC00

def isLow (u : UInt16) : Bool := 0xDC00 ≤ u.toNat && u.toNat < 0xE000

/-- A code unit on its own: `r` for a surrogate. -/
def unit (r : Char) (u : UInt16) : Char := if isHigh u || isLow u then r else Char.ofNat u.toNat

/-- The scalar value of a surrogate pair. -/
def pair (u v : UInt16) : Char := Char.ofNat (0x10000 + (u.toNat - 0xD800) * 0x400 + (v.toNat - 0xDC00))

/-- Decode code units, with `r` for every unpaired surrogate. -/
def decode16 (r : Char) : List UInt16 → List Char
  | [] => []
  | [u] => [unit r u]
  | u :: v :: rest =>
    if isHigh u && isLow v then pair u v :: decode16 r rest else unit r u :: decode16 r (v :: rest)

/-- A code unit that is no high surrogate stands on its own. -/
theorem decode16_cons (r : Char) {u : UInt16} (h : isHigh u = false) :
    ∀ l : List UInt16, decode16 r (u :: l) = unit r u :: decode16 r l
  | [] => rfl
  | _ :: _ => by rw [decode16, h]; rfl

/-- A surrogate pair stands for its scalar value. -/
theorem decode16_pair (r : Char) {u v : UInt16} (hu : isHigh u = true) (hv : isLow v = true) (l : List UInt16) :
    decode16 r (u :: v :: l) = pair u v :: decode16 r l := by
  rw [decode16, hu, hv]; rfl

/-- A scalar value is below the surrogates or above them. -/
theorem char_range (c : Char) : c.toNat < 0xD800 ∨ 0xE000 ≤ c.toNat ∧ c.toNat < 0x110000 := by
  rcases c.valid with h | ⟨h, h'⟩
  · exact Or.inl h
  · exact Or.inr ⟨h, h'⟩

theorem decode16_utf16Char (r c : Char) (l : List UInt16) : decode16 r (utf16Char c ++ l) = c :: decode16 r l := by
  have hc := char_range c
  unfold utf16Char
  split
  · rename_i hlt
    have hu : (UInt16.ofNat c.toNat).toNat = c.toNat := by rw [UInt16.toNat_ofNat']; omega
    have hh : isHigh (UInt16.ofNat c.toNat) = false := by simp [isHigh, hu]; omega
    have hl : isLow (UInt16.ofNat c.toNat) = false := by simp [isLow, hu]; omega
    rw [List.singleton_append, decode16_cons r hh, unit, hh, hl, hu]
    simp
  · rename_i hge
    have hu : (UInt16.ofNat (0xD800 + (c.toNat - 0x10000) / 0x400)).toNat = 0xD800 + (c.toNat - 0x10000) / 0x400 := by
      rw [UInt16.toNat_ofNat']; omega
    have hv : (UInt16.ofNat (0xDC00 + (c.toNat - 0x10000) % 0x400)).toNat = 0xDC00 + (c.toNat - 0x10000) % 0x400 := by
      rw [UInt16.toNat_ofNat']; omega
    rw [List.cons_append, List.singleton_append, decode16_pair r (by simp [isHigh]; omega)
      (by simp [isLow]; omega), pair, hu, hv]
    have hn : 0x10000 + (0xD800 + (c.toNat - 0x10000) / 0x400 - 0xD800) * 0x400 +
        (0xDC00 + (c.toNat - 0x10000) % 0x400 - 0xDC00) = c.toNat := by omega
    rw [hn, Char.ofNat_toNat]

/-- Decoding the code units of a text gives the text back, whatever stands for unpaired surrogates. -/
theorem decode16_utf16 (r : Char) : ∀ s : List Char, decode16 r (utf16 s) = s
  | [] => rfl
  | c :: s => by
    rw [utf16, List.flatMap_cons, decode16_utf16Char]
    exact congrArg (c :: ·) (decode16_utf16 r s)

theorem utf16_inj {s t : List Char} (h : utf16 s = utf16 t) : s = t := by
  rw [← decode16_utf16 '?' s, h, decode16_utf16]

theorem utf16_injective : Function.Injective utf16 := fun _ _ => utf16_inj

/-! ## Unpaired surrogates -/

theorem utf16_cons (c : Char) (s : List Char) : utf16 (c :: s) = utf16Char c ++ utf16 s := List.flatMap_cons

theorem utf16_append (s t : List Char) : utf16 (s ++ t) = utf16 s ++ utf16 t := List.flatMap_append

/-- A code unit that stands for itself is spelled as itself. -/
theorem utf16Char_unit {r : Char} {u : UInt16} (h : unit r u ≠ r) : utf16Char (unit r u) = [u] := by
  unfold unit at h ⊢
  split
  · rename_i hs
    rw [if_pos hs] at h
    exact absurd rfl h
  · rename_i hs
    have hs : ¬ (0xD800 ≤ u.toNat ∧ u.toNat < 0xDC00) ∧ ¬ (0xDC00 ≤ u.toNat ∧ u.toNat < 0xE000) := by
      simpa [isHigh, isLow] using hs
    have hlt := u.toNat_lt
    have hv : u.toNat.isValidChar := by
      rcases Nat.lt_or_ge u.toNat 0xD800 with h | h
      · exact Or.inl h
      · exact Or.inr ⟨by omega, by omega⟩
    have hn : (Char.ofNat u.toNat).toNat = u.toNat := by
      rw [Char.ofNat, dif_pos hv]; rfl
    rw [utf16Char, hn, if_pos (by omega), UInt16.ofNat_toNat]

/-- A surrogate pair is how its scalar value is spelled. -/
theorem utf16Char_pair {u v : UInt16} (hu : isHigh u = true) (hv : isLow v = true) : utf16Char (pair u v) = [u, v] := by
  have hu : 0xD800 ≤ u.toNat ∧ u.toNat < 0xDC00 := by simpa [isHigh] using hu
  have hv : 0xDC00 ≤ v.toNat ∧ v.toNat < 0xE000 := by simpa [isLow] using hv
  have hn : (pair u v).toNat = 0x10000 + (u.toNat - 0xD800) * 0x400 + (v.toNat - 0xDC00) := by
    have hvalid : (0x10000 + (u.toNat - 0xD800) * 0x400 + (v.toNat - 0xDC00)).isValidChar :=
      Or.inr ⟨by omega, by omega⟩
    rw [pair, Char.ofNat, dif_pos hvalid]; rfl
  have hhigh : 0xD800 + ((pair u v).toNat - 0x10000) / 0x400 = u.toNat := by omega
  have hlow : 0xDC00 + ((pair u v).toNat - 0x10000) % 0x400 = v.toNat := by omega
  rw [utf16Char, if_neg (by omega), hhigh, hlow, UInt16.ofNat_toNat, UInt16.ofNat_toNat]

/-- What is read without a replacement is spelled back as it was. -/
theorem utf16_decode16 {r : Char} {l : List UInt16} (h : r ∉ decode16 r l) : utf16 (decode16 r l) = l := by
  induction l using decode16.induct with
  | case1 => rfl
  | case2 u =>
    have hu : unit r u ≠ r := fun e => h (by rw [decode16, e]; exact List.mem_cons_self)
    rw [decode16, utf16_cons, utf16Char_unit hu]; rfl
  | case3 u v rest hp ih =>
    obtain ⟨hu, hv⟩ : isHigh u = true ∧ isLow v = true := by simpa using hp
    rw [decode16_pair r hu hv] at h ⊢
    rw [utf16_cons, utf16Char_pair hu hv]
    exact congrArg ([u, v] ++ ·) (ih fun hr => h (List.mem_cons_of_mem _ hr))
  | case4 u v rest hp ih =>
    rw [decode16, if_neg hp] at h ⊢
    have hu : unit r u ≠ r := fun e => h (by rw [e]; exact List.mem_cons_self)
    rw [utf16_cons, utf16Char_unit hu]
    exact congrArg ([u] ++ ·) (ih fun hr => h (List.mem_cons_of_mem _ hr))

/-- Code units behind a text are read on their own. -/
theorem decode16_append (r : Char) (l : List UInt16) : ∀ s : List Char, decode16 r (utf16 s ++ l) = s ++ decode16 r l
  | [] => rfl
  | c :: s => by
    rw [utf16_cons, List.append_assoc, decode16_utf16Char, List.cons_append]
    exact congrArg (c :: ·) (decode16_append r l s)

theorem decode16_ne_nil (r : Char) (u : UInt16) (l : List UInt16) : decode16 r (u :: l) ≠ [] := by
  cases l with
  | nil => simp [decode16]
  | cons v l =>
    rw [decode16]
    split <;> simp

/-- A low surrogate at the front is unpaired. -/
theorem decode16_low (r : Char) (l : List UInt16) : decode16 r (0xDC00 :: l) = r :: decode16 r l :=
  decode16_cons r (by decide) l

/-- No scalar value is spelled as a lone surrogate. -/
theorem utf16Char_ne_low (c : Char) (l : List UInt16) : utf16Char c ++ l ≠ 0xDC00 :: l := by
  intro h
  have hc := char_range c
  unfold utf16Char at h
  split at h
  · have hu : (UInt16.ofNat c.toNat).toNat = 0xDC00 := congrArg UInt16.toNat (List.cons.inj h).1
    rw [UInt16.toNat_ofNat'] at hu
    omega
  · have hlen := congrArg List.length h
    simp at hlen

/-- The code units spell a text in which `r` does not occur. -/
def Plain (r : Char) (l : List UInt16) : Prop := ∃ s, l = utf16 s ∧ r ∉ s

/-- **Reading with replacement** tells code units apart from all others just where they spell a text in which the
replacement does not occur. -/
theorem decode16_determines {r : Char} {l : List UInt16} :
    (∀ l', l' ≠ [] → decode16 r l' = decode16 r l → l' = l) ↔ Plain r l := by
  constructor
  · intro h
    have hl : l = utf16 (decode16 r l) := by
      by_cases he : utf16 (decode16 r l) = []
      · cases l with
        | nil => rfl
        | cons u l =>
          have hd : decode16 r (u :: l) = [] := by rw [← decode16_utf16 r (decode16 r (u :: l)), he]; rfl
          exact absurd hd (decode16_ne_nil r u l)
      · exact (h _ he (decode16_utf16 r _)).symm
    refine ⟨decode16 r l, hl, fun hr => ?_⟩
    -- a lone surrogate is read like the `r` it takes the place of
    obtain ⟨s, t, hst⟩ := List.append_of_mem hr
    have hread : decode16 r (utf16 s ++ 0xDC00 :: utf16 t) = decode16 r l := by
      rw [decode16_append, decode16_low, decode16_utf16, hst]
    have hsame := h _ (by simp) hread
    rw [hl, hst, utf16_append, utf16_cons] at hsame
    exact utf16Char_ne_low r _ (List.append_cancel_left hsame).symm
  · rintro ⟨s, rfl, hr⟩ l' - h
    rw [decode16_utf16] at h
    rw [← utf16_decode16 (r := r) (l := l') (by rwa [h]), h]

/-! ## Code points -/

/-- A code point, possibly a surrogate. -/
abbrev CodePoint := Fin 0x110000

/-- A scalar value as a code point. -/
def codePoint (c : Char) : CodePoint := ⟨c.toNat, by have := char_range c; omega⟩

/-- The scalar value of a code point that is no surrogate. -/
def scalar? (p : CodePoint) : Option Char := if p.val.isValidChar then some (Char.ofNat p.val) else none

@[simp] theorem scalar?_codePoint (c : Char) : scalar? (codePoint c) = some c := by
  have h : c.toNat.isValidChar := c.valid
  simp [scalar?, codePoint, h]

theorem codePoint_inj {c d : Char} (h : codePoint c = codePoint d) : c = d := by
  rw [← Option.some_inj, ← scalar?_codePoint, h, scalar?_codePoint]

/-- A text as code points. -/
def codePoints (s : List Char) : List CodePoint := s.map codePoint

@[simp] theorem codePoints_inj_iff {s t : List Char} : codePoints s = codePoints t ↔ s = t :=
  ⟨fun h => List.map_injective_iff.mpr (fun _ _ => codePoint_inj) h, congrArg codePoints⟩

theorem codePoints_injective : Function.Injective codePoints := fun _ _ => codePoints_inj_iff.mp

@[simp] theorem codePoints_eq_nil {s : List Char} : codePoints s = [] ↔ s = [] := List.map_eq_nil_iff

@[simp] theorem mapM_scalar?_codePoints : ∀ s : List Char, (codePoints s).mapM scalar? = some s
  | [] => rfl
  | c :: s => by
    have ih := mapM_scalar?_codePoints s
    simp only [codePoints, List.map_cons, List.mapM_cons, scalar?_codePoint] at ih ⊢
    rw [ih]; rfl

/-- The code units of a code point; a surrogate is one on its own. -/
def codePointUnits (p : CodePoint) : List UInt16 :=
  if p.val < 0x10000 then [UInt16.ofNat p.val]
  else [UInt16.ofNat (0xD800 + (p.val - 0x10000) / 0x400), UInt16.ofNat (0xDC00 + (p.val - 0x10000) % 0x400)]

/-- The code units of a list of code points. -/
def units (s : List CodePoint) : List UInt16 := s.flatMap codePointUnits

@[simp] theorem units_nil : units [] = [] := rfl

/-- The code units of a text, by way of its code points. -/
theorem units_codePoints (s : List Char) : units (codePoints s) = utf16 s := List.flatMap_map _ _ _

/-- A code unit that is no surrogate is a code point. -/
theorem mem_of_units {s : List CodePoint} {u : UInt16} (hu : u ∈ units s) (hs : u.toNat < 0xD800) :
    ∃ p ∈ s, p.val = u.toNat := by
  obtain ⟨p, hp, hup⟩ := List.mem_flatMap.mp hu
  have hlt := p.isLt
  refine ⟨p, hp, ?_⟩
  unfold codePointUnits at hup
  split at hup
  · obtain rfl := List.mem_singleton.mp hup
    rw [UInt16.toNat_ofNat']
    omega
  · rcases List.mem_pair.mp hup with rfl | rfl
    · rw [UInt16.toNat_ofNat'] at hs
      omega
    · rw [UInt16.toNat_ofNat'] at hs
      omega

/-- A code point is a code unit, or its surrogate pair occurs. -/
theorem units_of_mem {s : List CodePoint} {p : CodePoint} (hp : p ∈ s) :
    p.val < 0x10000 ∧ UInt16.ofNat p.val ∈ units s ∨ 0x10000 ≤ p.val ∧ ∃ u ∈ units s, isHigh u = true := by
  have hlt := p.isLt
  by_cases h : p.val < 0x10000
  · refine Or.inl ⟨h, List.mem_flatMap.mpr ⟨p, hp, ?_⟩⟩
    rw [codePointUnits, if_pos h]
    exact List.mem_singleton_self _
  · have hunit : (UInt16.ofNat (0xD800 + (p.val - 0x10000) / 0x400)).toNat = 0xD800 + (p.val - 0x10000) / 0x400 := by
      rw [UInt16.toNat_ofNat']
      omega
    refine Or.inr ⟨by omega, UInt16.ofNat (0xD800 + (p.val - 0x10000) / 0x400), List.mem_flatMap.mpr ⟨p, hp, ?_⟩, ?_⟩
    · rw [codePointUnits, if_neg h]
      exact List.mem_cons_self
    · rw [isHigh, hunit, Bool.and_eq_true, decide_eq_true_eq, decide_eq_true_eq]
      omega

/-- Code points of the basic plane are read one by one. -/
theorem units_eq_map {s : List CodePoint} (h : ∀ p ∈ s, p.val < 0x10000) :
    units s = s.map fun p => UInt16.ofNat p.val := by
  induction s with
  | nil => rfl
  | cons p s ih =>
    have hp : codePointUnits p = [UInt16.ofNat p.val] := if_pos (h p List.mem_cons_self)
    have ih := ih fun q hq => h q (List.mem_cons_of_mem _ hq)
    rw [units, List.flatMap_cons, hp, List.map_cons, ← ih]
    rfl

end Text
