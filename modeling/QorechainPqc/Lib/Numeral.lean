import Mathlib.Data.List.DropRight

/-!
# Reading and writing decimal numerals

The pieces that string-to-integer readers are made of: stripping (`strip`), digits in a base (`readDigits`), digits with
single separators between them (`ungroup`) and an optional sign (`readSigned`). They work over any alphabet `κ` with a
digit value, since runtimes hold strings in different units.

What is read consists of digits, separators and a sign (`mem_of_readDigits`, `mem_of_ungroup`, `mem_of_readSigned`), and
a string spelled in two alphabets is read alike where each of its items is (`readDigits_congr`, `readSigned_congr`).

`decimal` is the canonical numeral of an integer. A reader made of these pieces gives the integer back
(`readDigits_toDigits`, `readSigned_decimal`).
-/

namespace Text

/-! ## Readers -/

section Readers

variable {κ : Type}

/-- Drop `ws` at both ends. -/
def strip (ws : κ → Bool) (l : List κ) : List κ := (l.dropWhile ws).rdropWhile ws

/-- One more digit behind the number read so far. -/
def pushDigit (val : κ → Option Nat) (b n : Nat) (c : κ) : Option Nat :=
  (val c).bind fun d => if d < b then some (b * n + d) else none

/-- One or more digits in base `b`. -/
def readDigits (val : κ → Option Nat) (b : Nat) (l : List κ) : Option Nat :=
  if l = [] then none else l.foldlM (pushDigit val b) 0

theorem strip_of_forall {ws : κ → Bool} {l : List κ} (h : ∀ c ∈ l, ws c = false) : strip ws l = l := by
  have hd : l.dropWhile ws = l := by
    cases l with
    | nil => rfl
    | cons c l => rw [List.dropWhile_cons, h c List.mem_cons_self]; rfl
  unfold strip
  rw [hd, List.rdropWhile_eq_self_iff]
  intro hl
  rw [h _ (List.getLast_mem hl)]
  exact Bool.false_ne_true

variable [DecidableEq κ]

/-- Items with single separators between them, without the separators. -/
def ungroup (sep : κ) : List κ → Option (List κ)
  | [] => none
  | [c] => if c = sep then none else some [c]
  | c :: d :: rest =>
    if c = sep then none
    else if d = sep then (ungroup sep rest).map (c :: ·)
    else (ungroup sep (d :: rest)).map (c :: ·)

/-- An optional sign in front of what `read` reads. -/
def readSigned (plus minus : κ) (read : List κ → Option Nat) : List κ → Option Int
  | [] => none
  | c :: l =>
    if c = plus then (read l).map Int.ofNat
    else if c = minus then (read l).map fun n => -Int.ofNat n
    else (read (c :: l)).map Int.ofNat

theorem ungroup_of_notMem {sep : κ} : ∀ {l : List κ}, l ≠ [] → sep ∉ l → ungroup sep l = some l
  | [], h, _ => absurd rfl h
  | [c], _, h => by
    have hc : c ≠ sep := fun e => h (by simp [e])
    rw [ungroup, if_neg hc]
  | c :: d :: rest, _, h => by
    have hc : c ≠ sep := fun e => h (by simp [e])
    have hd : d ≠ sep := fun e => h (by simp [e])
    rw [ungroup, if_neg hc, if_neg hd, ungroup_of_notMem (List.cons_ne_nil d rest) (fun hm => h (by simp [hm]))]
    rfl

end Readers

/-! ## What a reader accepts -/

section Accepts

variable {κ : Type} {ws : κ → Bool} {val : κ → Option Nat} {b : Nat} {l l' : List κ}

theorem strip_subset : strip ws l ⊆ l := fun _ hc =>
  (List.dropWhile_sublist ws).subset ((List.rdropWhile_prefix ws _).subset hc)

theorem strip_eq_nil : strip ws l = [] ↔ ∀ c ∈ l, ws c = true := by
  rw [strip, List.rdropWhile_eq_nil_iff]
  constructor
  · intro h c hc
    rw [← List.takeWhile_append_dropWhile (p := ws) (l := l), List.mem_append] at hc
    exact hc.elim (fun hc => List.mem_takeWhile_imp hc) (h c)
  · intro h c hc
    exact h c ((List.dropWhile_sublist ws).subset hc)

/-- Only `ws` is dropped. -/
theorem mem_strip {c : κ} (hc : c ∈ l) : ws c = true ∨ c ∈ strip ws l := by
  rw [← List.takeWhile_append_dropWhile (p := ws) (l := l), List.mem_append] at hc
  rcases hc with hc | hc
  · exact Or.inl (List.mem_takeWhile_imp hc)
  · rw [← List.rdropWhile_append_rtakeWhile (p := ws) (l := l.dropWhile ws), List.mem_append] at hc
    exact hc.elim Or.inr fun hc => Or.inl (List.mem_rtakeWhile_imp hc)

theorem mem_of_foldlM_pushDigit {n m : Nat} (h : l.foldlM (pushDigit val b) n = some m) :
    ∀ c ∈ l, ∃ d, val c = some d ∧ d < b := by
  induction l generalizing n with
  | nil => intro c hc; cases hc
  | cons c l ih =>
    obtain ⟨k, hk, hrest⟩ := Option.bind_eq_some_iff.mp (List.foldlM_cons.symm.trans h)
    obtain ⟨d, hd, hlt⟩ := Option.bind_eq_some_iff.mp hk
    have hlt : d < b := by
      by_contra hge
      rw [if_neg hge] at hlt
      cases hlt
    intro x hx
    rcases List.mem_cons.mp hx with rfl | hx
    · exact ⟨d, hd, hlt⟩
    · exact ih hrest x hx

/-- Nothing but digits is read, and at least one. -/
theorem mem_of_readDigits {n : Nat} (h : readDigits val b l = some n) :
    l ≠ [] ∧ ∀ c ∈ l, ∃ d, val c = some d ∧ d < b := by
  unfold readDigits at h
  split at h
  · cases h
  · rename_i hne
    exact ⟨hne, mem_of_foldlM_pushDigit h⟩

variable [DecidableEq κ]

/-- Only separators are left out. -/
theorem mem_of_ungroup {sep : κ} (h : ungroup sep l = some l') : l' ⊆ l ∧ ∀ c ∈ l, c = sep ∨ c ∈ l' := by
  induction l using ungroup.induct sep generalizing l' with
  | case1 => cases h
  | case2 => rw [ungroup, if_pos rfl] at h; cases h
  | case3 c hc =>
    rw [ungroup, if_neg hc] at h
    obtain rfl := Option.some.inj h
    exact ⟨fun _ hx => hx, fun _ hx => Or.inr hx⟩
  | case4 d rest => rw [ungroup, if_pos rfl] at h; cases h
  | case5 c rest hc ih =>
    rw [ungroup, if_neg hc, if_pos rfl] at h
    obtain ⟨l', hl, rfl⟩ := Option.map_eq_some_iff.mp h
    obtain ⟨hsub, hmem⟩ := ih hl
    refine ⟨List.cons_subset_cons c fun x hx => List.mem_cons_of_mem _ (hsub hx), fun x hx => ?_⟩
    rcases List.mem_cons.mp hx with rfl | hx
    · exact Or.inr List.mem_cons_self
    · rcases List.mem_cons.mp hx with rfl | hx
      · exact Or.inl rfl
      · exact (hmem x hx).imp_right (List.mem_cons_of_mem _)
  | case6 c d rest hc hd ih =>
    rw [ungroup, if_neg hc, if_neg hd] at h
    obtain ⟨l', hl, rfl⟩ := Option.map_eq_some_iff.mp h
    obtain ⟨hsub, hmem⟩ := ih hl
    refine ⟨List.cons_subset_cons c hsub, fun x hx => ?_⟩
    rcases List.mem_cons.mp hx with rfl | hx
    · exact Or.inr List.mem_cons_self
    · exact (hmem x hx).imp_right (List.mem_cons_of_mem _)

/-- Only a sign is left out. -/
theorem mem_of_readSigned {plus minus : κ} {read : List κ → Option Nat} {i : Int}
    (h : readSigned plus minus read l = some i) :
    ∃ l' n, read l' = some n ∧ l' ⊆ l ∧ ∀ c ∈ l, c = plus ∨ c = minus ∨ c ∈ l' := by
  cases l with
  | nil => cases h
  | cons c l =>
    have hsign {n : Nat} (hc : c = plus ∨ c = minus) (hn : read l = some n) :
        ∃ l' n, read l' = some n ∧ l' ⊆ c :: l ∧ ∀ x ∈ c :: l, x = plus ∨ x = minus ∨ x ∈ l' := by
      refine ⟨l, n, hn, List.subset_cons_self c l, fun x hx => ?_⟩
      rcases List.mem_cons.mp hx with rfl | hx
      · exact or_assoc.mp (Or.inl hc)
      · exact Or.inr (Or.inr hx)
    rw [readSigned] at h
    split at h
    · rename_i hc
      obtain ⟨n, hn, -⟩ := Option.map_eq_some_iff.mp h
      exact hsign (Or.inl hc) hn
    · split at h
      · rename_i hc
        obtain ⟨n, hn, -⟩ := Option.map_eq_some_iff.mp h
        exact hsign (Or.inr hc) hn
      · obtain ⟨n, hn, -⟩ := Option.map_eq_some_iff.mp h
        exact ⟨c :: l, n, hn, fun _ hx => hx, fun _ hx => Or.inr (Or.inr hx)⟩

end Accepts

/-! ## One string in two alphabets -/

section Alphabets

variable {σ κ κ' : Type} {f : σ → κ} {g : σ → κ'} {s : List σ}

theorem strip_map (ws : κ → Bool) : strip ws (s.map f) = (strip (ws ∘ f) s).map f := by
  rw [strip, List.dropWhile_map, List.rdropWhile, ← List.map_reverse, List.dropWhile_map, ← List.map_reverse]
  rfl

theorem strip_congr {ws ws' : σ → Bool} (h : ∀ x ∈ s, ws x = ws' x) : strip ws s = strip ws' s := by
  have hdrop {l : List σ} (hl : ∀ x ∈ l, ws x = ws' x) : l.dropWhile ws = l.dropWhile ws' := by
    induction l with
    | nil => rfl
    | cons x l ih =>
      rw [List.dropWhile_cons, List.dropWhile_cons, hl x List.mem_cons_self,
        ih fun y hy => hl y (List.mem_cons_of_mem _ hy)]
  rw [strip, strip, hdrop h, List.rdropWhile, List.rdropWhile, hdrop]
  intro x hx
  exact h x ((List.dropWhile_sublist ws').subset (List.mem_reverse.mp hx))

/-- Digits are read alike where each one is. -/
theorem readDigits_congr {val : κ → Option Nat} {val' : κ' → Option Nat} {b : Nat}
    (h : ∀ x ∈ s, ∀ n, pushDigit val b n (f x) = pushDigit val' b n (g x)) :
    readDigits val b (s.map f) = readDigits val' b (s.map g) := by
  have hfold (n : Nat) : (s.map f).foldlM (pushDigit val b) n = (s.map g).foldlM (pushDigit val' b) n := by
    induction s generalizing n with
    | nil => rfl
    | cons x s ih =>
      rw [List.map_cons, List.map_cons, List.foldlM_cons, List.foldlM_cons, h x List.mem_cons_self n]
      exact congrArg _ (funext fun m => ih (fun y hy => h y (List.mem_cons_of_mem _ hy)) m)
  simp only [readDigits, List.map_eq_nil_iff, hfold]

/-- So are signed numerals where the signs are. -/
theorem readSigned_congr [DecidableEq κ] [DecidableEq κ'] {plus minus : κ} {plus' minus' : κ'}
    {read : List κ → Option Nat} {read' : List κ' → Option Nat} (hplus : ∀ x ∈ s, f x = plus ↔ g x = plus')
    (hminus : ∀ x ∈ s, f x = minus ↔ g x = minus') (hread : ∀ t, t ⊆ s → read (t.map f) = read' (t.map g)) :
    readSigned plus minus read (s.map f) = readSigned plus' minus' read' (s.map g) := by
  cases s with
  | nil => rfl
  | cons x s =>
    have htail := hread s (List.subset_cons_self x s)
    have hall := hread (x :: s) fun _ hy => hy
    simp only [List.map_cons] at hall
    simp only [List.map_cons, readSigned, hplus x List.mem_cons_self, hminus x List.mem_cons_self, htail, hall]

end Alphabets

/-! ## Canonical numerals -/

/-- The canonical decimal numeral of an integer. -/
def decimal : Int → List Char
  | .ofNat n => Nat.toDigits 10 n
  | .negSucc n => '-' :: Nat.toDigits 10 (n + 1)

/-- A canonical numeral consists of digits and perhaps a minus sign. -/
theorem mem_decimal {i : Int} {c : Char} (h : c ∈ decimal i) : c.isDigit = true ∨ c = '-' := by
  cases i with
  | ofNat n => exact Or.inl (Nat.isDigit_of_mem_toDigits (by decide) (by decide) h)
  | negSucc n =>
    rcases List.mem_cons.mp h with rfl | h
    · exact Or.inr rfl
    · exact Or.inl (Nat.isDigit_of_mem_toDigits (by decide) (by decide) h)

theorem decimal_ne_nil (i : Int) : decimal i ≠ [] := by
  cases i with
  | ofNat n => exact Nat.toDigits_ne_nil
  | negSucc n => exact List.cons_ne_nil _ _

/-- The code of a decimal digit. -/
theorem isDigit_toNat {c : Char} (h : c.isDigit = true) : 48 ≤ c.toNat ∧ c.toNat ≤ 57 := by
  simp only [Char.isDigit, Bool.and_eq_true, decide_eq_true_eq, ge_iff_le, UInt32.le_iff_toNat_le] at h
  exact h

/-- Every character of a canonical numeral is ASCII, and none is a blank. -/
theorem decimal_toNat {i : Int} {c : Char} (h : c ∈ decimal i) : c.toNat = 45 ∨ 48 ≤ c.toNat ∧ c.toNat ≤ 57 := by
  rcases mem_decimal h with h | rfl
  · exact Or.inr (isDigit_toNat h)
  · exact Or.inl rfl

section Canonical

variable {κ : Type} (e : Char → κ)

/-- Digits, as the alphabet `κ` spells them, are read one by one. -/
theorem foldlM_pushDigit {val : κ → Option Nat} (hval : ∀ c : Char, c.isDigit → val (e c) = some (c.toNat - 48)) :
    ∀ (cs : List Char) (n : Nat), (∀ c ∈ cs, c.isDigit) →
      (cs.map e).foldlM (pushDigit val 10) n = some (Nat.ofDigitChars 10 cs n)
  | [], n, _ => rfl
  | c :: cs, n, h => by
    have hc : c.isDigit = true := h c List.mem_cons_self
    have hlt : c.toNat - 48 < 10 := by have := isDigit_toNat hc; omega
    have ih := foldlM_pushDigit hval cs (10 * n + (c.toNat - 48)) (fun d hd => h d (List.mem_cons_of_mem _ hd))
    rw [List.map_cons, List.foldlM_cons, pushDigit, hval c hc, Option.bind_some, if_pos hlt, Nat.ofDigitChars_cons]
    exact ih

/-- The digits of `n` are read as `n`. -/
theorem readDigits_toDigits {val : κ → Option Nat}
    (hval : ∀ c : Char, c.isDigit → val (e c) = some (c.toNat - 48)) (n : Nat) :
    readDigits val 10 ((Nat.toDigits 10 n).map e) = some n := by
  have hne : (Nat.toDigits 10 n).map e ≠ [] := by simp
  rw [readDigits, if_neg hne, foldlM_pushDigit e hval _ _
    (fun c hc => Nat.isDigit_of_mem_toDigits (by decide) (by decide) hc), Nat.ofDigitChars_ten_toDigits]

/-- A reader of digits, with an optional sign in front, reads canonical numerals. -/
theorem readSigned_decimal [DecidableEq κ] {plus : κ} (hpm : e '-' ≠ plus)
    (hd : ∀ c : Char, c.isDigit → e c ≠ plus ∧ e c ≠ e '-') {read : List κ → Option Nat}
    (hread : ∀ n, read ((Nat.toDigits 10 n).map e) = some n) (i : Int) :
    readSigned plus (e '-') read ((decimal i).map e) = some i := by
  cases i with
  | ofNat n =>
    have hr := hread n
    cases hl : Nat.toDigits 10 n with
    | nil => exact absurd hl Nat.toDigits_ne_nil
    | cons c l =>
      have hmem : c ∈ Nat.toDigits 10 n := by rw [hl]; exact List.mem_cons_self
      have hc : c.isDigit = true := Nat.isDigit_of_mem_toDigits (by decide) (by decide) hmem
      rw [hl, List.map_cons] at hr
      rw [decimal, hl, List.map_cons, readSigned, if_neg (hd c hc).1, if_neg (hd c hc).2, hr]
      rfl
  | negSucc n =>
    rw [decimal, List.map_cons, readSigned, if_neg hpm, if_pos rfl, hread (n + 1)]
    rfl

end Canonical

end Text
