import Mathlib.Data.Nat.Find
import Mathlib.Data.List.MinMax

/-!
# Folds that detect, and one-way switches

A fold whose every step turns `R` on exactly when `R` was on or the item is in `P` ends with `R` on exactly when it
began so or met an item in `P` (`foldl_detects`); hence the order and the multiplicity of the items do not matter. The
greatest height recorded for a name is positive exactly when some recorded height is (`greatest_pos`).

A condition that only turns on along a sequence never holds, or holds from one point on (`switches_once`).
-/

namespace Detect

theorem foldl_detects {ι σ : Type} {R : σ → Prop} {P : ι → Prop} {f : σ → ι → σ}
    (hf : ∀ s x, R (f s x) ↔ R s ∨ P x) : ∀ (l : List ι) (s : σ), R (l.foldl f s) ↔ R s ∨ ∃ x ∈ l, P x
  | [], s => by simp
  | x :: l, s => by
    rw [List.foldl_cons, foldl_detects hf l, hf, or_assoc]
    simp

/-- A condition that only turns on is never on, or on from one point on. -/
theorem switches_once {S : Nat → Prop} (hS : ∀ n, S n → S (n + 1)) : (∀ n, ¬ S n) ∨ ∃ k, ∀ n, S n ↔ k ≤ n := by
  classical
  by_cases h : ∃ n, S n
  · refine Or.inr ⟨Nat.find h, fun n => ⟨fun hn => Nat.find_min' h hn, fun hn => ?_⟩⟩
    induction n, hn using Nat.le_induction with
    | base => exact Nat.find_spec h
    | succ n _ ih => exact hS n ih
  · exact Or.inl fun n hn => h ⟨n, hn⟩

/-! ## The greatest recorded height -/

variable {ν : Type} [DecidableEq ν]

/-- The greatest height recorded under a name. -/
def greatest (obs : List (Option ν × Int)) (name : ν) : Option Int :=
  ((obs.filter fun o => o.1 = some name).map (·.2)).max?

theorem greatest_pos {obs : List (Option ν × Int)} {name : ν} :
    0 < (greatest obs name).getD 0 ↔ ∃ o ∈ obs, o.1 = some name ∧ 0 < o.2 := by
  unfold greatest
  cases hm : ((obs.filter fun o => o.1 = some name).map (·.2)).max? with
  | none =>
    have hnil := List.max?_eq_none_iff.mp hm
    simp only [List.map_eq_nil_iff, List.filter_eq_nil_iff, decide_eq_true_eq] at hnil
    constructor
    · intro h; exact absurd h (lt_irrefl 0)
    · rintro ⟨o, ho, hn, _⟩; exact absurd hn (hnil o ho)
  | some g =>
    obtain ⟨hmem, hle⟩ := List.max?_eq_some_iff.mp hm
    simp only [List.mem_map, List.mem_filter, decide_eq_true_eq] at hmem hle
    constructor
    · intro h
      obtain ⟨o, ⟨ho, hn⟩, rfl⟩ := hmem
      exact ⟨o, ho, hn, h⟩
    · rintro ⟨o, ho, hn, hpos⟩
      exact lt_of_lt_of_le hpos (hle o.2 ⟨o, ⟨ho, hn⟩, rfl⟩)

end Detect
