import Mathlib.Data.List.Basic

/-!
# Objects that absorb and squeeze

An extendable-output function gives an endless stream of symbols for every input. An object for it takes its input, and
then gives its output from where it has last stopped (`Stage`). A shorter digest is the beginning of a longer one
(`take_digest`). `Follows` says what an implementation of such objects does, whatever it keeps in them.
-/

namespace Xof

/-- Endless output for every input. -/
abbrev Stream (α β : Type) := List α → Nat → β

variable {α β H : Type} (X : Stream α β)

/-- `n` symbols from a position on. -/
def Stream.slice (input : List α) (position n : Nat) : List β := (List.range' position n).map (X input)

/-- The first `n` symbols. -/
def Stream.digest (input : List α) (n : Nat) : List β := X.slice input 0 n

@[simp] theorem Stream.length_slice (input : List α) (position n : Nat) : (X.slice input position n).length = n := by
  rw [slice, List.length_map, List.length_range']

@[simp] theorem Stream.length_digest (input : List α) (n : Nat) : (X.digest input n).length = n :=
  X.length_slice input 0 n

/-- Slices that follow each other. -/
theorem Stream.slice_append (input : List α) (position m n : Nat) :
    X.slice input position m ++ X.slice input (position + m) n = X.slice input position (m + n) := by
  simp only [slice, ← List.map_append, List.range'_append_1]

/-- **Prefixes**: a shorter digest is the beginning of a longer one. -/
theorem Stream.take_digest (input : List α) {m n : Nat} (h : m ≤ n) : (X.digest input n).take m = X.digest input m := by
  obtain ⟨k, rfl⟩ := Nat.exists_eq_add_of_le h
  have hlen : (X.slice input 0 m).length = m := X.length_slice input 0 m
  have happend := X.slice_append input 0 m k
  rw [digest, digest, ← happend]
  exact List.take_left' hlen

/-- An object: its input so far, and how much has been read. -/
inductive Stage (α : Type)
  | absorbing (input : List α)
  | squeezing (input : List α) (position : Nat)

namespace Stage

/-- Input; none is taken after the first output. -/
def absorb : Stage α → List α → Option (Stage α)
  | absorbing input, more => some (absorbing (input ++ more))
  | squeezing _ _, _ => none

/-- The next `n` symbols of output. -/
def squeeze : Stage α → Nat → List β × Stage α
  | absorbing input, n => (X.slice input 0 n, squeezing input n)
  | squeezing input position, n => (X.slice input position n, squeezing input (position + n))

@[simp] theorem absorb_absorbing (input more : List α) :
    (absorbing input).absorb more = some (absorbing (input ++ more)) := rfl

/-- The first output. -/
@[simp] theorem squeeze_absorbing (input : List α) (n : Nat) :
    (absorbing input).squeeze X n = (X.digest input n, squeezing input n) := rfl

end Stage

/-- An implementation that keeps an object in an `H`: a new one, input and output. -/
structure Follows (new : H) (write : H → List α → H) (read : H → Nat → List β × H) : Prop where
  stages : ∃ stage : H → Stage α, stage new = .absorbing [] ∧
    (∀ h more s, (stage h).absorb more = some s → stage (write h more) = s) ∧
      ∀ h n, (read h n).1 = ((stage h).squeeze X n).1 ∧ stage (read h n).2 = ((stage h).squeeze X n).2

/-- One piece of input and one piece of output. -/
theorem Follows.digest {X : Stream α β} {new : H} {write : H → List α → H} {read : H → Nat → List β × H}
    (h : Follows X new write read) (data : List α) (n : Nat) : (read (write new data) n).1 = X.digest data n := by
  obtain ⟨stage, hnew, hwrite, hread⟩ := h.stages
  have hstage : stage (write new data) = .absorbing data := by
    refine hwrite new data _ ?_
    rw [hnew]
    rfl
  rw [(hread _ n).1, hstage, Stage.squeeze_absorbing]

end Xof
