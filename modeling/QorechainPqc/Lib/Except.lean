import Mathlib.Data.Option.Basic

/-!
# Sequencing computations that may fail

How `Except` binds, as simp lemmas, and the inversion of a bind that succeeds.
-/

namespace Failing

variable {ε α β : Type}

@[simp] theorem ok_bind (a : α) (f : α → Except ε β) : (Except.ok a >>= f) = f a := pure_bind a f

@[simp] theorem error_bind (e : ε) (f : α → Except ε β) : (Except.error e >>= f) = .error e := rfl

@[simp] theorem pure_eq_ok (a : α) : (pure a : Except ε α) = .ok a := rfl

@[simp] theorem throw_eq_error (e : ε) : (throw e : Except ε α) = .error e := rfl

/-- A bind succeeds when both halves do. -/
theorem bind_eq_ok {x : Except ε α} {f : α → Except ε β} {b : β} :
    (x >>= f) = .ok b ↔ ∃ a, x = .ok a ∧ f a = .ok b := by
  cases x with
  | error e => simp
  | ok a => simp

theorem length_of_mapM {f : α → Except ε β} {xs : List α} {ys : List β} (h : xs.mapM f = .ok ys) :
    ys.length = xs.length := by
  induction xs generalizing ys with
  | nil => cases h; rfl
  | cons x xs ih =>
    rw [List.mapM_cons] at h
    obtain ⟨y, -, h⟩ := bind_eq_ok.mp h
    obtain ⟨zs, hzs, h⟩ := bind_eq_ok.mp h
    cases h
    rw [List.length_cons, List.length_cons, ih hzs]

/-- A postcondition for what succeeds, and one for the error. -/
def Ends (post : α → Prop) (exc : ε → Prop) : Except ε α → Prop
  | .ok a => post a
  | .error e => exc e

theorem Ends.mono {post post' : α → Prop} {exc : ε → Prop} {x : Except ε α} (hx : Ends post exc x)
    (h : ∀ a, post a → post' a) : Ends post' exc x := by
  cases x with
  | ok a => exact h a hx
  | error e => exact hx

theorem Ends.bind {post : α → Prop} {post' : β → Prop} {exc : ε → Prop} {x : Except ε α} (hx : Ends post exc x)
    {f : α → Except ε β} (hf : ∀ a, post a → Ends post' exc (f a)) : Ends post' exc (x >>= f) := by
  cases x with
  | ok a => exact hf a hx
  | error e => exact hx

end Failing
