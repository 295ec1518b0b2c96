import Mathlib.Logic.Basic

/-!
# Programs that ask their environment

A `Prog` returns, or asks a question and goes on with the answer. What the environment may answer, what has to hold
before a question and how an abstract state moves are a `Logic`; `wp` is its weakest precondition, with the rule for
sequencing (`wp_bind`) and for a weaker postcondition (`wp_mono`).

A `Run` lists the questions and answers of a program that returns. Along it the state moves as `wp` says (`Run.wp`),
so a weakest precondition speaks about all runs (`Prog.wp_iff_run`). `eval` answers from a table.
-/

namespace Program

/-- A program that asks questions `q : Q` and takes answers `A q`. -/
inductive Prog (Q : Type) (A : Q → Type) (α : Type)
  | ret (a : α)
  | ask (q : Q) (k : A q → Prog Q A α)

variable {Q : Type} {A : Q → Type} {G α β : Type}

namespace Prog

/-- One program after the other. -/
def bind : Prog Q A α → (α → Prog Q A β) → Prog Q A β
  | ret a, f => f a
  | ask q k, f => ask q fun a => (k a).bind f

instance : Monad (Prog Q A) where
  pure := ret
  bind := bind

/-- Ask, and return the answer. -/
def request (q : Q) : Prog Q A (A q) := ask q ret

/-- Answer every question from a table. -/
def eval (env : ∀ q, A q) : Prog Q A α → α
  | ret a => a
  | ask q k => (k (env q)).eval env

@[simp] theorem pure_eq_ret (a : α) : (pure a : Prog Q A α) = ret a := rfl

instance : LawfulMonad (Prog Q A) := by
  refine LawfulMonad.mk' (Prog Q A) ?_ (fun _ _ => rfl) ?_
  · intro α p
    induction p with
    | ret a => rfl
    | ask q k ih => exact congrArg (ask q) (funext ih)
  · intro α β γ p f h
    induction p with
    | ret a => rfl
    | ask q k ih => exact congrArg (ask q) (funext ih)

@[simp] theorem eval_request (env : ∀ q, A q) (q : Q) : (request q : Prog Q A (A q)).eval env = env q := rfl

@[simp] theorem eval_bind (env : ∀ q, A q) (p : Prog Q A α) (f : α → Prog Q A β) :
    (p >>= f).eval env = (f (p.eval env)).eval env := by
  induction p with
  | ret a => rfl
  | ask q k ih => exact ih (env q)

end Prog

/-! ## Weakest preconditions -/

/-- What may be asked in which abstract state, which answers may come, and how the state moves. -/
structure Logic (Q : Type) (A : Q → Type) (G : Type) where
  pre : Q → G → Prop
  ok : ∀ q, A q → Prop
  next : ∀ q, A q → G → G

namespace Prog

variable {L : Logic Q A G}

/-- Every question is allowed where it is asked, and the result satisfies `post`. -/
def wp (L : Logic Q A G) : Prog Q A α → (α → G → Prop) → G → Prop
  | ret a, post, g => post a g
  | ask q k, post, g => L.pre q g ∧ ∀ a, L.ok q a → (k a).wp L post (L.next q a g)

@[simp] theorem wp_ret {a : α} {post : α → G → Prop} {g : G} : (ret a : Prog Q A α).wp L post g ↔ post a g := Iff.rfl

@[simp] theorem wp_request {q : Q} {post : A q → G → Prop} {g : G} :
    (request q : Prog Q A (A q)).wp L post g ↔ L.pre q g ∧ ∀ a, L.ok q a → post a (L.next q a g) := Iff.rfl

/-- **Sequencing.** -/
@[simp] theorem wp_bind {p : Prog Q A α} {f : α → Prog Q A β} {post : β → G → Prop} {g : G} :
    (p >>= f).wp L post g ↔ p.wp L (fun a => (f a).wp L post) g := by
  induction p generalizing g with
  | ret a => exact Iff.rfl
  | ask q k ih => exact and_congr_right fun _ => forall_congr' fun a => imp_congr_right fun _ => ih a

@[simp] theorem wp_ite {c : Prop} [Decidable c] {p p' : Prog Q A α} {post : α → G → Prop} {g : G} :
    (if c then p else p').wp L post g ↔ if c then p.wp L post g else p'.wp L post g := by
  split <;> rfl

/-- A weaker postcondition. -/
theorem wp_mono {p : Prog Q A α} {post post' : α → G → Prop} {g : G} (h : p.wp L post g)
    (hpost : ∀ a g, post a g → post' a g) : p.wp L post' g := by
  induction p generalizing g with
  | ret a => exact hpost a g h
  | ask q k ih => exact ⟨h.1, fun a ha => ih a (h.2 a ha)⟩

end Prog

/-! ## Runs -/

/-- A question with its answer. -/
abbrev Event (Q : Type) (A : Q → Type) := Σ q, A q

/-- The events of a program that returns `r`. -/
inductive Run (ok : ∀ q, A q → Prop) : Prog Q A α → List (Event Q A) → α → Prop
  | ret (r : α) : Run ok (.ret r) [] r
  | ask {q : Q} {k : A q → Prog Q A α} {a : A q} {tr : List (Event Q A)} {r : α} (ha : ok q a)
      (hr : Run ok (k a) tr r) : Run ok (.ask q k) (⟨q, a⟩ :: tr) r

/-- The state after some events. -/
def Logic.after (L : Logic Q A G) (g : G) (tr : List (Event Q A)) : G := tr.foldl (fun g e => L.next e.1 e.2 g) g

@[simp] theorem Logic.after_nil (L : Logic Q A G) (g : G) : L.after g [] = g := rfl

@[simp] theorem Logic.after_cons (L : Logic Q A G) (g : G) (e : Event Q A) (tr : List (Event Q A)) :
    L.after g (e :: tr) = L.after (L.next e.1 e.2 g) tr := rfl

/-- **Adequacy**: a run ends in a state that satisfies the postcondition. -/
theorem Run.wp {L : Logic Q A G} {p : Prog Q A α} {tr : List (Event Q A)} {r : α} {post : α → G → Prop} {g : G}
    (hr : Run L.ok p tr r) (h : p.wp L post g) : post r (L.after g tr) := by
  induction hr generalizing g with
  | ret r => exact h
  | ask ha _ ih => exact ih (h.2 _ ha)

/-- **What is asked**: every question of a run was allowed, in some state. -/
theorem Run.asked {L : Logic Q A G} {p : Prog Q A α} {tr : List (Event Q A)} {r : α} {post : α → G → Prop} {g : G}
    (hr : Run L.ok p tr r) (h : p.wp L post g) : ∀ e ∈ tr, ∃ g, L.pre e.1 g := by
  induction hr generalizing g with
  | ret r => exact fun _ he => absurd he List.not_mem_nil
  | @ask q k a tr r ha _ ih =>
    intro e he
    rcases List.mem_cons.mp he with rfl | he
    · exact ⟨g, h.1⟩
    · exact ih (h.2 _ ha) e he

/-- A weakest precondition that does not restrict the questions is a statement about all runs. -/
theorem Prog.wp_iff_run {L : Logic Q A G} (hpre : ∀ q g, L.pre q g) {p : Prog Q A α} {post : α → G → Prop} {g : G} :
    p.wp L post g ↔ ∀ tr r, Run L.ok p tr r → post r (L.after g tr) := by
  refine ⟨fun h tr r hr => hr.wp h, fun h => ?_⟩
  induction p generalizing g with
  | ret a => exact h [] a (.ret a)
  | ask q k ih => exact ⟨hpre q g, fun a ha => ih a fun tr r hr => h _ r (.ask ha hr)⟩

/-- The logic that allows every question and records the events. -/
def Logic.record (ok : ∀ q, A q → Prop) : Logic Q A (List (Event Q A)) where
  pre _ _ := True
  ok := ok
  next q a tr := tr ++ [⟨q, a⟩]

theorem Logic.after_record (ok : ∀ q, A q → Prop) (tr : List (Event Q A)) :
    ∀ g, (Logic.record ok).after g tr = g ++ tr := by
  induction tr with
  | nil => intro g; rw [after_nil, List.append_nil]
  | cons e tr ih =>
    intro g
    rw [after_cons, ih]
    exact List.append_assoc g [e] tr

@[simp] theorem Prog.wp_record_request {ok : ∀ q, A q → Prop} {q : Q} {post : A q → List (Event Q A) → Prop}
    {tr : List (Event Q A)} : (request q : Prog Q A (A q)).wp (.record ok) post tr ↔
      ∀ a, ok q a → post a (tr ++ [⟨q, a⟩]) :=
  ⟨fun h => h.2, fun h => ⟨trivial, h⟩⟩

/-- **Runs by recording**: what holds of all runs is the weakest precondition of the recorded events. -/
theorem Prog.wp_record {ok : ∀ q, A q → Prop} {p : Prog Q A α} {post : α → List (Event Q A) → Prop} :
    p.wp (.record ok) post [] ↔ ∀ tr r, Run ok p tr r → post r tr := by
  rw [Prog.wp_iff_run fun _ _ => trivial]
  refine forall_congr' fun tr => forall_congr' fun r => imp_congr_right fun _ => ?_
  rw [Logic.after_record, List.nil_append]

/-- Along a run, a question is allowed in the state before it, and after the last one the postcondition holds. -/
theorem Run.wp_prefix {L : Logic Q A G} {p : Prog Q A α} {tr : List (Event Q A)} {r : α} {post : α → G → Prop} {g : G}
    (hr : Run L.ok p tr r) (h : p.wp L post g) {a : List (Event Q A)} (ha : a <+: tr) :
    (∃ q, L.pre q (L.after g a)) ∨ post r (L.after g a) := by
  induction hr generalizing g a with
  | ret r => exact .inr (by rw [List.prefix_nil.mp ha]; exact h)
  | @ask q k b tr r hb _ ih =>
    cases a with
    | nil => exact .inl ⟨q, h.1⟩
    | cons e a =>
      obtain ⟨rfl, ha'⟩ := List.cons_prefix_cons.mp ha
      exact ih (h.2 b hb) ha'

/-- Every question of a run was allowed in the state that the events before it had led to. -/
theorem Run.pre_of_append {L : Logic Q A G} {p : Prog Q A α} {tr a b : List (Event Q A)} {e : Event Q A} {r : α}
    {post : α → G → Prop} {g : G} (hr : Run L.ok p tr r) (h : p.wp L post g) (htr : tr = a ++ e :: b) :
    L.pre e.1 (L.after g a) := by
  induction hr generalizing g a with
  | ret r => exact absurd htr.symm (List.append_ne_nil_of_right_ne_nil a (List.cons_ne_nil e b))
  | @ask q k c tr r hc _ ih =>
    cases a with
    | nil =>
      obtain ⟨he, -⟩ := List.cons.inj htr
      subst he
      exact h.1
    | cons e' a =>
      obtain ⟨he, htail⟩ := List.cons.inj htr
      subst he
      have hpre : L.pre e.1 (L.after (L.next q c g) a) := ih (h.2 c hc) htail
      exact hpre

end Program
