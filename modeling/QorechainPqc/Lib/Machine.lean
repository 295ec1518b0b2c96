import QorechainPqc.Lib.Raise

/-!
# Programs in an environment with a state

A `Machine` says how an environment that remembers what it was asked may answer. Where it has no answer, nothing is
known of the environment. The total weakest precondition `twp` demands that a program never gets there, and that its
result satisfies the postcondition whatever the answers (`Exec.twp`, and `Prog.exists_exec_of_twp`: it has a result). A
machine may be `Local`, so that what a program
does in a part of a state it does in the whole (`Leads.join`).

The rules of `Raising` for the two ways out are those of `ewp`. `Machine.ofDraws` is an environment that answers by a
function of its state and of a draw, with the rules `twp_request_ofDraws` and `etwp_ask_ofDraws` for a question to it;
`Machine.Total` is one that always has an answer, so that every program has a way to its end in it
(`Machine.Total.exists_exec`), with the rules `twp_request_of_total` and `etwp_ask_of_total`.
-/

namespace Program

/-- The answers of an environment in a state, and the state after each. -/
structure Machine (Q : Type) (A : Q → Type) (S : Type) where
  step : S → ∀ q, A q → S → Prop

variable {Q : Type} {A : Q → Type} {S α β : Type} {M : Machine Q A S}

/-- A program started in a state returns, and leaves a state. -/
inductive Exec (M : Machine Q A S) : Prog Q A α → S → α → S → Prop
  | ret (r : α) (s : S) : Exec M (.ret r) s r s
  | ask {q : Q} {k : A q → Prog Q A α} {s s' s'' : S} {a : A q} {r : α} (ha : M.step s q a s')
      (hr : Exec M (k a) s' r s'') : Exec M (.ask q k) s r s''

/-- A program whose result is mapped. -/
theorem Exec.of_map {f : α → β} {p : Prog Q A α} {s s' : S} {b : β} (h : Exec M (f <$> p) s b s') :
    ∃ a, f a = b ∧ Exec M p s a s' := by
  induction p generalizing s with
  | ret a =>
    cases h
    exact ⟨a, rfl, .ret a _⟩
  | ask q k ih =>
    cases h with
    | ask ha hr =>
      obtain ⟨a, hb, hexec⟩ := ih _ hr
      exact ⟨a, hb, .ask ha hexec⟩

/-- What a program can get to, with the state there. -/
inductive Leads (M : Machine Q A S) (p : Prog Q A α) (s : S) : Prog Q A α → S → Prop
  | refl : Leads M p s p s
  | step {q : Q} {k : A q → Prog Q A α} {s' s'' : S} {a : A q} (h : Leads M p s (.ask q k) s')
      (ha : M.step s' q a s'') : Leads M p s (k a) s''

/-- The rest of a program brings it to its end. -/
theorem Leads.append {p p' : Prog Q A α} {s s' s'' : S} {r : α} (h : Leads M p s p' s') (hr : Exec M p' s' r s'') :
    Exec M p s r s'' := by
  induction h with
  | refl => exact hr
  | step _ ha ih => exact ih (.ask ha hr)

theorem Leads.exec {p : Prog Q A α} {s s' : S} {r : α} (h : Leads M p s (.ret r) s') : Exec M p s r s' :=
  h.append (.ret r s')

namespace Prog

/-- Every question has an answer where it is asked, and whatever the answers, the result satisfies `post`. -/
def twp (M : Machine Q A S) : Prog Q A α → (α → S → Prop) → S → Prop
  | ret a, post, s => post a s
  | ask q k, post, s => (∃ a s', M.step s q a s') ∧ ∀ a s', M.step s q a s' → (k a).twp M post s'

@[simp] theorem twp_ret {a : α} {post : α → S → Prop} {s : S} : (ret a : Prog Q A α).twp M post s ↔ post a s := Iff.rfl

/-- **Sequencing.** -/
@[simp] theorem twp_bind {p : Prog Q A α} {f : α → Prog Q A β} {post : β → S → Prop} {s : S} :
    (p >>= f).twp M post s ↔ p.twp M (fun a => (f a).twp M post) s := by
  induction p generalizing s with
  | ret a => exact Iff.rfl
  | ask q k ih =>
    exact and_congr_right fun _ => forall_congr' fun a => forall_congr' fun s' => imp_congr_right fun _ => ih a

@[simp] theorem twp_map {p : Prog Q A α} {f : α → β} {post : β → S → Prop} {s : S} :
    (f <$> p).twp M post s ↔ p.twp M (fun a => post (f a)) s := by
  rw [map_eq_pure_bind]
  exact twp_bind

@[simp] theorem twp_ite {c : Prop} [Decidable c] {p p' : Prog Q A α} {post : α → S → Prop} {s : S} :
    (if c then p else p').twp M post s ↔ if c then p.twp M post s else p'.twp M post s := by
  split <;> rfl

/-- A weaker postcondition. -/
theorem twp_mono {p : Prog Q A α} {post post' : α → S → Prop} {s : S} (h : p.twp M post s)
    (hpost : ∀ a s, post a s → post' a s) : p.twp M post' s := by
  induction p generalizing s with
  | ret a => exact hpost a s h
  | ask q k ih => exact ⟨h.1, fun a s' hs => ih a (h.2 a s' hs)⟩

end Prog

/-- **Adequacy**: every way to the end satisfies the postcondition. -/
theorem Exec.twp {p : Prog Q A α} {post : α → S → Prop} {s s' : S} {r : α} (h : Exec M p s r s')
    (hp : p.twp M post s) : post r s' := by
  induction h with
  | ret r s => exact hp
  | ask ha _ ih => exact ih (hp.2 _ _ ha)

/-- **Progress**: there is a way to the end, as there is always an answer on it. -/
theorem Prog.exists_exec_of_twp {p : Prog Q A α} {post : α → S → Prop} {s : S} (h : p.twp M post s) :
    ∃ r s', Exec M p s r s' := by
  induction p generalizing s with
  | ret a => exact ⟨a, s, .ret a s⟩
  | ask q k ih =>
    obtain ⟨⟨a, s', hs⟩, hrest⟩ := h
    obtain ⟨r, s'', hr⟩ := ih a (hrest a s' hs)
    exact ⟨r, s'', .ask hs hr⟩

/-- A weakest precondition that does not look at the state of the machine. -/
theorem Exec.wp {G : Type} {L : Logic Q A G} {p : Prog Q A α} {post : α → G → Prop} {s s' : S} {r : α} {g : G}
    (h : Exec M p s r s') (hok : ∀ s q a s', M.step s q a s' → L.ok q a) (hp : p.wp L post g) : ∃ g', post r g' := by
  induction h generalizing g with
  | ret r s => exact ⟨g, hp⟩
  | ask ha _ ih => exact ih (hp.2 _ (hok _ _ _ _ ha))

/-- A weakest precondition holds on, as far as a program has got. -/
theorem Leads.twp {p p' : Prog Q A α} {post : α → S → Prop} {s s' : S} (h : Leads M p s p' s') (hp : p.twp M post s) :
    p'.twp M post s' := by
  induction h with
  | refl => exact hp
  | step _ ha ih => exact ih.2 _ _ ha

/-! ## Parts of a state -/

/-- A machine that does not see what is beside the part of its state that a question is about; `Beside s f s'` says that
`s'` is `s` with `f` beside it. If a part has an answer, a step of the whole is one of the part. A step of the part is
one of the whole, if there is room for it. -/
structure Machine.Local {F : Type} (M : Machine Q A S) (Beside : S → F → S → Prop) : Prop where
  split : ∀ {s f s' q a t'}, Beside s f s' → (∃ a t, M.step s q a t) → M.step s' q a t' →
    ∃ t, M.step s q a t ∧ Beside t f t'
  join : ∀ {s f q a t t'}, M.step s q a t → Beside t f t' → ∃ s', Beside s f s' ∧ M.step s' q a t'

/-- **What was done in a part** was done in the whole. -/
theorem Leads.join {F : Type} {Beside : S → F → S → Prop} (hM : M.Local Beside) {p p' : Prog Q A α} {s t t' : S} {f : F}
    (h : Leads M p s p' t) (ht : Beside t f t') : ∃ s', Beside s f s' ∧ Leads M p s' p' t' := by
  induction h generalizing t' with
  | refl => exact ⟨t', ht, .refl⟩
  | step _ ha ih =>
    obtain ⟨u, hu, hstep⟩ := hM.join ha ht
    obtain ⟨s', hs, hleads⟩ := ih hu
    exact ⟨s', hs, hleads.step hstep⟩

/-! ## Refinement -/

/-- A machine that does as another one does wherever that one has an answer; `rel` says which of its states stand for
which. -/
structure Machine.Refines {S' : Type} (M : Machine Q A S) (N : Machine Q A S') (rel : S → S' → Prop) : Prop where
  answers : ∀ {s t q}, rel s t → (∃ a t', N.step t q a t') → ∃ a s', M.step s q a s'
  step : ∀ {s t q a s'}, rel s t → (∃ a t', N.step t q a t') → M.step s q a s' → ∃ t', N.step t q a t' ∧ rel s' t'

theorem Machine.refines_refl (M : Machine Q A S) : M.Refines M Eq where
  answers := fun hr h => hr ▸ h
  step := fun hr _ hs => ⟨_, hr ▸ hs, rfl⟩

/-- **Refinement**: a total weakest precondition over the other machine holds over this one. -/
theorem Machine.Refines.twp {S' : Type} {N : Machine Q A S'} {rel : S → S' → Prop} (h : M.Refines N rel)
    {p : Prog Q A α} {post : α → S → Prop} {post' : α → S' → Prop} (hpost : ∀ a s t, rel s t → post' a t → post a s)
    {s : S} {t : S'} (hr : rel s t) (hp : p.twp N post' t) : p.twp M post s := by
  induction p generalizing s t with
  | ret a => exact hpost a s t hr hp
  | ask q k ih =>
    refine ⟨h.answers hr hp.1, fun a s' hs => ?_⟩
    obtain ⟨t', ht, hr'⟩ := h.step hr hp.1 hs
    exact ih a hr' (hp.2 a t' ht)

/-- An environment that always has an answer. -/
def Machine.Total (M : Machine Q A S) : Prop := ∀ s q, ∃ a s', M.step s q a s'

/-- There is a way to the end. -/
theorem Machine.Total.exists_exec (hM : M.Total) (p : Prog Q A α) (s : S) : ∃ r s', Exec M p s r s' := by
  induction p generalizing s with
  | ret a => exact ⟨a, s, .ret a s⟩
  | ask q k ih =>
    obtain ⟨a, s', hs⟩ := hM s q
    obtain ⟨r, s'', hr⟩ := ih a s'
    exact ⟨r, s'', .ask hs hr⟩

theorem Prog.twp_request_of_total (hM : M.Total) {q : Q} {post : A q → S → Prop} {s : S} :
    (request q : Prog Q A (A q)).twp M post s ↔ ∀ a s', M.step s q a s' → post a s' :=
  and_iff_right (hM s q)

/-- An environment that answers by its state and a draw, where the function has an answer for every draw. -/
def Machine.ofDraws {D : Type} (answer : D → S → ∀ q, Option (A q × S)) : Machine Q A S where
  step s q a s' := (∀ d, (answer d s q).isSome) ∧ ∃ d, answer d s q = some (a, s')

/-- What holds of an answer, if there is one. -/
def Answered (post : α → S → Prop) : Option (α × S) → Prop
  | some (a, s) => post a s
  | none => False

@[simp] theorem answered_some {post : α → S → Prop} {a : α} {s : S} : Answered post (some (a, s)) ↔ post a s := Iff.rfl

/-- **A question** to an environment that answers by draws. -/
theorem Prog.twp_request_ofDraws {D : Type} [Nonempty D] {answer : D → S → ∀ q, Option (A q × S)} {q : Q}
    {post : A q → S → Prop} {s : S} :
    (request q : Prog Q A (A q)).twp (.ofDraws answer) post s ↔ ∀ d, Answered post (answer d s q) := by
  constructor
  · rintro ⟨⟨a, s', hall, -⟩, hpost⟩ d
    obtain ⟨⟨r, s''⟩, hd⟩ := Option.isSome_iff_exists.mp (hall d)
    have hr := hpost r s'' ⟨hall, d, hd⟩
    rw [hd]
    exact hr
  · intro h
    have hall : ∀ d, (answer d s q).isSome := by
      intro d
      have hd := h d
      cases ha : answer d s q with
      | none => rw [ha] at hd; exact hd.elim
      | some x => rfl
    refine ⟨?_, ?_⟩
    · obtain ⟨⟨a, s'⟩, hd⟩ := Option.isSome_iff_exists.mp (hall (Classical.arbitrary D))
      exact ⟨a, s', hall, _, hd⟩
    · rintro a s' ⟨-, d, hd⟩
      have ha := h d
      rw [hd] at ha
      exact ha

/-! ## Programs that may raise -/

namespace Raising

variable {E : Type} {B : Q → Type} {M : Machine Q (Refusable E B) S} {post : α → S → Prop} {exc : E → S → Prop} {s : S}

/-- `twp` with a postcondition for each way out. -/
def etwp (M : Machine Q (Refusable E B) S) (p : Raising E Q B α) (post : α → S → Prop) (exc : E → S → Prop) (s : S) :
    Prop :=
  p.run.twp M (outcome post exc) s

/-- A check that passes. -/
@[simp] theorem ofExcept_ok (a : α) : (MonadExcept.ofExcept (.ok a : Except E α) : Raising E Q B α) = pure a := rfl

@[simp] theorem etwp_pure {a : α} : (pure a : Raising E Q B α).etwp M post exc s ↔ post a s := Iff.rfl

@[simp] theorem etwp_throw {e : E} : (throw e : Raising E Q B α).etwp M post exc s ↔ exc e s := Iff.rfl

/-- **Sequencing.** -/
@[simp] theorem etwp_bind {p : Raising E Q B α} {f : α → Raising E Q B β} {post : β → S → Prop} :
    (p >>= f).etwp M post exc s ↔ p.etwp M (fun a => (f a).etwp M post exc) exc s := by
  unfold etwp
  rw [run_bind, Prog.twp_bind]
  refine iff_of_eq (congrArg (p.run.twp M · s) (funext fun r => ?_))
  cases r <;> rfl

@[simp] theorem etwp_map {p : Raising E Q B α} {f : α → β} {post : β → S → Prop} :
    (f <$> p).etwp M post exc s ↔ p.etwp M (fun a => post (f a)) exc s := by
  rw [map_eq_pure_bind]
  exact etwp_bind

/-- Weaker postconditions. -/
theorem etwp_mono {p : Raising E Q B α} {post' : α → S → Prop} {exc' : E → S → Prop} (h : p.etwp M post exc s)
    (hpost : ∀ a s, post a s → post' a s) (hexc : ∀ e s, exc e s → exc' e s) : p.etwp M post' exc' s := by
  refine Prog.twp_mono h fun r s hr => ?_
  cases r with
  | ok a => exact hpost a s hr
  | error e => exact hexc e s hr

/-- **`try … catch …`.** -/
@[simp] theorem etwp_tryCatch {p : Raising E Q B α} {f : E → Raising E Q B α} :
    (tryCatch p f).etwp M post exc s ↔ p.etwp M post (fun e => (f e).etwp M post exc) s := by
  unfold etwp
  rw [run_tryCatch, Prog.twp_bind]
  refine iff_of_eq (congrArg (p.run.twp M · s) (funext fun r => ?_))
  cases r <;> rfl

/-- **`try … finally …`.** -/
@[simp] theorem etwp_tryFinally {p : Raising E Q B α} {fin : Raising E Q B β} :
    (tryFinally p fin).etwp M post exc s ↔
      p.etwp M (fun a => fin.etwp M (fun _ => post a) exc) (fun e => fin.etwp M (fun _ => exc e) exc) s := by
  have hfin : ∀ r : Except E α, (fun s : Except E β => (Prog.ret (leave r s)).twp M (outcome post exc)) =
      outcome (fun _ => outcome post exc r) exc := fun r => funext fun s => by cases s <;> rfl
  unfold etwp
  rw [run_tryFinally, Prog.twp_bind]
  refine iff_of_eq (congrArg (p.run.twp M · s) (funext fun r => funext fun s => ?_))
  rw [Prog.twp_bind, hfin]
  cases r <;> rfl

/-- **A question** to an environment that always has an answer. -/
theorem etwp_ask_of_total (hM : M.Total) {q : Q} {post : B q → S → Prop} :
    (ask q : Raising E Q B (B q)).etwp M post exc s ↔
      (∀ b s', M.step s q (.ok b) s' → post b s') ∧ ∀ e s', M.step s q (.error e) s' → exc e s' := by
  constructor
  · intro h
    exact ⟨fun b s' hs => h.2 (.ok b) s' hs, fun e s' hs => h.2 (.error e) s' hs⟩
  · rintro ⟨hok, herr⟩
    refine ⟨hM s q, fun r s' hs => ?_⟩
    cases r with
    | ok b => exact hok b s' hs
    | error e => exact herr e s' hs

@[simp] theorem outcome_ok {a : α} : outcome post exc (.ok a) s ↔ post a s := Iff.rfl

/-- **A question** to an environment that answers by draws. -/
@[simp] theorem etwp_ask_ofDraws {D : Type} [Nonempty D] {answer : D → S → ∀ q, Option (Refusable E B q × S)} {q : Q}
    {post : B q → S → Prop} :
    (ask q : Raising E Q B (B q)).etwp (.ofDraws answer) post exc s ↔
      ∀ d, Answered (outcome post exc) (answer d s q) :=
  Prog.twp_request_ofDraws

end Raising

end Program
