import QorechainPqc.Lib.Except
import QorechainPqc.Lib.Prog

/-!
# Programs that may raise

A `Raising` program asks questions that may be refused with an exception, and returns or raises; `try … catch …` and
`try … finally …` are those of the standard library for `ExceptT`. The weakest precondition `ewp` has a postcondition
for each of the two ways out, and the rules say how each construct passes them on: a `finally` block runs on both ways
out, and what it raises itself replaces what went on before (`ewp_tryFinally`). Blocks that leave the state as it was
compose (`Stays`).

`Raising.eval` answers every question from a table, and sends the constructs to those of `Except`.
-/

namespace Program

variable {E Q : Type} {B : Q → Type} {G α β : Type}

/-- The answers to questions that may be refused. -/
abbrev Refusable (E : Type) (B : Q → Type) (q : Q) : Type := Except E (B q)

/-- A program that returns or raises. -/
abbrev Raising (E Q : Type) (B : Q → Type) := ExceptT E (Prog Q (Refusable E B))

/-- Nothing leaves a block of a `Prog` but its end. -/
instance {A : Q → Type} : MonadFinally (Prog Q A) where
  tryFinally' p f := p >>= fun a => f (some a) >>= fun b => .ret (a, b)

namespace Raising

/-- Ask, and return the answer or raise the exception. -/
def ask (q : Q) : Raising E Q B (B q) := ExceptT.mk (Prog.request q)

/-! ## Runs of the constructs -/

theorem run_bind (p : Raising E Q B α) (f : α → Raising E Q B β) :
    (p >>= f).run = p.run >>= fun
      | .ok a => (f a).run
      | .error e => .ret (.error e) := rfl

theorem run_tryCatch (p : Raising E Q B α) (f : E → Raising E Q B α) :
    (tryCatch p f).run = p.run >>= fun
      | .ok a => .ret (.ok a)
      | .error e => (f e).run := rfl

/-- What a block ends with when its `finally` block ends with the second argument. -/
def leave (r : Except E α) : Except E β → Except E α
  | .ok _ => r
  | .error e => .error e

@[simp] theorem leave_ok (r : Except E α) (b : β) : leave r (.ok b) = r := rfl

theorem run_tryFinally (p : Raising E Q B α) (fin : Raising E Q B β) :
    (tryFinally p fin).run = p.run >>= fun r => fin.run >>= fun s => .ret (leave r s) := by
  change ((p.run >>= _) >>= _) >>= _ = _
  rw [bind_assoc, bind_assoc]
  refine congrArg (p.run >>= ·) (funext fun r => ?_)
  cases r with
  | ok a =>
    change (fin.run >>= _) >>= _ = _
    rw [bind_assoc]
    exact congrArg (fin.run >>= ·) (funext fun s => by cases s <;> rfl)
  | error e =>
    change (fin.run >>= _) >>= _ = _
    rw [bind_assoc]
    exact congrArg (fin.run >>= ·) (funext fun s => by cases s <;> rfl)

/-! ## Weakest preconditions -/

variable {L : Logic Q (Refusable E B) G}

/-- A postcondition for each way out. -/
def outcome (post : α → G → Prop) (exc : E → G → Prop) : Except E α → G → Prop
  | .ok a => post a
  | .error e => exc e

/-- Every question is allowed where it is asked; what is returned satisfies `post`, what is raised `exc`. -/
def ewp (L : Logic Q (Refusable E B) G) (p : Raising E Q B α) (post : α → G → Prop) (exc : E → G → Prop) (g : G) :
    Prop :=
  p.run.wp L (outcome post exc) g

variable {post : α → G → Prop} {exc : E → G → Prop} {g : G}

/-- One postcondition for both ways out. -/
theorem wp_run_iff_ewp {p : Raising E Q B α} {P : G → Prop} :
    p.run.wp L (fun _ => P) g ↔ p.ewp L (fun _ => P) (fun _ => P) g := by
  constructor
  · intro h
    refine Prog.wp_mono h fun r g hr => ?_
    cases r with
    | ok a => exact hr
    | error e => exact hr
  · intro h
    refine Prog.wp_mono h fun r g hr => ?_
    cases r with
    | ok a => exact hr
    | error e => exact hr

theorem ewp_ask {q : Q} {post : B q → G → Prop} :
    (ask q : Raising E Q B (B q)).ewp L post exc g ↔ L.pre q g ∧
      (∀ b, L.ok q (.ok b) → post b (L.next q (.ok b) g)) ∧ ∀ e, L.ok q (.error e) → exc e (L.next q (.error e) g) := by
  constructor
  · intro h
    exact ⟨h.1, fun b hb => h.2 (.ok b) hb, fun e he => h.2 (.error e) he⟩
  · rintro ⟨hpre, hok, herr⟩
    refine ⟨hpre, fun a ha => ?_⟩
    cases a with
    | ok b => exact hok b ha
    | error e => exact herr e ha

/-- **Sequencing.** -/
@[simp] theorem ewp_bind {p : Raising E Q B α} {f : α → Raising E Q B β} {post : β → G → Prop} :
    (p >>= f).ewp L post exc g ↔ p.ewp L (fun a => (f a).ewp L post exc) exc g := by
  unfold ewp
  rw [run_bind, Prog.wp_bind]
  refine iff_of_eq (congrArg (p.run.wp L · g) (funext fun r => ?_))
  cases r <;> rfl

/-- Weaker postconditions. -/
theorem ewp_mono {p : Raising E Q B α} {post' : α → G → Prop} {exc' : E → G → Prop} (h : p.ewp L post exc g)
    (hpost : ∀ a g, post a g → post' a g) (hexc : ∀ e g, exc e g → exc' e g) : p.ewp L post' exc' g := by
  refine Prog.wp_mono h fun r g hr => ?_
  cases r with
  | ok a => exact hpost a g hr
  | error e => exact hexc e g hr

/-- **`try … catch …`.** -/
@[simp] theorem ewp_tryCatch {p : Raising E Q B α} {f : E → Raising E Q B α} :
    (tryCatch p f).ewp L post exc g ↔ p.ewp L post (fun e => (f e).ewp L post exc) g := by
  unfold ewp
  rw [run_tryCatch, Prog.wp_bind]
  refine iff_of_eq (congrArg (p.run.wp L · g) (funext fun r => ?_))
  cases r <;> rfl

/-- **`try … finally …`.** -/
@[simp] theorem ewp_tryFinally {p : Raising E Q B α} {fin : Raising E Q B β} :
    (tryFinally p fin).ewp L post exc g ↔
      p.ewp L (fun a => fin.ewp L (fun _ => post a) exc) (fun e => fin.ewp L (fun _ => exc e) exc) g := by
  have hfin : ∀ r : Except E α, (fun s : Except E β => (Prog.ret (leave r s)).wp L (outcome post exc)) =
      outcome (fun _ => outcome post exc r) exc := fun r => funext fun s => by cases s <;> rfl
  unfold ewp
  rw [run_tryFinally, Prog.wp_bind]
  refine iff_of_eq (congrArg (p.run.wp L · g) (funext fun r => funext fun g => ?_))
  rw [Prog.wp_bind, hfin]
  cases r <;> rfl

/-! ## What leaves the state as it was -/

/-- Whatever way a program is left, the state is as before. -/
def Stays (L : Logic Q (Refusable E B) G) (g : G) (p : Raising E Q B α) : Prop :=
  p.ewp L (fun _ g' => g' = g) (fun _ g' => g' = g) g

theorem stays_pure {a : α} : Stays L g (pure a : Raising E Q B α) := rfl

theorem stays_throw {e : E} : Stays L g (throw e : Raising E Q B α) := rfl

theorem stays_ofExcept {x : Except E α} : Stays L g (MonadExcept.ofExcept x : Raising E Q B α) := by cases x <;> rfl

theorem stays_ask {q : Q} (hpre : L.pre q g) (hnext : ∀ a, L.ok q a → L.next q a g = g) :
    Stays L g (ask q : Raising E Q B (B q)) :=
  ewp_ask.mpr ⟨hpre, fun b hb => hnext (.ok b) hb, fun e he => hnext (.error e) he⟩

/-- What follows a program that leaves the state as it was. -/
theorem Stays.ewp_bind {p : Raising E Q B α} (hp : Stays L g p) {f : α → Raising E Q B β} {post : β → G → Prop}
    (hf : ∀ a, (f a).ewp L post exc g) (hexc : ∀ e, exc e g) : (p >>= f).ewp L post exc g := by
  refine Raising.ewp_bind.mpr (ewp_mono hp ?_ ?_)
  · rintro a g rfl
    exact hf a
  · rintro e g rfl
    exact hexc e

theorem Stays.ewp_tryFinally {p : Raising E Q B α} (hp : Stays L g p) {fin : Raising E Q B β}
    (hfin : ∀ a, fin.ewp L (fun _ => post a) exc g) (hexc : ∀ e, fin.ewp L (fun _ => exc e) exc g) :
    (tryFinally p fin).ewp L post exc g := by
  refine Raising.ewp_tryFinally.mpr (ewp_mono hp ?_ ?_)
  · rintro a g rfl
    exact hfin a
  · rintro e g rfl
    exact hexc e

theorem Stays.bind {p : Raising E Q B α} (hp : Stays L g p) {f : α → Raising E Q B β}
    (hf : ∀ a, Stays L g (f a)) : Stays L g (p >>= f) :=
  hp.ewp_bind hf fun _ => rfl

theorem Stays.tryFinally {p : Raising E Q B α} {fin : Raising E Q B β} (hp : Stays L g p) (hfin : Stays L g fin) :
    Stays L g (tryFinally p fin) :=
  hp.ewp_tryFinally (fun _ => hfin) fun _ => hfin

theorem Stays.tryCatch {p : Raising E Q B α} {f : E → Raising E Q B α} (hp : Stays L g p)
    (hf : ∀ e, Stays L g (f e)) : Stays L g (tryCatch p f) := by
  refine Raising.ewp_tryCatch.mpr (ewp_mono hp (fun _ _ ha => ha) ?_)
  rintro e g rfl
  exact hf e

/-! ## Specifications without a state -/

/-- From any state, a program asks only what is allowed, what it returns satisfies `Y` and what it raises `P`. -/
def Ensures (L : Logic Q (Refusable E B) G) (Y : α → Prop) (P : E → Prop) (p : Raising E Q B α) : Prop :=
  ∀ g, p.ewp L (fun a _ => Y a) (fun e _ => P e) g

section Ensures

variable {Y : α → Prop} {Z : β → Prop} {P P' : E → Prop}

theorem ensures_pure {a : α} (h : Y a) : Ensures L Y P (pure a : Raising E Q B α) := fun _ => h

theorem ensures_throw {e : E} (h : P e) : Ensures L Y P (throw e : Raising E Q B α) := fun _ => h

theorem ensures_ofExcept {x : Except E α} (h : Failing.Ends Y P x) :
    Ensures L Y P (MonadExcept.ofExcept x : Raising E Q B α) := by
  cases x with
  | ok a => exact ensures_pure h
  | error e => exact ensures_throw h

theorem ensures_ask {q : Q} (hpre : ∀ g, L.pre q g) (herr : ∀ e, L.ok q (.error e) → P e) :
    Ensures L (fun _ => True) P (ask q : Raising E Q B (B q)) :=
  fun g => ewp_ask.mpr ⟨hpre g, fun _ _ => trivial, herr⟩

theorem Ensures.mono {p : Raising E Q B α} {Y' : α → Prop} (hp : Ensures L Y P p) (h : ∀ a, Y a → Y' a) :
    Ensures L Y' P p :=
  fun g => ewp_mono (hp g) (fun a _ ha => h a ha) fun _ _ he => he

theorem Ensures.bind {p : Raising E Q B α} (hp : Ensures L Y P p) {f : α → Raising E Q B β}
    (hf : ∀ a, Y a → Ensures L Z P (f a)) : Ensures L Z P (p >>= f) :=
  fun g => Raising.ewp_bind.mpr (ewp_mono (hp g) (fun a g ha => hf a ha g) fun _ _ he => he)

theorem Ensures.tryCatch {p : Raising E Q B α} (hp : Ensures L Y P' p) {f : E → Raising E Q B α}
    (hf : ∀ e, P' e → Ensures L Y P (f e)) : Ensures L Y P (tryCatch p f) :=
  fun g => Raising.ewp_tryCatch.mpr (ewp_mono (hp g) (fun _ _ ha => ha) fun e g he => hf e he g)

theorem Ensures.tryFinally {p : Raising E Q B α} {fin : Raising E Q B β} (hp : Ensures L Y P p)
    (hfin : Ensures L Z P fin) : Ensures L Y P (tryFinally p fin) :=
  fun g => Raising.ewp_tryFinally.mpr (ewp_mono (hp g)
    (fun _ g ha => ewp_mono (hfin g) (fun _ _ _ => ha) fun _ _ he => he)
    fun _ g he => ewp_mono (hfin g) (fun _ _ _ => he) fun _ _ he' => he')

/-- What a run ends with. -/
theorem Ensures.run {p : Raising E Q B α} (h : Ensures L Y P p) {tr : List (Event Q (Refusable E B))}
    {r : Except E α} (hr : Run L.ok p.run tr r) (g : G) : Failing.Ends Y P r := by
  have hend := hr.wp (h g)
  cases r with
  | ok a => exact hend
  | error e => exact hend

end Ensures

/-! ## Answers from a table -/

/-- What a program returns or raises when the answers come from a table. -/
def eval (env : ∀ q, Except E (B q)) (p : Raising E Q B α) : Except E α := p.run.eval env

variable {env : ∀ q, Except E (B q)}

@[simp] theorem eval_pure (a : α) : (pure a : Raising E Q B α).eval env = .ok a := rfl

@[simp] theorem eval_throw (e : E) : (throw e : Raising E Q B α).eval env = .error e := rfl

@[simp] theorem eval_ofExcept (x : Except E α) : (MonadExcept.ofExcept x : Raising E Q B α).eval env = x := by
  cases x <;> rfl

@[simp] theorem eval_ask (q : Q) : (ask q : Raising E Q B (B q)).eval env = env q := rfl

@[simp] theorem eval_ite {c : Prop} [Decidable c] (p p' : Raising E Q B α) :
    (if c then p else p').eval env = if c then p.eval env else p'.eval env := by
  split <;> rfl

@[simp] theorem eval_bind (p : Raising E Q B α) (f : α → Raising E Q B β) :
    (p >>= f).eval env = (p.eval env >>= fun a => (f a).eval env) := by
  unfold eval
  rw [run_bind, Prog.eval_bind]
  cases p.run.eval env <;> rfl

@[simp] theorem eval_tryCatch (p : Raising E Q B α) (f : E → Raising E Q B α) :
    (tryCatch p f).eval env = tryCatch (p.eval env) fun e => (f e).eval env := by
  unfold eval
  rw [run_tryCatch, Prog.eval_bind]
  cases p.run.eval env <;> rfl

@[simp] theorem eval_tryFinally (p : Raising E Q B α) (fin : Raising E Q B β) :
    (tryFinally p fin).eval env = leave (p.eval env) (fin.eval env) := by
  unfold eval
  rw [run_tryFinally, Prog.eval_bind, Prog.eval_bind]
  rfl

end Raising

end Program
