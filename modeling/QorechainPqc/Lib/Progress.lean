import Mathlib.Data.DFinsupp.WellFounded
import Mathlib.Order.WellFounded
import QorechainPqc.Lib.LockGuard

/-!
# Calls behind a lock come to an end

A call that waits for the lock is stuck until another one releases it. If every call follows the discipline of
`Program.Guard` and every question has an answer, no state is stuck for all: the thread that holds the lock can get on,
and if nobody holds it every thread can (`Guard.progress`). Finitely many threads cannot get on forever either, since a
call is a tree that every answer cuts down (`Guard.wellFounded_advances`).

Hence, whatever thread the scheduler picks and however many bytes a question draws before it is answered, all calls come
to an end (`Guard.inevitable_of_reachable`); `Inevitable` says so of any relation.
-/

namespace Program

/-! ## What cannot be avoided -/

/-- Whatever steps are taken from a state, one with the property is reached; on the way there is always a step. -/
inductive Inevitable {X : Type} (step : X → X → Prop) (P : X → Prop) : X → Prop
  | here {x : X} (h : P x) : Inevitable step P x
  | later {x : X} (hs : ∃ y, step x y) (h : ∀ y, step x y → Inevitable step P y) : Inevitable step P x

/-- **An invariant and a measure**: steps that keep an invariant and decrease, and that are possible wherever the
property does not hold yet. -/
theorem inevitable_of_wellFounded {X : Type} {step : X → X → Prop} {P I : X → Prop}
    (hwf : WellFounded fun y x => step x y) (hinv : ∀ x y, I x → step x y → I y)
    (hstep : ∀ x, I x → P x ∨ ∃ y, step x y) {x : X} (hx : I x) : Inevitable step P x := by
  induction x using hwf.induction with
  | h x ih =>
    rcases hstep x hx with hP | hs
    · exact .here hP
    · exact .later hs fun y hy => ih y hy (hinv x y hx hy)

variable {Q : Type} {A : Q → Type} {M C R T : Type}

namespace Guard

/-! ## One thread -/

/-- A thread gets on: it starts its next call, gets an answer, or ends its call. -/
inductive Thread.GetsOn : Thread Q A C R → Thread Q A C R → Prop
  | start (c : C) (p : Prog Q A R) (cs : List C) : GetsOn ⟨none, c :: cs⟩ ⟨some (c, p), cs⟩
  | answer (c : C) (q : Q) (k : A q → Prog Q A R) (a : A q) (cs : List C) :
      GetsOn ⟨some (c, .ask q k), cs⟩ ⟨some (c, k a), cs⟩
  | finish (c : C) (r : R) (cs : List C) : GetsOn ⟨some (c, .ret r), cs⟩ ⟨none, cs⟩

/-- A call in progress cannot go on forever if the calls behind it do not. -/
theorem Thread.acc_current {cs : List C} (h : Acc (fun y x => Thread.GetsOn x y) (⟨none, cs⟩ : Thread Q A C R)) (c : C)
    (p : Prog Q A R) : Acc (fun y x => Thread.GetsOn x y) (⟨some (c, p), cs⟩ : Thread Q A C R) := by
  induction p with
  | ret r =>
    constructor
    intro y hy
    cases hy
    exact h
  | ask q k ih =>
    constructor
    intro y hy
    cases hy
    exact ih _

/-- No thread gets on forever: by induction on its calls, and on the call in progress. -/
theorem Thread.wellFounded_getsOn : WellFounded fun y x : Thread Q A C R => Thread.GetsOn x y := by
  have hbetween (cs : List C) : Acc (fun y x => Thread.GetsOn x y) (⟨none, cs⟩ : Thread Q A C R) := by
    induction cs with
    | nil =>
      constructor
      intro y hy
      cases hy
    | cons c cs ih =>
      constructor
      intro y hy
      cases hy
      exact Thread.acc_current ih c _
  constructor
  rintro ⟨current, cs⟩
  cases current with
  | none => exact hbetween cs
  | some x => exact Thread.acc_current (hbetween cs) x.1 x.2

/-! ## All threads -/

variable (G : Guard Q A M C) [DecidableEq T] (prog : C → Prog Q A R)

/-- One thread gets on, and the others stay where they are. -/
def Advances (s s' : System Q A M C R T) : Prop :=
  ∃ t, Thread.GetsOn (s.threads t) (s'.threads t) ∧ ∀ t', t' ≠ t → s'.threads t' = s.threads t'

/-- A step in which no thread gets on: a draw. -/
def Draws (s s' : System Q A M C R T) : Prop := G.Step prog s s' ∧ s'.threads = s.threads

/-- Some draws, and a step in which a thread gets on. -/
def Round (s s' : System Q A M C R T) : Prop :=
  ∃ x, Relation.ReflTransGen (Draws G prog) s x ∧ G.Step prog x s' ∧ Advances x s'

/-- All calls have ended. -/
def System.Ended (s : System Q A M C R T) : Prop := ∀ t, s.threads t = ⟨none, []⟩

variable {G prog} {s s' : System Q A M C R T} {t : T}

theorem advances_put {th : Thread Q A C R} (hth : s'.threads = s.threads) (h : Thread.GetsOn (s.threads t) th) :
    Advances s (s'.put t th) := by
  refine ⟨t, ?_, fun t' ht' => ?_⟩
  · rwa [put_threads_self]
  · rw [put_threads_of_ne ht', hth]

omit [DecidableEq T] in
/-- Finitely many threads do not get on forever. -/
theorem wellFounded_advances [Finite T] : WellFounded fun y x : System Q A M C R T => Advances x y := by
  have hwf : WellFounded (Pi.Lex (WellOrderingRel : T → T → Prop) fun y x : Thread Q A C R => Thread.GetsOn x y) :=
    Pi.Lex.wellFounded _ fun _ => Thread.wellFounded_getsOn
  refine Subrelation.wf ?_ (InvImage.wf System.threads hwf)
  rintro y x ⟨t, ht, hother⟩
  refine ⟨t, fun t' ht' => hother t' ?_, ht⟩
  rintro rfl
  exact irrefl_of WellOrderingRel t' ht'

theorem threads_of_draws (h : Relation.ReflTransGen (Draws G prog) s s') : s'.threads = s.threads := by
  induction h with
  | refl => rfl
  | tail _ hd ih => exact hd.2.trans ih

theorem wellFounded_round [Finite T] : WellFounded fun y x : System Q A M C R T => Round G prog x y := by
  have hwf : WellFounded fun y x : System Q A M C R T => Advances x y := wellFounded_advances
  refine Subrelation.wf ?_ hwf
  rintro y x ⟨z, hz, -, t, ht, hother⟩
  have hthreads : z.threads = x.threads := threads_of_draws hz
  exact ⟨t, hthreads ▸ ht, fun t' ht' => hthreads ▸ hother t' ht'⟩

/-! ## Nobody waits forever -/

/-- A thread that holds the lock, or finds it free, can get on. -/
theorem exists_step (htotal : ∀ q, ∃ a, G.ok q a) (hi : G.Inv s) (hlock : s.holder = none ∨ s.holder = some t)
    (ht : s.threads t ≠ ⟨none, []⟩) : ∃ s', G.Step prog s s' ∧ Advances s s' := by
  obtain ⟨current, cs, hth⟩ : ∃ current cs, s.threads t = ⟨current, cs⟩ := ⟨_, _, rfl⟩
  match current, cs, hth with
  | none, [], hth => exact absurd hth ht
  | none, c :: cs, hth => exact ⟨_, .start t hth, advances_put rfl (hth ▸ .start c (prog c) cs)⟩
  | some (c, .ret r), cs, hth => exact ⟨_, .finish t hth, advances_put rfl (hth ▸ .finish c r cs)⟩
  | some (c, .ask q k), cs, hth =>
    obtain ⟨a, ha⟩ := htotal q
    have hallowed : G.Allowed c (G.effect q a) (s.held t) := (hi.wp hth).1.2 a ha
    -- only the acquisition needs the lock to be free, and who holds it does not acquire it again
    obtain ⟨s', hs⟩ : ∃ s', Acts t (G.effect q a) s s' := by
      cases he : G.effect q a with
      | none => exact ⟨_, .none s⟩
      | release => exact ⟨_, .release s⟩
      | set m => exact ⟨_, .set s m⟩
      | acquire =>
        rw [he] at hallowed
        have hfree : s.holder ≠ some t := held_eq_none.mp hallowed
        exact ⟨_, .acquire (hlock.resolve_right hfree)⟩
    exact ⟨_, .answer t hth ha hs, advances_put hs.threads (hth ▸ .answer c q k a cs)⟩

/-- **No deadlock**: some thread can get on, if not all calls have ended. -/
theorem progress (htotal : ∀ q, ∃ a, G.ok q a) (hi : G.Inv s) : s.Ended ∨ ∃ s', Round G prog s s' := by
  by_cases hend : s.Ended
  · exact .inl hend
  · refine .inr ?_
    obtain ⟨t, ht, hlock⟩ : ∃ t, s.threads t ≠ ⟨none, []⟩ ∧ (s.holder = none ∨ s.holder = some t) := by
      cases hh : s.holder with
      | none =>
        obtain ⟨t, ht⟩ := not_forall.mp hend
        exact ⟨t, ht, .inl rfl⟩
      | some t =>
        refine ⟨t, fun ht => hi.free (t := t) ?_ hh, .inr rfl⟩
        rw [ht]
    obtain ⟨s', hstep, hadv⟩ : ∃ s', G.Step prog s s' ∧ Advances s s' := exists_step htotal hi hlock ht
    exact ⟨s', s, .refl, hstep, hadv⟩

theorem inv_round (hg : ∀ c, G.Guarded c (prog c)) (hi : G.Inv s) (h : Round G prog s s') : G.Inv s' := by
  obtain ⟨x, hx, hstep, -⟩ := h
  have hxi : G.Inv x := by
    clear hstep
    induction hx with
    | refl => exact hi
    | tail _ hd ih => exact inv_step hg ih hd.1
  exact inv_step hg hxi hstep

/-- **All calls come to an end**, from every reachable state of finitely many threads, however they are scheduled. -/
theorem inevitable_of_reachable [Finite T] (hg : ∀ c, G.Guarded c (prog c)) (htotal : ∀ q, ∃ a, G.ok q a)
    {todo : T → List C} (h : G.Reachable prog todo s) : Inevitable (Round G prog) System.Ended s :=
  inevitable_of_wellFounded wellFounded_round (fun _ _ => inv_round hg) (fun _ => progress htotal)
    (inv_reachable hg h)

end Guard

end Program
