import QorechainPqc.Lib.LockGuard
import QorechainPqc.Lib.Machine

/-!
# Calls behind a lock behave as if they ran alone

The threads of `Program.Guard`, and what their questions are answered by: a `Library` that keeps a state for each call.
An answer may depend on that state and on the bytes drawn for the question; the bytes depend on the mode at the moment
of each draw, which another thread could change in between.

If every call follows the discipline, no other thread does: each call that has ended has an execution of its own
program, alone, in which every answer comes from bytes of the mode that the call wants (`Guard.exec_of_ended`). And what
a call does where there is no other thread does happen (`Guard.happens_of_exec`).
-/

namespace Program

/-- What answers the questions: the state it starts each call with, and its answers by this state and the drawn
bytes. -/
structure Library (Q : Type) (A : Q → Type) (S : Type) where
  start : S
  step : S → ∀ q, List (List UInt8) → A q → S → Prop

variable {Q : Type} {A : Q → Type} {M C R S T : Type}

/-- A library that gives only some of its answers. -/
def Library.restrict (lib : Library Q A S) (P : ∀ q, A q → Prop) : Library Q A S :=
  { lib with step := fun s q bss a s' => P q a ∧ lib.step s q bss a s' }

namespace Guard

/-! ## Threads with a memory -/

/-- A call that has ended, with its result and what the library has kept of it. -/
structure Ended (C R S : Type) where
  call : C
  result : R
  final : S

/-- The threads, what the library keeps of their calls in progress, the bytes drawn for their pending questions, and the
calls that have ended. -/
structure History (Q : Type) (A : Q → Type) (M C R S T : Type) where
  system : System Q A M C R T
  kept : T → S
  drawn : T → List (List UInt8)
  ended : List (Ended C R S)

variable (G : Guard Q A M C) (lib : Library Q A S) (prog : C → Prog Q A R)

/-- The bytes drawn for a question of a call come from the mode that the call wants. -/
def Proper (c : C) (q : Q) (bss : List (List UInt8)) : Prop :=
  ∀ bs ∈ bss, G.draws q ∧ ∀ m, G.want c = some m → G.emits m bs

/-- The answers that a call gets when it runs alone. -/
def alone (c : C) : Machine Q A S where
  step s q a s' := G.ok q a ∧ ∃ bss, G.Proper c q bss ∧ lib.step s q bss a s'

/-- The bytes drawn for a question of a call where no other thread runs: those of the mode that it wants, and of the
idle one if it wants none. -/
def Drawable (c : C) (q : Q) (bss : List (List UInt8)) : Prop :=
  ∀ bs ∈ bss, G.draws q ∧ G.emits ((G.want c).getD G.idle) bs

/-- The answers that a call gets there. -/
def solo (c : C) : Machine Q A S where
  step s q a s' := G.ok q a ∧ ∃ bss, G.Drawable c q bss ∧ lib.step s q bss a s'

/-! ## The invariant -/

/-- The call in progress of a thread has got where it is by itself, and the bytes drawn for the pending question come
from the mode that it wants. -/
def OnItsOwn (x : History Q A M C R S T) (t : T) : Prop :=
  match (x.system.threads t).current with
  | some (c, p) => Leads (G.alone lib c) (prog c) lib.start p (x.kept t) ∧
      match p with
      | .ask q _ => G.Proper c q (x.drawn t)
      | .ret _ => True
  | none => True

variable {G lib prog} {x y : History Q A M C R S T} {t t' : T}

/-- A thread that a step does not concern. -/
theorem OnItsOwn.frame (h : OnItsOwn G lib prog x t) (hth : y.system.threads t = x.system.threads t)
    (hk : y.kept t = x.kept t) (hd : y.drawn t = x.drawn t) : OnItsOwn G lib prog y t := by
  unfold OnItsOwn at h ⊢
  rw [hth, hk, hd]
  exact h

theorem onItsOwn_of_current {c : C} {p : Prog Q A R} {cs : List C} (h : x.system.threads t = ⟨some (c, p), cs⟩)
    (hl : Leads (G.alone lib c) (prog c) lib.start p (x.kept t)) (hd : ∀ q, G.Proper c q (x.drawn t)) :
    OnItsOwn G lib prog x t := by
  unfold OnItsOwn
  rw [h]
  refine ⟨hl, ?_⟩
  cases p with
  | ret r => trivial
  | ask q k => exact hd q

theorem proper_nil {c : C} (q : Q) : G.Proper c q [] := fun _ h => absurd h List.not_mem_nil

/-! ## Interleavings -/

section Moves

variable (G lib prog) [DecidableEq T]

/-- One step of one thread, as in `Step`; the answers are those of the library. -/
inductive Move : History Q A M C R S T → History Q A M C R S T → Prop
  | start {x : History Q A M C R S T} (t : T) {c : C} {cs : List C} (h : x.system.threads t = ⟨none, c :: cs⟩) :
      Move x ⟨x.system.put t ⟨some (c, prog c), cs⟩, Function.update x.kept t lib.start,
        Function.update x.drawn t [], x.ended⟩
  | draw {x : History Q A M C R S T} (t : T) {c : C} {q : Q} {k : A q → Prog Q A R} {cs : List C} {b : List UInt8}
      (h : x.system.threads t = ⟨some (c, .ask q k), cs⟩) (hq : G.draws q) (hb : G.emits x.system.mode b) :
      Move x ⟨{ x.system with log := ⟨c, x.system.mode, b⟩ :: x.system.log }, x.kept,
        Function.update x.drawn t (x.drawn t ++ [b]), x.ended⟩
  | answer {x : History Q A M C R S T} {s : System Q A M C R T} (t : T) {c : C} {q : Q} {k : A q → Prog Q A R}
      {cs : List C} {a : A q} {u : S} (h : x.system.threads t = ⟨some (c, .ask q k), cs⟩) (ha : G.ok q a)
      (hl : lib.step (x.kept t) q (x.drawn t) a u) (hs : Acts t (G.effect q a) x.system s) :
      Move x ⟨s.put t ⟨some (c, k a), cs⟩, Function.update x.kept t u, Function.update x.drawn t [], x.ended⟩
  | finish {x : History Q A M C R S T} (t : T) {c : C} {r : R} {cs : List C}
      (h : x.system.threads t = ⟨some (c, .ret r), cs⟩) :
      Move x ⟨x.system.put t ⟨none, cs⟩, x.kept, x.drawn, ⟨c, r, x.kept t⟩ :: x.ended⟩

/-- All threads between calls, and nothing has happened. -/
def start (todo : T → List C) : History Q A M C R S T := ⟨init G todo, fun _ => lib.start, fun _ => [], []⟩

/-- What any interleaving of the threads can lead to. -/
def Happens (todo : T → List C) (x : History Q A M C R S T) : Prop :=
  Relation.ReflTransGen (Move G lib prog) (start G lib todo) x

/-- The invariant: the discipline, and every call has run on its own. -/
structure Separate (x : History Q A M C R S T) : Prop where
  inv : G.Inv x.system
  current : ∀ t, OnItsOwn G lib prog x t
  ended : ∀ e ∈ x.ended, Exec (G.alone lib e.call) (prog e.call) lib.start e.result e.final

end Moves

variable [DecidableEq T]

/-- The call in progress. -/
theorem Separate.leads (hx : Separate G lib prog x) {c : C} {p : Prog Q A R} {cs : List C}
    (h : x.system.threads t = ⟨some (c, p), cs⟩) : Leads (G.alone lib c) (prog c) lib.start p (x.kept t) := by
  have ht := hx.current t
  unfold OnItsOwn at ht
  rw [h] at ht
  exact ht.1

/-- The bytes drawn for its question. -/
theorem Separate.proper (hx : Separate G lib prog x) {c : C} {q : Q} {k : A q → Prog Q A R} {cs : List C}
    (h : x.system.threads t = ⟨some (c, .ask q k), cs⟩) : G.Proper c q (x.drawn t) := by
  have ht := hx.current t
  unfold OnItsOwn at ht
  rw [h] at ht
  exact ht.2

/-! ### Steps -/

theorem separate_start (hx : Separate G lib prog x) {c : C} {cs : List C}
    (h : x.system.threads t = ⟨none, c :: cs⟩) (hg : G.Guarded c (prog c)) : Separate G lib prog
      ⟨x.system.put t ⟨some (c, prog c), cs⟩, Function.update x.kept t lib.start, Function.update x.drawn t [],
        x.ended⟩ := by
  refine ⟨inv_start hx.inv h hg, fun t' => ?_, hx.ended⟩
  by_cases ht : t' = t
  · subst ht
    refine onItsOwn_of_current (put_threads_self _) ?_ fun q => ?_
    · simp only [Function.update_self]
      exact .refl
    · simp only [Function.update_self]
      exact proper_nil q
  · exact (hx.current t').frame (put_threads_of_ne ht _) (Function.update_of_ne ht ..) (Function.update_of_ne ht ..)

theorem separate_draw (hx : Separate G lib prog x) {c : C} {q : Q} {k : A q → Prog Q A R} {cs : List C}
    {bs : List UInt8} (h : x.system.threads t = ⟨some (c, .ask q k), cs⟩) (hq : G.draws q)
    (hb : G.emits x.system.mode bs) : Separate G lib prog
      ⟨{ x.system with log := ⟨c, x.system.mode, bs⟩ :: x.system.log }, x.kept,
        Function.update x.drawn t (x.drawn t ++ [bs]), x.ended⟩ := by
  refine ⟨inv_draw hx.inv h hq hb, fun t' => ?_, hx.ended⟩
  by_cases ht : t' = t
  · subst ht
    -- the discipline: the mode is the wanted one at the moment of the draw
    have hmode (m : M) (hm : G.want c = some m) : x.system.mode = m := by
      have hheld : x.system.held t' = some m := (hx.inv.wp h).1.1 hq m hm
      exact (held_eq_some.mp hheld).2
    have hcurrent := hx.current t'
    unfold OnItsOwn at hcurrent ⊢
    simp only [h, Function.update_self] at hcurrent ⊢
    refine ⟨hcurrent.1, fun b hmem => ?_⟩
    rcases List.mem_append.mp hmem with hold | hnew
    · exact hcurrent.2 b hold
    · obtain rfl := List.mem_singleton.mp hnew
      exact ⟨hq, fun m hm => hmode m hm ▸ hb⟩
  · exact (hx.current t').frame rfl rfl (Function.update_of_ne ht ..)

theorem separate_answer (hx : Separate G lib prog x) {s : System Q A M C R T} {c : C} {q : Q}
    {k : A q → Prog Q A R} {cs : List C} {a : A q} {kept : S} (h : x.system.threads t = ⟨some (c, .ask q k), cs⟩)
    (ha : G.ok q a) (hl : lib.step (x.kept t) q (x.drawn t) a kept) (hs : Acts t (G.effect q a) x.system s) :
    Separate G lib prog
      ⟨s.put t ⟨some (c, k a), cs⟩, Function.update x.kept t kept, Function.update x.drawn t [], x.ended⟩ := by
  refine ⟨inv_answer hx.inv h ha hs, fun t' => ?_, hx.ended⟩
  by_cases ht : t' = t
  · subst ht
    refine onItsOwn_of_current (put_threads_self _) ?_ fun q => ?_
    · simp only [Function.update_self]
      exact (hx.leads h).step ⟨ha, _, hx.proper h, hl⟩
    · simp only [Function.update_self]
      exact proper_nil q
  · refine (hx.current t').frame ?_ (Function.update_of_ne ht ..) (Function.update_of_ne ht ..)
    exact (put_threads_of_ne ht _).trans (congrFun hs.threads t')

theorem separate_finish (hx : Separate G lib prog x) {c : C} {r : R} {cs : List C}
    (h : x.system.threads t = ⟨some (c, .ret r), cs⟩) : Separate G lib prog
      ⟨x.system.put t ⟨none, cs⟩, x.kept, x.drawn, ⟨c, r, x.kept t⟩ :: x.ended⟩ := by
  refine ⟨inv_finish hx.inv h, fun t' => ?_, fun e he => ?_⟩
  · by_cases ht : t' = t
    · subst ht
      unfold OnItsOwn
      simp only [put_threads_self]
    · exact (hx.current t').frame (put_threads_of_ne ht _) rfl rfl
  · rcases List.mem_cons.mp he with rfl | he
    · exact (hx.leads h).exec
    · exact hx.ended e he

/-- **One step** keeps the calls apart. -/
theorem separate_move (hg : ∀ c, G.Guarded c (prog c)) (hx : Separate G lib prog x) (h : Move G lib prog x y) :
    Separate G lib prog y := by
  cases h with
  | start t h => exact separate_start hx h (hg _)
  | draw t h hq hb => exact separate_draw hx h hq hb
  | answer t h ha hl hs => exact separate_answer hx h ha hl hs
  | finish t h => exact separate_finish hx h

theorem separate_init (todo : T → List C) : Separate G lib prog (start G lib todo : History Q A M C R S T) where
  inv := inv_init todo
  current _ := trivial
  ended _ he := absurd he List.not_mem_nil

/-- **Every history** keeps the calls apart. -/
theorem separate_happens (hg : ∀ c, G.Guarded c (prog c)) {todo : T → List C} (h : Happens G lib prog todo x) :
    Separate G lib prog x := by
  induction h with
  | refl => exact separate_init todo
  | tail _ hmove ih => exact separate_move hg ih hmove

/-- **Atomicity**: in any interleaving, every call that has ended has an execution of its own. -/
theorem exec_of_ended (hg : ∀ c, G.Guarded c (prog c)) {todo : T → List C} (h : Happens G lib prog todo x)
    {e : Ended C R S} (he : e ∈ x.ended) :
    Exec (G.alone lib e.call) (prog e.call) lib.start e.result e.final :=
  (separate_happens hg h).ended e he

/-- What happens with some of the answers happens with all of them. -/
theorem Happens.of_restrict {P : ∀ q, A q → Prop} {todo : T → List C} (h : Happens G (lib.restrict P) prog todo x) :
    Happens G lib prog todo x := by
  induction h with
  | refl => exact .refl
  | tail _ hmove ih =>
    refine ih.tail ?_
    cases hmove with
    | start t h => exact .start t h
    | draw t h hq hb => exact .draw t h hq hb
    | answer t h ha hl hs => exact .answer t h ha hl.2 hs
    | finish t h => exact .finish t h

/-- The library alone always has an answer, if it has one without a draw. -/
theorem alone_total (hlib : ∀ s q, ∃ a s', G.ok q a ∧ lib.step s q [] a s') (c : C) : (G.alone lib c).Total := by
  intro s q
  obtain ⟨a, s', ha, hs⟩ := hlib s q
  exact ⟨a, s', ha, [], proper_nil q, hs⟩

/-! ### One thread -/

section Solo

/-- What a call may do to the lock and the mode, it can do where there is no other thread. -/
theorem exists_acts {c : C} {e : Effect M} {s : System Q A M C R Unit} (h : G.Allowed c e (s.held ())) :
    ∃ s', Acts () e s s' := by
  cases e with
  | none => exact ⟨s, .none s⟩
  | acquire =>
    have hfree : s.holder = none := Option.eq_none_iff_forall_ne_some.mpr fun _ => held_eq_none.mp h
    exact ⟨_, .acquire hfree⟩
  | release => exact ⟨_, .release s⟩
  | set m => exact ⟨_, .set s m⟩

/-- The mode at a draw of a call where there is no other thread. -/
theorem mode_of_draws {s : System Q A M C R Unit} (hi : G.Inv s) {c : C} {q : Q} {k : A q → Prog Q A R} {cs : List C}
    (h : s.threads () = ⟨some (c, .ask q k), cs⟩) (hq : G.draws q) : s.mode = (G.want c).getD G.idle := by
  cases hw : G.want c with
  | some m => exact (held_eq_some.mp ((hi.wp h).1.1 hq m hw)).2
  | none =>
    by_contra hm
    obtain ⟨_, c', p', -, hc', hwant⟩ := hi.wanted hm
    rw [h] at hc'
    cases hc'
    rw [hw] at hwant
    cases hwant

variable {x : History Q A M C R S Unit} {todo : Unit → List C} {c : C}

/-- Draws, one after another. -/
theorem happens_draws {q : Q} {k : A q → Prog Q A R} {cs : List C} (hx : Happens G lib prog todo x)
    (h : x.system.threads () = ⟨some (c, .ask q k), cs⟩) (bss : List (List UInt8))
    (hbss : ∀ bs ∈ bss, G.draws q ∧ G.emits x.system.mode bs) :
    ∃ y : History Q A M C R S Unit, Happens G lib prog todo y ∧ y.system.threads () = ⟨some (c, .ask q k), cs⟩ ∧
      y.kept () = x.kept () ∧ y.drawn () = x.drawn () ++ bss := by
  induction bss generalizing x with
  | nil => exact ⟨x, hx, h, rfl, (List.append_nil _).symm⟩
  | cons bs bss ih =>
    obtain ⟨hq, hb⟩ := hbss bs List.mem_cons_self
    obtain ⟨y, hy, hth, hkept, hdrawn⟩ := ih (hx.tail (.draw () h hq hb)) h fun b hb =>
      hbss b (List.mem_cons_of_mem bs hb)
    refine ⟨y, hy, hth, hkept, ?_⟩
    simp only [hdrawn, Function.update_self, List.append_assoc, List.singleton_append]

/-- The rest of a program, from where the thread is. -/
theorem happens_rest (hg : ∀ c, G.Guarded c (prog c)) {p : Prog Q A R} {r : R} {s s' : S}
    (hexec : Exec (G.solo lib c) p s r s') (hx : Happens G lib prog todo x)
    (h : x.system.threads () = ⟨some (c, p), []⟩) (hs : x.kept () = s) (hd : x.drawn () = []) :
    ∃ y : History Q A M C R S Unit, Happens G lib prog todo y ∧ ⟨c, r, s'⟩ ∈ y.ended := by
  induction hexec generalizing x with
  | ret r s => exact ⟨_, hx.tail (.finish () h), hs ▸ List.mem_cons_self⟩
  | @ask q k s s' s'' a r ha _ ih =>
    obtain ⟨hok, bss, hbss, hl⟩ := ha
    have hmode : ∀ bs ∈ bss, G.draws q ∧ G.emits x.system.mode bs := by
      intro bs hmem
      obtain ⟨hq, hb⟩ := hbss bs hmem
      exact ⟨hq, (mode_of_draws (separate_happens hg hx).inv h hq).symm ▸ hb⟩
    obtain ⟨y, hy, hth, hkept, hdrawn⟩ := happens_draws hx h bss hmode
    obtain ⟨s₁, hacts⟩ := exists_acts (((separate_happens hg hy).inv.wp hth).1.2 a hok)
    rw [hd, List.nil_append] at hdrawn
    have hstep : lib.step (y.kept ()) q (y.drawn ()) a s' := by
      rw [hkept, hs, hdrawn]
      exact hl
    refine ih (hy.tail (.answer () hth hok hstep hacts)) (put_threads_self _) ?_ ?_
    · simp only [Function.update_self]
    · simp only [Function.update_self]

/-- **Alone**: what a call does where there is no other thread does happen. -/
theorem happens_of_exec (hg : ∀ c, G.Guarded c (prog c)) {r : R} {s : S}
    (h : Exec (G.solo lib c) (prog c) lib.start r s) : ∃ x : History Q A M C R S Unit,
      Happens G lib prog (fun _ => [c]) x ∧ ⟨c, r, s⟩ ∈ x.ended := by
  refine happens_rest hg h (Relation.ReflTransGen.single (.start () rfl)) (put_threads_self _) ?_ ?_
  · simp only [Function.update_self]
  · simp only [Function.update_self]

end Solo

end Guard

end Program
