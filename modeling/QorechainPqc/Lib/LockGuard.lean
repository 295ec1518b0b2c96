import Mathlib.Logic.Function.Basic
import Mathlib.Logic.Relation
import QorechainPqc.Lib.Prog

/-!
# A global mode guarded by a lock

Threads run finite sequences of calls. One lock and one global mode are shared: a step of a call may take the lock,
release it or set the mode, or draw bytes whose origin depends on the mode. A `Guard` says which questions of a program
do which of these, and which mode a call wants for what it draws.

The discipline for one call, `Guard.Guarded`, is a weakest precondition: it sets the mode only while it holds the lock
and only to a mode it wants, it is back in the idle mode when it releases the lock, and it holds the lock with the
wanted mode when it draws. If every call follows it, then whatever the interleaving (`Guard.inv_reachable`)

* the mode is idle unless a call that wants another one holds the lock (`Guard.mode_of_reachable`),
* a call that wants a mode draws in that mode only (`Guard.draws_of_reachable`),
* with no call in progress the lock is free and the mode idle (`Guard.idle_of_reachable`).
-/

namespace Program

/-- What a step does to the shared state. -/
inductive Effect (M : Type)
  | none
  | acquire
  | release
  | set (m : M)

/-- How questions act on the lock and the mode, and which mode a call wants. -/
structure Guard (Q : Type) (A : Q → Type) (M C : Type) where
  ok : ∀ q, A q → Prop
  effect : ∀ q, A q → Effect M
  draws : Q → Prop
  emits : M → List UInt8 → Prop
  idle : M
  want : C → Option M

variable {Q : Type} {A : Q → Type} {M C R T : Type}

namespace Guard

variable (G : Guard Q A M C)

/-! ## The discipline of one call -/

/-- A step is allowed for a call that holds the lock with the mode `held`, or does not hold it. -/
def Allowed (c : C) : Effect M → Option M → Prop
  | .none, _ => True
  | .acquire, held => held = none
  | .release, held => held = some G.idle
  | .set m, held => held ≠ none ∧ (m = G.idle ∨ G.want c = some m)

/-- What the call holds after a step. -/
def move : Effect M → Option M → Option M
  | .none, held => held
  | .acquire, _ => some G.idle
  | .release, _ => none
  | .set m, _ => some m

section Simp

variable {G} {c : C} {held : Option M} {m : M}

@[simp] theorem allowed_none : G.Allowed c .none held := trivial

@[simp] theorem allowed_acquire : G.Allowed c .acquire held ↔ held = none := Iff.rfl

@[simp] theorem allowed_release : G.Allowed c .release held ↔ held = some G.idle := Iff.rfl

@[simp] theorem allowed_set : G.Allowed c (.set m) held ↔ held ≠ none ∧ (m = G.idle ∨ G.want c = some m) := Iff.rfl

@[simp] theorem move_none : G.move .none held = held := rfl

@[simp] theorem move_acquire : G.move .acquire held = some G.idle := rfl

@[simp] theorem move_release : G.move .release held = none := rfl

@[simp] theorem move_set : G.move (.set m) held = some m := rfl

end Simp

/-- The rules for a call. -/
def logic (c : C) : Logic Q A (Option M) where
  pre q held := (G.draws q → ∀ m, G.want c = some m → held = some m) ∧
    ∀ a, G.ok q a → G.Allowed c (G.effect q a) held
  ok := G.ok
  next q a := G.move (G.effect q a)

/-- A call that does not hold the lock when it starts follows the discipline, and does not hold it at the end. -/
def Guarded (c : C) (p : Prog Q A R) : Prop := p.wp (G.logic c) (fun _ held => held = none) none

/-! ## Threads -/

/-- A thread: the call in progress with the rest of its program, and the calls to come. -/
structure Thread (Q : Type) (A : Q → Type) (C R : Type) where
  current : Option (C × Prog Q A R)
  todo : List C

/-- Bytes drawn by a call in a mode. -/
structure Draw (M C : Type) where
  call : C
  mode : M
  bytes : List UInt8

/-- The shared state, and the threads. -/
structure System (Q : Type) (A : Q → Type) (M C R T : Type) where
  mode : M
  holder : Option T
  threads : T → Thread Q A C R
  log : List (Draw M C)

variable [DecidableEq T] (prog : C → Prog Q A R)

/-- The state with a thread replaced. -/
def System.put (s : System Q A M C R T) (t : T) (th : Thread Q A C R) : System Q A M C R T :=
  { s with threads := Function.update s.threads t th }

/-- What a step of thread `t` does to the lock and the mode; the lock is taken only when it is free. -/
inductive Acts (t : T) : Effect M → System Q A M C R T → System Q A M C R T → Prop
  | none (s : System Q A M C R T) : Acts t .none s s
  | acquire {s : System Q A M C R T} (h : s.holder = Option.none) : Acts t .acquire s { s with holder := some t }
  | release (s : System Q A M C R T) : Acts t .release s { s with holder := Option.none }
  | set (s : System Q A M C R T) (m : M) : Acts t (.set m) s { s with mode := m }

/-- One step of one thread: it starts its next call, draws, gets an answer, or ends its call. -/
inductive Step : System Q A M C R T → System Q A M C R T → Prop
  | start {s : System Q A M C R T} (t : T) {c : C} {cs : List C} (h : s.threads t = ⟨none, c :: cs⟩) :
      Step s (s.put t ⟨some (c, prog c), cs⟩)
  | draw {s : System Q A M C R T} (t : T) {c : C} {q : Q} {k : A q → Prog Q A R} {cs : List C} {bs : List UInt8}
      (h : s.threads t = ⟨some (c, .ask q k), cs⟩) (hq : G.draws q) (hb : G.emits s.mode bs) :
      Step s { s with log := ⟨c, s.mode, bs⟩ :: s.log }
  | answer {s s' : System Q A M C R T} (t : T) {c : C} {q : Q} {k : A q → Prog Q A R} {cs : List C} {a : A q}
      (h : s.threads t = ⟨some (c, .ask q k), cs⟩) (ha : G.ok q a) (hs : Acts t (G.effect q a) s s') :
      Step s (s'.put t ⟨some (c, k a), cs⟩)
  | finish {s : System Q A M C R T} (t : T) {c : C} {r : R} {cs : List C}
      (h : s.threads t = ⟨some (c, .ret r), cs⟩) : Step s (s.put t ⟨none, cs⟩)

/-- All threads between calls, with calls to come: the lock is free, the mode idle and nothing drawn. -/
def init (todo : T → List C) : System Q A M C R T := ⟨G.idle, none, fun t => ⟨none, todo t⟩, []⟩

/-- What any interleaving of the threads can reach. -/
def Reachable (todo : T → List C) (s : System Q A M C R T) : Prop :=
  Relation.ReflTransGen (Step G prog) (init G todo) s

/-! ## The invariant -/

/-- What thread `t` holds. -/
def System.held (s : System Q A M C R T) (t : T) : Option M := if s.holder = some t then some s.mode else none

/-- A thread follows the discipline from where it is; between calls it does not hold the lock. -/
def Follows (s : System Q A M C R T) (t : T) : Prop :=
  match (s.threads t).current with
  | some (c, p) => p.wp (G.logic c) (fun _ held => held = none) (s.held t)
  | none => s.holder ≠ some t

/-- The call in progress of the thread that holds the lock wants the mode, unless it is idle. -/
def Wanted (s : System Q A M C R T) : Prop :=
  s.mode ≠ G.idle → ∃ t c p, s.holder = some t ∧ (s.threads t).current = some (c, p) ∧ G.want c = some s.mode

/-- Every draw was made in the mode that its call wants, and shows it. -/
def Honest (s : System Q A M C R T) : Prop :=
  ∀ d ∈ s.log, G.emits d.mode d.bytes ∧ ∀ m, G.want d.call = some m → d.mode = m

/-- The invariant of all reachable states. -/
structure Inv (s : System Q A M C R T) : Prop where
  follows : ∀ t, G.Follows s t
  wanted : G.Wanted s
  honest : G.Honest s

variable {G} {prog} {s s' : System Q A M C R T} {t t' : T}

@[simp] theorem put_threads_self (th : Thread Q A C R) : (s.put t th).threads t = th := Function.update_self ..

theorem put_threads_of_ne (h : t' ≠ t) (th : Thread Q A C R) : (s.put t th).threads t' = s.threads t' :=
  Function.update_of_ne h ..

omit [DecidableEq T] in
/-- An action leaves the threads where they are. -/
theorem Acts.threads {e : Effect M} (h : Acts t e s s') : s'.threads = s.threads := by cases h <;> rfl

theorem held_eq_none : s.held t = none ↔ s.holder ≠ some t := by
  unfold System.held
  split
  · rename_i h; simp [h]
  · rename_i h; simp [h]

theorem held_eq_some {m : M} : s.held t = some m ↔ s.holder = some t ∧ s.mode = m := by
  unfold System.held
  split
  · rename_i h; simp [h]
  · rename_i h; simp [h]

/-- A thread that a step does not concern follows the discipline as before. -/
theorem Follows.frame (h : G.Follows s t) (hth : s'.threads t = s.threads t)
    (hh : s'.holder = some t ↔ s.holder = some t) (hm : s.holder = some t → s'.mode = s.mode) : G.Follows s' t := by
  have hheld : s'.held t = s.held t := by
    unfold System.held
    by_cases ht : s.holder = some t
    · rw [if_pos ht, if_pos (hh.mpr ht), hm ht]
    · rw [if_neg ht, if_neg fun h => ht (hh.mp h)]
  unfold Follows at h ⊢
  rw [hth, hheld]
  cases hc : (s.threads t).current with
  | none => rw [hc] at h; exact fun h' => h (hh.mp h')
  | some x => rw [hc] at h; exact h

/-- The call in progress of a thread, with what its discipline still demands. -/
theorem Inv.wp (hi : G.Inv s) {c : C} {p : Prog Q A R} {cs : List C} (h : s.threads t = ⟨some (c, p), cs⟩) :
    p.wp (G.logic c) (fun _ held => held = none) (s.held t) := by
  have hf := hi.follows t
  unfold Follows at hf
  rw [h] at hf
  exact hf

/-- Nobody holds the lock: the mode is idle. -/
theorem Inv.idle (hi : G.Inv s) (h : s.holder = none) : s.mode = G.idle := by
  by_contra hm
  obtain ⟨t, _, _, ht, _⟩ := hi.wanted hm
  rw [h] at ht
  cases ht

/-- A thread between calls does not hold the lock. -/
theorem Inv.free (hi : G.Inv s) (h : (s.threads t).current = none) : s.holder ≠ some t := by
  have hf := hi.follows t
  unfold Follows at hf
  rw [h] at hf
  exact hf

theorem inv_init (todo : T → List C) : G.Inv (G.init todo : System Q A M C R T) where
  follows _ := fun h => by cases h
  wanted hm := absurd rfl hm
  honest d hd := by cases hd

/-- What thread `t` is replaced by follows, the others are not concerned. -/
theorem follows_put {th : Thread Q A C R} (hi : G.Inv s) (hself : G.Follows (s'.put t th) t)
    (hth : s'.threads = s.threads) (hh : ∀ t', t' ≠ t → (s'.holder = some t' ↔ s.holder = some t'))
    (hm : ∀ t', t' ≠ t → s.holder = some t' → s'.mode = s.mode) : ∀ t', G.Follows (s'.put t th) t' := by
  intro t'
  by_cases ht : t' = t
  · rw [ht]; exact hself
  · refine (hi.follows t').frame ?_ (hh t' ht) (hm t' ht)
    rw [put_threads_of_ne ht, hth]

theorem inv_start (hi : G.Inv s) {c : C} {cs : List C} (h : s.threads t = ⟨none, c :: cs⟩)
    (hg : G.Guarded c (prog c)) : G.Inv (s.put t ⟨some (c, prog c), cs⟩) := by
  have hfree : s.holder ≠ some t := hi.free (by rw [h])
  refine ⟨follows_put hi ?_ rfl (fun _ _ => Iff.rfl) (fun _ _ _ => rfl), fun hm => ?_, hi.honest⟩
  · have hheld : (s.put t ⟨some (c, prog c), cs⟩).held t = none := held_eq_none.mpr hfree
    unfold Follows
    rw [put_threads_self, hheld]
    exact hg
  · obtain ⟨t', c', p', ht', hc', hw⟩ := hi.wanted hm
    have hne : t' ≠ t := fun e => hfree (e ▸ ht')
    exact ⟨t', c', p', ht', by rw [put_threads_of_ne hne]; exact hc', hw⟩

theorem inv_draw (hi : G.Inv s) {c : C} {q : Q} {k : A q → Prog Q A R} {cs : List C} {bs : List UInt8}
    (h : s.threads t = ⟨some (c, .ask q k), cs⟩) (hq : G.draws q) (hb : G.emits s.mode bs) :
    G.Inv { s with log := ⟨c, s.mode, bs⟩ :: s.log } := by
  have hpre := (hi.wp h).1.1 hq
  refine ⟨fun t' => (hi.follows t').frame rfl Iff.rfl fun _ => rfl, hi.wanted, fun d hd => ?_⟩
  rcases List.mem_cons.mp hd with rfl | hd
  · exact ⟨hb, fun m hm => (held_eq_some.mp (hpre m hm)).2⟩
  · exact hi.honest d hd

theorem inv_finish (hi : G.Inv s) {c : C} {r : R} {cs : List C} (h : s.threads t = ⟨some (c, .ret r), cs⟩) :
    G.Inv (s.put t ⟨none, cs⟩) := by
  have hfree : s.holder ≠ some t := held_eq_none.mp (hi.wp h)
  refine ⟨follows_put hi ?_ rfl (fun _ _ => Iff.rfl) (fun _ _ _ => rfl), fun hm => ?_, hi.honest⟩
  · unfold Follows
    rw [put_threads_self]
    exact hfree
  · obtain ⟨t', c', p', ht', hc', hw⟩ := hi.wanted hm
    have hne : t' ≠ t := fun e => hfree (e ▸ ht')
    exact ⟨t', c', p', ht', by rw [put_threads_of_ne hne]; exact hc', hw⟩

/-- The rest of the program follows the discipline after an answer, by what the answer did. -/
theorem follows_answer {c : C} {q : Q} {k : A q → Prog Q A R} {cs : List C} {a : A q}
    (hk : (k a).wp (G.logic c) (fun _ held => held = none) (s'.held t)) :
    G.Follows (s'.put t ⟨some (c, k a), cs⟩) t := by
  unfold Follows
  rw [put_threads_self]
  exact hk

theorem inv_answer (hi : G.Inv s) {c : C} {q : Q} {k : A q → Prog Q A R} {cs : List C} {a : A q}
    (h : s.threads t = ⟨some (c, .ask q k), cs⟩) (ha : G.ok q a) (hs : Acts t (G.effect q a) s s') :
    G.Inv (s'.put t ⟨some (c, k a), cs⟩) := by
  obtain ⟨⟨-, hallowed⟩, hwp⟩ := hi.wp h
  have hall := hallowed a ha
  have hk : (k a).wp (G.logic c) (fun _ held => held = none) (G.move (G.effect q a) (s.held t)) := hwp a ha
  generalize G.effect q a = e at hs hall hk
  cases hs with
  | none =>
    refine ⟨follows_put hi (follows_answer hk) rfl (fun _ _ => Iff.rfl) (fun _ _ _ => rfl), fun hm => ?_, hi.honest⟩
    obtain ⟨t', c', p', ht', hc', hw⟩ := hi.wanted hm
    by_cases hne : t' = t
    · subst hne
      rw [h] at hc'
      cases hc'
      exact ⟨t', c, k a, ht', by rw [put_threads_self], hw⟩
    · exact ⟨t', c', p', ht', by rw [put_threads_of_ne hne]; exact hc', hw⟩
  | acquire hfree =>
    have hidle := hi.idle hfree
    refine ⟨follows_put hi (follows_answer ?_) rfl (fun t' ht' => ?_) (fun _ _ _ => rfl), fun hm => absurd hidle hm,
      hi.honest⟩
    · have hheld : System.held { s with holder := some t } t = some G.idle := held_eq_some.mpr ⟨rfl, hidle⟩
      rw [hheld]
      exact hk
    · rw [hfree]
      constructor
      · intro he; exact absurd (Option.some.inj he).symm ht'
      · intro he; cases he
  | release =>
    obtain ⟨hhold, hidle⟩ := held_eq_some.mp (show s.held t = some G.idle from hall)
    refine ⟨follows_put hi (follows_answer ?_) rfl (fun t' ht' => ?_) (fun _ _ _ => rfl), fun hm => absurd hidle hm,
      hi.honest⟩
    · have hheld : System.held { s with holder := none } t = none := held_eq_none.mpr fun he => by cases he
      rw [hheld]
      exact hk
    · rw [hhold]
      constructor
      · intro he; cases he
      · intro he; exact absurd (Option.some.inj he).symm ht'
  | set _ m =>
    obtain ⟨hne, hm⟩ := hall
    have hhold : s.holder = some t := by
      by_contra hn
      exact hne (held_eq_none.mpr hn)
    refine ⟨follows_put hi (follows_answer ?_) rfl (fun _ _ => Iff.rfl) (fun t' ht' he => ?_), fun hmode => ?_,
      hi.honest⟩
    · have hheld : System.held { s with mode := m } t = some m := held_eq_some.mpr ⟨hhold, rfl⟩
      rw [hheld]
      exact hk
    · rw [hhold] at he
      exact absurd (Option.some.inj he).symm ht'
    · exact ⟨t, c, k a, hhold, by rw [put_threads_self], hm.resolve_left hmode⟩

/-! ## Any interleaving -/

/-- **One step** keeps the invariant. -/
theorem inv_step (hg : ∀ c, G.Guarded c (prog c)) (hi : G.Inv s) (h : G.Step prog s s') : G.Inv s' := by
  cases h with
  | start t h => exact inv_start hi h (hg _)
  | draw t h hq hb => exact inv_draw hi h hq hb
  | answer t h ha hs => exact inv_answer hi h ha hs
  | finish t h => exact inv_finish hi h

variable {todo : T → List C}

/-- **Every reachable state** satisfies the invariant. -/
theorem inv_reachable (hg : ∀ c, G.Guarded c (prog c)) (h : G.Reachable prog todo s) : G.Inv s := by
  induction h with
  | refl => exact inv_init todo
  | tail _ hstep ih => exact inv_step hg ih hstep

/-- A mode that is not idle is wanted by a call in progress, which holds the lock. -/
theorem mode_of_reachable (hg : ∀ c, G.Guarded c (prog c)) (h : G.Reachable prog todo s) (hm : s.mode ≠ G.idle) :
    ∃ t c p, s.holder = some t ∧ (s.threads t).current = some (c, p) ∧ G.want c = some s.mode :=
  (inv_reachable hg h).wanted hm

/-- A call that wants a mode draws in that mode only. -/
theorem draws_of_reachable (hg : ∀ c, G.Guarded c (prog c)) (h : G.Reachable prog todo s) {d : Draw M C}
    (hd : d ∈ s.log) {m : M} (hm : G.want d.call = some m) : d.mode = m ∧ G.emits m d.bytes := by
  obtain ⟨he, hw⟩ := (inv_reachable hg h).honest d hd
  have hdm := hw m hm
  exact ⟨hdm, hdm ▸ he⟩

/-- With no call in progress the lock is free and the mode idle. -/
theorem idle_of_reachable (hg : ∀ c, G.Guarded c (prog c)) (h : G.Reachable prog todo s)
    (hc : ∀ t, (s.threads t).current = none) : s.holder = none ∧ s.mode = G.idle := by
  have hi := inv_reachable hg h
  have hfree : s.holder = none := by
    cases hh : s.holder with
    | none => rfl
    | some t => exact absurd hh (hi.free (hc t))
  exact ⟨hfree, hi.idle hfree⟩

end Guard

end Program
