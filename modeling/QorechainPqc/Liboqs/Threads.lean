import QorechainPqc.Liboqs.Memory

/-!
# Memory safety of the C binding across threads

Threads of a process call the functions of `qorechain_pqc.c` at the same time. They share the heap, the mutex and what
the calls have returned, which any of them may give back; the schemes that a call has asked for and the cells behind its
out-parameters are its own: these are valid, and no two of them are the same, in one call or in two at a time. Every
request of a call is a step, and between two of them the other threads may do anything.

A request of a call sees no blocks but those of the call (`local_memory`). So each call runs as it would run alone, in
a heap that it finds empty, and leaves what it would leave. `threads_safe`: no request is undefined behaviour, every
result can be given back at every moment, and the heap is that of a session that makes the calls one after another, in
the order in which they end, with the blocks of the calls in progress beside it.
-/

namespace QorechainPqc.C

open Program

/-! ## What a request sees -/

/-- The process `m'` is `m` with the blocks of `g` beside those in its heap. -/
def Process.Beside (m : Process) (g : Heap) (m' : Process) : Prop :=
  m.heap.Apart g ∧ m' = { m with heap := m.heap.beside g }

section Requests

variable {reg : Registry} {m m' n n' : Process} {g : Heap} {q : Req}

theorem Req.Safe.beside (h : q.Safe m) : q.Safe { m with heap := m.heap.beside g } := by
  cases q with
  | keypair s =>
    obtain ⟨hs, x, y, hx, hy, hne, hroomx, hroomy⟩ := h
    exact ⟨hs, x, y, hx, hy, hne, hroomx.beside, hroomy.beside⟩
  | sign s msg sk =>
    obtain ⟨hs, hsk, x, hx, hroom⟩ := h
    exact ⟨hs, hsk, x, hx, hroom.beside⟩
  | encaps k pk =>
    obtain ⟨hk, hpk, hss, x, hx, hroom⟩ := h
    exact ⟨hk, hpk, hss, x, hx, hroom.beside⟩
  | _ => exact h

/-- liboqs stores in blocks that are there. -/
theorem Req.Safe.live (h : q.Safe m) : ∀ p ∈ q.stores m, m.heap.block p ≠ none := by
  intro p hp
  cases q with
  | keypair s =>
    obtain ⟨-, x, y, hx, hy, -, hroomx, hroomy⟩ := h
    simp only [Req.stores, hx, hy, Option.toList_some, List.mem_append, List.mem_singleton] at hp
    rcases hp with rfl | rfl
    · exact hroomx.block_ne
    · exact hroomy.block_ne
  | sign s msg sk =>
    obtain ⟨-, -, x, hx, hroom⟩ := h
    simp only [Req.stores, hx, Option.toList_some, List.mem_singleton] at hp
    exact hp ▸ hroom.block_ne
  | encaps k pk =>
    obtain ⟨-, -, -, x, hx, hroom⟩ := h
    simp only [Req.stores, hx, Option.toList_some, List.mem_singleton] at hp
    exact hp ▸ hroom.block_ne
  | _ => exact absurd hp List.not_mem_nil

/-- A request in the whole process is one in the part. -/
theorem Process.Next.split {a : Ans q} (hb : m.Beside g m') (hsafe : q.Safe m) (hn : m'.Next q a n') :
    ∃ n, m.Next q a n ∧ n.Beside g n' := by
  obtain ⟨hapart, rfl⟩ := hb
  have hwrites {h : Heap} (hw : (m.heap.beside g).Writes h (q.stores m)) (hn' : n' = { m with heap := h }) :
      ∃ n, (∃ h, m.heap.Writes h (q.stores m) ∧ n = { m with heap := h }) ∧ n.Beside g n' := by
    obtain ⟨h', hw', rfl⟩ := hw.of_beside hsafe.live
    exact ⟨_, ⟨h', hw', rfl⟩, hapart.of_size fun _ => hw'.block_eq_none, hn'⟩
  cases q with
  | malloc size =>
    cases a with
    | none =>
      obtain rfl : n' = _ := hn
      exact ⟨m, rfl, hapart, rfl⟩
    | some p =>
      obtain ⟨hp, b, hlen, rfl⟩ := hn
      obtain ⟨hm, hg⟩ := Heap.block_beside_eq_none.mp hp
      exact ⟨{ m with heap := m.heap.put p b }, ⟨hm, b, hlen, rfl⟩, hapart.put hg,
        congrArg (fun h => { m with heap := h }) Heap.put_beside⟩
  | customZero | switchSystem | keypair | sign | verify | encaps | decaps =>
    obtain ⟨h, hw, hn'⟩ := hn
    exact hwrites hw hn'
  | _ =>
    obtain rfl : n' = _ := hn
    exact ⟨_, rfl, hapart, rfl⟩

/-- A request in a part of a process is one in the whole. -/
theorem Process.Next.join {a : Ans q} (hn : m.Next q a n) (hb : n.Beside g n') :
    ∃ m', m.Beside g m' ∧ m'.Next q a n' := by
  obtain ⟨hapart, rfl⟩ := hb
  have hwrites {h : Heap} (hw : m.heap.Writes h (q.stores m)) (hn' : n = { m with heap := h }) :
      m.heap.Apart g ∧ ∃ h', (m.heap.beside g).Writes h' (q.stores m) ∧
        { n with heap := n.heap.beside g } = { m with heap := h' } := by
    subst hn'
    exact ⟨hapart.of_size fun _ => hw.block_eq_none.symm, _, hw.beside, rfl⟩
  cases q with
  | malloc size =>
    cases a with
    | none =>
      obtain rfl : n = m := hn
      exact ⟨_, ⟨hapart, rfl⟩, rfl⟩
    | some p =>
      obtain ⟨hp, b, hlen, rfl⟩ := hn
      obtain ⟨hm, hg⟩ := hapart.of_put hp
      exact ⟨_, ⟨hm, rfl⟩, Heap.block_beside_eq_none.mpr ⟨hp, hg⟩, b, hlen,
        congrArg (fun h => { m with heap := h }) Heap.put_beside.symm⟩
  | customZero | switchSystem | keypair | sign | verify | encaps | decaps =>
    obtain ⟨h, hw, hn'⟩ := hn
    obtain ⟨hm, hw'⟩ := hwrites hw hn'
    exact ⟨_, ⟨hm, rfl⟩, hw'⟩
  | _ =>
    obtain rfl : n = _ := hn
    exact ⟨_, ⟨hapart, rfl⟩, rfl⟩

/-- No request gives a block back. -/
theorem Process.Next.freed {a : Ans q} (hn : m.Next q a n) : n.heap.freed = m.heap.freed := by
  cases q with
  | malloc size =>
    cases a with
    | none =>
      obtain rfl : n = m := hn
      rfl
    | some p =>
      obtain ⟨-, b, -, rfl⟩ := hn
      rfl
  | customZero | switchSystem | keypair | sign | verify | encaps | decaps =>
    obtain ⟨h, hw, rfl⟩ := hn
    exact hw.freed
  | _ =>
    obtain rfl : n = _ := hn
    rfl

/-- The holder of the mutex after a request of the thread `t`. -/
def Req.holder {T : Type} (t : T) (holder : Option T) : Req → Option T
  | .mutexLock => some t
  | .mutexUnlock => none
  | _ => holder

/-- Another thread, if the mutex was free for who locked it and held by who unlocked it. -/
theorem Req.holder_eq_some {T : Type} {t u : T} {holder : Option T} (hut : u ≠ t)
    (hfree : q = .mutexLock → holder = none) (hheld : q = .mutexUnlock → holder = some t) :
    q.holder t holder = some u ↔ holder = some u := by
  cases q with
  | mutexLock =>
    rw [hfree rfl]
    exact iff_of_false (fun he => hut (Option.some.inj he).symm) (Option.some_ne_none u).symm
  | mutexUnlock =>
    rw [hheld rfl]
    exact iff_of_false (Option.some_ne_none u).symm fun he => hut (Option.some.inj he).symm
  | _ => rfl

/-- What a thread knows of the mutex. -/
theorem Process.Next.locked {T : Type} [DecidableEq T] {t : T} {holder : Option T} {a : Ans q} (hn : m.Next q a n)
    (hm : m.objects.locked = decide (holder = some t)) : n.objects.locked = decide (q.holder t holder = some t) := by
  cases q with
  | malloc size =>
    cases a with
    | none =>
      obtain rfl : n = m := hn
      exact hm
    | some p =>
      obtain ⟨-, b, -, rfl⟩ := hn
      exact hm
  | customZero | switchSystem | keypair | sign | verify | encaps | decaps =>
    obtain ⟨h, -, rfl⟩ := hn
    exact hm
  | mutexLock =>
    obtain rfl : n = _ := hn
    exact (decide_eq_true rfl).symm
  | mutexUnlock =>
    obtain rfl : n = _ := hn
    exact (decide_eq_false (Option.some_ne_none t).symm).symm
  | _ =>
    obtain rfl : n = _ := hn
    exact hm

/-- **The functions do not see** what is beside their blocks. -/
theorem local_memory (reg : Registry) : (memory reg).Local Process.Beside where
  split := by
    rintro m g m' q a n' hb ⟨-, -, hsafe, -⟩ ⟨-, ha, hn⟩
    obtain ⟨n, hn, hb⟩ := hn.split hb hsafe
    exact ⟨n, ⟨hsafe, ha, hn⟩, hb⟩
  join := by
    rintro m g q a n n' ⟨hsafe, ha, hn⟩ hb
    obtain ⟨m', hb, hn⟩ := hn.join hb
    obtain rfl := hb.2
    exact ⟨_, hb, hsafe.beside, ha, hn⟩

end Requests

/-! ## Calls in progress -/

/-- A call of any function. -/
inductive Task
  | output (c : Output)
  | verify (alg pk msg sig : Bytes)

/-- The function that is called. -/
def Task.prog (w : SizeT) : Task → CProg (Option Int)
  | output c => c.prog w
  | verify alg pk msg sig => some <$> qpqcMldsaVerify alg pk msg sig

/-- What a caller sees to. -/
def Task.Admissible (w : SizeT) (reg : Registry) : Task → Prop
  | output c => c.Admissible w reg
  | verify _ _ _ _ => True

/-- A call in progress: what is left of it, the schemes that it has, and the cells of its caller. -/
structure Running where
  task : Task
  rest : CProg (Option Int)
  sigs : List OqsSig
  kems : List OqsKem
  cells : Cells

/-- What the caller has got from a call that returned `r`. -/
def Task.results (e : Cells) (r : Option Int) : Task → List Handle
  | output c => if r = some qpqcOk then c.handles e else []
  | verify _ _ _ _ => []

/-- Whether a call with out-parameters has failed. -/
def Task.failures (r : Option Int) : Task → Nat
  | output _ => if r = some qpqcOk then 0 else 1
  | verify _ _ _ _ => 0

/-- A process with an empty heap. -/
def Process.fresh (e : Cells) : Process := ⟨.empty, ⟨[], [], false⟩, e⟩

/-- A call that has a process to itself does nothing undefined. -/
theorem Task.twp {w : SizeT} {reg : Registry} {c : Task} (hc : c.Admissible w reg) (e : Cells) :
    (c.prog w).twp (memory reg) (fun _ _ => True) (.fresh e) := by
  cases c with
  | output c => exact Prog.twp_mono (leaves_prog hc rfl) fun _ _ _ => trivial
  | verify alg pk msg sig => exact Prog.twp_map.mpr (Prog.twp_mono leaves_verify fun _ _ _ => trivial)

/-- A call in progress has got where it is in a process of its own; these are the blocks there, and whether it holds the
mutex. -/
structure Running.Alone (w : SizeT) (reg : Registry) (f : Running) (locked : Bool) (h : Heap) : Prop where
  admissible : f.task.Admissible w reg
  freed : h.freed = []
  leads : ∃ e, Leads (memory reg) (f.task.prog w) (.fresh e) f.rest ⟨h, ⟨f.sigs, f.kems, locked⟩, f.cells⟩

namespace Running.Alone

variable {w : SizeT} {reg : Registry} {f : Running} {locked : Bool} {h g : Heap} {q : Req}
  {k : Ans q → CProg (Option Int)}

theorem begin {c : Task} (hc : c.Admissible w reg) (e : Cells) :
    Alone w reg ⟨c, c.prog w, [], [], e⟩ false .empty :=
  ⟨hc, rfl, e, .refl⟩

theorem answers (ha : f.Alone w reg locked h) (hf : f.rest = .ask q k) :
    ∃ a n, (memory reg).step ⟨h, ⟨f.sigs, f.kems, locked⟩, f.cells⟩ q a n := by
  obtain ⟨e, hleads⟩ := ha.leads
  rw [hf] at hleads
  exact (hleads.twp (Task.twp ha.admissible e)).1

/-- What it asks for next is safe, whatever is beside its blocks. -/
theorem safe (ha : f.Alone w reg locked h) (hf : f.rest = .ask q k) (g : Heap) :
    q.Safe ⟨h.beside g, ⟨f.sigs, f.kems, locked⟩, f.cells⟩ := by
  obtain ⟨a, n, hstep⟩ := ha.answers hf
  exact hstep.1.beside

/-- An answer where there are other blocks is one that it could have got alone. -/
theorem request (ha : f.Alone w reg locked h) (hf : f.rest = .ask q k) (hg : h.Apart g) {a : Ans q} {n : Process}
    (hstep : (memory reg).step ⟨h.beside g, ⟨f.sigs, f.kems, locked⟩, f.cells⟩ q a n) :
    ∃ h', h'.Apart g ∧ n.heap = h'.beside g ∧
      Alone w reg ⟨f.task, k a, n.objects.sigs, n.objects.kems, n.cells⟩ n.objects.locked h' := by
  obtain ⟨n', hstep', hg', rfl⟩ := (local_memory reg).split ⟨hg, rfl⟩ (ha.answers hf) hstep
  obtain ⟨e, hleads⟩ := ha.leads
  rw [hf] at hleads
  exact ⟨n'.heap, hg', rfl, ha.admissible, hstep'.2.2.freed.trans ha.freed, e, hleads.step hstep'⟩

/-- What it has done alone, it could have done in a process with other blocks. -/
theorem exec (ha : f.Alone w reg locked h) {r : Option Int} (hf : f.rest = .ret r) (hg : h.Apart g) :
    ∃ e, Exec (memory reg) (f.task.prog w) ⟨g, ⟨[], [], false⟩, e⟩ r
      ⟨h.beside g, ⟨f.sigs, f.kems, locked⟩, f.cells⟩ := by
  obtain ⟨e, hleads⟩ := ha.leads
  rw [hf] at hleads
  obtain ⟨m, ⟨-, rfl⟩, hjoined⟩ := hleads.join (local_memory reg) ⟨hg, rfl⟩
  exact ⟨e, hjoined.exec⟩

end Running.Alone

/-! ## Threads -/

/-- The heap, the mutex and its holder, the calls in progress, the results that have not been given back and those that
have, and how many calls have failed. -/
structure Threads (T : Type) where
  heap : Heap
  holder : Option T
  running : T → Option Running
  results : List Handle
  returned : List Handle
  failures : Nat

namespace Threads

variable {T : Type} [DecidableEq T]

/-- What a thread sees of the process. -/
def process (s : Threads T) (t : T) (f : Running) : Process :=
  ⟨s.heap, ⟨f.sigs, f.kems, decide (s.holder = some t)⟩, f.cells⟩

/-- A thread goes on with its call. -/
def goOn (s : Threads T) (t : T) (f : Running) (q : Req) (p : CProg (Option Int)) (n : Process) : Threads T :=
  { s with
    heap := n.heap
    holder := q.holder t s.holder
    running := Function.update s.running t (some ⟨f.task, p, n.objects.sigs, n.objects.kems, n.cells⟩) }

/-- A call has ended. -/
def after (s : Threads T) (t : T) (f : Running) (r : Option Int) : Threads T :=
  { s with
    running := Function.update s.running t none
    results := f.task.results f.cells r ++ s.results
    failures := s.failures + f.task.failures r }

/-- A thread begins a call, gets an answer, or ends its call, or a result is given back. Nobody gets the mutex while
somebody holds it. -/
inductive Step (w : SizeT) (reg : Registry) : Threads T → Threads T → Prop
  | start {s : Threads T} {t : T} (c : Task) (e : Cells) (ht : s.running t = none) (hc : c.Admissible w reg) :
      Step w reg s { s with running := Function.update s.running t (some ⟨c, c.prog w, [], [], e⟩) }
  | request {s : Threads T} {t : T} {f : Running} {q : Req} {k : Ans q → CProg (Option Int)} {a : Ans q} {n : Process}
      (ht : s.running t = some f) (hf : f.rest = .ask q k) (hfree : q = .mutexLock → s.holder = none)
      (h : (memory reg).step (s.process t f) q a n) : Step w reg s (s.goOn t f q (k a) n)
  | finish {s : Threads T} {t : T} {f : Running} {r : Option Int} (ht : s.running t = some f) (hf : f.rest = .ret r) :
      Step w reg s (s.after t f r)
  | free {s : Threads T} {x : Handle} {xs : List Handle} {h : Heap} (hx : s.results.Perm (x :: xs))
      (hfree : qpqcFree (some x.addr) x.len s.heap = some h) :
      Step w reg s { s with heap := h, results := xs, returned := x :: s.returned }

/-- The beginning, with whatever the heap holds. -/
def start (h : Heap) : Threads T := ⟨h, none, fun _ => none, [], [], 0⟩

/-- What threads that have begun with this heap can get to. -/
def Happens (w : SizeT) (reg : Registry) (h : Heap) : Threads T → Prop := Relation.ReflTransGen (Step w reg) (start h)

/-! ## A session behind the threads -/

/-- The parts of the heap: that of a session, and the blocks of each call in progress. -/
def part (σ : Session) (own : T → Heap) : Option T → Heap
  | none => σ.process.heap
  | some t => own t

/-- The invariant: the calls that have ended make up a session, and each call in progress has got where it is in a
process of its own. -/
structure Inv (w : SizeT) (reg : Registry) (h : Heap) (s : Threads T) (σ : Session) (own : T → Heap) : Prop where
  session : σ.Happens w reg h
  results : σ.results = s.results
  returned : σ.returned = s.returned
  failures : σ.failures = s.failures
  freed : s.heap.freed = σ.process.heap.freed
  parts : s.heap.Parts (part σ own)
  idle : ∀ t, s.running t = none → own t = .empty ∧ s.holder ≠ some t
  busy : ∀ t f, s.running t = some f → f.Alone w reg (decide (s.holder = some t)) (own t)

variable {w : SizeT} {reg : Registry} {h : Heap} {s s' : Threads T} {σ : Session} {own : T → Heap} {t : T}
  {f : Running} {k : Heap}

@[simp] theorem running_goOn_self {q : Req} {p : CProg (Option Int)} {n : Process} : (s.goOn t f q p n).running t =
    some ⟨f.task, p, n.objects.sigs, n.objects.kems, n.cells⟩ := Function.update_self ..

theorem running_goOn_of_ne {q : Req} {p : CProg (Option Int)} {n : Process} {u : T} (hu : u ≠ t) :
    (s.goOn t f q p n).running u = s.running u := Function.update_of_ne hu ..

theorem update_part : Function.update (part σ own) (some t) k = part σ (Function.update own t k) := by
  funext i
  cases i with
  | none => exact Function.update_of_ne (Option.some_ne_none t).symm ..
  | some u =>
    by_cases hu : u = t
    · subst hu
      simp only [part, Function.update_self]
    · have hsome : some u ≠ some t := fun he => hu (Option.some.inj he)
      simp only [part, Function.update_of_ne hu, Function.update_of_ne hsome]

theorem update_part_none {σ' : Session} (hσ : σ'.process.heap = k) :
    Function.update (part σ own) none k = part σ' own := by
  funext i
  cases i with
  | none => rw [Function.update_self, part, hσ]
  | some u => exact Function.update_of_ne (Option.some_ne_none u) ..

theorem inv_start (h : Heap) : (start h : Threads T).Inv w reg h (.start h stale) fun _ => .empty where
  session := ⟨stale, .refl⟩
  results := rfl
  returned := rfl
  failures := rfl
  freed := rfl
  parts := by
    refine ⟨fun i j hij p => ?_, fun p b => ⟨fun hb => ⟨none, hb⟩, ?_⟩⟩
    · cases i with
      | none =>
        cases j with
        | none => exact absurd rfl hij
        | some u => exact .inr rfl
      | some u => exact .inl rfl
    · rintro ⟨i, hi⟩
      cases i with
      | none => exact hi
      | some u => cases hi
  idle _ _ := ⟨rfl, (Option.some_ne_none _).symm⟩
  busy _ _ ht := absurd ht.symm (Option.some_ne_none _)

theorem Inv.start (hi : s.Inv w reg h σ own) {c : Task} (e : Cells) (ht : s.running t = none)
    (hc : c.Admissible w reg) :
    Threads.Inv w reg h { s with running := Function.update s.running t (some ⟨c, c.prog w, [], [], e⟩) } σ own := by
  refine ⟨hi.session, hi.results, hi.returned, hi.failures, hi.freed, hi.parts,
    fun u (hu : Function.update s.running t _ u = none) => ?_,
    fun u f (hu : Function.update s.running t _ u = some f) => ?_⟩
  · have hut : u ≠ t := fun hut => by
      rw [hut, Function.update_self] at hu
      cases hu
    rw [Function.update_of_ne hut] at hu
    exact hi.idle u hu
  · by_cases hut : u = t
    · subst hut
      rw [Function.update_self] at hu
      obtain rfl := Option.some.inj hu
      obtain ⟨hempty, hholder⟩ := hi.idle u ht
      show Running.Alone w reg _ (decide (s.holder = some u)) (own u)
      rw [hempty, decide_eq_false hholder]
      exact .begin hc e
    · rw [Function.update_of_ne hut] at hu
      exact hi.busy u f hu

theorem Inv.request (hi : s.Inv w reg h σ own) {q : Req} {k : Ans q → CProg (Option Int)} {a : Ans q} {n : Process}
    (ht : s.running t = some f) (hf : f.rest = .ask q k) (hfree : q = .mutexLock → s.holder = none)
    (hstep : (memory reg).step (s.process t f) q a n) : ∃ own', (s.goOn t f q (k a) n).Inv w reg h σ own' := by
  have hbusy := hi.busy t f ht
  have hsplit : s.heap.freed = (own t).freed ++ s.heap.freed := by rw [hbusy.freed, List.nil_append]
  obtain ⟨g, hg, hapart, hheap, hput⟩ := hi.parts.others (some t) hsplit
  have hlocked := hstep.2.2.locked rfl
  have hheld : q = .mutexUnlock → s.holder = some t := by
    rintro rfl
    exact of_decide_eq_true hstep.1
  rw [process, hheap] at hstep
  obtain ⟨own', hapart', hheap', hbusy'⟩ := hbusy.request hf hapart hstep
  refine ⟨Function.update own t own', hi.session, hi.results, hi.returned, hi.failures, ?_, ?_, ?_, ?_⟩
  · show n.heap.freed = _
    rw [hheap']
    show own'.freed ++ g.freed = _
    rw [hbusy'.freed, hg]
    exact hi.freed
  · show n.heap.Parts _
    rw [hheap', ← update_part]
    exact hput own' hapart'
  · intro u hu
    have hut : u ≠ t := fun hut => by
      rw [hut, running_goOn_self] at hu
      cases hu
    rw [running_goOn_of_ne hut] at hu
    refine ⟨(Function.update_of_ne hut ..).trans (hi.idle u hu).1, fun he => (hi.idle u hu).2 ?_⟩
    exact (Req.holder_eq_some hut hfree hheld).mp he
  · intro u f' hu
    show f'.Alone w reg (decide (q.holder t s.holder = some u)) _
    by_cases hut : u = t
    · subst hut
      obtain rfl := Option.some.inj (running_goOn_self.symm.trans hu)
      rwa [Function.update_self, ← hlocked]
    · rw [running_goOn_of_ne hut] at hu
      rw [Function.update_of_ne hut, decide_eq_decide.mpr (Req.holder_eq_some hut hfree hheld)]
      exact hi.busy u f' hu

/-- A call that has ended, as a call of the session. -/
theorem Inv.exec (hi : s.Inv w reg h σ own) {r : Option Int} (ht : s.running t = some f) (hf : f.rest = .ret r) :
    ∃ e, Exec (memory reg) (f.task.prog w) (σ.entry e) r
      { s.process t f with heap := (own t).beside σ.process.heap } := by
  obtain ⟨e, hexec⟩ := (hi.busy t f ht).exec hf (hi.parts.apart (some t) none (Option.some_ne_none t))
  refine ⟨e, ?_⟩
  rw [Session.entry, hi.session.inv.objects]
  exact hexec

/-- The call becomes one of the session, and its blocks become blocks of the session. -/
theorem Inv.handOver (hi : s.Inv w reg h σ own) {σ' : Session} (ht : s.running t = some f)
    (hs : Session.Step w reg σ σ')
    (hprocess : σ'.process = { s.process t f with heap := (own t).beside σ.process.heap })
    (hs' : s'.heap = s.heap ∧ s'.holder = s.holder ∧ s'.running = Function.update s.running t none)
    (hσ' : σ'.results = s'.results ∧ σ'.returned = s'.returned ∧ σ'.failures = s'.failures) :
    s'.Inv w reg h σ' (Function.update own t .empty) := by
  obtain ⟨hheap, hholder, hrunning⟩ := hs'
  have hsession : σ'.Happens w reg h := hi.session.imp fun _ hσ => hσ.tail hs
  have hlocked : σ'.process.objects.locked = false := congrArg Objects.locked hsession.inv.objects
  rw [hprocess] at hlocked
  have hfreed : (own t).freed = [] := (hi.busy t f ht).freed
  refine ⟨hsession, hσ'.1, hσ'.2.1, hσ'.2.2, ?_, ?_, fun u hu => ?_, fun u f' hu => ?_⟩
  · rw [hheap, hprocess]
    show s.heap.freed = (own t).freed ++ σ.process.heap.freed
    rw [hfreed, List.nil_append]
    exact hi.freed
  · have hmerge := hi.parts.merge (Option.some_ne_none t).symm
    have hpool : σ'.process.heap = (part σ own (some t)).beside (part σ own none) := congrArg Process.heap hprocess
    rw [update_part, update_part_none hpool] at hmerge
    rw [hheap]
    exact hmerge
  · rw [hrunning] at hu
    rw [hholder]
    by_cases hut : u = t
    · subst hut
      exact ⟨Function.update_self .., of_decide_eq_false hlocked⟩
    · rw [Function.update_of_ne hut] at hu ⊢
      exact hi.idle u hu
  · rw [hrunning] at hu
    have hut : u ≠ t := fun hut => by
      rw [hut, Function.update_self] at hu
      cases hu
    rw [Function.update_of_ne hut] at hu ⊢
    rw [hholder]
    exact hi.busy u f' hu

theorem Inv.finish (hi : s.Inv w reg h σ own) {r : Option Int} (ht : s.running t = some f) (hf : f.rest = .ret r) :
    ∃ σ' own', (s.after t f r).Inv w reg h σ' own' := by
  obtain ⟨e, hexec⟩ := hi.exec ht hf
  have hadm := (hi.busy t f ht).admissible
  cases htask : f.task with
  | output c =>
    rw [htask] at hexec hadm
    refine ⟨_, _, hi.handOver ht (.call hadm hexec) ?_ ⟨rfl, rfl, rfl⟩ ?_⟩
    · unfold Session.after
      split <;> rfl
    · rw [after, htask, Task.results, Task.failures, Session.after, ← hi.results, ← hi.failures]
      split
      · exact ⟨rfl, hi.returned, rfl⟩
      · exact ⟨rfl, hi.returned, rfl⟩
  | verify alg pk msg sig =>
    rw [htask] at hexec
    obtain ⟨r', -, hexec'⟩ := hexec.of_map
    refine ⟨_, _, hi.handOver ht (.verify hexec') rfl ⟨rfl, rfl, rfl⟩ ?_⟩
    rw [after, htask]
    exact ⟨hi.results, hi.returned, hi.failures⟩

theorem Inv.free (hi : s.Inv w reg h σ own) {x : Handle} {xs : List Handle} {h' : Heap}
    (hx : s.results.Perm (x :: xs)) (hfree : qpqcFree (some x.addr) x.len s.heap = some h') : ∃ σ',
      ({ s with heap := h', results := xs, returned := x :: s.returned } : Threads T).Inv w reg h σ' own := by
  have hfreed : s.heap.freed = (part σ own none).freed ++ [] := by rw [List.append_nil]; exact hi.freed
  obtain ⟨g, hg, hapart, hheap, hput⟩ := hi.parts.others none hfreed
  rw [← hi.results] at hx
  obtain ⟨n, hn, hle, -⟩ := hi.session.inv.fits x (hx.mem_iff.mpr List.mem_cons_self)
  obtain ⟨b, hb, rfl⟩ := Heap.block_of_size hn
  -- the same block in the heap of the session
  have hpool := Heap.clear_free hb hle
  have hblock : s.heap.block x.addr = some b := (hi.parts.block x.addr b).mpr ⟨none, hb⟩
  obtain rfl := Option.some.inj ((Heap.clear_free hblock hle).symm.trans hfree)
  have hnone : g.block x.addr = none := (hapart x.addr).resolve_left fun hnone => by
    rw [show (part σ own none).block x.addr = some b from hb] at hnone
    cases hnone
  let wiped : List UInt8 := List.replicate x.len 0 ++ b.drop x.len
  let pool : Heap := ⟨Function.update σ.process.heap.block x.addr none, wiped :: σ.process.heap.freed⟩
  let σ' : Session := ⟨{ σ.process with heap := pool }, xs, x :: σ.returned, σ.failures⟩
  have hwhole : pool.beside g = ⟨Function.update s.heap.block x.addr none, wiped :: s.heap.freed⟩ := by
    have hblocks : ((part σ own none).beside g).block = s.heap.block := congrArg Heap.block hheap.symm
    rw [Heap.remove_beside hnone, hg, List.append_nil, hi.freed, ← hblocks]
    rfl
  have hpart : Function.update (part σ own) none pool = part σ' own := update_part_none rfl
  have hparts := hput pool hapart.remove
  rw [hwhole, hpart] at hparts
  obtain ⟨e, hσ⟩ := hi.session
  exact ⟨σ', ⟨e, hσ.tail (.free hx hpool)⟩, rfl, congrArg (x :: ·) hi.returned, hi.failures,
    congrArg (wiped :: ·) hi.freed, hparts, hi.idle, hi.busy⟩

/-- **One step** keeps the invariant. -/
theorem Inv.step (hi : s.Inv w reg h σ own) (hs : Step w reg s s') : ∃ σ' own', s'.Inv w reg h σ' own' := by
  cases hs with
  | start c e ht hc => exact ⟨σ, own, hi.start e ht hc⟩
  | request ht hf hfree hstep => exact ⟨σ, hi.request ht hf hfree hstep⟩
  | finish ht hf => exact hi.finish ht hf
  | free hx hfree =>
    obtain ⟨σ', hi'⟩ := hi.free hx hfree
    exact ⟨σ', own, hi'⟩

/-- **Every interleaving** keeps it. -/
theorem Happens.inv (hs : Happens w reg h s) : ∃ σ own, s.Inv w reg h σ own := by
  induction hs with
  | refl => exact ⟨_, _, inv_start h⟩
  | tail _ hst ih =>
    obtain ⟨σ, own, hi⟩ := ih
    exact hi.step hst

/-- What callers can rely on while threads call the functions, in a process that has begun with the heap `h`. -/
structure Safe (w : SizeT) (reg : Registry) (h : Heap) (s : Threads T) : Prop where
  /-- No request of a call in progress is undefined behaviour. -/
  requests : ∀ t f q k, s.running t = some f → f.rest = .ask q k → q.Safe (s.process t f)
  /-- Every result can be given back, whatever is in progress. -/
  frees : ∀ x ∈ s.results, (qpqcFree (some x.addr) x.len s.heap).isSome
  /-- The calls that have ended make up a session. Its heap is that of the threads but for the blocks of the calls in
  progress, and what has been given back is the same. -/
  session : ∃ σ : Session, σ.Happens w reg h ∧ σ.results = s.results ∧ σ.returned = s.returned ∧
    σ.failures = s.failures ∧ (∀ p b, σ.process.heap.block p = some b → s.heap.block p = some b) ∧
      σ.process.heap.freed = s.heap.freed ∧ ((∀ t, s.running t = none) → σ.process.heap = s.heap)

theorem Inv.safe (hi : s.Inv w reg h σ own) : s.Safe w reg h where
  requests t f q k ht hf := by
    have hbusy := hi.busy t f ht
    have hsplit : s.heap.freed = (own t).freed ++ s.heap.freed := by rw [hbusy.freed, List.nil_append]
    obtain ⟨g, -, -, hheap, -⟩ := hi.parts.others (some t) hsplit
    rw [process, hheap]
    exact hbusy.safe hf g
  frees x hx := by
    obtain ⟨n, hn, hle, -⟩ := hi.session.inv.fits x (hi.results ▸ hx)
    obtain ⟨b, hb, rfl⟩ := Heap.block_of_size hn
    have hblock : s.heap.block x.addr = some b := (hi.parts.block x.addr b).mpr ⟨none, hb⟩
    exact Option.isSome_iff_exists.mpr ⟨_, Heap.clear_free hblock hle⟩
  session := by
    refine ⟨σ, hi.session, hi.results, hi.returned, hi.failures, fun p b hb => (hi.parts.block p b).mpr ⟨none, hb⟩,
      hi.freed.symm, fun hidle => ?_⟩
    have hblock : σ.process.heap.block = s.heap.block := by
      funext p
      refine Option.ext fun b => ⟨fun hb => (hi.parts.block p b).mpr ⟨none, hb⟩, fun hb => ?_⟩
      obtain ⟨i, hi'⟩ := (hi.parts.block p b).mp hb
      cases i with
      | none => exact hi'
      | some t =>
        rw [part, (hi.idle t (hidle t)).1] at hi'
        cases hi'
    exact congr_arg₂ Heap.mk hblock hi.freed.symm

end Threads

/-- **Memory safety across threads**: whatever the threads of a process do with the functions and with what they return,
and however they interleave, it is safe at every moment, where what each hands to them can be read, and the
out-parameters are valid and distinct. -/
theorem threads_safe {T : Type} [DecidableEq T] {w : SizeT} {reg : Registry} {h : Heap} {s : Threads T}
    (hs : Threads.Happens w reg h s) : s.Safe w reg h := by
  obtain ⟨σ, own, hi⟩ := hs.inv
  exact hi.safe

/-- Two threads that frame a v1 message each: one has its result, and has given it back, while the other has just got
its block. -/
theorem threads_safe_two : ∃ s : Threads Bool, s.Safe .w64 ⟨fun _ => none, fun _ => none⟩ .empty ∧
    s.returned = [⟨.out, 1, 10⟩] ∧ s.heap.block 2 = some (List.replicate 10 8) ∧ (s.running false).isSome := by
  let reg : Registry := ⟨fun _ => none, fun _ => none⟩
  have hc (b : UInt8) : (Task.output (.v1 [b] [b])).Admissible .w64 reg := ⟨by show 10 < 2 ^ 64; decide, trivial⟩
  have h : Threads.Happens .w64 reg .empty (Threads.start .empty : Threads Bool) := .refl
  replace h := h.tail (.start (t := true) (.output (.v1 [1] [1])) stale rfl (hc 1))
  replace h := h.tail (.start (t := false) (.output (.v1 [2] [2])) stale rfl (hc 2))
  replace h := h.tail (.request (t := true) (a := some 1) rfl rfl nofun
    ⟨trivial, ⟨trivial, trivial⟩, rfl, List.replicate 10 7, rfl, rfl⟩)
  replace h := h.tail (.request (t := false) (a := some 2) rfl rfl nofun
    ⟨trivial, ⟨trivial, trivial⟩, rfl, List.replicate 10 8, rfl, rfl⟩)
  replace h := h.tail (.request (t := true) (a := ()) rfl rfl nofun ⟨trivial, ⟨trivial, trivial⟩, rfl⟩)
  replace h := h.tail (.request (t := true) (a := ()) rfl rfl nofun ⟨trivial, ⟨trivial, trivial⟩, rfl⟩)
  replace h := h.tail (.finish (t := true) rfl rfl)
  replace h := h.tail (.free (x := ⟨.out, 1, 10⟩) (.refl _) rfl)
  exact ⟨_, threads_safe h, rfl, rfl, rfl⟩

end QorechainPqc.C
