import QorechainPqc.Lib.Progress
import QorechainPqc.Liboqs.Isolation

/-!
# No thread waits for the lock forever

Deterministic signatures, key generations and encapsulations of both bindings over liboqs wait for one lock. A call that
took it twice, or left on some path without releasing it, would stop the process. None does: in the C binding whatever
fails, by the discipline of `C.guarded`, and in the Python binding whatever raises and wherever an asynchronous
exception lands, also where it leaves the zero filler selected; of that binding only the lock is looked at here. A
thread makes its calls one after another: none begins inside another, as in a signal handler.

So from every state that finitely many threads can reach, all calls come to an end (`calls_end`).
-/

namespace QorechainPqc

open Program

namespace C

theorem guard_total (q : Req) : ∃ a, guard.ok q a := ⟨Classical.arbitrary (Ans q), trivial⟩

end C

/-! ## The lock of the Python binding -/

namespace Python

/-- What a request does to the lock. -/
def Req.locks : ∀ q : Req, Except Exn (Res q) → Effect Unit
  | .lockAcquire, .ok _ => .acquire
  | .lockRelease, .ok _ => .release
  | _, _ => .none

/-- Anything may raise, but the release of the lock. -/
def Req.mayEnd : ∀ q : Req, Except Exn (Res q) → Prop
  | .lockRelease, .error _ => False
  | _, _ => True

/-- The discipline for the lock alone. -/
def locking : Guard Req (Refusable Exn Res) Unit Call where
  ok := Req.mayEnd
  effect := Req.locks
  draws := Req.draws
  emits _ _ := True
  idle := ()
  want _ := none

instance (q : Req) : Nonempty (Res q) := by cases q <;> infer_instance

theorem locking_total (q : Req) : ∃ a, locking.ok q a := by
  refine ⟨.ok (Classical.arbitrary (Res q)), ?_⟩
  cases q <;> trivial

variable {α : Type} {c : Call} {held : Option Unit} {p : Py α}

/-- A request that is not about the lock. -/
theorem stays_unlocked {q : Req} (hq : ∀ a, q.locks a = .none) : Raising.Stays (locking.logic c) held (call q) := by
  refine Raising.stays_ask ⟨nofun, fun a _ => ?_⟩ fun a _ => ?_
  · have hnone : locking.effect q a = .none := hq a
    rw [hnone]
    exact Guard.allowed_none
  · have hnone : locking.effect q a = .none := hq a
    exact (congrArg (locking.move · held) hnone).trans Guard.move_none

theorem stays_point {p : Point} : Raising.Stays (locking.logic c) held (call (.boundary p)) :=
  stays_unlocked fun a => by cases a <;> rfl

theorem ewp_acquire {post : Unit → Option Unit → Prop} {exc : Exn → Option Unit → Prop} (h : post () (some ()))
    (hexc : ∀ e, exc e none) : (call .lockAcquire).ewp (locking.logic c) post exc none := by
  refine Raising.ewp_ask.mpr ⟨⟨nofun, fun a _ => ?_⟩, fun _ _ => h, fun e _ => hexc e⟩
  cases a with
  | ok _ => exact Guard.allowed_acquire.mpr rfl
  | error e => exact Guard.allowed_none

theorem ewp_release {post : Unit → Option Unit → Prop} {exc : Exn → Option Unit → Prop} (h : post () none) :
    (call .lockRelease).ewp (locking.logic c) post exc (some ()) := by
  refine Raising.ewp_ask.mpr ⟨⟨nofun, fun a _ => ?_⟩, fun _ _ => h, fun e he => absurd he id⟩
  cases a with
  | ok _ => exact Guard.allowed_release.mpr rfl
  | error e => exact Guard.allowed_none

/-- `with _rng_lock:` releases the lock whatever way the block is left. -/
theorem stays_locked (h : Raising.Stays (locking.logic c) (some ()) p) :
    Raising.Stays (locking.logic c) none (withLock p) := by
  have hp := (stays_point (p := .locked)).bind fun _ => h
  refine stays_point.bind fun _ => Raising.ewp_bind.mpr (ewp_acquire ?_ fun _ => rfl)
  refine Raising.ewp_bind.mpr (hp.ewp_tryFinally (fun a => ?_) fun e => ?_)
  · exact ewp_release (stays_point.bind fun _ => Raising.stays_pure)
  · exact ewp_release rfl

theorem stays_signature {s : Signature} (h : Raising.Stays (locking.logic c) held p) :
    Raising.Stays (locking.logic c) held (withSignature s p) :=
  stays_withSignature (stays_unlocked fun _ => rfl) stays_point h (stays_unlocked fun _ => rfl)

theorem stays_kem {k : KeyEncapsulation} (h : Raising.Stays (locking.logic c) held p) :
    Raising.Stays (locking.logic c) held (withKem k p) :=
  stays_withKem (stays_unlocked fun _ => rfl) stays_point h (stays_unlocked fun _ => rfl)

/-! ### The methods -/

theorem locked_keygen (self : MlDsa) : Raising.Stays (locking.logic c) none self.keygen :=
  stays_locked (stays_signature
    (stays_results (stays_unlocked fun _ => rfl) (stays_unlocked fun _ => rfl) stays_point))

theorem locked_sign (self : MlDsa) (secretKey message : Arg) (hedged : Bool) :
    Raising.Stays (locking.logic c) none (self.sign secretKey message hedged) := by
  have hsign (s : Signature) (m : BytesObject) : Raising.Stays (locking.logic c) (some ()) (MlDsa.signWith s m) :=
    stays_signature (stays_result (stays_unlocked fun _ => rfl) stays_point)
  refine Raising.stays_ofExcept.bind fun _ => Raising.stays_ofExcept.bind fun _ => ?_
  cases hedged with
  | true => exact stays_locked (hsign _ _)
  | false =>
    have hzero : Raising.Stays (locking.logic c) (some ()) (call .customZero) :=
      stays_unlocked fun a => by cases a <;> rfl
    have hswitch : Raising.Stays (locking.logic c) (some ()) (call .switchSystem) :=
      stays_unlocked fun a => by cases a <;> rfl
    have hrestore : Raising.Stays (locking.logic c) (some ())
        (do call (.boundary .restoring); call .switchSystem; call (.boundary .restored) : Py Unit) :=
      stays_point.bind fun _ => hswitch.bind fun _ => stays_point
    exact stays_locked (hzero.bind fun _ => stays_point.bind fun _ => (hsign _ _).tryFinally hrestore)

theorem locked_verify (self : MlDsa) (publicKey message signature : Arg) :
    Raising.Stays (locking.logic c) none (self.verify publicKey message signature) := by
  unfold MlDsa.verify
  split
  · refine Raising.stays_ofExcept.bind fun _ => Raising.stays_ofExcept.bind fun _ => ?_
    refine Raising.stays_ofExcept.bind fun _ => Raising.stays_ofExcept.bind fun _ => ?_
    split
    · exact Raising.stays_pure
    · refine Raising.Stays.tryCatch (stays_signature ?_) fun e => ?_
      · exact stays_result (stays_unlocked fun _ => rfl) stays_point
      · split
        · exact Raising.stays_pure
        · exact Raising.stays_throw
  · exact Raising.stays_throw
  · exact Raising.stays_throw
  · exact Raising.stays_throw
  · exact Raising.stays_pure

theorem locked_kemKeygen (self : MlKem) : Raising.Stays (locking.logic c) none self.keygen :=
  stays_locked (stays_kem (stays_results (stays_unlocked fun _ => rfl) (stays_unlocked fun _ => rfl) stays_point))

theorem locked_encapsulate (self : MlKem) (publicKey : Arg) :
    Raising.Stays (locking.logic c) none (self.encapsulate publicKey) :=
  Raising.stays_ofExcept.bind fun _ =>
    stays_locked (stays_kem (stays_result (stays_unlocked fun _ => rfl) stays_point))

theorem locked_decapsulate (self : MlKem) (secretKey ciphertext : Arg) :
    Raising.Stays (locking.logic c) none (self.decapsulate secretKey ciphertext) :=
  Raising.stays_ofExcept.bind fun _ => Raising.stays_ofExcept.bind fun _ =>
    stays_kem (stays_result (stays_unlocked fun _ => rfl) stays_point)

theorem locking_of_stays (h : Raising.Stays (locking.logic c) none p) :
    locking.Guarded c ((fun _ => ()) <$> p.run) := by
  have hp := Raising.wp_run_iff_ewp.mpr h
  unfold Guard.Guarded
  rw [map_eq_pure_bind, Prog.wp_bind]
  exact hp

/-- **Every call of the Python binding** takes the lock at most once at a time and does not keep it, whatever raises. -/
theorem locked (c : Call) : locking.Guarded c c.prog := by
  cases c with
  | keygen self => exact locking_of_stays (locked_keygen self)
  | sign self secretKey message hedged => exact locking_of_stays (locked_sign self secretKey message hedged)
  | verify self publicKey message signature => exact locking_of_stays (locked_verify self publicKey message signature)
  | kemKeygen self => exact locking_of_stays (locked_kemKeygen self)
  | encapsulate self publicKey => exact locking_of_stays (locked_encapsulate self publicKey)
  | decapsulate self secretKey ciphertext => exact locking_of_stays (locked_decapsulate self secretKey ciphertext)

end Python

/-! ## Any number of threads -/

/-- **Every call comes to an end.** From every state that finitely many threads with whatever calls of one of the two
bindings can reach, all calls end, whichever thread gets on next, whatever the answers are, and however many draws come
between: no thread waits for the lock forever. -/
theorem calls_end :
    (∀ (T : Type) [DecidableEq T] [Finite T] (todo : T → List C.Call) (s : Guard.System C.Req C.Ans Rng C.Call Int T),
      C.guard.Reachable C.Call.prog todo s → Inevitable (Guard.Round C.guard C.Call.prog) Guard.System.Ended s) ∧
    (∀ (T : Type) [DecidableEq T] [Finite T] (todo : T → List Python.Call)
      (s : Guard.System Python.Req (Refusable Python.Exn Python.Res) Unit Python.Call Unit T),
      Python.locking.Reachable Python.Call.prog todo s →
        Inevitable (Guard.Round Python.locking Python.Call.prog) Guard.System.Ended s) := by
  constructor
  · intro T _ _ todo s hs
    exact Guard.inevitable_of_reachable C.guarded C.guard_total hs
  · intro T _ _ todo s hs
    exact Guard.inevitable_of_reachable Python.locked Python.locking_total hs

/-- In the C binding, a key generation that waits for a deterministic signature with the lock; in the Python binding, a
deterministic signature that a `KeyboardInterrupt` has struck with the zero filler selected. -/
theorem calls_end_waiting :
    (∃ s : Guard.System C.Req C.Ans Rng C.Call Int Bool,
      (s.holder = some true ∧ ∃ k, s.threads false = ⟨some (C.keygen44, .ask .mutexLock k), []⟩) ∧
        Inevitable (Guard.Round C.guard C.Call.prog) Guard.System.Ended s) ∧
    (∃ s : Guard.System Python.Req (Refusable Python.Exn Python.Res) Unit Python.Call Unit Unit,
      s.holder = some () ∧ Inevitable (Guard.Round Python.locking Python.Call.prog) Guard.System.Ended s) := by
  constructor
  · obtain ⟨k, hprog, hk⟩ := C.qpqcMldsaSign_of_length (s := .ofLevel .l44) length_secretKey44
      (Text.utf8 MlDsa.Level.l44.oqsName.toList) [1, 2, 3]
    let todo : Bool → List C.Call := fun b => if b then [C.sign44] else [C.keygen44]
    have h : C.guard.Reachable C.Call.prog todo (C.guard.init _) := .refl
    replace h := h.tail (.start true rfl)
    rw [show C.sign44.prog = _ from hprog] at h
    replace h := h.tail (.answer (k := k) (a := some (.ofLevel .l44)) true rfl trivial (.none _))
    rw [hk] at h
    replace h := h.tail (.answer (a := some 1) true rfl trivial (.none _))
    replace h := h.tail (.answer (a := ()) true rfl trivial (.none _))
    replace h := h.tail (.answer (a := ()) true rfl trivial (.acquire rfl))
    replace h := h.tail (.start false rfl)
    replace h := h.tail (.answer (a := some (.ofLevel .l44)) false rfl trivial (.none _))
    replace h := h.tail (.answer (a := some 2) false rfl trivial (.none _))
    replace h := h.tail (.answer (a := ()) false rfl trivial (.none _))
    replace h := h.tail (.answer (a := some 3) false rfl trivial (.none _))
    replace h := h.tail (.answer (a := ()) false rfl trivial (.none _))
    exact ⟨_, ⟨rfl, _, rfl⟩, calls_end.1 _ _ _ h⟩
  · have hb (p : Python.Point) : Python.locking.ok (.boundary p) (.ok ()) := trivial
    have hi : Python.locking.ok (.boundary .zeroed) (.error .keyboardInterrupt) := trivial
    have h : Python.locking.Reachable Python.Call.prog (fun _ : Unit => [Python.sign44, Python.keygen44])
        (Python.locking.init _) := .refl
    replace h := h.tail (.start () rfl)
    rw [Python.sign44_prog] at h
    replace h := h.tail (.answer () rfl (hb .entry) (.none _))
    replace h := h.tail (.answer (a := .ok ()) () rfl trivial (.acquire rfl))
    replace h := h.tail (.answer () rfl (hb .locked) (.none _))
    replace h := h.tail (.answer (a := .ok ()) () rfl trivial (.none _))
    replace h := h.tail (.answer () rfl hi (.none _))
    exact ⟨_, rfl, calls_end.2 _ _ _ h⟩

end QorechainPqc
