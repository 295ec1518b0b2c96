import QorechainPqc.Liboqs.Isolation

/-!
# Where an interrupt leaves the zero filler selected

In the Python binding a deterministic signature installs the zero filler before its `try` block and removes it in the
`finally` block, all of it with the lock. An asynchronous exception that lands between the installation and the `try`
block, or in the `finally` block before the removal, leaves the filler installed, and the `with` statement releases the
lock: from then on key generation draws zeros (`interrupted_sign`). Nothing else does that (`sign_restores_iff`).

A `Watch` follows one call: whether it has the lock, what is selected and whether an exception has landed at such a
point. All along a call of `sign`, with the lock free the zero filler is selected exactly if that has happened
(`Watch.Sound`).
-/

namespace QorechainPqc.Python

open Program

/-- What a call has done so far to the lock and the selection, and whether an exception has landed next to a switch. -/
structure Watch where
  held : Bool
  mode : Rng
  struck : Bool

namespace Watch

/-- Unlocked, with the system selected. -/
def start : Watch := ⟨false, .system, false⟩

/-- What a step does. -/
def act (w : Watch) : Effect Rng → Watch
  | .none => w
  | .acquire => { w with held := true }
  | .release => { w with held := false }
  | .set m => { w with mode := m }

/-- With the lock free, the zero filler is selected exactly if an exception has landed next to a switch. -/
def Sound (w : Watch) : Prop := w.held = false → (w.mode = .zero ↔ w.struck = true)

/-- The same with the lock. -/
def Within (w : Watch) : Prop := w.held = true ∧ (w.mode = .zero ↔ w.struck = true)

/-- The end of a call. -/
def Done (w : Watch) : Prop := w.held = false ∧ (w.mode = .zero ↔ w.struck = true)

theorem Within.sound {w : Watch} (h : w.Within) : w.Sound := fun hf => by rw [h.1] at hf; cases hf

theorem Done.sound {w : Watch} (h : w.Done) : w.Sound := fun _ => h.2

theorem done_start : start.Done := ⟨rfl, by decide⟩

/-- The lock is taken. -/
def taken : Watch := ⟨true, .system, false⟩

theorem within_taken : taken.Within := ⟨rfl, by decide⟩

end Watch

/-- An exception lands between the switch to the zero filler and the `try` block, or in the `finally` block before the
switch back. -/
def Req.strikes : ∀ q : Req, Except Exn (Res q) → Bool
  | .boundary .zeroed, .error _ => true
  | .boundary .restoring, .error _ => true
  | _, _ => false

/-- Asynchronous exceptions land anywhere. -/
def anywhere (_ : Point) : Prop := True

/-- How a watch goes on; it has to be sound wherever something is asked. -/
def watch : Logic Req (Refusable Exn Res) Watch where
  pre _ w := w.Sound
  ok := Req.mayAnswer anywhere
  next q a w := if q.strikes a then { w with struck := true } else w.act (q.effect a)

/-! ## One call of sign -/

section Sign

variable {w : Watch} {α : Type} {post : Unit → Watch → Prop} {exc : Exn → Watch → Prop}

theorem watch_stays_call {q : Req} (he : ∀ a, q.effect a = .none) (hs : ∀ a, q.strikes a = false) (hw : w.Sound) :
    Raising.Stays watch w (call q) := by
  refine Raising.stays_ask hw fun a _ => ?_
  have hn : ¬q.strikes a = true := by rw [hs a]; exact nofun
  exact (if_neg hn).trans (by rw [he a]; rfl)

/-- A boundary away from the switches. -/
theorem watch_stays_boundary {p : Point} (hz : p ≠ .zeroed) (hr : p ≠ .restoring) (hw : w.Sound) :
    Raising.Stays watch w (call (.boundary p)) := by
  refine watch_stays_call (fun a => ?_) (fun a => ?_) hw
  · cases a <;> rfl
  · cases p with
    | zeroed => contradiction
    | restoring => contradiction
    | _ => rfl

/-- A boundary next to a switch, with the zero filler selected. -/
theorem ewp_boundary_strikes {p : Point} (hp : p = .zeroed ∨ p = .restoring) (h : post () ⟨true, .zero, false⟩)
    (hexc : ∀ e, exc e ⟨true, .zero, true⟩) : (call (.boundary p)).ewp watch post exc ⟨true, .zero, false⟩ := by
  rcases hp with rfl | rfl
  · exact Raising.ewp_ask.mpr ⟨nofun, fun _ _ => h, fun e _ => hexc e⟩
  · exact Raising.ewp_ask.mpr ⟨nofun, fun _ _ => h, fun e _ => hexc e⟩

theorem watch_withLock {block : Py α}
    (h : block.ewp watch (fun _ => Watch.Within) (fun _ => Watch.Within) .taken) :
    (withLock block).ewp watch (fun _ => Watch.Done) (fun _ => Watch.Done) .start := by
  have hrelease {w : Watch} {post : Unit → Watch → Prop} (hw : w.Within) (hp : post () { w with held := false }) :
      (call .lockRelease).ewp watch post (fun _ => Watch.Done) w :=
    Raising.ewp_ask.mpr ⟨hw.sound, fun _ _ => hp, fun e he => absurd he id⟩
  have hentry := watch_stays_boundary (p := .entry) nofun nofun Watch.done_start.sound
  refine hentry.ewp_bind (fun _ => ?_) fun _ => Watch.done_start
  refine Raising.ewp_bind.mpr (Raising.ewp_ask.mpr ⟨Watch.done_start.sound, fun _ _ => ?_, fun _ _ => Watch.done_start⟩)
  refine Raising.ewp_bind.mpr (Raising.ewp_tryFinally.mpr ?_)
  have hlocked := watch_stays_boundary (p := .locked) nofun nofun Watch.within_taken.sound
  refine hlocked.ewp_bind (fun _ => ?_) fun _ => ?_
  · refine Raising.ewp_mono h (fun a w hw => hrelease hw ?_) fun e w hw => hrelease hw ⟨rfl, hw.2⟩
    have hdone : Watch.Done { w with held := false } := ⟨rfl, hw.2⟩
    have hunlocked := watch_stays_boundary (p := .unlocked) nofun nofun hdone.sound
    exact hunlocked.ewp_bind (fun _ => hdone) fun _ => hdone
  · exact hrelease Watch.within_taken ⟨rfl, Watch.within_taken.2⟩

theorem watch_signWith {s : Signature} {message : BytesObject} (hw : w.Sound) :
    Raising.Stays watch w (MlDsa.signWith s message) := by
  have hbody : Raising.Stays watch w (call (.boundary .body)) := watch_stays_boundary nofun nofun hw
  refine stays_withSignature (watch_stays_call (fun _ => rfl) (fun _ => rfl) hw) hbody ?_
    (watch_stays_call (fun _ => rfl) (fun _ => rfl) hw)
  exact stays_result (watch_stays_call (fun _ => rfl) (fun _ => rfl) hw) hbody

/-- The `finally` block: with an exception before the switch back the zero filler stays. -/
theorem watch_finally : (do call (.boundary .restoring); call .switchSystem; call (.boundary .restored) : Py Unit).ewp
    watch (fun _ => Watch.Within) (fun _ => Watch.Within) ⟨true, .zero, false⟩ := by
  refine Raising.ewp_bind.mpr (ewp_boundary_strikes (.inr rfl) ?_ fun _ => ⟨rfl, by decide⟩)
  refine Raising.ewp_bind.mpr (Raising.ewp_ask.mpr ⟨nofun, fun _ _ => ?_, fun e he => absurd he id⟩)
  have hrestored := watch_stays_boundary (p := .restored) nofun nofun Watch.within_taken.sound
  exact Raising.ewp_mono hrestored (fun _ _ h => h ▸ Watch.within_taken) fun _ _ h => h ▸ Watch.within_taken

theorem watch_signDeterministic {s : Signature} {message : BytesObject} :
    (MlDsa.signDeterministic s message).ewp watch (fun _ => Watch.Done) (fun _ => Watch.Done) .start := by
  have hheld : Watch.Sound ⟨true, .zero, false⟩ := nofun
  refine watch_withLock (Raising.ewp_bind.mpr (Raising.ewp_ask.mpr ⟨nofun, fun _ _ => ?_, fun _ _ => ?_⟩))
  case refine_2 => exact Watch.within_taken
  refine Raising.ewp_bind.mpr (ewp_boundary_strikes (.inl rfl) ?_ fun _ => ⟨rfl, by decide⟩)
  exact (watch_signWith hheld).ewp_tryFinally (fun _ => watch_finally) fun _ => watch_finally

theorem watch_sign (self : MlDsa) (secretKey message : Arg) (hedged : Bool) :
    (self.sign secretKey message hedged).ewp watch (fun _ => Watch.Done) (fun _ => Watch.Done) .start := by
  refine Raising.stays_ofExcept.ewp_bind (fun _ => ?_) fun _ => Watch.done_start
  refine Raising.stays_ofExcept.ewp_bind (fun _ => ?_) fun _ => Watch.done_start
  cases hedged with
  | false => exact watch_signDeterministic
  | true =>
    refine watch_withLock (Raising.ewp_mono (watch_signWith Watch.within_taken.sound) ?_ ?_)
    · rintro _ _ rfl
      exact Watch.within_taken
    · rintro _ _ rfl
      exact Watch.within_taken

end Sign

/-! ## Runs -/

/-- The events of a call. -/
abbrev Trace := List (Event Req (Refusable Exn Res))

/-- An exception has landed next to a switch. -/
def Struck (tr : Trace) : Prop := ∃ e ∈ tr, e.1.strikes e.2 = true

/-- Wherever the lock is free along the events, the system is selected. -/
def Restored (tr : Trace) : Prop :=
  ∀ past, past <+: tr → (watch.after .start past).held = false → (watch.after .start past).mode = .system

theorem struck_after (tr : Trace) (w : Watch) : (watch.after w tr).struck = true ↔ w.struck = true ∨ Struck tr := by
  induction tr generalizing w with
  | nil => simp [Struck]
  | cons e tr ih =>
    have hact (x : Effect Rng) : (w.act x).struck = w.struck := by cases x <;> rfl
    have hnext : (watch.next e.1 e.2 w).struck = true ↔ w.struck = true ∨ e.1.strikes e.2 = true := by
      simp only [watch]
      split
      · rename_i h; simp [h]
      · rename_i h; simp [h, hact]
    rw [Logic.after_cons, ih, hnext, or_assoc]
    simp only [Struck, List.exists_mem_cons_iff]

/-- **A call of `sign`** frees the lock with the system selected, unless an exception lands next to a switch. -/
theorem sign_restores_iff {self : MlDsa} {secretKey message : Arg} {hedged : Bool} {tr : Trace} {r : Except Exn Bytes}
    (hr : Run (Req.mayAnswer anywhere) (self.sign secretKey message hedged).run tr r) : Restored tr ↔ ¬Struck tr := by
  have hwp := Raising.wp_run_iff_ewp.mpr (watch_sign self secretKey message hedged)
  have hstruck (a : Trace) : (watch.after .start a).struck = true ↔ Struck a := by
    rw [struck_after]
    exact or_iff_right nofun
  constructor
  · intro hres hs
    obtain ⟨hfree, hmode⟩ : (watch.after .start tr).Done := Run.wp (L := watch) hr hwp
    have hzero := hmode.mpr ((hstruck tr).mpr hs)
    rw [hres tr List.prefix_rfl hfree] at hzero
    cases hzero
  · intro hs past hpast hfree
    have hsound : (watch.after .start past).Sound := by
      rcases Run.wp_prefix (L := watch) hr hwp hpast with ⟨_, h⟩ | h
      · exact h
      · exact h.sound
    cases hm : (watch.after .start past).mode with
    | system => rfl
    | zero =>
      obtain ⟨e, he, hstrikes⟩ := (hstruck past).mp ((hsound hfree).mp hm)
      exact absurd ⟨e, hpast.subset he, hstrikes⟩ hs

/-- **When the system is restored.** A call of `sign` does it in a run exactly if no exception lands between the switch
to the zero filler and the `try` block nor in the `finally` block before the switch back. However many threads make
calls in whose runs none does, the system is selected whenever the lock is free, and keys, encapsulations and hedged
signatures draw from it. -/
theorem restores_exactly {T : Type} [DecidableEq T] (todo : T → List Call) :
    (∀ (self : MlDsa) (secretKey message : Arg) (hedged : Bool) (tr : Trace) (r : Except Exn Bytes),
      Run (Req.mayAnswer anywhere) (self.sign secretKey message hedged).run tr r → (Restored tr ↔ ¬Struck tr)) ∧
    (∀ s : Guard.System Req (Refusable Exn Res) Rng Call Unit T, (guard unstruck).Reachable Call.prog todo s →
      (s.holder = none → s.mode = .system) ∧ ∀ d ∈ s.log, d.call.want = some .system → d.mode = .system) := by
  refine ⟨fun self secretKey message hedged tr r hr => sign_restores_iff hr, fun s hs => ?_⟩
  have hg (c : Call) : (guard unstruck).Guarded c c.prog := guarded (fun h => h.1 rfl) (fun h => h.2 rfl) c
  exact ⟨(Guard.inv_reachable hg hs).idle, fun d hd hw => (Guard.draws_of_reachable hg hs hd hw).1⟩

/-! ## An interrupted signature -/

/-- `KeyboardInterrupt` after `OQS_randombytes_custom_algorithm` has returned. -/
def interrupted : Trace :=
  [⟨.boundary .entry, .ok ()⟩, ⟨.lockAcquire, .ok ()⟩, ⟨.boundary .locked, .ok ()⟩, ⟨.customZero, .ok ()⟩,
    ⟨.boundary .zeroed, .error .keyboardInterrupt⟩, ⟨.lockRelease, .ok ()⟩]

theorem run_interrupted : Run (Req.mayAnswer anywhere)
    ((MlDsa.ofLevel .l44).sign (.ofBytes secretKey44) (.ofBytes [1, 2, 3]) false).run interrupted
      (.error .keyboardInterrupt) := by
  rw [sign_secretKey44]
  refine .ask trivial ?_
  refine .ask trivial ?_
  refine .ask trivial ?_
  refine .ask trivial ?_
  refine .ask trivial ?_
  exact .ask trivial (.ret _)

/-- `restores_exactly` on that run, and on a thread that generates a key. -/
theorem restores_exactly_interrupted : (Restored interrupted ↔ ¬Struck interrupted) ∧
    ∃ s : Guard.System Req (Refusable Exn Res) Rng Call Unit Unit,
      (s.threads ()).current.isSome = true ∧ (s.holder = none → s.mode = .system) := by
  obtain ⟨hone, hall⟩ := restores_exactly fun _ : Unit => [.keygen (.ofLevel .l44)]
  refine ⟨hone _ _ _ _ _ _ run_interrupted, ?_⟩
  have h : (guard unstruck).Reachable Call.prog (fun _ : Unit => [.keygen (.ofLevel .l44)]) ((guard _).init _) := .refl
  replace h := h.tail (.start () rfl)
  exact ⟨_, rfl, (hall _ h).1⟩

/-- **An interrupted signature**: the lock is free and the zero filler selected, and the next key is made of zeros. -/
theorem interrupted_sign :
    (Run (Req.mayAnswer anywhere) ((MlDsa.ofLevel .l44).sign (.ofBytes secretKey44) (.ofBytes [1, 2, 3]) false).run
        interrupted (.error .keyboardInterrupt) ∧ ¬Restored interrupted) ∧
      ∃ s : Guard.System Req (Refusable Exn Res) Rng Call Unit Unit,
        (guard anywhere).Reachable Call.prog (fun _ => [sign44, .keygen (.ofLevel .l44)]) s ∧
          s.log = [⟨.keygen (.ofLevel .l44), .zero, List.replicate 32 0⟩] := by
  refine ⟨⟨run_interrupted, fun hres => ?_⟩, ?_⟩
  · have hmode : Rng.zero = .system := hres _ List.prefix_rfl rfl
    cases hmode
  · have hb (p : Point) : (guard anywhere).ok (.boundary p) (.ok ()) := trivial
    have hi : (guard anywhere).ok (.boundary .zeroed) (.error .keyboardInterrupt) := trivial
    have hl : (guard anywhere).ok .lockRelease (.ok ()) := trivial
    have hz : (guard anywhere).emits .zero (List.replicate 32 0) :=
      ⟨List.replicate 32 0, none, fun h => absurd rfl h, rfl⟩
    have h : (guard anywhere).Reachable Call.prog (fun _ : Unit => [sign44, .keygen (.ofLevel .l44)])
        ((guard _).init _) := .refl
    replace h := h.tail (.start () rfl)
    rw [sign44_prog] at h
    replace h := h.tail (.answer () rfl (hb .entry) (.none _))
    replace h := h.tail (.answer (a := .ok ()) () rfl trivial (.acquire rfl))
    replace h := h.tail (.answer () rfl (hb .locked) (.none _))
    replace h := h.tail (.answer (a := .ok ()) () rfl trivial (.set _ _))
    replace h := h.tail (.answer () rfl hi (.none _))
    replace h := h.tail (.answer () rfl hl (.release _))
    replace h := h.tail (.finish () rfl)
    replace h := h.tail (.start () rfl)
    replace h := h.tail (.answer () rfl (hb .entry) (.none _))
    replace h := h.tail (.answer (a := .ok ()) () rfl trivial (.acquire rfl))
    replace h := h.tail (.answer () rfl (hb .locked) (.none _))
    replace h := h.tail (.answer (a := .ok ()) () rfl trivial (.none _))
    replace h := h.tail (.answer () rfl (hb .body) (.none _))
    replace h := h.tail (.draw () rfl trivial hz)
    exact ⟨_, h, rfl⟩

end QorechainPqc.Python
