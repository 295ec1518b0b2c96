import QorechainPqc.Lib.LockGuard
import QorechainPqc.Liboqs.C
import QorechainPqc.Liboqs.Python

/-!
# The random number generator is back on `system` when nobody signs

liboqs has one random number generator for the process. A deterministic signature switches it to a zero filler for the
time of the call, and both bindings over liboqs guard the switch with a lock. Here the calls of the C binding and those
of the Python binding are shown to follow the discipline of `Program.Guard`: `C.guarded` for all answers of liboqs and
of `malloc`, `Python.guarded` for all results and exceptions, as long as no asynchronous exception lands next to a
switch.

What holds of any number of threads in any interleaving follows (`rng_isolated`).
-/

namespace QorechainPqc

open Program

/-- What liboqs draws random bytes from. -/
inductive Rng
  | system
  /-- The zero filler. -/
  | zero
deriving DecidableEq

/-- The bytes that a draw may give: those of the system, or what the filler leaves in the buffer that liboqs has for
them. -/
def Rng.emits (sys : Bytes → Prop) (fills : Bytes → Bytes → Prop) : Rng → Bytes → Prop
  | .system, bs => sys bs
  | .zero, bs => ∃ out, fills out bs

/-! ## The C binding -/

namespace C

/-- Where the random bytes of a call have to come from. -/
def Call.want : Call → Option Rng
  | .keygen _ => some .system
  | .sign _ _ _ => some .zero
  | .signHedged _ _ _ => some .system
  | .verify _ _ _ _ => none
  | .decapsulate _ _ _ => none
  | .encapsulate _ _ => some .system

/-- What a request does to the lock and the selection. -/
def Req.effect : Req → Effect Rng
  | .mutexLock => .acquire
  | .mutexUnlock => .release
  | .customZero => .set .zero
  | .switchSystem => .set .system
  | _ => .none

/-- The requests that run a scheme, and so may draw. -/
def Req.draws : Req → Prop
  | .keypair _ => True
  | .sign _ _ _ => True
  | .verify _ _ _ _ => True
  | .encaps _ _ => True
  | .decaps _ _ _ => True
  | _ => False

/-- What the zero filler makes of a buffer. -/
def fills (out bs : Bytes) : Prop := bs = qpqcZeroRng out out.length

/-- The zero filler gives zeros. -/
theorem zero_of_fills {out bs : Bytes} (h : fills out bs) : ∀ b ∈ bs, b = 0 := by
  rw [h, qpqcZeroRng, memset_length]
  exact fun b hb => List.eq_of_mem_replicate hb

/-- The discipline for the C binding; all answers may come. -/
def guard : Guard Req Ans Rng Call where
  ok _ _ := True
  effect q _ := q.effect
  draws := Req.draws
  emits := Rng.emits (fun _ => True) fills
  idle := .system
  want := Call.want

@[simp] theorem guard_idle : guard.idle = .system := rfl

@[simp] theorem guard_want (c : Call) : guard.want c = c.want := rfl

@[simp] theorem logic_pre {c : Call} {q : Req} {held : Option Rng} : (guard.logic c).pre q held ↔
    (q.draws → ∀ m, c.want = some m → held = some m) ∧ guard.Allowed c q.effect held :=
  and_congr_right' (by simp only [guard, forall_const])

@[simp] theorem logic_ok {c : Call} {q : Req} {a : Ans q} : (guard.logic c).ok q a := trivial

@[simp] theorem logic_next {c : Call} {q : Req} {a : Ans q} {held : Option Rng} :
    (guard.logic c).next q a held = guard.move q.effect held := rfl

/-- A sign call under the lock, with the selection that the call wants. -/
theorem wp_oqsSigSign {c : Call} {m : Rng} (h : c.want = some m) {s : OqsSig} {msg sk : Bytes}
    {post : Bool → Option Rng → Prop} : (oqsSigSign s msg sk).wp (guard.logic c) post (some m) ↔
      ∀ success, post success (some m) := by
  simp [oqsSigSign, call, Req.effect, Req.draws, h, Prod.forall, Option.forall]

section Guarded

variable (alg pk sk msg sig ct : Bytes)

theorem guarded_keygen : guard.Guarded (.keygen alg) (qpqcMldsaKeygen alg) := by
  unfold Guard.Guarded qpqcMldsaKeygen
  simp [call, Req.effect, Req.draws, Call.want, Option.forall]

theorem guarded_sign : guard.Guarded (.sign alg sk msg) (qpqcMldsaSign alg sk msg) := by
  have hw : (Call.sign alg sk msg).want = some .zero := rfl
  unfold Guard.Guarded qpqcMldsaSign
  simp [call, Req.effect, Req.draws, hw, wp_oqsSigSign hw, Option.forall]

theorem guarded_signHedged : guard.Guarded (.signHedged alg sk msg) (qpqcMldsaSignHedged alg sk msg) := by
  have hw : (Call.signHedged alg sk msg).want = some .system := rfl
  unfold Guard.Guarded qpqcMldsaSignHedged
  simp [call, Req.effect, Req.draws, wp_oqsSigSign hw, Option.forall]

theorem guarded_verify : guard.Guarded (.verify alg pk msg sig) (qpqcMldsaVerify alg pk msg sig) := by
  unfold Guard.Guarded qpqcMldsaVerify
  simp [call, Req.effect, Req.draws, Call.want, Option.forall]

theorem guarded_decapsulate : guard.Guarded (.decapsulate alg sk ct) (qpqcMlkemDecapsulate alg sk ct) := by
  unfold Guard.Guarded qpqcMlkemDecapsulate
  simp [call, Req.effect, Req.draws, Call.want, Option.forall]

theorem guarded_encapsulate : guard.Guarded (.encapsulate alg pk) (qpqcMlkemEncapsulate alg pk) := by
  unfold Guard.Guarded qpqcMlkemEncapsulate
  simp [call, Req.effect, Req.draws, Call.want, Option.forall]

end Guarded

/-- **Every call of the C binding** follows the discipline, whatever liboqs and `malloc` answer. -/
theorem guarded (c : Call) : guard.Guarded c c.prog := by
  cases c with
  | keygen alg => exact guarded_keygen alg
  | sign alg sk msg => exact guarded_sign alg sk msg
  | signHedged alg sk msg => exact guarded_signHedged alg sk msg
  | verify alg pk msg sig => exact guarded_verify alg pk msg sig
  | decapsulate alg sk ct => exact guarded_decapsulate alg sk ct
  | encapsulate alg pk => exact guarded_encapsulate alg pk

end C

/-! ## The Python binding -/

namespace Python

/-- Where the random bytes of a call have to come from. -/
def Call.want : Call → Option Rng
  | .keygen _ => some .system
  | .sign _ _ _ hedged => some (if hedged then .system else .zero)
  | .verify _ _ _ _ => none
  | .kemKeygen _ => some .system
  | .encapsulate _ _ => some .system
  | .decapsulate _ _ _ => none

/-- What a request does to the lock and the selection; one that raises does nothing. -/
def Req.effect : ∀ q : Req, Except Exn (Res q) → Effect Rng
  | .lockAcquire, .ok _ => .acquire
  | .lockRelease, .ok _ => .release
  | .customZero, .ok _ => .set .zero
  | .switchSystem, .ok _ => .set .system
  | _, _ => .none

/-- The requests that run a scheme, and so may draw. -/
def Req.draws : Req → Prop
  | .generateKeypair _ => True
  | .sign _ _ => True
  | .verify _ _ _ _ => True
  | .kemGenerateKeypair _ => True
  | .encapSecret _ _ => True
  | .decapSecret _ _ => True
  | _ => False

/-- Anything may raise, but the release of the lock and the switch back; asynchronous exceptions land where `landing`
says. -/
def Req.mayAnswer (landing : Point → Prop) : ∀ q : Req, Except Exn (Res q) → Prop
  | .boundary p, .error _ => landing p
  | .lockRelease, .error _ => False
  | .switchSystem, .error _ => False
  | _, _ => True

/-- What the zero filler makes of a buffer; an exception may land in it. -/
def fills (landing : Point → Prop) (out bs : Bytes) : Prop :=
  ∃ landed, (landed ≠ none → landing .filling) ∧ bs = zeroRng landed out out.length

/-- The zero filler gives zeros, if no exception lands in it. -/
theorem zero_of_fills {landing : Point → Prop} (hl : ¬landing .filling) {out bs : Bytes} (h : fills landing out bs) :
    ∀ b ∈ bs, b = 0 := by
  obtain ⟨landed, hlanded, rfl⟩ := h
  obtain rfl : landed = none := by
    by_contra hne
    exact hl (hlanded hne)
  rw [zeroRng_none, memset_length]
  exact fun b hb => List.eq_of_mem_replicate hb

/-- The discipline for the Python binding. -/
def guard (landing : Point → Prop) : Guard Req (Refusable Exn Res) Rng Call where
  ok := Req.mayAnswer landing
  effect := Req.effect
  draws := Req.draws
  emits := Rng.emits (fun _ => True) (fills landing)
  idle := .system
  want := Call.want

variable {landing : Point → Prop}

/-! ### One request -/

section Requests

variable {c : Call} {held : Option Rng} {exc : Exn → Option Rng → Prop}

/-- A request that does nothing to the lock and the selection, and draws as the call wants. -/
theorem stays_call {q : Req} (he : ∀ a, q.effect a = .none) (hd : q.draws → ∀ m, c.want = some m → held = some m) :
    Raising.Stays ((guard landing).logic c) held (call q) := by
  refine Raising.stays_ask ⟨hd, fun a _ => ?_⟩ fun a _ => ?_
  · have hnone : (guard landing).effect q a = .none := he a
    rw [hnone]
    exact Guard.allowed_none
  · have hnone : (guard landing).effect q a = .none := he a
    exact (congrArg ((guard landing).move · held) hnone).trans Guard.move_none

theorem stays_boundary {p : Point} : Raising.Stays ((guard landing).logic c) held (call (.boundary p)) :=
  stays_call (fun a => by cases a <;> rfl) nofun

variable {post : Unit → Option Rng → Prop}

/-- A boundary where nothing lands. -/
theorem ewp_boundary_clear {p : Point} (hp : ¬landing p) (h : post () held) :
    (call (.boundary p)).ewp ((guard landing).logic c) post exc held :=
  Raising.ewp_ask.mpr ⟨⟨nofun, fun a _ => by cases a <;> exact Guard.allowed_none⟩, fun _ _ => h,
    fun _ he => absurd he hp⟩

theorem ewp_lockAcquire (h : post () (some .system)) (hexc : ∀ e, exc e none) :
    (call .lockAcquire).ewp ((guard landing).logic c) post exc none := by
  refine Raising.ewp_ask.mpr ⟨⟨nofun, fun a _ => ?_⟩, fun _ _ => h, fun e _ => hexc e⟩
  cases a with
  | ok _ => exact Guard.allowed_acquire.mpr rfl
  | error e => exact Guard.allowed_none

theorem ewp_lockRelease (h : post () none) :
    (call .lockRelease).ewp ((guard landing).logic c) post exc (some .system) := by
  refine Raising.ewp_ask.mpr ⟨⟨nofun, fun a _ => ?_⟩, fun _ _ => h, fun e he => absurd he id⟩
  cases a with
  | ok _ => exact Guard.allowed_release.mpr rfl
  | error e => exact Guard.allowed_none

theorem ewp_customZero (hw : c.want = some .zero) (h : post () (some .zero)) (hexc : ∀ e, exc e (some .system)) :
    (call .customZero).ewp ((guard landing).logic c) post exc (some .system) := by
  refine Raising.ewp_ask.mpr ⟨⟨nofun, fun a _ => ?_⟩, fun _ _ => h, fun e _ => hexc e⟩
  cases a with
  | ok _ => exact Guard.allowed_set.mpr ⟨nofun, .inr hw⟩
  | error e => exact Guard.allowed_none

theorem ewp_switchSystem (h : post () (some .system)) :
    (call .switchSystem).ewp ((guard landing).logic c) post exc (some .zero) := by
  refine Raising.ewp_ask.mpr ⟨⟨nofun, fun a _ => ?_⟩, fun _ _ => h, fun e he => absurd he id⟩
  cases a with
  | ok _ => exact Guard.allowed_set.mpr ⟨nofun, .inl rfl⟩
  | error e => exact Guard.allowed_none

end Requests

/-! ### Blocks -/

section Blocks

variable {α : Type} {c : Call} {held : Option Rng} {p : Py α}

theorem Stays.withSignature {s : Signature} (h : Raising.Stays ((guard landing).logic c) held p) :
    Raising.Stays ((guard landing).logic c) held (withSignature s p) :=
  stays_withSignature (stays_call (fun _ => rfl) nofun) stays_boundary h (stays_call (fun _ => rfl) nofun)

theorem Stays.withKem {k : KeyEncapsulation} (h : Raising.Stays ((guard landing).logic c) held p) :
    Raising.Stays ((guard landing).logic c) held (withKem k p) :=
  stays_withKem (stays_call (fun _ => rfl) nofun) stays_boundary h (stays_call (fun _ => rfl) nofun)

/-- The lock is taken for the block, and released whatever way it is left. -/
theorem Stays.withLock (h : Raising.Stays ((guard landing).logic c) (some .system) p) :
    Raising.Stays ((guard landing).logic c) none (withLock p) := by
  have hp := (stays_boundary (p := .locked)).bind fun _ => h
  refine stays_boundary.bind fun _ => Raising.ewp_bind.mpr (ewp_lockAcquire ?_ fun _ => rfl)
  refine Raising.ewp_bind.mpr (hp.ewp_tryFinally (fun a => ?_) fun e => ?_)
  · exact ewp_lockRelease (stays_boundary.bind fun _ => Raising.stays_pure)
  · exact ewp_lockRelease rfl

end Blocks

/-! ### The methods -/

section Methods

theorem stays_signWith {c : Call} {m : Rng} (hw : c.want = some m) {s : Signature} {message : BytesObject} :
    Raising.Stays ((guard landing).logic c) (some m) (MlDsa.signWith s message) := by
  have hsign : Raising.Stays ((guard landing).logic c) (some m) (call (.sign s message)) :=
    stays_call (fun _ => rfl) fun _ m' hm => hw.symm.trans hm
  exact Stays.withSignature (stays_result hsign stays_boundary)

/-- The deterministic path sets the zero filler for the block alone, if nothing lands next to a switch. -/
theorem stays_signDeterministic (hz : ¬landing .zeroed) (hr : ¬landing .restoring) {c : Call}
    (hw : c.want = some .zero) {s : Signature} {message : BytesObject} :
    Raising.Stays ((guard landing).logic c) none (MlDsa.signDeterministic s message) := by
  have hfin : (do call (.boundary .restoring); call .switchSystem; call (.boundary .restored) : Py Unit).ewp
      ((guard landing).logic c) (fun _ h => h = some .system) (fun _ h => h = some .system) (some .zero) :=
    Raising.ewp_bind.mpr (ewp_boundary_clear hr (Raising.ewp_bind.mpr (ewp_switchSystem stays_boundary)))
  refine Stays.withLock (Raising.ewp_bind.mpr (ewp_customZero hw ?_ fun _ => rfl))
  refine Raising.ewp_bind.mpr (ewp_boundary_clear hz ?_)
  exact (stays_signWith hw).ewp_tryFinally (fun _ => hfin) fun _ => hfin

theorem stays_sign (hz : ¬landing .zeroed) (hr : ¬landing .restoring) (self : MlDsa) (secretKey message : Arg)
    (hedged : Bool) : Raising.Stays ((guard landing).logic (.sign self secretKey message hedged)) none
      (self.sign secretKey message hedged) := by
  refine Raising.stays_ofExcept.bind fun _ => Raising.stays_ofExcept.bind fun _ => ?_
  cases hedged with
  | false => exact stays_signDeterministic hz hr rfl
  | true => exact Stays.withLock (stays_signWith rfl)

theorem stays_keygen (self : MlDsa) : Raising.Stays ((guard landing).logic (.keygen self)) none self.keygen := by
  refine Stays.withLock (Stays.withSignature (stays_results ?_ ?_ stays_boundary))
  · exact stays_call (fun _ => rfl) fun _ _ hm => hm
  · exact stays_call (fun _ => rfl) nofun

theorem stays_verify (self : MlDsa) (publicKey message signature : Arg) :
    Raising.Stays ((guard landing).logic (.verify self publicKey message signature)) none
      (self.verify publicKey message signature) := by
  unfold MlDsa.verify
  split
  · refine Raising.stays_ofExcept.bind fun _ => Raising.stays_ofExcept.bind fun _ => ?_
    refine Raising.stays_ofExcept.bind fun _ => Raising.stays_ofExcept.bind fun _ => ?_
    split
    · exact Raising.stays_pure
    · refine Raising.Stays.tryCatch (Stays.withSignature ?_) fun e => ?_
      · exact stays_result (stays_call (fun _ => rfl) fun _ _ hm => hm) stays_boundary
      · split
        · exact Raising.stays_pure
        · exact Raising.stays_throw
  · exact Raising.stays_throw
  · exact Raising.stays_throw
  · exact Raising.stays_throw
  · exact Raising.stays_pure

theorem stays_kemKeygen (self : MlKem) : Raising.Stays ((guard landing).logic (.kemKeygen self)) none self.keygen := by
  refine Stays.withLock (Stays.withKem (stays_results ?_ ?_ stays_boundary))
  · exact stays_call (fun _ => rfl) fun _ _ hm => hm
  · exact stays_call (fun _ => rfl) nofun

theorem stays_encapsulate (self : MlKem) (publicKey : Arg) :
    Raising.Stays ((guard landing).logic (.encapsulate self publicKey)) none (self.encapsulate publicKey) := by
  refine Raising.stays_ofExcept.bind fun _ => Stays.withLock (Stays.withKem ?_)
  exact stays_result (stays_call (fun _ => rfl) fun _ _ hm => hm) stays_boundary

theorem stays_decapsulate (self : MlKem) (secretKey ciphertext : Arg) :
    Raising.Stays ((guard landing).logic (.decapsulate self secretKey ciphertext)) none
      (self.decapsulate secretKey ciphertext) := by
  refine Raising.stays_ofExcept.bind fun _ => Raising.stays_ofExcept.bind fun _ => Stays.withKem ?_
  exact stays_result (stays_call (fun _ => rfl) fun _ _ hm => hm) stays_boundary

theorem guarded_of_stays {α : Type} {c : Call} {p : Py α} (h : Raising.Stays ((guard landing).logic c) none p) :
    (guard landing).Guarded c ((fun _ => ()) <$> p.run) := by
  have hp := Raising.wp_run_iff_ewp.mpr h
  unfold Guard.Guarded
  rw [map_eq_pure_bind, Prog.wp_bind]
  exact hp

/-- **Every call of the Python binding** follows the discipline, whatever raises, as long as no asynchronous exception
lands between the switch to the zero filler and the `try` block, or in the `finally` block before the switch back. -/
theorem guarded (hz : ¬landing .zeroed) (hr : ¬landing .restoring) (c : Call) : (guard landing).Guarded c c.prog := by
  cases c with
  | keygen self => exact guarded_of_stays (stays_keygen self)
  | sign self secretKey message hedged => exact guarded_of_stays (stays_sign hz hr self secretKey message hedged)
  | verify self publicKey message signature =>
    exact guarded_of_stays (stays_verify self publicKey message signature)
  | kemKeygen self => exact guarded_of_stays (stays_kemKeygen self)
  | encapsulate self publicKey => exact guarded_of_stays (stays_encapsulate self publicKey)
  | decapsulate self secretKey ciphertext => exact guarded_of_stays (stays_decapsulate self secretKey ciphertext)

end Methods

end Python

/-! ## Any number of threads -/

section Isolated

variable {Q C R T : Type} {A : Q → Type} {want : C → Option Rng}

/-- What a state of the threads guarantees, when a call wants its random bytes as `want` says. -/
structure Isolated (want : C → Option Rng) (s : Guard.System Q A Rng C R T) : Prop where
  zero_held : s.mode = .zero →
    ∃ t c p, s.holder = some t ∧ (s.threads t).current = some (c, p) ∧ want c = some .zero
  fresh : ∀ d ∈ s.log, want d.call = some .system → d.mode = .system
  zeros : ∀ d ∈ s.log, want d.call = some .zero → d.mode = .zero ∧ ∀ b ∈ d.bytes, b = 0
  idle : (∀ t, (s.threads t).current = none) → s.mode = .system ∧ s.holder = none

/-- The discipline of every call isolates every reachable state. -/
theorem isolated_of_guarded [DecidableEq T] {G : Guard Q A Rng C} {prog : C → Prog Q A R}
    (hg : ∀ c, G.Guarded c (prog c)) (hidle : G.idle = .system)
    (hemits : ∀ bs, G.emits .zero bs → ∀ b ∈ bs, b = 0) {todo : T → List C} {s : Guard.System Q A Rng C R T}
    (hs : G.Reachable prog todo s) : Isolated G.want s where
  zero_held hz := by
    have hne : s.mode ≠ G.idle := by
      rw [hz, hidle]
      exact nofun
    obtain ⟨t, c, p, ht, hc, hw⟩ := Guard.mode_of_reachable hg hs hne
    exact ⟨t, c, p, ht, hc, hz ▸ hw⟩
  fresh d hd hw := (Guard.draws_of_reachable hg hs hd hw).1
  zeros d hd hw := by
    obtain ⟨hm, hb⟩ := Guard.draws_of_reachable hg hs hd hw
    exact ⟨hm, hemits _ hb⟩
  idle hc := by
    obtain ⟨hfree, hmode⟩ := Guard.idle_of_reachable hg hs hc
    exact ⟨hmode.trans hidle, hfree⟩

end Isolated

namespace Python

/-- Everywhere but next to a switch of the random number generator. -/
def unstruck (p : Point) : Prop := p ≠ .zeroed ∧ p ≠ .restoring

/-- Everywhere but there and in the zero filler. -/
def elsewhere (p : Point) : Prop := unstruck p ∧ p ≠ .filling

end Python

/-- **Isolation.** However many threads run whatever calls of one of the two bindings over liboqs, in every state they
can reach the zero filler is selected only while a deterministic signature holds the lock, keys, encapsulations and
hedged signatures have drawn from the system and deterministic signatures zeros only, and between the calls the system
is selected and the lock is free. -/
theorem rng_isolated :
    (∀ (T : Type) [DecidableEq T] (todo : T → List C.Call) (s : Guard.System C.Req C.Ans Rng C.Call Int T),
      C.guard.Reachable C.Call.prog todo s → Isolated C.Call.want s) ∧
    (∀ (T : Type) [DecidableEq T] (todo : T → List Python.Call)
      (s : Guard.System Python.Req (Refusable Python.Exn Python.Res) Rng Python.Call Unit T),
      (Python.guard Python.elsewhere).Reachable Python.Call.prog todo s → Isolated Python.Call.want s) := by
  constructor
  · intro T _ todo s hs
    exact isolated_of_guarded C.guarded rfl (fun _ h => C.zero_of_fills h.choose_spec) hs
  · intro T _ todo s hs
    exact isolated_of_guarded (Python.guarded (fun h => h.1.1 rfl) fun h => h.1.2 rfl) rfl
      (fun _ h => Python.zero_of_fills (fun h => h.2 rfl) h.choose_spec) hs

/-! ### Two threads in each binding -/

/-- A secret key of ML-DSA-44, as far as its size goes. -/
@[irreducible] def secretKey44 : Bytes := List.replicate 2560 0

theorem length_secretKey44 : secretKey44.length = 2560 := by rw [secretKey44, List.length_replicate]

/-- A deterministic signature in C. -/
def C.sign44 : C.Call := .sign (Text.utf8 MlDsa.Level.l44.oqsName.toList) secretKey44 [1, 2, 3]

/-- A key generation in C. -/
def C.keygen44 : C.Call := .keygen (Text.utf8 MlDsa.Level.l44.oqsName.toList)

/-- One thread of the C binding generates a key, and then the other one signs. -/
theorem C.reachable_two : ∃ s : Guard.System C.Req C.Ans Rng C.Call Int Bool,
    C.guard.Reachable C.Call.prog (fun t => if t then [C.keygen44] else [C.sign44]) s ∧ s.mode = .zero ∧
      s.log = [⟨C.sign44, .zero, List.replicate 32 0⟩, ⟨C.keygen44, .system, List.replicate 32 7⟩] := by
  obtain ⟨k, hprog, hk⟩ := C.qpqcMldsaSign_of_length (s := .ofLevel .l44) length_secretKey44
    (Text.utf8 MlDsa.Level.l44.oqsName.toList) [1, 2, 3]
  have hz : C.guard.emits .zero (List.replicate 32 0) := ⟨List.replicate 32 7, rfl⟩
  have hs : C.guard.emits .system (List.replicate 32 7) := trivial
  have h : C.guard.Reachable C.Call.prog (fun t => if t then [C.keygen44] else [C.sign44])
      (C.guard.init _ : Guard.System C.Req C.Ans Rng C.Call Int Bool) := .refl
  replace h := h.tail (.start true rfl)
  replace h := h.tail (.start false rfl)
  rw [show C.sign44.prog = _ from hprog] at h
  replace h := h.tail (.answer (a := some (.ofLevel .l44)) true rfl trivial (.none _))
  replace h := h.tail (.answer (k := k) (a := some (.ofLevel .l44)) false rfl trivial (.none _))
  rw [hk] at h
  replace h := h.tail (.answer (a := some 1) true rfl trivial (.none _))
  replace h := h.tail (.answer (a := ()) true rfl trivial (.none _))
  replace h := h.tail (.answer (a := some 2) true rfl trivial (.none _))
  replace h := h.tail (.answer (a := ()) true rfl trivial (.none _))
  replace h := h.tail (.answer (a := ()) true rfl trivial (.acquire rfl))
  replace h := h.tail (.answer (a := some 3) false rfl trivial (.none _))
  replace h := h.tail (.answer (a := ()) false rfl trivial (.none _))
  replace h := h.tail (.draw true rfl trivial hs)
  replace h := h.tail (.answer (a := true) true rfl trivial (.none _))
  replace h := h.tail (.answer (a := ()) true rfl trivial (.release _))
  replace h := h.tail (.answer (a := ()) false rfl trivial (.acquire rfl))
  replace h := h.tail (.answer (a := ()) false rfl trivial (.set _ _))
  replace h := h.tail (.answer (a := ()) true rfl trivial (.none _))
  replace h := h.tail (.draw false rfl trivial hz)
  exact ⟨_, h, rfl, rfl⟩

namespace Python

/-- A deterministic signature in Python. -/
def sign44 : Call := .sign (.ofLevel .l44) (.ofBytes secretKey44) (.ofBytes [1, 2, 3]) false

/-- A key generation in Python. -/
def keygen44 : Call := .keygen (.ofLevel .l44)

theorem sign_secretKey44 (message : Bytes) :
    (MlDsa.ofLevel .l44).sign (.ofBytes secretKey44) (.ofBytes message) false =
      MlDsa.signDeterministic ⟨str "ML-DSA-44", some (.ofBytes secretKey44)⟩ (.ofBytes message) :=
  MlDsa.sign_ofBytes length_secretKey44

theorem sign44_prog : sign44.prog = (fun _ => ()) <$> (MlDsa.signDeterministic
    ⟨str "ML-DSA-44", some (.ofBytes secretKey44)⟩ (.ofBytes [1, 2, 3])).run := by
  rw [← sign_secretKey44]
  rfl

/-- The same in the Python binding. -/
theorem reachable_two : ∃ s : Guard.System Req (Refusable Exn Res) Rng Call Unit Bool,
    (guard elsewhere).Reachable Call.prog (fun t => if t then [keygen44] else [sign44]) s ∧ s.mode = .zero ∧
      s.log = [⟨sign44, .zero, List.replicate 32 0⟩, ⟨keygen44, .system, List.replicate 32 7⟩] := by
  have hz : (guard elsewhere).emits .zero (List.replicate 32 0) :=
    ⟨List.replicate 32 7, none, fun h => absurd rfl h, rfl⟩
  have hs : (guard elsewhere).emits .system (List.replicate 32 7) := trivial
  have hb (p : Point) : (guard elsewhere).ok (.boundary p) (.ok ()) := trivial
  have hrelease : (guard elsewhere).ok .lockRelease (.ok ()) := trivial
  have h : (guard elsewhere).Reachable Call.prog (fun t => if t then [keygen44] else [sign44])
      ((guard _).init _ : Guard.System Req (Refusable Exn Res) Rng Call Unit Bool) := .refl
  replace h := h.tail (.start true rfl)
  replace h := h.tail (.start false rfl)
  rw [sign44_prog] at h
  replace h := h.tail (.answer true rfl (hb .entry) (.none _))
  replace h := h.tail (.answer false rfl (hb .entry) (.none _))
  replace h := h.tail (.answer (a := .ok ()) true rfl trivial (.acquire rfl))
  replace h := h.tail (.answer true rfl (hb .locked) (.none _))
  replace h := h.tail (.answer (a := .ok ()) true rfl trivial (.none _))
  replace h := h.tail (.answer true rfl (hb .body) (.none _))
  replace h := h.tail (.draw true rfl trivial hs)
  replace h := h.tail (.answer (a := .ok []) true rfl trivial (.none _))
  replace h := h.tail (.answer true rfl (hb .body) (.none _))
  replace h := h.tail (.answer (a := .ok []) true rfl trivial (.none _))
  replace h := h.tail (.answer true rfl (hb .body) (.none _))
  replace h := h.tail (.answer (a := .ok ()) true rfl trivial (.none _))
  replace h := h.tail (.answer true rfl hrelease (.release _))
  replace h := h.tail (.answer (a := .ok ()) false rfl trivial (.acquire rfl))
  replace h := h.tail (.answer false rfl (hb .locked) (.none _))
  replace h := h.tail (.answer (a := .ok ()) false rfl trivial (.set _ _))
  replace h := h.tail (.answer false rfl (hb .zeroed) (.none _))
  replace h := h.tail (.answer (a := .ok ()) false rfl trivial (.none _))
  replace h := h.tail (.answer false rfl (hb .body) (.none _))
  replace h := h.tail (.draw false rfl trivial hz)
  exact ⟨_, h, rfl, rfl⟩

end Python

/-- `rng_isolated` for these: the zero filler is selected in the middle of a signature, and a key has been made from
bytes of the system while the signature was waiting. -/
theorem rng_isolated_draws :
    (∃ s : Guard.System C.Req C.Ans Rng C.Call Int Bool, (s.mode = .zero ∧
      s.log = [⟨C.sign44, .zero, List.replicate 32 0⟩, ⟨C.keygen44, .system, List.replicate 32 7⟩]) ∧
        Isolated C.Call.want s) ∧
    (∃ s : Guard.System Python.Req (Refusable Python.Exn Python.Res) Rng Python.Call Unit Bool, (s.mode = .zero ∧
      s.log = [⟨Python.sign44, .zero, List.replicate 32 0⟩, ⟨Python.keygen44, .system, List.replicate 32 7⟩]) ∧
        Isolated Python.Call.want s) := by
  obtain ⟨s, hs, hlog⟩ := C.reachable_two
  obtain ⟨s', hs', hlog'⟩ := Python.reachable_two
  exact ⟨⟨s, hlog, rng_isolated.1 _ _ _ hs⟩, s', hlog', rng_isolated.2 _ _ _ hs'⟩

end QorechainPqc
