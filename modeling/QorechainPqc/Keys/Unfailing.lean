import QorechainPqc.Keys.Liboqs

/-!
# What liboqs fulfils

The calls of the C binding and of the Python binding over a liboqs that follows the standards and that fails in nothing:
it knows the sets, no allocation and no call fails, and nothing raises. A call with the name of a set and with keys and
ciphertexts of its sizes then succeeds, in every interleaving (`C.succeeds`, `Python.succeeds`), if the system has as
many random bytes as one asks for.
-/

namespace QorechainPqc

open Program

/-- The random number generator of the system gives as many bytes as one asks for. -/
def Supplies (sys : Bytes → Prop) : Prop := ∀ n, ∃ bs, sys bs ∧ bs.length = n

/-- A system that may give anything. -/
theorem supplies_any : Supplies fun _ => True := fun n => ⟨List.replicate n 7, trivial, List.length_replicate⟩

/-- Whatever is selected gives as many bytes as one asks for, if the system does and the zero filler fills a buffer. -/
theorem Supplies.exists_emits {sys : Bytes → Prop} (hsys : Supplies sys) {fills : Bytes → Bytes → Prop}
    (hfills : ∀ n, fills (.replicate n 0) (.replicate n 0)) (n : Nat) (m : Rng) :
    ∃ b : Sized n, Rng.emits sys fills m b.1 := by
  cases m with
  | system =>
    obtain ⟨bs, hbs, hn⟩ := hsys n
    exact ⟨⟨bs, hn⟩, hbs⟩
  | zero => exact ⟨.zeros n, _, hfills n⟩

theorem MlDsa.Level.oqsName_injective {l l' : MlDsa.Level} (h : l.oqsName = l'.oqsName) : l = l' := by
  revert h
  cases l <;> cases l' <;> decide

theorem MlKem.Level.oqsName_injective {l l' : MlKem.Level} (h : l.oqsName = l'.oqsName) : l = l' := by
  revert h
  cases l <;> cases l' <;> decide

namespace C

/-! ## The C binding -/

theorem ofLevel_injective {l l' : MlDsa.Level} (h : OqsSig.ofLevel l = .ofLevel l') : l = l' :=
  Option.some.inj (congrArg OqsSig.set h)

theorem kem_ofLevel_injective {l l' : MlKem.Level} (h : OqsKem.ofLevel l = .ofLevel l') : l = l' :=
  Option.some.inj (congrArg OqsKem.set h)

theorem sigAlg_injective {l l' : MlDsa.Level} (h : sigAlg l = sigAlg l') : l = l' :=
  MlDsa.Level.oqsName_injective (String.toList_inj.mp (Text.utf8_inj h))

theorem kemAlg_injective {l l' : MlKem.Level} (h : kemAlg l = kemAlg l') : l = l' :=
  MlKem.Level.oqsName_injective (String.toList_inj.mp (Text.utf8_inj h))

/-- Nothing fails: liboqs knows the sets, and neither it nor `malloc` reports a failure. -/
def Fulfilled : ∀ q, Ans q → Prop
  | .sigNew alg, r => ∀ l, alg = sigAlg l → r = some (.ofLevel l)
  | .kemNew alg, r => ∀ l, alg = kemAlg l → r = some (.ofLevel l)
  | .malloc _, r => r ≠ none
  | .keypair _, success => success = true
  | .sign _ _ _, r => r.1 = true
  | .encaps _ _, success => success = true
  | .decaps _ _ _, success => success = true
  | _, _ => True

/-- A call with the name of a set, and with keys and a ciphertext of its sizes. The result of a verification says
something else. -/
def Call.Exact : Call → Prop
  | keygen alg => ∃ l, alg = sigAlg l
  | sign alg sk _ => ∃ l : MlDsa.Level, alg = sigAlg l ∧ sk.length = l.sizes.secretKey
  | signHedged alg sk _ => ∃ l : MlDsa.Level, alg = sigAlg l ∧ sk.length = l.sizes.secretKey
  | verify _ _ _ _ => False
  | decapsulate alg sk ct =>
    ∃ l : MlKem.Level, alg = kemAlg l ∧ sk.length = l.sizes.secretKey ∧ ct.length = l.sizes.ciphertext
  | encapsulate alg pk => ∃ l : MlKem.Level, alg = kemAlg l ∧ pk.length = l.sizes.publicKey

/-- Nothing fails, and all questions are allowed. -/
def fulfils : Logic Req Ans Unit := ⟨fun _ _ => True, Fulfilled, fun _ _ g => g⟩

@[simp] theorem fulfils_pre {q : Req} {g : Unit} : fulfils.pre q g := trivial

@[simp] theorem fulfils_ok {q : Req} {a : Ans q} : fulfils.ok q a ↔ Fulfilled q a := Iff.rfl

/-- **Every such call** reports success where nothing fails. -/
theorem wp_prog {c : Call} (hc : c.Exact) : c.prog.wp fulfils (fun r _ => r = qpqcOk) () := by
  cases c with
  | keygen alg =>
    obtain ⟨l, rfl⟩ := hc
    simp [Call.prog, qpqcMldsaKeygen, call, Fulfilled, Option.forall]
  | sign alg sk msg =>
    obtain ⟨l, rfl, hsk⟩ := hc
    simp [Call.prog, qpqcMldsaSign, oqsSigSign, call, Fulfilled, Option.forall, Prod.forall]
    intro s hs
    rw [hs l rfl]
    exact hsk
  | signHedged alg sk msg =>
    obtain ⟨l, rfl, hsk⟩ := hc
    simp [Call.prog, qpqcMldsaSignHedged, oqsSigSign, call, Fulfilled, Option.forall, Prod.forall]
    intro s hs
    rw [hs l rfl]
    exact hsk
  | verify alg pk msg sig => exact hc.elim
  | decapsulate alg sk ct =>
    obtain ⟨l, rfl, hsk, hct⟩ := hc
    simp [Call.prog, qpqcMlkemDecapsulate, call, Fulfilled, Option.forall]
    intro k hk
    rw [hk l rfl]
    exact ⟨hsk, hct⟩
  | encapsulate alg pk =>
    obtain ⟨l, rfl, hpk⟩ := hc
    simp [Call.prog, qpqcMlkemEncapsulate, call, Fulfilled, Option.forall]
    intro k hk
    rw [hk l rfl]
    exact hpk

section Unfailing

variable (S : MlDsa.Standard) (K : MlKem.Standard)

/-- liboqs where nothing fails. -/
def unfailing : Library Req Ans Buffers := (liboqs S K).restrict Fulfilled

variable {S K} {sys : Bytes → Prop}

/-- Random bytes for a question. -/
theorem exists_drawable (hsys : Supplies sys) (c : Call) {q : Req} (hq : q.draws) (n : Nat) :
    ∃ b : Sized n, (guardOf sys).Drawable c q [b.1] := by
  have hfills (n : Nat) : fills (.replicate n 0) (.replicate n 0) := by
    simp [fills, qpqcZeroRng, memset]
  obtain ⟨b, hb⟩ := hsys.exists_emits hfills n (c.want.getD .system)
  refine ⟨b, fun bs hbs => ?_⟩
  obtain rfl := List.mem_singleton.mp hbs
  exact ⟨hq, hb⟩

section Answers

variable {c : Call} {b : Buffers}

/-- An answer that draws nothing. -/
theorem solo_step {q : Req} {a : Ans q} {b' : Buffers} (hfulfilled : Fulfilled q a) (h : answers S K b [] q a b') :
    ((guardOf sys).solo (unfailing S K) c).step b q a b' :=
  ⟨trivial, [], nofun, hfulfilled, h⟩

/-- An answer that draws once. -/
theorem solo_step_draw {q : Req} {a : Ans q} {b' : Buffers} {n : Nat} {x : Sized n}
    (hx : (guardOf sys).Drawable c q [x.1]) (hfulfilled : Fulfilled q a) (h : answers S K b [x.1] q a b') :
    ((guardOf sys).solo (unfailing S K) c).step b q a b' :=
  ⟨trivial, [x.1], hx, hfulfilled, h⟩

theorem exists_sigNew (alg : Bytes) : ∃ a b', ((guardOf sys).solo (unfailing S K) c).step b (.sigNew alg) a b' := by
  by_cases hl : ∃ l, alg = sigAlg l
  · obtain ⟨l, rfl⟩ := hl
    refine ⟨some (.ofLevel l), b, solo_step (fun l' h => ?_) ⟨rfl, fun l' h s hs => ?_⟩⟩
    · rw [sigAlg_injective h]
    · rw [← Option.some.inj hs, sigAlg_injective h]
  · exact ⟨none, b, solo_step (fun l h => absurd ⟨l, h⟩ hl) ⟨rfl, nofun⟩⟩

theorem exists_kemNew (alg : Bytes) : ∃ a b', ((guardOf sys).solo (unfailing S K) c).step b (.kemNew alg) a b' := by
  by_cases hl : ∃ l, alg = kemAlg l
  · obtain ⟨l, rfl⟩ := hl
    refine ⟨some (.ofLevel l), b, solo_step (fun l' h => ?_) ⟨rfl, fun l' h k hk => ?_⟩⟩
    · rw [kemAlg_injective h]
    · rw [← Option.some.inj hk, kemAlg_injective h]
  · exact ⟨none, b, solo_step (fun l h => absurd ⟨l, h⟩ hl) ⟨rfl, nofun⟩⟩

theorem exists_keypair (hsys : Supplies sys) (s : OqsSig) :
    ∃ a b', ((guardOf sys).solo (unfailing S K) c).step b (.keypair s) a b' := by
  by_cases hl : ∃ l, s = .ofLevel l
  · obtain ⟨l, rfl⟩ := hl
    obtain ⟨ξ, hξ⟩ := exists_drawable hsys c (q := .keypair (.ofLevel l)) trivial 32
    refine ⟨true, { b with pk := some (S.keygen l ξ).1.1, sk := some (S.keygen l ξ).2.1 },
      solo_step_draw hξ rfl fun _ l' hl' => ?_⟩
    obtain rfl := ofLevel_injective hl'
    exact ⟨ξ, List.append_nil _, rfl⟩
  · exact ⟨true, b, solo_step rfl fun _ l h => absurd ⟨l, h⟩ hl⟩

theorem exists_sign (hsys : Supplies sys) (s : OqsSig) (msg sk : Bytes) :
    ∃ a b', ((guardOf sys).solo (unfailing S K) c).step b (.sign s msg sk) a b' := by
  by_cases hl : ∃ (l : MlDsa.Level) (k : Sized l.sizes.secretKey), s = .ofLevel l ∧ sk = k.1
  · obtain ⟨l, k, rfl, rfl⟩ := hl
    obtain ⟨rnd, hrnd⟩ := exists_drawable hsys c (q := .sign (.ofLevel l) msg k.1) trivial 32
    refine ⟨(true, some l.sizes.signature), { b with sig := some (S.sign l k msg rnd).1 },
      solo_step_draw hrnd rfl fun _ l' hl' k' hk' => ?_⟩
    obtain rfl := ofLevel_injective hl'
    obtain rfl := Subtype.ext hk'
    exact ⟨rnd, List.append_nil _, rfl, rfl⟩
  · exact ⟨(true, none), b, solo_step rfl fun _ l h k hk => absurd ⟨l, k, h, hk⟩ hl⟩

theorem exists_encaps (hsys : Supplies sys) (k : OqsKem) (pk : Bytes) :
    ∃ a b', ((guardOf sys).solo (unfailing S K) c).step b (.encaps k pk) a b' := by
  by_cases hl : ∃ (l : MlKem.Level) (p : Sized l.sizes.publicKey), k = .ofLevel l ∧ pk = p.1
  · obtain ⟨l, p, rfl, rfl⟩ := hl
    obtain ⟨coin, hcoin⟩ := exists_drawable hsys c (q := .encaps (.ofLevel l) p.1) trivial 32
    refine ⟨true, { b with ct := some (K.encaps l p coin).1.1, ss := some (K.encaps l p coin).2.1 },
      solo_step_draw hcoin rfl fun _ l' hl' p' hp' => ?_⟩
    obtain rfl := kem_ofLevel_injective hl'
    obtain rfl := Subtype.ext hp'
    exact ⟨coin, List.append_nil _, rfl⟩
  · exact ⟨true, b, solo_step rfl fun _ l h p hp => absurd ⟨l, p, h, hp⟩ hl⟩

theorem exists_decaps (k : OqsKem) (ct sk : Bytes) :
    ∃ a b', ((guardOf sys).solo (unfailing S K) c).step b (.decaps k ct sk) a b' := by
  by_cases hl : ∃ (l : MlKem.Level) (x : Sized l.sizes.ciphertext) (d : Sized l.sizes.secretKey),
      k = .ofLevel l ∧ ct = x.1 ∧ sk = d.1
  · obtain ⟨l, x, d, rfl, rfl, rfl⟩ := hl
    refine ⟨true, { b with ss := some (K.decaps l d x).1 }, solo_step rfl fun _ l' hl' x' d' hx' hd' => ?_⟩
    obtain rfl := kem_ofLevel_injective hl'
    obtain rfl := Subtype.ext hx'
    obtain rfl := Subtype.ext hd'
    rfl
  · exact ⟨true, b, solo_step rfl fun _ l h x d hx hd => absurd ⟨l, x, d, h, hx, hd⟩ hl⟩

end Answers

/-- An unfailing liboqs always has an answer. -/
theorem solo_total (hsys : Supplies sys) (c : Call) : ((guardOf sys).solo (unfailing S K) c).Total := by
  intro b q
  cases q with
  | sigNew alg => exact exists_sigNew alg
  | kemNew alg => exact exists_kemNew alg
  | malloc n => exact ⟨some 1, b, solo_step nofun rfl⟩
  | keypair s => exact exists_keypair hsys s
  | sign s msg sk => exact exists_sign hsys s msg sk
  | verify s msg sig pk => exact ⟨true, b, solo_step trivial rfl⟩
  | encaps k pk => exact exists_encaps hsys k pk
  | decaps k ct sk => exact exists_decaps k ct sk
  | storeLen o n => exact ⟨(), _, solo_step trivial rfl⟩
  | _ => exact ⟨(), b, solo_step trivial rfl⟩

theorem ok_of_alone {c : Call} (hc : c.Exact) {r : Int} {b : Buffers}
    (h : Exec ((guardOf sys).alone (unfailing S K) c) c.prog Buffers.empty r b) : r = qpqcOk := by
  obtain ⟨-, hr⟩ := h.wp (L := fulfils) (fun _ _ _ _ ⟨_, _, _, hfulfilled, _⟩ => hfulfilled) (wp_prog hc)
  exact hr

variable (S K sys) in
/-- A call can end with success, and does wherever nothing fails. -/
def Succeeds (c : Call) : Prop :=
  (∃ b, Ran S K sys c b) ∧
  ∀ (T : Type) [DecidableEq T] (todo : T → List Call) (x : Guard.History Req Ans Rng Call Int Buffers T),
    (guardOf sys).Happens (unfailing S K) Call.prog todo x → ∀ e ∈ x.ended, e.call = c → e.result = qpqcOk

/-- **Success**: over a liboqs that follows the standards, knows the sets and fails in nothing, every call with the name
of a set and with keys and ciphertexts of its sizes reports success. -/
theorem succeeds (hsys : Supplies sys) {c : Call} (hc : c.Exact) : Succeeds S K sys c := by
  have hok (T : Type) [DecidableEq T] (todo : T → List Call) (x : Guard.History Req Ans Rng Call Int Buffers T)
      (hx : (guardOf sys).Happens (unfailing S K) Call.prog todo x) :
      ∀ e ∈ x.ended, e.call = c → e.result = qpqcOk := by
    rintro e he rfl
    exact ok_of_alone hc (Guard.exec_of_ended (guardedOf sys) hx he)
  refine ⟨?_, hok⟩
  obtain ⟨r, b, hexec⟩ := (solo_total (S := S) (K := K) hsys c).exists_exec c.prog Buffers.empty
  obtain ⟨x, hx, he⟩ := Guard.happens_of_exec (guardedOf sys) hexec
  obtain rfl := hok Unit _ x hx _ he rfl
  exact ⟨b, Unit, inferInstance, _, x, hx.of_restrict, he⟩

end Unfailing

end C

/-! ## The Python binding -/

namespace Python

theorem str_injective {s t : String} (h : str s = str t) : s = t :=
  String.toList_inj.mp (Text.codePoints_inj_iff.mp h)

theorem arg_ofBytes_injective {b b' : Bytes} (h : BytesObject.ofBytes b = .ofBytes b') : b = b' :=
  congrArg BytesObject.contents h

/-- Nothing raises. -/
def Fulfilled (q : Req) (r : Except Exn (Res q)) : Prop := ∃ a, r = .ok a

/-- A call of an object of a level, with keys and ciphertexts that are byte strings of its sizes. The result of a
verification says something else. -/
def Call.Exact : Call → Prop
  | keygen self => ∃ l, self = .ofLevel l
  | sign self secretKey message _ => ∃ (l : MlDsa.Level) (k : Sized l.sizes.secretKey) (m : Bytes),
      self = .ofLevel l ∧ secretKey = .ofBytes k.1 ∧ message = .ofBytes m
  | verify _ _ _ _ => False
  | kemKeygen self => ∃ l, self = .ofLevel l
  | encapsulate self publicKey => ∃ (l : MlKem.Level) (p : Sized l.sizes.publicKey),
      self = .ofLevel l ∧ publicKey = .ofBytes p.1
  | decapsulate self secretKey ciphertext => ∃ (l : MlKem.Level) (d : Sized l.sizes.secretKey)
      (c : Sized l.sizes.ciphertext), self = .ofLevel l ∧ secretKey = .ofBytes d.1 ∧ ciphertext = .ofBytes c.1

/-- Nothing fails, and all questions are allowed. -/
def fulfils : Logic Req (Refusable Exn Res) Unit := ⟨fun _ _ => True, Fulfilled, fun _ _ g => g⟩

/-- What a program returns where nothing raises, whatever it is. -/
def Returns {α : Type} (p : Py α) : Prop := Raising.Ensures fulfils (fun _ => True) (fun _ => False) p

section Returns

variable {α β : Type} {p : Py α}

theorem returns_pure {a : α} : Returns (pure a : Py α) := Raising.ensures_pure trivial

theorem returns_call {q : Req} : Returns (call q) := Raising.ensures_ask (fun _ => trivial) fun _ h => by
  obtain ⟨_, h⟩ := h
  cases h

theorem Returns.bind (hp : Returns p) {f : α → Py β} (hf : ∀ a, Returns (f a)) : Returns (p >>= f) :=
  Raising.Ensures.bind hp fun a _ => hf a

theorem Returns.tryFinally (hp : Returns p) {fin : Py β} (hfin : Returns fin) : Returns (tryFinally p fin) :=
  Raising.Ensures.tryFinally hp hfin

theorem returns_withLock (hp : Returns p) : Returns (withLock p) :=
  returns_call.bind fun _ => returns_call.bind fun _ =>
    ((returns_call.bind fun _ => hp).tryFinally returns_call).bind fun _ => returns_call.bind fun _ => returns_pure

theorem returns_withSignature {s : Signature} (hp : Returns p) : Returns (withSignature s p) :=
  returns_call.bind fun _ => returns_call.bind fun _ => hp.tryFinally returns_call

theorem returns_withKem {k : KeyEncapsulation} (hp : Returns p) : Returns (withKem k p) :=
  returns_call.bind fun _ => returns_call.bind fun _ => hp.tryFinally returns_call

/-- A block that returns the result of one request. -/
theorem returns_result {q : Req} : Returns (do let a ← call q; call (.boundary .body); return a) :=
  returns_call.bind fun _ => returns_call.bind fun _ => returns_pure

/-- A block that returns the results of two. -/
theorem returns_results {q q' : Req} : Returns
    (do let a ← call q; call (.boundary .body); let b ← call q'; call (.boundary .body); return (a, b)) :=
  returns_call.bind fun _ => returns_call.bind fun _ => returns_call.bind fun _ => returns_call.bind fun _ =>
    returns_pure

/-- A check that passes. -/
theorem returns_requireBytes {fn arg : Str} {b : Bytes} {length : Option Nat} (h : ∀ n ∈ length, b.length = n)
    {f : BytesObject → Py α} (hf : Returns (f (.ofBytes b))) :
    Returns (ofExcept (requireBytes fn arg (.ofBytes b) length) >>= f) := by
  rw [requireBytes_ofBytes h]
  exact hf

theorem returns_sign (l : MlDsa.Level) (k : Sized l.sizes.secretKey) (m : Bytes) (hedged : Bool) :
    Returns ((MlDsa.ofLevel l).sign (.ofBytes k.1) (.ofBytes m) hedged) := by
  refine returns_requireBytes (fun _ hn => k.2.trans (Option.some.inj hn)) ?_
  refine returns_requireBytes (fun _ h => by cases h) ?_
  cases hedged with
  | true => exact returns_withLock (returns_withSignature returns_result)
  | false =>
    refine returns_withLock (returns_call.bind fun _ => returns_call.bind fun _ => ?_)
    exact (returns_withSignature returns_result).tryFinally
      (returns_call.bind fun _ => returns_call.bind fun _ => returns_call)

theorem returns_encapsulate (l : MlKem.Level) (p : Sized l.sizes.publicKey) :
    Returns ((MlKem.ofLevel l).encapsulate (.ofBytes p.1)) :=
  returns_requireBytes (fun _ hn => p.2.trans (Option.some.inj hn)) (returns_withLock (returns_withKem returns_result))

theorem returns_decapsulate (l : MlKem.Level) (d : Sized l.sizes.secretKey) (c : Sized l.sizes.ciphertext) :
    Returns ((MlKem.ofLevel l).decapsulate (.ofBytes d.1) (.ofBytes c.1)) :=
  returns_requireBytes (fun _ hn => d.2.trans (Option.some.inj hn))
    (returns_requireBytes (fun _ hn => c.2.trans (Option.some.inj hn)) (returns_withKem returns_result))

/-- What a call ends with. -/
theorem wp_outcome {f : α → Returned} (hp : Returns p) :
    (Except.map f <$> p.run).wp fulfils (fun r _ => ∃ v, r = .ok v) () := by
  rw [map_eq_pure_bind, Prog.wp_bind]
  refine Prog.wp_mono (hp ()) fun r _ hr => ?_
  cases r with
  | ok a => exact ⟨f a, rfl⟩
  | error e => exact hr.elim

end Returns

/-- **Every such call** returns where nothing raises. -/
theorem wp_call {c : Call} (hc : c.Exact) : c.outcome.wp fulfils (fun r _ => ∃ v, r = .ok v) () := by
  cases c with
  | keygen self => exact wp_outcome (returns_withLock (returns_withSignature returns_results))
  | sign self secretKey message hedged =>
    obtain ⟨l, k, m, rfl, rfl, rfl⟩ := hc
    exact wp_outcome (returns_sign l k m hedged)
  | verify self publicKey message signature => exact hc.elim
  | kemKeygen self => exact wp_outcome (returns_withLock (returns_withKem returns_results))
  | encapsulate self publicKey =>
    obtain ⟨l, p, rfl, rfl⟩ := hc
    exact wp_outcome (returns_encapsulate l p)
  | decapsulate self secretKey ciphertext =>
    obtain ⟨l, d, c, rfl, rfl, rfl⟩ := hc
    exact wp_outcome (returns_decapsulate l d c)

section Unfailing

variable (S : MlDsa.Standard) (K : MlKem.Standard)

/-- liboqs-python where nothing raises. -/
def unfailing : Library Req (Refusable Exn Res) Secret := (liboqsPython S K).restrict Fulfilled

variable {S K} {sys : Bytes → Prop}

/-- Random bytes for a request. -/
theorem exists_drawable (hsys : Supplies sys) (c : Call) {q : Req} (hq : q.draws) (n : Nat) :
    ∃ b : Sized n, (guardOf sys).Drawable c q [b.1] := by
  have hfills (n : Nat) : fills elsewhere (.replicate n 0) (.replicate n 0) :=
    ⟨none, nofun, by simp [memset]⟩
  obtain ⟨b, hb⟩ := hsys.exists_emits hfills n (c.want.getD .system)
  refine ⟨b, fun bs hbs => ?_⟩
  obtain rfl := List.mem_singleton.mp hbs
  exact ⟨hq, hb⟩

section Answers

variable {c : Call} {secret : Secret}

theorem mayAnswer_ok {landing : Point → Prop} {q : Req} {a : Res q} : q.mayAnswer landing (.ok a) := by
  cases q <;> trivial

/-- A result without a draw. -/
theorem solo_step {q : Req} {a : Res q} {secret' : Secret} (h : answers S K secret [] q (.ok a) secret') :
    ((guardOf sys).solo (unfailing S K) c).step secret q (.ok a) secret' :=
  ⟨mayAnswer_ok, [], nofun, ⟨a, rfl⟩, h⟩

/-- A result with one. -/
theorem solo_step_draw {q : Req} {a : Res q} {secret' : Secret} {n : Nat} {x : Sized n}
    (hx : (guardOf sys).Drawable c q [x.1]) (h : answers S K secret [x.1] q (.ok a) secret') :
    ((guardOf sys).solo (unfailing S K) c).step secret q (.ok a) secret' :=
  ⟨mayAnswer_ok, [x.1], hx, ⟨a, rfl⟩, h⟩

theorem exists_generateKeypair (hsys : Supplies sys) (s : Signature) :
    ∃ a secret', ((guardOf sys).solo (unfailing S K) c).step secret (.generateKeypair s) a secret' := by
  by_cases hl : ∃ l : MlDsa.Level, s.alg = str l.oqsName
  · obtain ⟨l, hl⟩ := hl
    obtain ⟨ξ, hξ⟩ := exists_drawable hsys c (q := .generateKeypair s) trivial 32
    refine ⟨.ok (S.keygen l ξ).1.1, some (S.keygen l ξ).2.1, solo_step_draw hξ fun l' hl' => ?_⟩
    obtain rfl := MlDsa.Level.oqsName_injective (str_injective (hl.symm.trans hl'))
    exact ⟨ξ, List.append_nil _, rfl, rfl⟩
  · exact ⟨.ok [], secret, solo_step fun l h => absurd ⟨l, h⟩ hl⟩

theorem exists_sign (hsys : Supplies sys) (s : Signature) (m : BytesObject) :
    ∃ a secret', ((guardOf sys).solo (unfailing S K) c).step secret (.sign s m) a secret' := by
  by_cases hl : ∃ (l : MlDsa.Level) (k : Sized l.sizes.secretKey) (msg : Bytes),
      s.alg = str l.oqsName ∧ s.secretKey = some (.ofBytes k.1) ∧ m = .ofBytes msg
  · obtain ⟨l, k, msg, hl, hk, rfl⟩ := hl
    obtain ⟨rnd, hrnd⟩ := exists_drawable hsys c (q := .sign s (.ofBytes msg)) trivial 32
    refine ⟨.ok (S.sign l k msg rnd).1, secret, solo_step_draw hrnd ⟨rfl, fun l' hl' k' msg' hk' hm => ?_⟩⟩
    obtain rfl := MlDsa.Level.oqsName_injective (str_injective (hl.symm.trans hl'))
    obtain rfl := Subtype.ext (arg_ofBytes_injective (Option.some.inj (hk.symm.trans hk')))
    obtain rfl := arg_ofBytes_injective hm
    exact ⟨rnd, List.append_nil _, rfl⟩
  · exact ⟨.ok [], secret, solo_step ⟨rfl, fun l h k msg hk hm => absurd ⟨l, k, msg, h, hk, hm⟩ hl⟩⟩

theorem exists_kemGenerateKeypair (hsys : Supplies sys) (k : KeyEncapsulation) :
    ∃ a secret', ((guardOf sys).solo (unfailing S K) c).step secret (.kemGenerateKeypair k) a secret' := by
  by_cases hl : ∃ l : MlKem.Level, k.alg = str l.oqsName
  · obtain ⟨l, hl⟩ := hl
    obtain ⟨seed, hseed⟩ := exists_drawable hsys c (q := .kemGenerateKeypair k) trivial 64
    refine ⟨.ok (K.keygen l seed).1.1, some (K.keygen l seed).2.1, solo_step_draw hseed fun l' hl' => ?_⟩
    obtain rfl := MlKem.Level.oqsName_injective (str_injective (hl.symm.trans hl'))
    exact ⟨seed, List.append_nil _, rfl, rfl⟩
  · exact ⟨.ok [], secret, solo_step fun l h => absurd ⟨l, h⟩ hl⟩

theorem exists_encapSecret (hsys : Supplies sys) (k : KeyEncapsulation) (pk : BytesObject) :
    ∃ a secret', ((guardOf sys).solo (unfailing S K) c).step secret (.encapSecret k pk) a secret' := by
  by_cases hl : ∃ (l : MlKem.Level) (p : Sized l.sizes.publicKey), k.alg = str l.oqsName ∧ pk = .ofBytes p.1
  · obtain ⟨l, p, hl, rfl⟩ := hl
    obtain ⟨coin, hcoin⟩ := exists_drawable hsys c (q := .encapSecret k (.ofBytes p.1)) trivial 32
    refine ⟨.ok ((K.encaps l p coin).1.1, (K.encaps l p coin).2.1), secret,
      solo_step_draw hcoin ⟨rfl, fun l' hl' p' hp' => ?_⟩⟩
    obtain rfl := MlKem.Level.oqsName_injective (str_injective (hl.symm.trans hl'))
    obtain rfl := Subtype.ext (arg_ofBytes_injective hp')
    exact ⟨coin, List.append_nil _, rfl⟩
  · exact ⟨.ok ([], []), secret, solo_step ⟨rfl, fun l h p hp => absurd ⟨l, p, h, hp⟩ hl⟩⟩

theorem exists_decapSecret (k : KeyEncapsulation) (ct : BytesObject) :
    ∃ a secret', ((guardOf sys).solo (unfailing S K) c).step secret (.decapSecret k ct) a secret' := by
  by_cases hl : ∃ (l : MlKem.Level) (d : Sized l.sizes.secretKey) (x : Sized l.sizes.ciphertext),
      k.alg = str l.oqsName ∧ k.secretKey = some (.ofBytes d.1) ∧ ct = .ofBytes x.1
  · obtain ⟨l, d, x, hl, hd, rfl⟩ := hl
    refine ⟨.ok (K.decaps l d x).1, secret, solo_step ⟨rfl, fun l' hl' d' x' hd' hx' => ?_⟩⟩
    obtain rfl := MlKem.Level.oqsName_injective (str_injective (hl.symm.trans hl'))
    obtain rfl := Subtype.ext (arg_ofBytes_injective (Option.some.inj (hd.symm.trans hd')))
    obtain rfl := Subtype.ext (arg_ofBytes_injective hx')
    rfl
  · exact ⟨.ok [], secret, solo_step ⟨rfl, fun l h d x hd hx => absurd ⟨l, d, x, h, hd, hx⟩ hl⟩⟩

end Answers

/-- An unfailing liboqs-python always has a result. -/
theorem solo_total (hsys : Supplies sys) (c : Call) : ((guardOf sys).solo (unfailing S K) c).Total := by
  intro secret q
  cases q with
  | generateKeypair s => exact exists_generateKeypair hsys s
  | exportSecretKey s => exact ⟨.ok (secret.getD []), secret, solo_step ⟨rfl, fun k hk => hk ▸ rfl⟩⟩
  | sign s m => exact exists_sign hsys s m
  | verify s m sig pk => exact ⟨.ok true, secret, solo_step rfl⟩
  | kemGenerateKeypair k => exact exists_kemGenerateKeypair hsys k
  | kemExportSecretKey k => exact ⟨.ok (secret.getD []), secret, solo_step ⟨rfl, fun k hk => hk ▸ rfl⟩⟩
  | encapSecret k pk => exact exists_encapSecret hsys k pk
  | decapSecret k ct => exact exists_decapSecret k ct
  | _ => exact ⟨.ok (), secret, solo_step rfl⟩

theorem ok_of_alone {c : Call} (hc : c.Exact) {r : Except Exn Returned} {secret : Secret}
    (h : Exec ((guardOf sys).alone (unfailing S K) c) c.outcome none r secret) : ∃ v, r = .ok v := by
  obtain ⟨-, hr⟩ := h.wp (L := fulfils) (fun _ _ _ _ ⟨_, _, _, hfulfilled, _⟩ => hfulfilled) (wp_call hc)
  exact hr

variable (S K sys) in
/-- A call can return, and does wherever it ends and nothing raises. -/
def Succeeds (c : Call) : Prop :=
  (∃ v, Ran S K sys c v) ∧
  ∀ (T : Type) [DecidableEq T] (todo : T → List Call)
    (x : Guard.History Req (Refusable Exn Res) Rng Call (Except Exn Returned) Secret T),
    (guardOf sys).Happens (unfailing S K) Call.outcome todo x → ∀ e ∈ x.ended, e.call = c → ∃ v, e.result = .ok v

/-- **Success**: over a liboqs-python that follows the standards and where nothing raises, every call of an object of a
level, with keys and ciphertexts of its sizes, returns. -/
theorem succeeds (hsys : Supplies sys) {c : Call} (hc : c.Exact) : Succeeds S K sys c := by
  have hok (T : Type) [DecidableEq T] (todo : T → List Call)
      (x : Guard.History Req (Refusable Exn Res) Rng Call (Except Exn Returned) Secret T)
      (hx : (guardOf sys).Happens (unfailing S K) Call.outcome todo x) :
      ∀ e ∈ x.ended, e.call = c → ∃ v, e.result = .ok v := by
    rintro e he rfl
    exact ok_of_alone hc (Guard.exec_of_ended (guardedOf sys) hx he)
  refine ⟨?_, hok⟩
  obtain ⟨r, secret, hexec⟩ := (solo_total (S := S) (K := K) hsys c).exists_exec c.outcome none
  obtain ⟨x, hx, he⟩ := Guard.happens_of_exec (guardedOf sys) hexec
  obtain ⟨v, rfl⟩ := hok Unit _ x hx _ he rfl
  exact ⟨v, Unit, inferInstance, _, x, secret, hx.of_restrict, he⟩

end Unfailing

end Python

/-! ## Both bindings -/

/-- **What the calls over liboqs give**: however many threads run whatever calls of the C binding, or of the Python
binding, every call that has ended well has given what the standards say. And every call that is rightly asked can end
well, and does wherever nothing fails, if the system has as many random bytes as one asks for. -/
theorem calls_meet (S : MlDsa.Standard) (K : MlKem.Standard) (sys : Bytes → Prop) :
    (∀ c b, C.Ran S K sys c b → C.Meets S K sys c b) ∧
    (∀ c v, Python.Ran S K sys c v → Python.Meets S K sys c v) ∧
    (Supplies sys → (∀ c : C.Call, c.Exact → C.Succeeds S K sys c) ∧
      ∀ c : Python.Call, c.Exact → Python.Succeeds S K sys c) :=
  ⟨fun _ _ h => h.meets, fun _ _ h => h.meets, fun hsys =>
    ⟨fun _ hc => C.succeeds hsys hc, fun _ hc => Python.succeeds hsys hc⟩⟩

/-- `calls_meet` for a key generation in each binding. -/
theorem calls_meet_keygens :
    (∃ b, C.Meets .ones .coins (fun _ => True) (.keygen (C.sigAlg .l44)) b ∧ b.len .pkLen = some 1312) ∧
    (∃ pk sk, Python.Meets .ones .coins (fun _ => True) (.keygen (.ofLevel .l44)) (.pair pk sk)) ∧
    C.Succeeds .ones .coins (fun _ => True) (.keygen (C.sigAlg .l44)) ∧
    Python.Succeeds .ones .coins (fun _ => True) (.keygen (.ofLevel .l44)) := by
  obtain ⟨hmeets, hmeets', hsucceeds⟩ := calls_meet .ones .coins fun _ => True
  have hc : C.Succeeds _ _ _ (.keygen (C.sigAlg .l44)) := (hsucceeds supplies_any).1 _ ⟨.l44, rfl⟩
  have hp : Python.Succeeds _ _ _ (.keygen (.ofLevel .l44)) := (hsucceeds supplies_any).2 _ ⟨.l44, rfl⟩
  obtain ⟨b, hb⟩ := hc.1
  obtain ⟨v, hv⟩ := hp.1
  obtain ⟨ξ, -, -, -, hlen, -⟩ := hmeets _ b hb .l44 rfl
  obtain ⟨ξ', -, rfl⟩ := hmeets' _ v hv .l44 rfl
  exact ⟨⟨b, hmeets _ b hb, hlen⟩, ⟨_, _, hmeets' _ _ hv⟩, hc, hp⟩

end QorechainPqc
