import QorechainPqc.Keys.Reference
import QorechainPqc.Lib.Atomic
import QorechainPqc.Liboqs.Isolation

/-!
# Keys and signatures in the bindings over liboqs

Threads that run calls of the C binding, or of the Python binding, over a liboqs that follows the standards: the random
bytes that it draws are zeros or bytes of the system, whichever is selected at that moment. `calls_meet` says what the
calls give their callers.
-/

namespace QorechainPqc

open Program

/-! ## Random bytes -/

/-- Bytes that were put together from draws of the system. -/
def FromSystem (sys : Bytes → Prop) (b : Bytes) : Prop := ∃ bss : List Bytes, (∀ bs ∈ bss, sys bs) ∧ bss.flatten = b

/-- Random bytes as a call wants them. -/
def Wanted (sys : Bytes → Prop) (want : Option Rng) (b : Bytes) : Prop :=
  (want = some .zero → ∀ x ∈ b, x = 0) ∧ (want = some .system → FromSystem sys b)

section Wanted

variable {sys : Bytes → Prop} {Q C : Type} {A : Q → Type} {G : Guard Q A Rng C} {c : C} {q : Q} {bss : List Bytes}

/-- The bytes drawn for a question of a call that follows the discipline, where the zero filler gives zeros. -/
theorem wanted_flatten {fills : Bytes → Bytes → Prop} (hG : G.emits = Rng.emits sys fills)
    (hfills : ∀ out bs, fills out bs → ∀ x ∈ bs, x = 0) (h : G.Proper c q bss) :
    Wanted sys (G.want c) bss.flatten := by
  constructor
  · intro hw x hx
    obtain ⟨bs, hbs, hxs⟩ := List.mem_flatten.mp hx
    have hemits := (h bs hbs).2 .zero hw
    rw [hG] at hemits
    obtain ⟨out, hout⟩ := hemits
    exact hfills out bs hout x hxs
  · intro hw
    refine ⟨bss, fun bs hbs => ?_, rfl⟩
    have hemits := (h bs hbs).2 .system hw
    rw [hG] at hemits
    exact hemits

end Wanted

namespace C

/-! ## The C binding -/

/-- What the blocks and the lengths of a call hold. -/
structure Buffers where
  pk : Option Bytes
  sk : Option Bytes
  sig : Option Bytes
  ct : Option Bytes
  ss : Option Bytes
  len : Out → Option Nat

/-- Nothing is written. -/
def Buffers.empty : Buffers := ⟨none, none, none, none, none, fun _ => none⟩

/-- The name of a set in liboqs, as a C string. -/
def sigAlg (l : MlDsa.Level) : Bytes := Text.utf8 l.oqsName.toList

/-- The name of a set in liboqs, as a C string. -/
def kemAlg (l : MlKem.Level) : Bytes := Text.utf8 l.oqsName.toList

variable (S : MlDsa.Standard) (K : MlKem.Standard)

/-- What liboqs answers and writes, for the sets of the standards: where it reports success, it has followed them. -/
def answers (b : Buffers) (bss : List Bytes) : ∀ q, Ans q → Buffers → Prop
  | .sigNew alg, r, b' => b' = b ∧ ∀ l, alg = sigAlg l → ∀ s ∈ r, s = .ofLevel l
  | .kemNew alg, r, b' => b' = b ∧ ∀ l, alg = kemAlg l → ∀ k ∈ r, k = .ofLevel l
  | .keypair s, success, b' => success = true → ∀ l, s = .ofLevel l → ∃ ξ : Sized 32, bss.flatten = ξ.1 ∧
      b' = { b with pk := some (S.keygen l ξ).1.1, sk := some (S.keygen l ξ).2.1 }
  | .sign s msg sk, r, b' => r.1 = true → ∀ l, s = .ofLevel l → ∀ k : Sized l.sizes.secretKey, sk = k.1 →
      ∃ rnd : Sized 32, bss.flatten = rnd.1 ∧ r.2 = some l.sizes.signature ∧
        b' = { b with sig := some (S.sign l k msg rnd).1 }
  | .encaps k pk, success, b' => success = true → ∀ l, k = .ofLevel l → ∀ p : Sized l.sizes.publicKey, pk = p.1 →
      ∃ coin : Sized 32, bss.flatten = coin.1 ∧
        b' = { b with ct := some (K.encaps l p coin).1.1, ss := some (K.encaps l p coin).2.1 }
  | .decaps k ct sk, success, b' => success = true → ∀ l, k = .ofLevel l →
      ∀ (c : Sized l.sizes.ciphertext) (d : Sized l.sizes.secretKey), ct = c.1 → sk = d.1 →
        b' = { b with ss := some (K.decaps l d c).1 }
  | .storeLen o n, _, b' => b' = { b with len := Function.update b.len o (some n) }
  | _, _, b' => b' = b

/-- liboqs. -/
def liboqs : Library Req Ans Buffers := ⟨.empty, fun b q bss a b' => answers S K b bss q a b'⟩

/-- The discipline of the C binding, with the bytes of the system. -/
def guardOf (sys : Bytes → Prop) : Guard Req Ans Rng Call := { guard with emits := Rng.emits sys fills }

theorem guardedOf (sys : Bytes → Prop) (c : Call) : (guardOf sys).Guarded c c.prog := guarded c

/-- What a call gives its caller where it reports success: the keys and ciphertexts that it has got are of the sizes of
the set. -/
def Meets (sys : Bytes → Prop) : Call → Buffers → Prop
  | .keygen alg, b => ∀ l, alg = sigAlg l → ∃ ξ, FromSystem sys ξ.1 ∧ b.pk = some (S.keygen l ξ).1.1 ∧
      b.sk = some (S.keygen l ξ).2.1 ∧ b.len .pkLen = some l.sizes.publicKey ∧ b.len .skLen = some l.sizes.secretKey
  | .sign alg sk msg, b => ∀ l, alg = sigAlg l → ∃ k : Sized l.sizes.secretKey, sk = k.1 ∧
      b.sig = some (S.signDeterministic l k msg).1 ∧ b.len .sigLen = some l.sizes.signature
  | .signHedged alg sk msg, b => ∀ l, alg = sigAlg l → ∃ (k : Sized l.sizes.secretKey) (rnd : Sized 32), sk = k.1 ∧
      FromSystem sys rnd.1 ∧ b.sig = some (S.sign l k msg rnd).1 ∧ b.len .sigLen = some l.sizes.signature
  | .verify _ _ _ _, _ => True
  | .decapsulate alg sk ct, b => ∀ l, alg = kemAlg l → ∃ (d : Sized l.sizes.secretKey) (c : Sized l.sizes.ciphertext),
      sk = d.1 ∧ ct = c.1 ∧ b.ss = some (K.decaps l d c).1 ∧ b.len .ssLen = some 32
  | .encapsulate alg pk, b => ∀ l, alg = kemAlg l → ∃ (p : Sized l.sizes.publicKey) (coin : Sized 32), pk = p.1 ∧
      FromSystem sys coin.1 ∧ b.ct = some (K.encaps l p coin).1.1 ∧ b.ss = some (K.encaps l p coin).2.1 ∧
        b.len .ctLen = some l.sizes.ciphertext ∧ b.len .ssLen = some 32

/-! ### One request -/

section Requests

variable {S K} {sys : Bytes → Prop} {c : Call} {b : Buffers}

/-- The machine that a call runs on. -/
abbrev machine (S : MlDsa.Standard) (K : MlKem.Standard) (sys : Bytes → Prop) (c : Call) : Machine Req Ans Buffers :=
  (guardOf sys).alone (liboqs S K) c

theorem machine_total : (machine S K sys c).Total := by
  refine Guard.alone_total (fun b q => ?_) c
  cases q with
  | sigNew alg => exact ⟨none, b, trivial, rfl, nofun⟩
  | kemNew alg => exact ⟨none, b, trivial, rfl, nofun⟩
  | malloc n => exact ⟨none, b, trivial, rfl⟩
  | keypair s => exact ⟨false, b, trivial, nofun⟩
  | sign s msg sk => exact ⟨(false, none), b, trivial, nofun⟩
  | verify s msg sig pk => exact ⟨false, b, trivial, rfl⟩
  | encaps k pk => exact ⟨false, b, trivial, nofun⟩
  | decaps k ct sk => exact ⟨false, b, trivial, nofun⟩
  | storeLen o n => exact ⟨(), _, trivial, rfl⟩
  | _ => exact ⟨(), b, trivial, rfl⟩

/-- An answer of liboqs, with the bytes drawn for it. -/
@[simp] theorem machine_step {q : Req} {a : Ans q} {b' : Buffers} : (machine S K sys c).step b q a b' ↔
    ∃ bss, (guardOf sys).Proper c q bss ∧ answers S K b bss q a b' :=
  iff_of_eq (true_and _)

@[simp] theorem exists_proper {q : Req} : ∃ bss, (guardOf sys).Proper c q bss := ⟨[], Guard.proper_nil q⟩

theorem wanted_of_proper {q : Req} {bss : List Bytes} (h : (guardOf sys).Proper c q bss) :
    Wanted sys c.want bss.flatten :=
  wanted_flatten (G := guardOf sys) rfl (fun _ _ h => zero_of_fills h) h

@[simp] theorem rc_eq_ok {success : Bool} : rc success = qpqcOk ↔ success = true := by cases success <;> decide

@[simp] theorem err_ne_ok : qpqcErr ≠ qpqcOk := by decide

end Requests

/-! ### The functions -/

section Functions

variable {S K} {sys : Bytes → Prop} {c : Call} {b : Buffers} (alg pk sk msg ct : Bytes)

/-- A sign call: where it succeeds, the buffer holds a signature and its length. -/
theorem twp_oqsSigSign {s : OqsSig} {post : Bool → Buffers → Prop} (hf : ∀ b', post false b')
    (ht : ∀ b', (∀ l, s = .ofLevel l → ∀ k : Sized l.sizes.secretKey, sk = k.1 → ∃ rnd : Sized 32,
      Wanted sys c.want rnd.1 ∧ b'.sig = some (S.sign l k msg rnd).1 ∧ b'.len .sigLen = some l.sizes.signature) →
        post true b') : (oqsSigSign s msg sk).twp (machine S K sys c) post b := by
  unfold oqsSigSign
  simp [Prog.twp_request_of_total machine_total, call, answers, Option.forall, hf, -Subtype.forall, -Subtype.exists]
  constructor
  · intro b' bss hbss hanswer
    refine ht b' fun l hl k hk => ?_
    obtain ⟨-, -, ⟨⟩⟩ := hanswer l hl k hk
  · intro n b' bss hbss hanswer
    refine ht _ fun l hl k hk => ?_
    obtain ⟨rnd, hrnd, rfl, rfl⟩ := hanswer l hl k hk
    have hwanted : Wanted sys c.want bss.flatten := wanted_of_proper hbss
    rw [hrnd] at hwanted
    exact ⟨rnd, hwanted, rfl, by simp⟩

theorem meets_keygen : (qpqcMldsaKeygen alg).twp (machine S K sys (.keygen alg))
    (fun r b => r = qpqcOk → Meets S K sys (.keygen alg) b) .empty := by
  unfold qpqcMldsaKeygen
  simp [Prog.twp_request_of_total machine_total, call, Option.forall, answers, -Subtype.forall, -Subtype.exists]
  intro s hs b' bss hbss hanswer l hl
  obtain rfl := hs l hl
  obtain ⟨ξ, hξ, rfl⟩ := hanswer l rfl
  have hwanted : Wanted sys (some .system) bss.flatten := wanted_of_proper hbss
  rw [hξ] at hwanted
  exact ⟨ξ, hwanted.2 rfl, rfl, rfl, by simp [OqsSig.ofLevel], by simp [OqsSig.ofLevel]⟩

theorem meets_sign : (qpqcMldsaSign alg sk msg).twp (machine S K sys (.sign alg sk msg))
    (fun r b => r = qpqcOk → Meets S K sys (.sign alg sk msg) b) .empty := by
  unfold qpqcMldsaSign
  simp [Prog.twp_request_of_total machine_total, call, Option.forall, answers, -Subtype.forall, -Subtype.exists]
  intro s hs hlen
  refine twp_oqsSigSign sk msg (fun b' => ?_) fun b' hsigned => ?_
  · simp [Prog.twp_request_of_total machine_total, answers]
  · simp [Prog.twp_request_of_total machine_total, answers]
    intro l hl
    obtain rfl := hs l hl
    obtain ⟨rnd, hwanted, hsig, hn⟩ := hsigned l rfl ⟨sk, hlen⟩ rfl
    -- all the random bytes of the signature are zeros
    rw [Sized.eq_zeros (hwanted.1 rfl)] at hsig
    exact ⟨⟨sk, hlen⟩, rfl, hsig, hn⟩

theorem meets_signHedged : (qpqcMldsaSignHedged alg sk msg).twp (machine S K sys (.signHedged alg sk msg))
    (fun r b => r = qpqcOk → Meets S K sys (.signHedged alg sk msg) b) .empty := by
  unfold qpqcMldsaSignHedged
  simp [Prog.twp_request_of_total machine_total, call, Option.forall, answers, -Subtype.forall, -Subtype.exists]
  intro s hs hlen
  refine twp_oqsSigSign sk msg (fun b' => ?_) fun b' hsigned => ?_
  · simp [Prog.twp_request_of_total machine_total, answers]
  · simp [Prog.twp_request_of_total machine_total, answers]
    intro l hl
    obtain rfl := hs l hl
    obtain ⟨rnd, hwanted, hsig, hn⟩ := hsigned l rfl ⟨sk, hlen⟩ rfl
    exact ⟨⟨sk, hlen⟩, rnd, rfl, hwanted.2 rfl, hsig, hn⟩

theorem meets_encapsulate : (qpqcMlkemEncapsulate alg pk).twp (machine S K sys (.encapsulate alg pk))
    (fun r b => r = qpqcOk → Meets S K sys (.encapsulate alg pk) b) .empty := by
  unfold qpqcMlkemEncapsulate
  simp [Prog.twp_request_of_total machine_total, call, Option.forall, answers, -Subtype.forall, -Subtype.exists]
  intro k hk hlen b' bss hbss hanswer l hl
  obtain rfl := hk l hl
  obtain ⟨coin, hcoin, rfl⟩ := hanswer l rfl ⟨pk, hlen⟩ rfl
  have hwanted : Wanted sys (some .system) bss.flatten := wanted_of_proper hbss
  rw [hcoin] at hwanted
  exact ⟨⟨pk, hlen⟩, coin, rfl, hwanted.2 rfl, rfl, rfl, by simp [OqsKem.ofLevel],
    by simp [OqsKem.ofLevel, l.sharedSecret]⟩

theorem meets_decapsulate : (qpqcMlkemDecapsulate alg sk ct).twp (machine S K sys (.decapsulate alg sk ct))
    (fun r b => r = qpqcOk → Meets S K sys (.decapsulate alg sk ct) b) .empty := by
  unfold qpqcMlkemDecapsulate
  simp [Prog.twp_request_of_total machine_total, call, Option.forall, answers, -Subtype.forall, -Subtype.exists]
  intro k hk hsk hct b' hanswer l hl
  obtain rfl := hk l hl
  obtain rfl := hanswer l rfl ⟨ct, hct⟩ ⟨sk, hsk⟩ rfl rfl
  exact ⟨⟨sk, hsk⟩, ⟨ct, hct⟩, rfl, rfl, rfl, by simp [OqsKem.ofLevel, l.sharedSecret]⟩

/-- **Every call** alone, where it reports success. -/
theorem meets_prog (c : Call) :
    c.prog.twp (machine S K sys c) (fun r b => r = qpqcOk → Meets S K sys c b) Buffers.empty := by
  cases c with
  | keygen alg => exact meets_keygen alg
  | sign alg sk msg => exact meets_sign alg sk msg
  | signHedged alg sk msg => exact meets_signHedged alg sk msg
  | verify alg pk msg sig =>
    have htrue (b : Buffers) : Meets S K sys (.verify alg pk msg sig) b := trivial
    simp [Call.prog, qpqcMldsaVerify, Prog.twp_request_of_total machine_total, call, Option.forall, htrue]
  | decapsulate alg sk ct => exact meets_decapsulate alg sk ct
  | encapsulate alg pk => exact meets_encapsulate alg pk

end Functions

variable {S K}

/-- In some interleaving of some threads, a call has ended with success, and left this in its buffers. -/
def Ran (S : MlDsa.Standard) (K : MlKem.Standard) (sys : Bytes → Prop) (c : Call) (b : Buffers) : Prop :=
  ∃ (T : Type) (_ : DecidableEq T) (todo : T → List Call) (x : Guard.History Req Ans Rng Call Int Buffers T),
    (guardOf sys).Happens (liboqs S K) Call.prog todo x ∧ ⟨c, qpqcOk, b⟩ ∈ x.ended

/-- A call that has ended has an execution of its own. -/
theorem Ran.exec {sys : Bytes → Prop} {c : Call} {b : Buffers} (h : Ran S K sys c b) :
    Exec (machine S K sys c) c.prog Buffers.empty qpqcOk b := by
  obtain ⟨T, _, todo, x, hx, he⟩ := h
  exact Guard.exec_of_ended (guardedOf sys) hx he

/-- **What a call gives**: however many threads run whatever calls of the C binding over a liboqs that follows the
standards, every call that has ended with success has given its caller what the standards say: a deterministic signature
the one with zeros, keys, hedged signatures and encapsulations those from bytes of the system, and all lengths. -/
theorem Ran.meets {sys : Bytes → Prop} {c : Call} {b : Buffers} (h : Ran S K sys c b) : Meets S K sys c b :=
  h.exec.twp (meets_prog c) rfl

end C

/-! ## The Python binding -/

namespace Python

/-- What a method returns. -/
inductive Returned
  | bytes (b : Bytes)
  | pair (a b : Bytes)
  | bool (v : Bool)

/-- The method that a call runs, with what it returns or raises. -/
def Call.outcome : Call → Prog Req (Refusable Exn Res) (Except Exn Returned)
  | keygen self => Except.map (fun p => .pair p.1 p.2) <$> self.keygen.run
  | sign self secretKey message hedged => Except.map .bytes <$> (self.sign secretKey message hedged).run
  | verify self publicKey message signature => Except.map .bool <$> (self.verify publicKey message signature).run
  | kemKeygen self => Except.map (fun p => .pair p.1 p.2) <$> self.keygen.run
  | encapsulate self publicKey => Except.map (fun p => .pair p.1 p.2) <$> (self.encapsulate publicKey).run
  | decapsulate self secretKey ciphertext => Except.map .bytes <$> (self.decapsulate secretKey ciphertext).run

/-- The secret key that the object of a call has generated, if it has. -/
abbrev Secret := Option Bytes

variable (S : MlDsa.Standard) (K : MlKem.Standard)

/-- What liboqs-python answers, for the sets of the standards: where it raises nothing, it has followed them. -/
def answers (secret : Secret) (bss : List Bytes) : ∀ q : Req, Except Exn (Res q) → Secret → Prop
  | .generateKeypair s, .ok pk, secret' => ∀ l : MlDsa.Level, s.alg = str l.oqsName → ∃ ξ : Sized 32,
      bss.flatten = ξ.1 ∧ pk = (S.keygen l ξ).1.1 ∧ secret' = some (S.keygen l ξ).2.1
  | .exportSecretKey _, .ok sk, secret' => secret' = secret ∧ ∀ k ∈ secret, sk = k
  | .sign s m, .ok sig, secret' => secret' = secret ∧ ∀ l : MlDsa.Level, s.alg = str l.oqsName →
      ∀ (k : Sized l.sizes.secretKey) (msg : Bytes), s.secretKey = some (.ofBytes k.1) → m = .ofBytes msg →
        ∃ rnd : Sized 32, bss.flatten = rnd.1 ∧ sig = (S.sign l k msg rnd).1
  | .kemGenerateKeypair k, .ok pk, secret' => ∀ l : MlKem.Level, k.alg = str l.oqsName → ∃ seed : Sized 64,
      bss.flatten = seed.1 ∧ pk = (K.keygen l seed).1.1 ∧ secret' = some (K.keygen l seed).2.1
  | .kemExportSecretKey _, .ok sk, secret' => secret' = secret ∧ ∀ k ∈ secret, sk = k
  | .encapSecret k pk, .ok r, secret' => secret' = secret ∧ ∀ l : MlKem.Level, k.alg = str l.oqsName →
      ∀ p : Sized l.sizes.publicKey, pk = .ofBytes p.1 → ∃ coin : Sized 32,
        bss.flatten = coin.1 ∧ r = ((K.encaps l p coin).1.1, (K.encaps l p coin).2.1)
  | .decapSecret k ct, .ok ss, secret' => secret' = secret ∧ ∀ l : MlKem.Level, k.alg = str l.oqsName →
      ∀ (d : Sized l.sizes.secretKey) (c : Sized l.sizes.ciphertext), k.secretKey = some (.ofBytes d.1) →
        ct = .ofBytes c.1 → ss = (K.decaps l d c).1
  | _, _, secret' => secret' = secret

/-- liboqs-python. -/
def liboqsPython : Library Req (Refusable Exn Res) Secret :=
  ⟨none, fun secret q bss a secret' => answers S K secret bss q a secret'⟩

/-- The discipline of the Python binding, with the bytes of the system; no asynchronous exception lands next to a
switch or in the zero filler. -/
def guardOf (sys : Bytes → Prop) : Guard Req (Refusable Exn Res) Rng Call :=
  { guard elsewhere with emits := Rng.emits sys (fills elsewhere) }

theorem guarded_map {α β : Type} {c : Call} {p : Py α} (f : Except Exn α → β)
    (h : Raising.Stays ((guard elsewhere).logic c) none p) : (guard elsewhere).Guarded c (f <$> p.run) := by
  have hp := Raising.wp_run_iff_ewp.mpr h
  unfold Guard.Guarded
  rw [map_eq_pure_bind, Prog.wp_bind]
  exact hp

theorem guardedOf (sys : Bytes → Prop) (c : Call) : (guardOf sys).Guarded c c.outcome := by
  have hg : (guard elsewhere).Guarded c c.outcome := by
    cases c with
    | keygen self => exact guarded_map _ (stays_keygen self)
    | sign self secretKey message hedged =>
      exact guarded_map _ (stays_sign (fun h => h.1.1 rfl) (fun h => h.1.2 rfl) self secretKey message hedged)
    | verify self publicKey message signature => exact guarded_map _ (stays_verify self publicKey message signature)
    | kemKeygen self => exact guarded_map _ (stays_kemKeygen self)
    | encapsulate self publicKey => exact guarded_map _ (stays_encapsulate self publicKey)
    | decapsulate self secretKey ciphertext => exact guarded_map _ (stays_decapsulate self secretKey ciphertext)
  exact hg

/-- What a call returns where it raises nothing: the keys and ciphertexts that it has got are of the sizes of the
level. -/
def Meets (sys : Bytes → Prop) : Call → Returned → Prop
  | .keygen self, v => ∀ l, self = .ofLevel l → ∃ ξ, FromSystem sys ξ.1 ∧
      v = .pair (S.keygen l ξ).1.1 (S.keygen l ξ).2.1
  | .sign self secretKey message hedged, v => ∀ l sk m, self = .ofLevel l → secretKey = .ofBytes sk →
      message = .ofBytes m → ∃ (k : Sized l.sizes.secretKey) (rnd : Sized 32), sk = k.1 ∧
        (if hedged = true then FromSystem sys rnd.1 else rnd = .zeros 32) ∧ v = .bytes (S.sign l k m rnd).1
  | .verify _ _ _ _, _ => True
  | .kemKeygen self, v => ∀ l, self = .ofLevel l → ∃ seed, FromSystem sys seed.1 ∧
      v = .pair (K.keygen l seed).1.1 (K.keygen l seed).2.1
  | .encapsulate self publicKey, v => ∀ l pk, self = .ofLevel l → publicKey = .ofBytes pk →
      ∃ (p : Sized l.sizes.publicKey) (coin : Sized 32), pk = p.1 ∧ FromSystem sys coin.1 ∧
        v = .pair (K.encaps l p coin).1.1 (K.encaps l p coin).2.1
  | .decapsulate self secretKey ciphertext, v => ∀ l sk ct, self = .ofLevel l → secretKey = .ofBytes sk →
      ciphertext = .ofBytes ct → ∃ (d : Sized l.sizes.secretKey) (c : Sized l.sizes.ciphertext), sk = d.1 ∧ ct = c.1 ∧
        v = .bytes (K.decaps l d c).1

section Methods

variable {S K} {sys : Bytes → Prop} {c : Call} {secret : Secret}

/-- The machine that a call runs on. -/
abbrev machine (S : MlDsa.Standard) (K : MlKem.Standard) (sys : Bytes → Prop) (c : Call) :
    Machine Req (Refusable Exn Res) Secret :=
  (guardOf sys).alone (liboqsPython S K) c

theorem machine_total : (machine S K sys c).Total := by
  refine Guard.alone_total (fun secret q => ?_) c
  cases q with
  | boundary p => exact ⟨.ok (), secret, trivial, rfl⟩
  | lockRelease => exact ⟨.ok (), secret, trivial, rfl⟩
  | switchSystem => exact ⟨.ok (), secret, trivial, rfl⟩
  | _ => exact ⟨.error .exception, secret, trivial, rfl⟩

/-- An answer of liboqs-python, with the bytes drawn for it. -/
@[simp] theorem machine_step {q : Req} {a : Except Exn (Res q)} {secret' : Secret} :
    (machine S K sys c).step secret q a secret' ↔
      Req.mayAnswer elsewhere q a ∧ ∃ bss, (guardOf sys).Proper c q bss ∧ answers S K secret bss q a secret' := Iff.rfl

@[simp] theorem exists_proper {q : Req} : ∃ bss, (guardOf sys).Proper c q bss := ⟨[], Guard.proper_nil q⟩

theorem wanted_of_proper {q : Req} {bss : List Bytes} (h : (guardOf sys).Proper c q bss) :
    Wanted sys c.want bss.flatten :=
  wanted_flatten (G := guardOf sys) rfl (fun _ _ h => zero_of_fills (fun hp => hp.2 rfl) h) h

theorem meets_keygen (self : MlDsa) : self.keygen.etwp (machine S K sys (.keygen self))
    (fun p _ => Meets S K sys (.keygen self) (.pair p.1 p.2)) (fun _ _ => True) none := by
  unfold MlDsa.keygen withLock withSignature
  simp [Raising.etwp_ask_of_total machine_total, call, answers, Req.mayAnswer, -Subtype.forall, -Subtype.exists]
  rintro pk secret bss hbss hpair sk hexport l rfl
  obtain ⟨ξ, hξ, rfl, hsecret⟩ := hpair l rfl
  obtain rfl := hexport _ hsecret
  have hwanted : Wanted sys (some .system) bss.flatten := wanted_of_proper hbss
  rw [hξ] at hwanted
  exact ⟨ξ, hwanted.2 rfl, rfl⟩

/-- The signing block: what it returns is a signature with the bytes that the call wants. -/
theorem etwp_signWith {s : Signature} {m : Bytes} :
    (MlDsa.signWith s (.ofBytes m)).etwp (machine S K sys c)
      (fun sig _ => ∀ l : MlDsa.Level, s.alg = str l.oqsName → ∀ k : Sized l.sizes.secretKey,
        s.secretKey = some (.ofBytes k.1) → ∃ rnd : Sized 32, Wanted sys c.want rnd.1 ∧ sig = (S.sign l k m rnd).1)
      (fun _ _ => True) secret := by
  unfold MlDsa.signWith withSignature
  simp [Raising.etwp_ask_of_total machine_total, call, answers, Req.mayAnswer, -Subtype.forall, -Subtype.exists]
  rintro sig secret bss hbss rfl hsig l hl k hk
  obtain ⟨rnd, hrnd, rfl⟩ := hsig l hl k m hk rfl
  have hwanted : Wanted sys c.want bss.flatten := wanted_of_proper hbss
  rw [hrnd] at hwanted
  exact ⟨rnd, hwanted, rfl⟩

/-- `_require_bytes` of a byte string, at the head of a method: the size is right, or nothing is returned. -/
theorem etwp_requireBytes {fn arg : Str} {b : Bytes} {n : Nat} {α : Type} {p : BytesObject → Py α}
    {post : α → Secret → Prop}
    (h : b.length = n → (p (.ofBytes b)).etwp (machine S K sys c) post (fun _ _ => True) secret) :
    (ofExcept (requireBytes fn arg (.ofBytes b) (some n)) >>= p).etwp (machine S K sys c) post (fun _ _ => True)
      secret := by
  by_cases hn : b.length = n
  · rw [requireBytes_ofBytes fun m hm => hn.trans (Option.some.inj hm)]
    exact h hn
  · have herror : ∃ text, requireBytes fn arg (.ofBytes b) (some n) = .error (.valueError text) := ⟨_, if_pos hn⟩
    obtain ⟨text, herror⟩ := herror
    rw [herror]
    trivial

/-- **`sign`** of byte strings: the random bytes are zeros unless it is hedged. -/
theorem etwp_sign_ofBytes (l : MlDsa.Level) (sk m : Bytes) (hedged : Bool)
    (hw : c.want = some (if hedged then .system else .zero)) :
    ((MlDsa.ofLevel l).sign (.ofBytes sk) (.ofBytes m) hedged).etwp (machine S K sys c)
      (fun sig _ => ∃ (k : Sized l.sizes.secretKey) (rnd : Sized 32), sk = k.1 ∧
        (if hedged = true then FromSystem sys rnd.1 else rnd = .zeros 32) ∧ sig = (S.sign l k m rnd).1)
      (fun _ _ => True) none := by
  have hmsg (fn arg : Str) : requireBytes fn arg (.ofBytes m) none = .ok (.ofBytes m) := rfl
  simp only [MlDsa.sign, hmsg, Raising.ofExcept_ok, pure_bind]
  refine etwp_requireBytes fun hsk => ?_
  cases hedged with
  | false =>
    simp only [Bool.false_eq_true, if_false, MlDsa.signDeterministic, withLock]
    simp [Raising.etwp_ask_of_total machine_total, call, answers, Req.mayAnswer, -Subtype.exists]
    refine Raising.etwp_mono etwp_signWith (fun sig secret hsig => ?_) fun e secret _ => ?_
    · simp [Raising.etwp_ask_of_total machine_total, answers, Req.mayAnswer, -Subtype.exists]
      obtain ⟨rnd, hwanted, hsig⟩ := hsig l rfl ⟨sk, hsk⟩ rfl
      rw [Sized.eq_zeros (hwanted.1 hw)] at hsig
      exact ⟨⟨sk, hsk⟩, rfl, hsig⟩
    · simp [Raising.etwp_ask_of_total machine_total]
  | true =>
    simp only [if_true, withLock]
    simp [Raising.etwp_ask_of_total machine_total, call, answers, Req.mayAnswer, -Subtype.exists]
    refine Raising.etwp_mono etwp_signWith (fun sig secret hsig => ?_) fun e secret _ => ?_
    · simp [Raising.etwp_ask_of_total machine_total, answers, Req.mayAnswer, -Subtype.exists]
      obtain ⟨rnd, hwanted, hsig⟩ := hsig l rfl ⟨sk, hsk⟩ rfl
      exact ⟨⟨sk, hsk⟩, rfl, rnd, hwanted.2 hw, hsig⟩
    · simp [Raising.etwp_ask_of_total machine_total]

theorem meets_kemKeygen (self : MlKem) : self.keygen.etwp (machine S K sys (.kemKeygen self))
    (fun p _ => Meets S K sys (.kemKeygen self) (.pair p.1 p.2)) (fun _ _ => True) none := by
  unfold MlKem.keygen withLock withKem
  simp [Raising.etwp_ask_of_total machine_total, call, answers, Req.mayAnswer, -Subtype.forall, -Subtype.exists]
  rintro pk secret bss hbss hpair sk hexport l rfl
  obtain ⟨seed, hseed, rfl, hsecret⟩ := hpair l rfl
  obtain rfl := hexport _ hsecret
  have hwanted : Wanted sys (some .system) bss.flatten := wanted_of_proper hbss
  rw [hseed] at hwanted
  exact ⟨seed, hwanted.2 rfl, rfl⟩

theorem etwp_encapsulate_ofBytes (l : MlKem.Level) (pk : Bytes) (hw : c.want = some .system) :
    ((MlKem.ofLevel l).encapsulate (.ofBytes pk)).etwp (machine S K sys c)
      (fun r _ => ∃ (p : Sized l.sizes.publicKey) (coin : Sized 32), pk = p.1 ∧ FromSystem sys coin.1 ∧
        r = ((K.encaps l p coin).1.1, (K.encaps l p coin).2.1)) (fun _ _ => True) none := by
  unfold MlKem.encapsulate
  refine etwp_requireBytes fun hpk => ?_
  simp [withLock, withKem, Raising.etwp_ask_of_total machine_total, call, answers, Req.mayAnswer, -Subtype.forall,
    -Subtype.exists]
  rintro ct ss _ bss hbss rfl hr
  obtain ⟨coin, hcoin, rfl, rfl⟩ := hr l rfl ⟨pk, hpk⟩ rfl
  have hwanted : Wanted sys c.want bss.flatten := wanted_of_proper hbss
  rw [hcoin] at hwanted
  exact ⟨⟨pk, hpk⟩, rfl, coin, hwanted.2 hw, rfl, rfl⟩

theorem etwp_decapsulate_ofBytes (l : MlKem.Level) (sk ct : Bytes) :
    ((MlKem.ofLevel l).decapsulate (.ofBytes sk) (.ofBytes ct)).etwp (machine S K sys c)
      (fun ss _ => ∃ (d : Sized l.sizes.secretKey) (c : Sized l.sizes.ciphertext), sk = d.1 ∧ ct = c.1 ∧
        ss = (K.decaps l d c).1) (fun _ _ => True) none := by
  unfold MlKem.decapsulate
  refine etwp_requireBytes fun hsk => etwp_requireBytes fun hct => ?_
  simp [withKem, Raising.etwp_ask_of_total machine_total, call, answers, Req.mayAnswer, -Subtype.forall,
    -Subtype.exists]
  exact fun ss hss => ⟨⟨sk, hsk⟩, rfl, ⟨ct, hct⟩, rfl, hss l rfl ⟨sk, hsk⟩ ⟨ct, hct⟩ rfl rfl⟩

/-- What a call returns satisfies the postcondition of its method. -/
theorem Exec.outcome {α : Type} {p : Py α} {f : α → Returned} {post : α → Prop} {v : Returned} {secret : Secret}
    (h : Exec (machine S K sys c) (Except.map f <$> p.run) none (.ok v) secret)
    (hp : p.etwp (machine S K sys c) (fun a _ => post a) (fun _ _ => True) none) : ∃ a, v = f a ∧ post a := by
  have htwp : (Except.map f <$> p.run).twp (machine S K sys c) (fun r _ => ∀ v, r = .ok v → ∃ a, v = f a ∧ post a)
      none := by
    rw [Prog.twp_map]
    refine Prog.twp_mono hp fun r _ hr => ?_
    cases r with
    | ok a => exact fun v hv => ⟨a, (Except.ok.inj hv).symm, hr⟩
    | error e => exact nofun
  exact h.twp htwp v rfl

/-- **Every call** alone, where it raises nothing. -/
theorem meets_of_exec {v : Returned} (h : Exec (machine S K sys c) c.outcome none (.ok v) secret) :
    Meets S K sys c v := by
  cases c with
  | keygen self =>
    obtain ⟨p, rfl, hp⟩ := Exec.outcome h (meets_keygen self)
    exact hp
  | sign self secretKey message hedged =>
    rintro l sk m rfl rfl rfl
    obtain ⟨sig, rfl, k, rnd, hk, hrnd, rfl⟩ := Exec.outcome h (etwp_sign_ofBytes l sk m hedged rfl)
    exact ⟨k, rnd, hk, hrnd, rfl⟩
  | verify self publicKey message signature => trivial
  | kemKeygen self =>
    obtain ⟨p, rfl, hp⟩ := Exec.outcome h (meets_kemKeygen self)
    exact hp
  | encapsulate self publicKey =>
    rintro l pk rfl rfl
    obtain ⟨r, rfl, p, coin, hp, hcoin, rfl⟩ := Exec.outcome h (etwp_encapsulate_ofBytes l pk rfl)
    exact ⟨p, coin, hp, hcoin, rfl⟩
  | decapsulate self secretKey ciphertext =>
    rintro l sk ct rfl rfl rfl
    obtain ⟨ss, rfl, d, c, hd, hc, rfl⟩ := Exec.outcome h (etwp_decapsulate_ofBytes l sk ct)
    exact ⟨d, c, hd, hc, rfl⟩

end Methods

variable {S K}

/-- In some interleaving of some threads, a call has ended, and returned this. -/
def Ran (S : MlDsa.Standard) (K : MlKem.Standard) (sys : Bytes → Prop) (c : Call) (v : Returned) : Prop :=
  ∃ (T : Type) (_ : DecidableEq T) (todo : T → List Call)
    (x : Guard.History Req (Refusable Exn Res) Rng Call (Except Exn Returned) Secret T) (secret : Secret),
    (guardOf sys).Happens (liboqsPython S K) Call.outcome todo x ∧ ⟨c, .ok v, secret⟩ ∈ x.ended

/-- A call that has ended has an execution of its own. -/
theorem Ran.exec {sys : Bytes → Prop} {c : Call} {v : Returned} (h : Ran S K sys c v) :
    ∃ secret, Exec (machine S K sys c) c.outcome none (.ok v) secret := by
  obtain ⟨T, _, todo, x, secret, hx, he⟩ := h
  exact ⟨secret, Guard.exec_of_ended (guardedOf sys) hx he⟩

/-- **What a call returns**: however many threads run whatever calls of the Python binding over a liboqs-python that
follows the standards, and whatever raises, every call that has ended and returns has returned what the standards
say. -/
theorem Ran.meets {sys : Bytes → Prop} {c : Call} {v : Returned} (h : Ran S K sys c v) : Meets S K sys c v := by
  obtain ⟨secret, hexec⟩ := h.exec
  exact meets_of_exec hexec

end Python

end QorechainPqc
