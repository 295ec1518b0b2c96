import QorechainPqc.BouncyCastle.Java
import QorechainPqc.Keys.Standard
import QorechainPqc.Lib.Machine

/-!
# The objects of Bouncy Castle

What the binding relies on of Bouncy Castle, as a machine: a heap of objects, and how each constructor and method
answers and changes them by its documentation and the standards. Where it has no answer, nothing is known of the
library: a generator that is not initialised, a key of a wrong size, a signer that has no key. It is a parameter:
an `Implementation` keeps what it likes, and does as this machine does wherever that one has an answer.

Whatever objects there are already, the methods of the binding never get anywhere else, and return what the standards
say (`mldsaSign_eq` and the lemmas around it, and `Implementation.returns`). The secret key of this binding is the seed.
-/

namespace QorechainPqc.Java

open Failing Program MonadExcept Raising

/-! ## The machine -/

/-- An object. -/
inductive Obj
  | mldsaGenerator (params : Option MlDsa.Level)
  | mldsaParameters (l : MlDsa.Level)
  | mldsaKeyPair (l : MlDsa.Level) (seed : Sized 32)
  | mldsaPublic (l : MlDsa.Level) (encoding : Sized l.sizes.publicKey)
  | mldsaPrivate (l : MlDsa.Level) (seed : Sized 32)
  /-- `ParametersWithRandom` around a private key. -/
  | withRandom (l : MlDsa.Level) (seed : Sized 32)
  /-- A signer: the private key that it is initialised with and whether it is hedged, and the message so far. -/
  | signer (key : Option (MlDsa.Level × Sized 32 × Bool)) (message : Bytes)
  | mlkemGenerator (params : Option MlKem.Level)
  | mlkemParameters (l : MlKem.Level)
  | mlkemKeyPair (l : MlKem.Level) (seed : Sized 64)
  | mlkemPublic (l : MlKem.Level) (encoding : Sized l.sizes.publicKey)
  | mlkemPrivate (l : MlKem.Level) (encoding : Sized l.sizes.secretKey)
  | encapsulator
  | encapsulated (ciphertext secret : Bytes)
  | extractor (l : MlKem.Level) (encoding : Sized l.sizes.secretKey)
  | digest (input : Bytes)

/-- The objects, under their references. -/
abbrev Heap := List Obj

/-- A new object. -/
def fresh (heap : Heap) (o : Obj) : Option (Except Thrown Ref × Heap) := some (.ok heap.length, heap ++ [o])

/-- What the random number generators give for one request. -/
structure Draw where
  seed : Sized 32
  kemSeed : Sized 64
  coin : Sized 32
  rnd : Sized 32

instance : Nonempty Draw := ⟨⟨.zeros 32, .zeros 64, .zeros 32, .zeros 32⟩⟩

variable (S : MlDsa.Standard) (K : MlKem.Standard) (X : Shake256)

/-- The answers that are relied on. -/
def answer (d : Draw) (heap : Heap) : ∀ q, Option (Refusable Thrown Res q × Heap)
  | .newMldsaKeyPairGenerator => fresh heap (.mldsaGenerator none)
  | .newMldsaKeyGenerationParameters l => fresh heap (.mldsaParameters l)
  | .newMldsaPrivateKeyParameters l b => if h : b.length = 32 then fresh heap (.mldsaPrivate l ⟨b, h⟩) else none
  | .newMldsaSigner => fresh heap (.signer none [])
  | .newParametersWithRandom key => match heap[key]? with
    | some (.mldsaPrivate l seed) => fresh heap (.withRandom l seed)
    | _ => none
  | .newMlkemKeyPairGenerator => fresh heap (.mlkemGenerator none)
  | .newMlkemKeyGenerationParameters l => fresh heap (.mlkemParameters l)
  | .newMlkemPublicKeyParameters l b =>
    if h : b.length = l.sizes.publicKey then fresh heap (.mlkemPublic l ⟨b, h⟩) else none
  | .newMlkemPrivateKeyParameters l b =>
    if h : b.length = l.sizes.secretKey then fresh heap (.mlkemPrivate l ⟨b, h⟩) else none
  | .newMlkemGenerator => fresh heap .encapsulator
  | .newMlkemExtractor key => match heap[key]? with
    | some (.mlkemPrivate l sk) => fresh heap (.extractor l sk)
    | _ => none
  | .newShakeDigest bits => if bits = 256 then fresh heap (.digest []) else none
  | .init generator parameters => match heap[generator]?, heap[parameters]? with
    | some (.mldsaGenerator _), some (.mldsaParameters l) =>
      some (.ok (), heap.set generator (.mldsaGenerator (some l)))
    | some (.mlkemGenerator _), some (.mlkemParameters l) =>
      some (.ok (), heap.set generator (.mlkemGenerator (some l)))
    | _, _ => none
  | .initSigner signer forSigning key => match forSigning, heap[signer]?, heap[key]? with
    | true, some (.signer _ _), some (.mldsaPrivate l seed) =>
      some (.ok (), heap.set signer (.signer (some (l, seed, false)) []))
    | true, some (.signer _ _), some (.withRandom l seed) =>
      some (.ok (), heap.set signer (.signer (some (l, seed, true)) []))
    | _, _, _ => none
  | .generateKeyPair generator => match heap[generator]? with
    | some (.mldsaGenerator (some l)) => fresh heap (.mldsaKeyPair l d.seed)
    | some (.mlkemGenerator (some l)) => fresh heap (.mlkemKeyPair l d.kemSeed)
    | _ => none
  | .getPublic keyPair => match heap[keyPair]? with
    | some (.mldsaKeyPair l seed) => fresh heap (.mldsaPublic l (S.keygen l seed).1)
    | some (.mlkemKeyPair l seed) => fresh heap (.mlkemPublic l (K.keygen l seed).1)
    | _ => none
  | .getPrivate keyPair => match heap[keyPair]? with
    | some (.mldsaKeyPair l seed) => fresh heap (.mldsaPrivate l seed)
    | some (.mlkemKeyPair l seed) => fresh heap (.mlkemPrivate l (K.keygen l seed).2)
    | _ => none
  | .getPublicKeyParameters key => match heap[key]? with
    | some (.mldsaPrivate l seed) => fresh heap (.mldsaPublic l (S.keygen l seed).1)
    | _ => none
  | .getEncoded key => match heap[key]? with
    | some (.mldsaPublic _ pk) => some (.ok pk.1, heap)
    | some (.mlkemPublic _ pk) => some (.ok pk.1, heap)
    | some (.mlkemPrivate _ sk) => some (.ok sk.1, heap)
    | _ => none
  | .getSeed key => match heap[key]? with
    | some (.mldsaPrivate _ seed) => some (.ok seed.1, heap)
    | _ => none
  | .update object input => match heap[object]? with
    | some (.signer (some key) m) => some (.ok (), heap.set object (.signer (some key) (m ++ input)))
    | some (.digest m) => some (.ok (), heap.set object (.digest (m ++ input)))
    | _ => none
  | .generateSignature signer => match heap[signer]? with
    | some (.signer (some (l, seed, hedged)) m) =>
      let rnd := if hedged then d.rnd else .zeros 32
      some (.ok (S.sign l (S.keygen l seed).2 m rnd).1, heap.set signer (.signer (some (l, seed, hedged)) []))
    | _ => none
  | .doFinal digest outLen => match heap[digest]? with
    | some (.digest m) => some (.ok (X.digest m outLen), heap.set digest (.digest []))
    | _ => none
  | .generateEncapsulated generator key => match heap[generator]?, heap[key]? with
    | some .encapsulator, some (.mlkemPublic l pk) =>
      fresh heap (.encapsulated (K.encaps l pk d.coin).1.1 (K.encaps l pk d.coin).2.1)
    | _, _ => none
  | .getEncapsulation encapsulated => match heap[encapsulated]? with
    | some (.encapsulated ciphertext _) => some (.ok ciphertext, heap)
    | _ => none
  | .getSecret encapsulated => match heap[encapsulated]? with
    | some (.encapsulated _ secret) => some (.ok secret, heap)
    | _ => none
  | .extractSecret _ extractor encapsulation => match heap[extractor]? with
    | some (.extractor l sk) =>
      if h : encapsulation.length = l.sizes.ciphertext then some (.ok (K.decaps l sk ⟨encapsulation, h⟩).1, heap)
      else none
    | _ => none

/-- The machine of these objects. -/
def objects : Machine Req (Refusable Thrown Res) Heap := .ofDraws (answer S K X)

/-- Bouncy Castle: what it keeps, how it answers, and which objects a state of it stands for. -/
structure Implementation where
  State : Type
  machine : Machine Req (Refusable Thrown Res) State
  Holds : State → Heap → Prop
  follows : machine.Refines (objects S K X) Holds

/-- There is one. -/
def Implementation.reference : Implementation S K X := ⟨Heap, objects S K X, Eq, Machine.refines_refl _⟩

/-- Over the objects, a method returns what satisfies `post`, whatever objects there are, whatever the draws; it throws
nothing, and nothing that it asks for is unknown. -/
def Returns {α : Type} (p : Jv α) (post : α → Prop) : Prop :=
  ∀ heap, p.etwp (objects S K X) (fun a _ => post a) (fun _ _ => False) heap

variable {S K X}

/-- A method returns what satisfies `post`, whatever objects there are, and throws nothing. -/
def Implementation.Returns (B : Implementation S K X) {α : Type} (p : Jv α) (post : α → Prop) : Prop :=
  ∀ state heap, B.Holds state heap → p.etwp B.machine (fun a _ => post a) (fun _ _ => False) state

/-- A method has returned this, with some objects before it. -/
def Implementation.Ran (B : Implementation S K X) {α : Type} (p : Jv α) (a : α) : Prop :=
  ∃ state heap state', B.Holds state heap ∧ Exec B.machine p.run state (.ok a) state'

namespace Implementation

variable {B : Implementation S K X} {α : Type} {p : Jv α} {a : α} {post : α → Prop}

theorem returns (B : Implementation S K X) (hp : Java.Returns S K X p post) : B.Returns p post := by
  intro state heap hstate
  refine B.follows.twp (fun r _ _ _ hr => ?_) hstate (hp heap)
  cases r with
  | ok a => exact hr
  | error e => exact hr

theorem Ran.of_returns (h : B.Ran p a) (hp : Java.Returns S K X p post) : post a := by
  obtain ⟨state, heap, state', hstate, hexec⟩ := h
  exact hexec.twp (B.returns hp state heap hstate)

/-- What a method returns can be returned, where there is a state that stands for some objects. -/
theorem exists_ran {state : B.State} {heap : Heap} (hstate : B.Holds state heap) (hp : Java.Returns S K X p post) :
    ∃ a, B.Ran p a := by
  obtain ⟨r, state', hexec⟩ := Prog.exists_exec_of_twp (B.returns hp state heap hstate)
  cases r with
  | ok a => exact ⟨a, state, heap, state', hstate, hexec⟩
  | error e => exact (hexec.twp (B.returns hp state heap hstate)).elim

theorem not_ran_throw {e : Thrown} : ¬B.Ran (throw e) a := by
  rintro ⟨state, heap, state', -, hexec⟩
  cases hexec

end Implementation

/-! ## Checks that pass -/

theorem requireLevel_some (fn : String) (level : Str) : check (requireLevel fn (some level)) = pure level := rfl

theorem requireArray_some (fn arg : String) (b : Bytes) : check (requireArray fn arg (some b)) = pure b := rfl

theorem requireLength_sized (fn arg : String) {n : Nat} (b : Sized n) :
    check (requireLength fn arg (some b.1) n) = pure b.1 := by
  have hlen : requireLength fn arg (some b.1) n = .ok b.1 := if_neg (not_not_intro b.2)
  rw [hlen]
  rfl

theorem requireLength_of_ne (fn arg : String) {n : Nat} {b : Bytes} (h : b.length ≠ n) :
    ∃ text, check (requireLength fn arg (some b) n) = throw (.illegalArgument text) := by
  have hchecks := requireLength_checks fn arg (some b) n
  cases hlen : requireLength fn arg (some b) n with
  | ok a =>
    rw [hlen] at hchecks
    obtain ⟨ha, hn⟩ := hchecks
    cases ha
    exact absurd hn h
  | error e =>
    rw [hlen] at hchecks
    obtain ⟨text, rfl⟩ := hchecks
    exact ⟨text, rfl⟩

theorem requireMldsaSeed_sized (fn : String) (level : Str) (arg : String) (ξ : Sized 32) :
    check (requireMldsaSeed fn level arg (some ξ.1)) = pure ξ.1 := by
  have hseed : requireMldsaSeed fn level arg (some ξ.1) = .ok ξ.1 := if_pos ξ.2
  rw [hseed]
  rfl

theorem mldsaParams_name (l : MlDsa.Level) : check (mldsaParams (str l.name)) = pure l := by
  have hparams : mldsaParams (str l.name) = .ok l := mldsaSwitch_name id l
  rw [hparams]
  rfl

theorem mlkemParams_name (l : MlKem.Level) : check (mlkemParams (str l.name)) = pure l := by
  have hparams : mlkemParams (str l.name) = .ok l := mlkemSwitch_name id l
  rw [hparams]
  rfl

theorem mlkemLengths_name (l : MlKem.Level) : check (mlkemLengths (str l.name)) =
    pure [l.sizes.publicKey, l.sizes.secretKey, l.sizes.ciphertext] := by
  have hlen : mlkemLengths (str l.name) = .ok [l.sizes.publicKey, l.sizes.secretKey, l.sizes.ciphertext] := by
    refine (mlkemSwitch_name _ l).trans ?_
    cases l <;> rfl
  rw [hlen]
  rfl

theorem element_of_get {a : List Nat} {i n : Nat} (h : a[i]? = some n) : check (element a i) = pure n := by
  rw [element, h]
  rfl

/-! ## What the methods return -/

theorem mldsaKeygen_eq (l : MlDsa.Level) : Returns S K X (mldsaKeygen (some (str l.name)))
    fun r => ∃ ξ, r = ((S.keygen l ξ).1.1, ξ.1) := by
  intro heap
  simp only [mldsaKeygen, requireLevel_some, mldsaParams_name, pure_bind, etwp_bind, objects, etwp_ask_ofDraws]
  simp [answer, fresh, -Subtype.exists]
  exact fun d => ⟨d.seed, rfl, rfl⟩

theorem mldsaKeygenFromSeed_eq (l : MlDsa.Level) (ξ : Sized 32) :
    Returns S K X (mldsaKeygenFromSeed (some (str l.name)) (some ξ.1)) fun r => r = ((S.keygen l ξ).1.1, ξ.1) := by
  intro heap
  simp only [mldsaKeygenFromSeed, requireLevel_some, requireMldsaSeed_sized, mldsaParams_name, pure_bind, etwp_bind,
    objects, etwp_ask_ofDraws]
  simp [answer, fresh, ξ.2]

/-- **`mldsaSign`** is deterministic, for a seed as the secret key. -/
theorem mldsaSign_eq (l : MlDsa.Level) (ξ : Sized 32) (m : Bytes) :
    Returns S K X (mldsaSign (some (str l.name)) (some ξ.1) (some m))
      fun sig => sig = (S.signDeterministic l (S.keygen l ξ).2 m).1 := by
  intro heap
  simp only [mldsaSign, signWith, requireLevel_some, requireArray_some, requireMldsaSeed_sized, mldsaParams_name,
    pure_bind, etwp_bind, objects, etwp_ask_ofDraws]
  simp [answer, fresh, ξ.2, MlDsa.Standard.signDeterministic]

theorem mldsaSignHedged_eq (l : MlDsa.Level) (ξ : Sized 32) (m : Bytes) :
    Returns S K X (mldsaSignHedged (some (str l.name)) (some ξ.1) (some m))
      fun sig => ∃ rnd, sig = (S.sign l (S.keygen l ξ).2 m rnd).1 := by
  intro heap
  simp only [mldsaSignHedged, signWith, requireLevel_some, requireArray_some, requireMldsaSeed_sized, mldsaParams_name,
    pure_bind, etwp_bind, objects, etwp_ask_ofDraws]
  simp [answer, fresh, ξ.2, -Subtype.exists]
  exact fun d => ⟨d.rnd, rfl⟩

/-- A secret key that is no seed is refused, by both ways to sign: an expanded key with an explanation. -/
theorem sign_of_length {l : MlDsa.Level} {sk : Bytes} (hlen : sk.length ≠ 32) (fn : String) (signingKey : Ref → Jv Ref)
    (m : Option Bytes) :
    ∃ text, signWith fn signingKey (some (str l.name)) (some sk) m = throw (.illegalArgument text) := by
  have hchecks := requireMldsaSeed_checks fn (str l.name) "secretKey" (some sk)
  cases hseed : requireMldsaSeed fn (str l.name) "secretKey" (some sk) with
  | ok a =>
    rw [hseed] at hchecks
    obtain ⟨ha, ha32⟩ := hchecks
    cases ha
    exact absurd ha32 hlen
  | error e =>
    rw [hseed] at hchecks
    obtain ⟨text, rfl⟩ := hchecks
    refine ⟨text, ?_⟩
    simp only [signWith, requireLevel_some, pure_bind, hseed]
    rfl

theorem mlkemKeygen_eq (l : MlKem.Level) : Returns S K X (mlkemKeygen (some (str l.name)))
    fun r => ∃ seed, r = ((K.keygen l seed).1.1, (K.keygen l seed).2.1) := by
  intro heap
  simp only [mlkemKeygen, requireLevel_some, mlkemParams_name, pure_bind, etwp_bind, objects, etwp_ask_ofDraws]
  simp [answer, fresh, -Subtype.exists]
  exact fun d => ⟨d.kemSeed, rfl, rfl⟩

/-- **`mlkemEncapsulate`** returns a ciphertext of the standard with its secret. -/
theorem mlkemEncapsulate_eq (l : MlKem.Level) (pk : Sized l.sizes.publicKey) :
    Returns S K X (mlkemEncapsulate (some (str l.name)) (some pk.1))
      fun r => ∃ coin, r = ((K.encaps l pk coin).1.1, (K.encaps l pk coin).2.1) := by
  intro heap
  have helement : check (element [l.sizes.publicKey, l.sizes.secretKey, l.sizes.ciphertext] 0) =
    pure l.sizes.publicKey := element_of_get rfl
  simp only [mlkemEncapsulate, requireLevel_some, mlkemLengths_name, helement, requireLength_sized, mlkemParams_name,
    pure_bind, etwp_bind, objects, etwp_ask_ofDraws]
  simp [answer, fresh, pk.2, -Subtype.exists]
  exact fun d => ⟨d.coin, rfl, rfl⟩

theorem mlkemDecapsulate_eq (l : MlKem.Level) (sk : Sized l.sizes.secretKey) (ct : Sized l.sizes.ciphertext) :
    Returns S K X (mlkemDecapsulate (some (str l.name)) (some sk.1) (some ct.1))
      fun ss => ss = (K.decaps l sk ct).1 := by
  intro heap
  have hsk : check (element [l.sizes.publicKey, l.sizes.secretKey, l.sizes.ciphertext] 1) =
    pure l.sizes.secretKey := element_of_get rfl
  have hct : check (element [l.sizes.publicKey, l.sizes.secretKey, l.sizes.ciphertext] 2) =
    pure l.sizes.ciphertext := element_of_get rfl
  simp only [mlkemDecapsulate, requireLevel_some, mlkemLengths_name, hsk, hct, requireLength_sized, mlkemParams_name,
    pure_bind, etwp_bind, objects, etwp_ask_ofDraws]
  simp [answer, fresh, sk.2, ct.2]

/-- A public key of another size is refused. -/
theorem mlkemEncapsulate_of_length {l : MlKem.Level} {pk : Bytes} (hlen : pk.length ≠ l.sizes.publicKey) :
    ∃ text, mlkemEncapsulate (some (str l.name)) (some pk) = throw (.illegalArgument text) := by
  have helement : check (element [l.sizes.publicKey, l.sizes.secretKey, l.sizes.ciphertext] 0) =
    pure l.sizes.publicKey := element_of_get rfl
  obtain ⟨text, ht⟩ := requireLength_of_ne "mlkemEncapsulate" "publicKey" hlen
  refine ⟨text, ?_⟩
  simp only [mlkemEncapsulate, requireLevel_some, mlkemLengths_name, helement, pure_bind, ht]
  rfl

/-- A secret key or a ciphertext of another size is refused. -/
theorem mlkemDecapsulate_of_length {l : MlKem.Level} {sk ct : Bytes}
    (hlen : sk.length ≠ l.sizes.secretKey ∨ ct.length ≠ l.sizes.ciphertext) :
    ∃ text, mlkemDecapsulate (some (str l.name)) (some sk) (some ct) = throw (.illegalArgument text) := by
  have hsk : check (element [l.sizes.publicKey, l.sizes.secretKey, l.sizes.ciphertext] 1) =
    pure l.sizes.secretKey := element_of_get rfl
  have hct : check (element [l.sizes.publicKey, l.sizes.secretKey, l.sizes.ciphertext] 2) =
    pure l.sizes.ciphertext := element_of_get rfl
  by_cases hsize : sk.length = l.sizes.secretKey
  · obtain ⟨text, ht⟩ := requireLength_of_ne "mlkemDecapsulate" "ciphertext" (hlen.resolve_left (not_not_intro hsize))
    have hkey : check (requireLength "mlkemDecapsulate" "secretKey" (some sk) l.sizes.secretKey) = pure sk :=
      requireLength_sized _ _ ⟨sk, hsize⟩
    refine ⟨text, ?_⟩
    simp only [mlkemDecapsulate, requireLevel_some, mlkemLengths_name, hsk, hct, hkey, pure_bind, ht]
    rfl
  · obtain ⟨text, ht⟩ := requireLength_of_ne "mlkemDecapsulate" "secretKey" hsize
    refine ⟨text, ?_⟩
    simp only [mlkemDecapsulate, requireLevel_some, mlkemLengths_name, hsk, pure_bind, ht]
    rfl

theorem shake256_eq (data : Bytes) (n : Nat) :
    Returns S K X (shake256 (some data) n) fun out => out = X.digest data n := by
  intro heap
  have hn : ¬(n : Int) < 0 := Int.not_lt.mpr (Int.natCast_nonneg n)
  have harray : check (newByteArray n) = pure n := by
    rw [newByteArray, if_neg hn, Int.toNat_natCast]
    rfl
  simp only [shake256, requireArray_some, harray, if_neg hn, pure_bind, etwp_bind, objects, etwp_ask_ofDraws]
  simp [answer, fresh]

theorem pubkeyHash_eq (publicKey : Bytes) (n : Nat) :
    Returns S K X (pubkeyHash (some publicKey) n) fun out => out = X.digest publicKey n := by
  have hn : ¬(n : Int) < 0 := Int.not_lt.mpr (Int.natCast_nonneg n)
  have hcall : pubkeyHash (some publicKey) n = shake256 (some publicKey) n := by
    simp only [pubkeyHash, requireArray_some, pure_bind, if_neg hn]
  rw [hcall]
  exact shake256_eq publicKey n

end QorechainPqc.Java
