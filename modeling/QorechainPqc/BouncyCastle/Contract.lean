import QorechainPqc.BouncyCastle.Java

/-!
# The error contract of the Java binding

Every method but `mldsaVerify` is meant to return or to throw an `IllegalArgumentException`, and to check its arrays
before they reach Bouncy Castle. `Method.call` puts the methods together. Bouncy Castle is taken to return or to throw
an `IllegalArgumentException` where the arrays it is given have the exact sizes (`Req.mayAnswer`); the methods over it
give it no others.

The version rule looks a chain id up in a list that throws for `null`, and the sign-bytes builders add up sizes that
wrap. `Method.Within` is when neither happens: `Java.keeps_contract` says that the contract is kept then and only then,
and `Java.breaks_contract` are calls that break it.
-/

namespace QorechainPqc.Java

open Failing Framing Program MonadExcept

/-! ## What Bouncy Castle answers -/

/-- The arrays that a request hands over have the exact sizes. -/
def Req.Exact : Req → Prop
  | .newMldsaPrivateKeyParameters _ seed => seed.length = 32
  | .newMlkemPublicKeyParameters l encoding => encoding.length = l.sizes.publicKey
  | .newMlkemPrivateKeyParameters l encoding => encoding.length = l.sizes.secretKey
  | .extractSecret l _ encapsulation => encapsulation.length = l.sizes.ciphertext
  | _ => True

/-- A result, or, for arrays of the exact sizes, an `IllegalArgumentException`. -/
def Req.mayAnswer : ∀ q : Req, Except Thrown (Res q) → Prop
  | _, .ok _ => True
  | q, .error e => q.Exact → e.IsIllegalArgument

/-! ## Methods -/

/-- The calls of the public methods but `mldsaVerify`. -/
inductive Method
  | mldsaKeygen (level : Option Str)
  | mldsaKeygenFromSeed (level : Option Str) (seed : Option Bytes)
  | mldsaSign (level : Option Str) (secretKey message : Option Bytes)
  | mldsaSignHedged (level : Option Str) (secretKey message : Option Bytes)
  | mlkemKeygen (level : Option Str)
  | mlkemEncapsulate (level : Option Str) (publicKey : Option Bytes)
  | mlkemDecapsulate (level : Option Str) (secretKey ciphertext : Option Bytes)
  | shake256 (data : Option Bytes) (outLen : Int)
  | pubkeyHash (publicKey : Option Bytes) (len : Int)
  | signBytesVersionFor (chainId : Option Str) (v2AppliedHeight : Int)
  | signBytesVersionForApplied (chainId : Option Str) (appliedHeights : Option (Str → Option Int))
  | hybridSignBytesV1 (bodyWithoutPqcExt authInfoBytes : Option Bytes)
  | hybridSignBytesV2 (chainId : Option Str) (bodyWithoutPqcExt authInfoBytes : Option Bytes)
  | hybridSignBytes (version : Int) (chainId : Option Str) (bodyWithoutPqcExt authInfoBytes : Option Bytes)

namespace Method

/-- The type of what is returned. -/
abbrev Result : Method → Type
  | mldsaKeygen _ => Bytes × Bytes
  | mldsaKeygenFromSeed _ _ => Bytes × Bytes
  | mldsaSign _ _ _ => Bytes
  | mldsaSignHedged _ _ _ => Bytes
  | mlkemKeygen _ => Bytes × Bytes
  | mlkemEncapsulate _ _ => Bytes × Bytes
  | mlkemDecapsulate _ _ _ => Bytes
  | shake256 _ _ => Bytes
  | pubkeyHash _ _ => Bytes
  | signBytesVersionFor _ _ => Int
  | signBytesVersionForApplied _ _ => Int
  | hybridSignBytesV1 _ _ => Buffer
  | hybridSignBytesV2 _ _ _ => Buffer
  | hybridSignBytes _ _ _ _ => Buffer

def call : ∀ m : Method, Jv m.Result
  | mldsaKeygen level => Java.mldsaKeygen level
  | mldsaKeygenFromSeed level seed => Java.mldsaKeygenFromSeed level seed
  | mldsaSign level secretKey message => Java.mldsaSign level secretKey message
  | mldsaSignHedged level secretKey message => Java.mldsaSignHedged level secretKey message
  | mlkemKeygen level => Java.mlkemKeygen level
  | mlkemEncapsulate level publicKey => Java.mlkemEncapsulate level publicKey
  | mlkemDecapsulate level secretKey ciphertext => Java.mlkemDecapsulate level secretKey ciphertext
  | shake256 data outLen => Java.shake256 data outLen
  | pubkeyHash publicKey len => Java.pubkeyHash publicKey len
  | signBytesVersionFor chainId height => lift (Java.signBytesVersionFor chainId height)
  | signBytesVersionForApplied chainId heights => lift (Java.signBytesVersionForApplied chainId heights)
  | hybridSignBytesV1 b0 auth => lift (Java.hybridSignBytesV1 b0 auth)
  | hybridSignBytesV2 chainId b0 auth => lift (Java.hybridSignBytesV2 chainId b0 auth)
  | hybridSignBytes version chainId b0 auth => lift (Java.hybridSignBytes version chainId b0 auth)

end Method

/-- `null`, or an array of another length. -/
def NotOfLength (n : Nat) (value : Option Bytes) : Prop := ∀ a ∈ value, a.length ≠ n

namespace Method

/-- An array is `null` or not of the size that the level requires. -/
def Malformed : Method → Prop
  | mldsaKeygen _ => False
  | mldsaKeygenFromSeed _ seed => NotOfLength 32 seed
  | mldsaSign _ secretKey message => NotOfLength 32 secretKey ∨ message = none
  | mldsaSignHedged _ secretKey message => NotOfLength 32 secretKey ∨ message = none
  | mlkemKeygen _ => False
  | mlkemEncapsulate level publicKey =>
    publicKey = none ∨ ∃ l : MlKem.Level, level = some (str l.name) ∧ NotOfLength l.sizes.publicKey publicKey
  | mlkemDecapsulate level secretKey ciphertext => secretKey = none ∨ ciphertext = none ∨
    ∃ l : MlKem.Level, level = some (str l.name) ∧
      (NotOfLength l.sizes.secretKey secretKey ∨ NotOfLength l.sizes.ciphertext ciphertext)
  | shake256 data _ => data = none
  | pubkeyHash publicKey _ => publicKey = none
  | signBytesVersionFor _ _ => False
  | signBytesVersionForApplied _ _ => False
  | hybridSignBytesV1 b0 auth => b0 = none ∨ auth = none
  | hybridSignBytesV2 _ b0 auth => b0 = none ∨ auth = none
  | hybridSignBytes _ _ b0 auth => b0 = none ∨ auth = none

/-- **The contract**, for one run: the call returns or throws an `IllegalArgumentException`, Bouncy Castle is given
arrays of the exact sizes only, and a call with a malformed array throws before it is asked for anything. -/
structure Honours (m : Method) (tr : List (Event Req (Refusable Thrown Res))) (r : Except Thrown m.Result) : Prop where
  ends : ∀ e, r = .error e → e.IsIllegalArgument
  exact : ∀ e ∈ tr, e.1.Exact
  refuses : m.Malformed → tr = [] ∧ ∃ e, r = .error e

/-- The sizes of the v1 message, if there is one. -/
def WithinV1 (b0 auth : Option Bytes) : Prop := ∀ b ∈ b0, ∀ a ∈ auth, ¬Wraps (8 + b.length + a.length)

/-- The sizes of the v2 message, if there is one. -/
def WithinV2 (chainId : Option Str) (b0 auth : Option Bytes) : Prop :=
  ∀ c ∈ chainId, c ≠ [] → ∀ b ∈ b0, ∀ a ∈ auth,
    (chainBytes c).length ≤ maxInt ∧ ¬Wraps (39 + (chainBytes c).length + b.length + a.length)

/-- The chain id is not `null` where it is looked up, and no sizes wrap. -/
def Within : Method → Prop
  | signBytesVersionFor chainId height => chainId = none → 0 < height
  | signBytesVersionForApplied chainId heights =>
    chainId = none → switched signBytesV2Upgrades (fun name => heights.bind fun get => get name) = true
  | hybridSignBytesV1 b0 auth => WithinV1 b0 auth
  | hybridSignBytesV2 chainId b0 auth => WithinV2 chainId b0 auth
  | hybridSignBytes version chainId b0 auth =>
    (version = signBytesV1 → WithinV1 b0 auth) ∧ (version = signBytesV2 → WithinV2 chainId b0 auth)
  | _ => True

end Method

/-! ## The methods over Bouncy Castle -/

/-- The logic of the contract: only exact arrays are handed over, and only by calls that are not malformed. -/
def contract (wellFormed : Prop) : Logic Req (Refusable Thrown Res) Unit where
  pre q _ := q.Exact ∧ wellFormed
  ok := Req.mayAnswer
  next _ _ g := g

/-- A program throws no more than an `IllegalArgumentException`; it returns and asks only for `N`. -/
abbrev Keeps {α : Type} (N : Prop) (p : Jv α) : Prop :=
  Raising.Ensures (contract N) (fun _ => N) Thrown.IsIllegalArgument p

section Keeps

variable {α β : Type} {N : Prop}

theorem ensures_call {q : Req} (hN : N) (hq : q.Exact) :
    Raising.Ensures (contract N) (fun _ => True) Thrown.IsIllegalArgument (call q) :=
  Raising.ensures_ask (fun _ => ⟨hq, hN⟩) fun _ he => he hq

theorem keeps_call_bind {q : Req} (hN : N) {f : Res q → Jv β} (hf : ∀ a, Keeps N (f a))
    (hq : q.Exact := by trivial) : Keeps N (call q >>= f) :=
  (ensures_call hN hq).bind fun a _ => hf a

theorem keeps_call {q : Req} (hN : N) (hq : q.Exact := by trivial) : Keeps N (call q) :=
  (ensures_call hN hq).mono fun _ _ => hN

theorem keeps_check_bind {x : Except Thrown α} {Y : α → Prop} (hx : Checks Y x) {f : α → Jv β}
    (hf : ∀ a, Y a → Keeps N (f a)) : Keeps N (check x >>= f) :=
  (Raising.ensures_ofExcept hx).bind hf

end Keeps

section Methods

variable {level : Option Str} {b₁ b₂ : Option Bytes}

/-- The last part of both key generations; `secret` is how the private key is had. -/
theorem generate_keeps {N : Prop} (hN : N) (g parameters : Ref) (secret : Ref → Jv Bytes)
    (hsecret : ∀ privateKey, Keeps N (secret privateKey)) : Keeps N (do
      call (.init g parameters)
      let kp ← call (.generateKeyPair g)
      let publicKey ← call (.getPublic kp)
      let pk ← call (.getEncoded publicKey)
      let privateKey ← call (.getPrivate kp)
      let sk ← secret privateKey
      return (pk, sk)) := by
  refine keeps_call_bind hN fun _ => ?_
  refine keeps_call_bind hN fun kp => ?_
  refine keeps_call_bind hN fun publicKey => ?_
  refine keeps_call_bind hN fun pk => ?_
  refine keeps_call_bind hN fun privateKey => ?_
  exact (hsecret privateKey).bind fun sk _ => Raising.ensures_pure hN

theorem mldsaKeygen_keeps : Keeps (¬(Method.mldsaKeygen level).Malformed) (mldsaKeygen level) := by
  have hN : ¬(Method.mldsaKeygen level).Malformed := id
  refine keeps_check_bind (requireLevel_checks _ level) fun name _ => ?_
  refine keeps_call_bind hN fun g => ?_
  refine keeps_check_bind (mldsaSwitch_checks name id) fun params _ => ?_
  refine keeps_call_bind hN fun parameters => ?_
  exact generate_keeps hN g parameters (fun privateKey => call (.getSeed privateKey)) fun _ => keeps_call hN

theorem mldsaKeygenFromSeed_keeps :
    Keeps (¬(Method.mldsaKeygenFromSeed level b₁).Malformed) (mldsaKeygenFromSeed level b₁) := by
  refine keeps_check_bind (requireLevel_checks _ level) fun name _ => ?_
  refine keeps_check_bind (requireMldsaSeed_checks _ name _ b₁) fun seed hseed => ?_
  obtain ⟨rfl, hlen⟩ := hseed
  have hN : ¬(Method.mldsaKeygenFromSeed level (some seed)).Malformed := fun h => h seed rfl hlen
  refine keeps_check_bind (mldsaSwitch_checks name id) fun params _ => ?_
  refine keeps_call_bind hN (fun sk => ?_) hlen
  refine keeps_call_bind hN fun publicKey => ?_
  refine keeps_call_bind hN fun pk => ?_
  refine keeps_call_bind hN fun seed => ?_
  exact Raising.ensures_pure hN

/-- The two signing methods. -/
theorem signWith_keeps (fn : String) {signingKey : Ref → Jv Ref}
    (hkey : ∀ {N : Prop} (sk : Ref), N → Keeps N (signingKey sk)) :
    Keeps (¬(NotOfLength 32 b₁ ∨ b₂ = none)) (signWith fn signingKey level b₁ b₂) := by
  refine keeps_check_bind (requireLevel_checks _ level) fun name _ => ?_
  refine keeps_check_bind (requireMldsaSeed_checks _ name _ b₁) fun secretKey hsecretKey => ?_
  obtain ⟨rfl, hlen⟩ := hsecretKey
  refine keeps_check_bind (requireArray_checks _ _ b₂) fun message hmessage => ?_
  obtain rfl := hmessage
  have hN : ¬(NotOfLength 32 (some secretKey) ∨ some message = none) := by
    rintro (h | h)
    · exact h secretKey rfl hlen
    · cases h
  refine keeps_check_bind (mldsaSwitch_checks name id) fun params _ => ?_
  refine keeps_call_bind hN (fun sk => ?_) hlen
  refine keeps_call_bind hN fun signer => ?_
  refine (hkey sk hN).bind fun key _ => ?_
  refine keeps_call_bind hN fun _ => ?_
  refine keeps_call_bind hN fun _ => ?_
  refine (keeps_call hN).tryCatch fun e he => ?_
  obtain ⟨text, rfl⟩ := he
  exact Raising.ensures_throw ⟨text, rfl⟩

theorem mlkemKeygen_keeps : Keeps (¬(Method.mlkemKeygen level).Malformed) (mlkemKeygen level) := by
  have hN : ¬(Method.mlkemKeygen level).Malformed := id
  refine keeps_check_bind (requireLevel_checks _ level) fun name _ => ?_
  refine keeps_call_bind hN fun g => ?_
  refine keeps_check_bind (mlkemSwitch_checks name id) fun params _ => ?_
  refine keeps_call_bind hN fun parameters => ?_
  exact generate_keeps hN g parameters (fun privateKey => call (.getEncoded privateKey)) fun _ => keeps_call hN

/-- Behind the level and its sizes there is a level that is known. -/
theorem keeps_mlkemLengths {α : Type} {N : Prop} {fn : String} {f : Str → List Nat → Jv α}
    (hf : ∀ l : MlKem.Level, level = some (str l.name) →
      Keeps N (f (str l.name) [l.sizes.publicKey, l.sizes.secretKey, l.sizes.ciphertext])) :
    Keeps N (do
      let name ← check (requireLevel fn level)
      let len ← check (mlkemLengths name)
      f name len) := by
  refine keeps_check_bind (requireLevel_checks _ level) fun name hname => ?_
  refine keeps_check_bind (mlkemLengths_checks name) fun len hlen => ?_
  obtain ⟨l, rfl, rfl⟩ := hlen
  exact hf l hname

/-- The parameters of a known level are its own. -/
theorem keeps_mlkemParams {α : Type} {N : Prop} {l : MlKem.Level} {f : MlKem.Level → Jv α} (hf : Keeps N (f l)) :
    Keeps N (check (mlkemParams (str l.name)) >>= f) := by
  refine keeps_check_bind (mlkemSwitch_checks _ id) fun params hparams => ?_
  obtain ⟨l', hl', rfl⟩ := hparams
  obtain rfl := mlkem_name_inj hl'
  exact hf

theorem mlkemEncapsulate_keeps :
    Keeps (¬(Method.mlkemEncapsulate level b₁).Malformed) (mlkemEncapsulate level b₁) := by
  refine keeps_mlkemLengths fun l hl => ?_
  subst hl
  refine keeps_check_bind (element_checks (n := l.sizes.publicKey) rfl) fun length hlength => ?_
  obtain rfl := hlength
  refine keeps_check_bind (requireLength_checks _ _ b₁ _) fun publicKey hpublicKey => ?_
  obtain ⟨rfl, hsize⟩ := hpublicKey
  have hN : ¬(Method.mlkemEncapsulate (some (str l.name)) (some publicKey)).Malformed := by
    rintro (h | ⟨l', hl', h⟩)
    · cases h
    · obtain rfl := mlkem_name_inj (Option.some.inj hl')
      exact h publicKey rfl hsize
  apply keeps_mlkemParams
  refine keeps_call_bind hN (fun pk => ?_) hsize
  refine keeps_call_bind hN fun generator => ?_
  refine keeps_call_bind hN fun enc => ?_
  refine keeps_call_bind hN fun ciphertext => ?_
  refine keeps_call_bind hN fun sharedSecret => ?_
  exact Raising.ensures_pure hN

theorem mlkemDecapsulate_keeps :
    Keeps (¬(Method.mlkemDecapsulate level b₁ b₂).Malformed) (mlkemDecapsulate level b₁ b₂) := by
  refine keeps_mlkemLengths fun l hl => ?_
  subst hl
  refine keeps_check_bind (element_checks (n := l.sizes.secretKey) rfl) fun length hlength => ?_
  obtain rfl := hlength
  refine keeps_check_bind (requireLength_checks _ _ b₁ _) fun secretKey hsecretKey => ?_
  obtain ⟨rfl, hsk⟩ := hsecretKey
  refine keeps_check_bind (element_checks (n := l.sizes.ciphertext) rfl) fun length hlength => ?_
  obtain rfl := hlength
  refine keeps_check_bind (requireLength_checks _ _ b₂ _) fun ciphertext hciphertext => ?_
  obtain ⟨rfl, hct⟩ := hciphertext
  have hN : ¬(Method.mlkemDecapsulate (some (str l.name)) (some secretKey) (some ciphertext)).Malformed := by
    rintro (h | h | ⟨l', hl', h⟩)
    · cases h
    · cases h
    · obtain rfl := mlkem_name_inj (Option.some.inj hl')
      exact h.elim (fun h => h secretKey rfl hsk) fun h => h ciphertext rfl hct
  apply keeps_mlkemParams
  refine keeps_call_bind hN (fun sk => ?_) hsk
  refine keeps_call_bind hN fun extractor => ?_
  exact keeps_call hN hct

theorem shake256_keeps (outLen : Int) : Keeps (b₁ ≠ none) (shake256 b₁ outLen) := by
  refine keeps_check_bind (requireArray_checks _ _ b₁) fun data hdata => ?_
  obtain rfl := hdata
  have hN : some data ≠ none := Option.some_ne_none data
  split
  · exact Raising.ensures_throw ⟨_, rfl⟩
  · refine keeps_call_bind hN fun d => ?_
    refine keeps_call_bind hN fun _ => ?_
    refine keeps_check_bind (newByteArray_checks (Int.not_lt.mp ‹_›)) fun out _ => ?_
    exact keeps_call hN

theorem pubkeyHash_keeps (len : Int) : Keeps (b₁ ≠ none) (pubkeyHash b₁ len) := by
  refine keeps_check_bind (requireArray_checks _ _ b₁) fun publicKey hpublicKey => ?_
  obtain rfl := hpublicKey
  split
  · exact Raising.ensures_throw ⟨_, rfl⟩
  · exact shake256_keeps len

end Methods

/-! ## The sign-bytes -/

section SignBytes

variable {chainId : Option Str} {b0 auth : Option Bytes}

/-- A `null` chain id is looked up unless the height decides. -/
theorem signBytesVersionFor_none {height : Int} :
    signBytesVersionFor none height = if 0 < height then .ok signBytesV2 else .error .nullPointer := by
  rw [signBytesVersionFor]
  split <;> rfl

theorem signBytesVersionFor_checks {height : Int} (h : chainId = none → 0 < height) :
    Checks (fun _ => True) ((signBytesVersionFor chainId height).mapError Stop.thrown) := by
  cases chainId with
  | none =>
    rw [signBytesVersionFor_none, if_pos (h rfl)]
    trivial
  | some c =>
    rw [signBytesVersionFor_eq]
    trivial

theorem hybridSignBytesV1_checks (h : Method.WithinV1 b0 auth) : Checks (fun _ => ¬(b0 = none ∨ auth = none))
    ((hybridSignBytesV1 b0 auth).mapError Stop.thrown) := by
  cases b0 with
  | none => exact ⟨_, rfl⟩
  | some b =>
    cases auth with
    | none => exact ⟨_, rfl⟩
    | some a =>
      cases not_wraps_iff.mp (h b rfl a rfl) with
      | inl hfits =>
        rw [hybridSignBytesV1_of_fits hfits]
        exact not_or.mpr ⟨Option.some_ne_none b, Option.some_ne_none a⟩
      | inr hneg =>
        rw [hybridSignBytesV1_of_negative hneg]
        exact ⟨_, rfl⟩

theorem hybridSignBytesV2_checks (h : Method.WithinV2 chainId b0 auth) : Checks (fun _ => ¬(b0 = none ∨ auth = none))
    ((hybridSignBytesV2 chainId b0 auth).mapError Stop.thrown) := by
  cases chainId with
  | none => exact ⟨_, rfl⟩
  | some c =>
    by_cases hc : c = []
    · subst hc
      exact ⟨_, rfl⟩
    · have hc0 : ¬c.length = 0 := fun hl => hc (List.length_eq_zero_iff.mp hl)
      cases b0 with
      | none =>
        simp only [hybridSignBytesV2, if_neg hc0]
        exact ⟨_, rfl⟩
      | some b =>
        cases auth with
        | none =>
          simp only [hybridSignBytesV2, if_neg hc0]
          exact ⟨_, rfl⟩
        | some a =>
          obtain ⟨hl, hw⟩ := h c rfl hc b rfl a rfl
          cases not_wraps_iff.mp hw with
          | inl hfits =>
            rw [hybridSignBytesV2_of_fits hc hfits]
            exact not_or.mpr ⟨Option.some_ne_none b, Option.some_ne_none a⟩
          | inr hneg =>
            rw [hybridSignBytesV2_of_negative hc hl hneg]
            exact ⟨_, rfl⟩

end SignBytes

/-! ## The contract -/

namespace Method

variable {m : Method}

/-- What the methods do within the condition. -/
theorem call_keeps (h : m.Within) : Keeps (¬m.Malformed) m.call := by
  cases m with
  | mldsaKeygen level => exact mldsaKeygen_keeps
  | mldsaKeygenFromSeed level seed => exact mldsaKeygenFromSeed_keeps
  | mldsaSign level secretKey message => exact signWith_keeps _ fun sk hN => Raising.ensures_pure hN
  | mldsaSignHedged level secretKey message => exact signWith_keeps _ fun sk hN => keeps_call hN
  | mlkemKeygen level => exact mlkemKeygen_keeps
  | mlkemEncapsulate level publicKey => exact mlkemEncapsulate_keeps
  | mlkemDecapsulate level secretKey ciphertext => exact mlkemDecapsulate_keeps
  | shake256 data outLen => exact shake256_keeps outLen
  | pubkeyHash publicKey len => exact pubkeyHash_keeps len
  | signBytesVersionFor chainId height =>
    exact Raising.ensures_ofExcept ((signBytesVersionFor_checks h).mono fun _ _ => id)
  | signBytesVersionForApplied chainId heights =>
    obtain ⟨best, heq, hbest⟩ := signBytesVersionForApplied_best chainId heights
    change Keeps _ (lift (Java.signBytesVersionForApplied chainId heights))
    rw [heq]
    exact Raising.ensures_ofExcept ((signBytesVersionFor_checks fun hn => hbest.mpr (h hn)).mono fun _ _ => id)
  | hybridSignBytesV1 b0 auth => exact Raising.ensures_ofExcept (hybridSignBytesV1_checks h)
  | hybridSignBytesV2 chainId b0 auth => exact Raising.ensures_ofExcept (hybridSignBytesV2_checks h)
  | hybridSignBytes version chainId b0 auth =>
    change Keeps _ (lift (Java.hybridSignBytes version chainId b0 auth))
    unfold Java.hybridSignBytes
    split
    · exact Raising.ensures_ofExcept (hybridSignBytesV1_checks (h.1 ‹_›))
    · split
      · exact Raising.ensures_ofExcept (hybridSignBytesV2_checks (h.2 ‹_›))
      · exact Raising.ensures_throw ⟨_, rfl⟩

theorem honours_of_keeps (h : Keeps (¬m.Malformed) m.call) {tr : List (Event Req (Refusable Thrown Res))}
    {r : Except Thrown m.Result} (hr : Run Req.mayAnswer m.call.run tr r) : m.Honours tr r where
  ends := by
    rintro e rfl
    exact h.run hr ()
  exact e he := by
    obtain ⟨_, hpre⟩ := Run.asked (L := contract (¬m.Malformed)) hr (h ()) e he
    exact hpre.1
  refuses hm := by
    have hasked := Run.asked (L := contract (¬m.Malformed)) hr (h ())
    have hend : Ends (fun _ => ¬m.Malformed) Thrown.IsIllegalArgument r := h.run hr ()
    refine ⟨List.eq_nil_iff_forall_not_mem.mpr fun e he => ?_, ?_⟩
    · obtain ⟨_, hpre⟩ := hasked e he
      exact hpre.2 hm
    · cases r with
      | ok a => exact absurd hm hend
      | error e => exact ⟨e, rfl⟩

/-- A computation over the sign-bytes that keeps the contract throws no other exception. -/
theorem thrown_of_honours (h : ∀ tr r, Run Req.mayAnswer m.call.run tr r → m.Honours tr r) {x : Except Stop m.Result}
    (hcall : m.call = lift x) {e : Stop} (he : x = .error e) : e.thrown.IsIllegalArgument := by
  have hrun : Run Req.mayAnswer m.call.run [] (.error e.thrown) := by
    rw [hcall, he]
    exact .ret _
  exact (h [] _ hrun).ends _ rfl

theorem not_illegal_nullPointer : ¬Stop.nullPointer.thrown.IsIllegalArgument := fun ⟨_, h⟩ => by cases h

theorem not_illegal_bufferOverflow : ¬Stop.bufferOverflow.thrown.IsIllegalArgument := fun ⟨_, h⟩ => by cases h

theorem not_illegal_outOfMemory : ¬Stop.outOfMemory.thrown.IsIllegalArgument := fun ⟨_, h⟩ => by cases h

theorem within_of_lookup {chainId : Option Str} {height : Int}
    (h : ∀ e, Java.signBytesVersionFor chainId height = .error e → e.thrown.IsIllegalArgument) :
    chainId = none → 0 < height := by
  rintro rfl
  by_contra hn
  exact not_illegal_nullPointer (h _ (signBytesVersionFor_none.trans (if_neg hn)))

theorem withinV1_of_thrown {b0 auth : Option Bytes}
    (h : ∀ e, Java.hybridSignBytesV1 b0 auth = .error e → e.thrown.IsIllegalArgument) : WithinV1 b0 auth := by
  intro b hb a ha hw
  obtain rfl := hb
  obtain rfl := ha
  exact not_illegal_bufferOverflow (h _ (hybridSignBytesV1_of_wraps hw))

theorem withinV2_of_thrown {chainId : Option Str} {b0 auth : Option Bytes}
    (h : ∀ e, Java.hybridSignBytesV2 chainId b0 auth = .error e → e.thrown.IsIllegalArgument) :
    WithinV2 chainId b0 auth := by
  intro c hc hne b hb a ha
  obtain rfl := hc
  obtain rfl := hb
  obtain rfl := ha
  have hl : (chainBytes c).length ≤ maxInt := by
    by_contra hl
    exact not_illegal_outOfMemory (h _ (hybridSignBytesV2_of_chainId hne (Nat.not_le.mp hl) b a))
  exact ⟨hl, fun hw => not_illegal_bufferOverflow (h _ (hybridSignBytesV2_of_wraps hne hl hw))⟩

/-- Only within the condition do the methods keep the contract. -/
theorem within_of_honours (h : ∀ tr r, Run Req.mayAnswer m.call.run tr r → m.Honours tr r) : m.Within := by
  cases m with
  | signBytesVersionFor chainId height => exact within_of_lookup fun e he => thrown_of_honours h rfl he
  | signBytesVersionForApplied chainId heights =>
    obtain ⟨best, heq, hbest⟩ := signBytesVersionForApplied_best chainId heights
    intro hn
    exact hbest.mp (within_of_lookup (fun e he => thrown_of_honours h rfl (heq.trans he)) hn)
  | hybridSignBytesV1 b0 auth => exact withinV1_of_thrown fun e he => thrown_of_honours h rfl he
  | hybridSignBytesV2 chainId b0 auth => exact withinV2_of_thrown fun e he => thrown_of_honours h rfl he
  | hybridSignBytes version chainId b0 auth =>
    refine ⟨fun hv => withinV1_of_thrown fun e he => ?_, fun hv => withinV2_of_thrown fun e he => ?_⟩
    · exact thrown_of_honours h rfl ((if_pos hv).trans he)
    · subst hv
      exact thrown_of_honours h rfl he
  | _ => trivial

end Method

/-- **The error contract** is kept in all runs of a call exactly within the condition. -/
theorem keeps_contract (m : Method) :
    (∀ tr r, Run Req.mayAnswer m.call.run tr r → m.Honours tr r) ↔ m.Within :=
  ⟨Method.within_of_honours, fun h _ _ hr => Method.honours_of_keeps (Method.call_keeps h) hr⟩

/-- An array of the greatest length. -/
def longest : Bytes := List.replicate maxInt 0

/-- Calls that throw something else. -/
theorem breaks_contract :
    (Method.signBytesVersionFor none 0).call = throw .nullPointer ∧
    (Method.signBytesVersionForApplied none none).call = throw .nullPointer ∧
    (Method.hybridSignBytesV1 (some longest) (some longest)).call = throw .bufferOverflow ∧
    ¬∀ m tr r, Run Req.mayAnswer m.call.run tr r → Method.Honours m tr r := by
  have hwraps : Wraps (8 + longest.length + longest.length) := by
    rw [longest, List.length_replicate]
    decide
  refine ⟨rfl, rfl, ?_, fun h => ?_⟩
  · change lift (hybridSignBytesV1 (some longest) (some longest)) = _
    rw [hybridSignBytesV1_of_wraps hwraps]
    rfl
  · obtain ⟨text, ht⟩ := (h (.signBytesVersionFor none 0) [] (.error .nullPointer) (.ret _)).ends _ rfl
    cases ht

end QorechainPqc.Java
