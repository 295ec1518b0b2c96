import QorechainPqc.Keys.Standard
import QorechainPqc.Lib.Raise
import QorechainPqc.SignBytes.Rust
import QorechainPqc.Verify.Compiled

/-!
# Keys and signatures in Go and Rust

The functions of `pqc.go` and `lib.rs` that make keys, signatures, encapsulations and shared secrets. They ask their
libraries, CIRCL and the crates `fips204` and `fips203`, for what they do not compute themselves; the key types of the
libraries are parameters.

* Go: the handle of a scheme holds its name and the scheme of CIRCL; `SignHedged` goes by the name, everything else by
  the scheme. Lengths are left to CIRCL.
* Rust: keys and ciphertexts are converted to arrays first, and the error of each step is a text of its own.

`Go.sign_eq`, `Rust.sign_eq` and the lemmas around them say what the functions return when the libraries follow the
standards.
-/

namespace QorechainPqc

open Failing Program MonadExcept

/-! ## Go -/

namespace Go

/-- What a call ends with instead of a result: an error, with the string that `%q` shows behind its text, or a panic. -/
inductive Fault
  | error (text : String) (quoted : Option String)
  | panic

/-- The key types of CIRCL. -/
structure KeyTypes where
  PublicKey : Type
  PrivateKey : Type
  KemPublicKey : Type
  KemPrivateKey : Type

/-- What is asked of CIRCL. -/
inductive Req (T : KeyTypes)
  | generateKey (l : MlDsa.Level)
  | deriveKey (l : MlDsa.Level) (seed : Bytes)
  | marshalPublic (pk : T.PublicKey)
  | marshalPrivate (sk : T.PrivateKey)
  | unmarshalPrivate (l : MlDsa.Level) (b : Bytes)
  /-- `Sign(sk, message, nil)` of the scheme. -/
  | sign (l : MlDsa.Level) (sk : T.PrivateKey) (message : Bytes)
  /-- `sk.UnmarshalBinary(b)` for the `PrivateKey` of the package of the level. -/
  | packageUnmarshal (l : MlDsa.Level) (b : Bytes)
  /-- `SignTo(&sk, message, nil, randomized, sig)` of the package, for a slice of the given length. -/
  | signTo (l : MlDsa.Level) (sk : T.PrivateKey) (message : Bytes) (randomized : Bool) (sig : Nat)
  | generateKeyPair (l : MlKem.Level)
  | kemMarshalPublic (pk : T.KemPublicKey)
  | kemMarshalPrivate (sk : T.KemPrivateKey)
  | kemUnmarshalPublic (l : MlKem.Level) (b : Bytes)
  | kemUnmarshalPrivate (l : MlKem.Level) (b : Bytes)
  | encapsulate (l : MlKem.Level) (pk : T.KemPublicKey)
  | decapsulate (l : MlKem.Level) (sk : T.KemPrivateKey) (ct : Bytes)

/-- The results; of `signTo` the contents of the slice. -/
abbrev Res {T : KeyTypes} : Req T → Type
  | .generateKey _ => T.PublicKey × T.PrivateKey
  | .deriveKey _ _ => T.PublicKey × T.PrivateKey
  | .unmarshalPrivate _ _ => T.PrivateKey
  | .packageUnmarshal _ _ => T.PrivateKey
  | .generateKeyPair _ => T.KemPublicKey × T.KemPrivateKey
  | .kemUnmarshalPublic _ _ => T.KemPublicKey
  | .kemUnmarshalPrivate _ _ => T.KemPrivateKey
  | .encapsulate _ _ => Bytes × Bytes
  | _ => Bytes

/-- A method. -/
abbrev Gm (T : KeyTypes) := Raising Fault (Req T) Res

/-- A `SigScheme` that makes keys and signatures: its name, and which of CIRCL's schemes it holds. -/
structure Signer where
  name : String
  s : MlDsa.Level

/-- A `KemScheme`. -/
structure Kem where
  name : String
  s : MlKem.Level

/-- `MLDSA44`, `MLDSA65` and `MLDSA87`. -/
def Signer.ofLevel (l : MlDsa.Level) : Signer := ⟨l.name, l⟩

/-- `MLKEM512`, `MLKEM768` and `MLKEM1024`. -/
def Kem.ofLevel (l : MlKem.Level) : Kem := ⟨l.name, l⟩

/-- `MLDSA`, the default. -/
def mldsa : Signer := .ofLevel .l87

/-- `MLKEM`, the default. -/
def mlkem : Kem := .ofLevel .l1024

variable {T : KeyTypes}

/-- `ask` with the type of results of the request. -/
abbrev call (q : Req T) : Gm T (Res q) := Raising.ask q

/-- `b, _ = k.MarshalBinary()`: with an error, the slice is `nil`. -/
def marshalled (p : Gm T Bytes) : Gm T Bytes :=
  tryCatch p fun
    | .error _ _ => pure []
    | .panic => throw .panic

/-- `SigScheme.Keygen`. -/
def Signer.keygen (sc : Signer) : Gm T (Bytes × Bytes) := do
  let (pk, sk) ← call (.generateKey sc.s)
  let pub ← marshalled (call (.marshalPublic pk))
  let sec ← marshalled (call (.marshalPrivate sk))
  return (pub, sec)

/-- `SigScheme.KeygenFromSeed`; the seed size of the schemes is 32. -/
def Signer.keygenFromSeed (sc : Signer) (seed : Bytes) : Gm T (Bytes × Bytes) := do
  if seed.length ≠ 32 then throw (.error "pqc: bad seed length" none)
  let (pk, sk) ← call (.deriveKey sc.s seed)
  let pub ← marshalled (call (.marshalPublic pk))
  let sec ← marshalled (call (.marshalPrivate sk))
  return (pub, sec)

/-- `SigScheme.Sign`. -/
def Signer.sign (sc : Signer) (secretKey message : Bytes) : Gm T Bytes := do
  let sk ← call (.unmarshalPrivate sc.s secretKey)
  call (.sign sc.s sk message)

/-- A case of `SignHedged`, into a slice of `sig` bytes. -/
def signTo (l : MlDsa.Level) (sig : Nat) (secretKey message : Bytes) : Gm T Bytes := do
  let sk ← call (.packageUnmarshal l secretKey)
  call (.signTo l sk message true sig)

/-- `SigScheme.SignHedged`. -/
def Signer.signHedged (sc : Signer) (secretKey message : Bytes) : Gm T Bytes :=
  let sig := sc.s.sizes.signature
  if sc.name = "ml-dsa-44" then signTo .l44 sig secretKey message
  else if sc.name = "ml-dsa-65" then signTo .l65 sig secretKey message
  else if sc.name = "ml-dsa-87" then signTo .l87 sig secretKey message
  else throw (.error "pqc: unknown scheme " (some sc.name))

/-- `KemScheme.Keygen`. -/
def Kem.keygen (kc : Kem) : Gm T (Bytes × Bytes) := do
  let (pk, sk) ← call (.generateKeyPair kc.s)
  let pub ← marshalled (call (.kemMarshalPublic pk))
  let sec ← marshalled (call (.kemMarshalPrivate sk))
  return (pub, sec)

/-- `KemScheme.Encapsulate`. -/
def Kem.encapsulate (kc : Kem) (publicKey : Bytes) : Gm T (Bytes × Bytes) := do
  let pk ← call (.kemUnmarshalPublic kc.s publicKey)
  call (.encapsulate kc.s pk)

/-- `KemScheme.Decapsulate`. -/
def Kem.decapsulate (kc : Kem) (secretKey ciphertext : Bytes) : Gm T Bytes := do
  let sk ← call (.kemUnmarshalPrivate kc.s secretKey)
  call (.decapsulate kc.s sk ciphertext)

/-! ### What CIRCL answers -/

/-- CIRCL follows the standards on generated keys, and refuses secret keys of other sizes. -/
structure Follows (env : ∀ q : Req T, Except Fault (Res q)) (S : MlDsa.Standard) (K : MlKem.Standard) : Prop where
  generateKey : ∀ l, ∃ ξ pk sk, env (.generateKey l) = .ok (pk, sk) ∧
    env (.marshalPublic pk) = .ok (S.keygen l ξ).1.1 ∧ env (.marshalPrivate sk) = .ok (S.keygen l ξ).2.1
  deriveKey : ∀ l (ξ : Sized 32), ∃ pk sk, env (.deriveKey l ξ.1) = .ok (pk, sk) ∧
    env (.marshalPublic pk) = .ok (S.keygen l ξ).1.1 ∧ env (.marshalPrivate sk) = .ok (S.keygen l ξ).2.1
  sign : ∀ l ξ m, ∃ sk, env (.unmarshalPrivate l (S.keygen l ξ).2.1) = .ok sk ∧
    env (.sign l sk m) = .ok (S.signDeterministic l (S.keygen l ξ).2 m).1
  signTo : ∀ l ξ m, ∃ sk rnd, env (.packageUnmarshal l (S.keygen l ξ).2.1) = .ok sk ∧
    env (.signTo l sk m true l.sizes.signature) = .ok (S.sign l (S.keygen l ξ).2 m rnd).1
  refuses : ∀ l (b : Bytes), b.length ≠ l.sizes.secretKey →
    (∃ text, env (.unmarshalPrivate l b) = .error (.error text none)) ∧
      ∃ text, env (.packageUnmarshal l b) = .error (.error text none)
  generateKeyPair : ∀ l, ∃ seed pk sk, env (.generateKeyPair l) = .ok (pk, sk) ∧
    env (.kemMarshalPublic pk) = .ok (K.keygen l seed).1.1 ∧ env (.kemMarshalPrivate sk) = .ok (K.keygen l seed).2.1
  encapsulate : ∀ l seed, ∃ pk coin, env (.kemUnmarshalPublic l (K.keygen l seed).1.1) = .ok pk ∧
    env (.encapsulate l pk) = .ok ((K.encaps l (K.keygen l seed).1 coin).1.1, (K.encaps l (K.keygen l seed).1 coin).2.1)
  decapsulate : ∀ l seed (ct : Sized l.sizes.ciphertext), ∃ sk,
    env (.kemUnmarshalPrivate l (K.keygen l seed).2.1) = .ok sk ∧
      env (.decapsulate l sk ct.1) = .ok (K.decaps l (K.keygen l seed).2 ct).1

/-- CIRCL refuses ML-KEM keys and ciphertexts of other sizes, with an error. -/
structure RefusesSizes (env : ∀ q : Req T, Except Fault (Res q)) : Prop where
  publicKey : ∀ l (b : Bytes), b.length ≠ l.sizes.publicKey →
    ∃ text, env (.kemUnmarshalPublic l b) = .error (.error text none)
  secretKey : ∀ l (b : Bytes), b.length ≠ l.sizes.secretKey →
    ∃ text, env (.kemUnmarshalPrivate l b) = .error (.error text none)
  ciphertext : ∀ l sk (ct : Bytes), ct.length ≠ l.sizes.ciphertext →
    ∃ text, env (.decapsulate l sk ct) = .error (.error text none)

section Results

variable {env : ∀ q : Req T, Except Fault (Res q)} {S : MlDsa.Standard} {K : MlKem.Standard}

/-- The two `MarshalBinary` at the end of the key generations. -/
theorem marshalled_eq {p : Gm T Bytes} {b : Bytes} (h : p.eval env = .ok b) : (marshalled p).eval env = .ok b := by
  rw [marshalled, Raising.eval_tryCatch, h]
  rfl

theorem keygen_eq (h : Follows env S K) (l : MlDsa.Level) :
    ∃ ξ, (Signer.ofLevel l).keygen.eval env = .ok ((S.keygen l ξ).1.1, (S.keygen l ξ).2.1) := by
  obtain ⟨ξ, pk, sk, hkey, hpk, hsk⟩ := h.generateKey l
  refine ⟨ξ, ?_⟩
  simp only [Signer.keygen, Signer.ofLevel, Raising.eval_bind, Raising.eval_ask, hkey, ok_bind,
    marshalled_eq (p := call (.marshalPublic pk)) hpk, marshalled_eq (p := call (.marshalPrivate sk)) hsk,
    Raising.eval_pure]

theorem keygenFromSeed_eq (h : Follows env S K) (l : MlDsa.Level) (ξ : Sized 32) :
    ((Signer.ofLevel l).keygenFromSeed ξ.1).eval env = .ok ((S.keygen l ξ).1.1, (S.keygen l ξ).2.1) := by
  obtain ⟨pk, sk, hkey, hpk, hsk⟩ := h.deriveKey l ξ
  unfold Signer.keygenFromSeed
  rw [if_neg (not_not_intro ξ.2)]
  simp only [Signer.ofLevel, Raising.eval_bind, Raising.eval_pure, Raising.eval_ask, hkey, ok_bind,
    marshalled_eq (p := call (.marshalPublic pk)) hpk, marshalled_eq (p := call (.marshalPrivate sk)) hsk]

/-- **`Sign`** is deterministic. -/
theorem sign_eq (h : Follows env S K) (l : MlDsa.Level) (ξ : Sized 32) (m : Bytes) :
    ((Signer.ofLevel l).sign (S.keygen l ξ).2.1 m).eval env = .ok (S.signDeterministic l (S.keygen l ξ).2 m).1 := by
  obtain ⟨sk, hsk, hsign⟩ := h.sign l ξ m
  simp only [Signer.sign, Signer.ofLevel, Raising.eval_bind, Raising.eval_ask, hsk, ok_bind, hsign]

/-- The name of a handle of the package selects the package of its scheme. -/
theorem signHedged_ofLevel (l : MlDsa.Level) (secretKey message : Bytes) :
    (Signer.ofLevel l).signHedged secretKey message = (signTo l l.sizes.signature secretKey message : Gm T Bytes) := by
  have h65 : "ml-dsa-65" ≠ "ml-dsa-44" := by decide
  have h87 : "ml-dsa-87" ≠ "ml-dsa-44" := by decide
  have h87' : "ml-dsa-87" ≠ "ml-dsa-65" := by decide
  simp only [Signer.signHedged, Signer.ofLevel]
  cases l with
  | l44 => exact if_pos rfl
  | l65 => exact (if_neg h65).trans (if_pos rfl)
  | l87 => exact (if_neg h87).trans ((if_neg h87').trans (if_pos rfl))

theorem signHedged_eq (h : Follows env S K) (l : MlDsa.Level) (ξ : Sized 32) (m : Bytes) :
    ∃ rnd, ((Signer.ofLevel l).signHedged (S.keygen l ξ).2.1 m).eval env =
      .ok (S.sign l (S.keygen l ξ).2 m rnd).1 := by
  obtain ⟨sk, rnd, hsk, hsign⟩ := h.signTo l ξ m
  refine ⟨rnd, ?_⟩
  rw [signHedged_ofLevel]
  simp only [signTo, Raising.eval_bind, Raising.eval_ask, hsk, ok_bind, hsign]

theorem kem_keygen_eq (h : Follows env S K) (l : MlKem.Level) :
    ∃ seed, (Kem.ofLevel l).keygen.eval env = .ok ((K.keygen l seed).1.1, (K.keygen l seed).2.1) := by
  obtain ⟨seed, pk, sk, hkey, hpk, hsk⟩ := h.generateKeyPair l
  refine ⟨seed, ?_⟩
  simp only [Kem.keygen, Kem.ofLevel, Raising.eval_bind, Raising.eval_ask, hkey, ok_bind,
    marshalled_eq (p := call (.kemMarshalPublic pk)) hpk, marshalled_eq (p := call (.kemMarshalPrivate sk)) hsk,
    Raising.eval_pure]

theorem encapsulate_eq (h : Follows env S K) (l : MlKem.Level) (seed : Sized 64) :
    ∃ coin, ((Kem.ofLevel l).encapsulate (K.keygen l seed).1.1).eval env =
      .ok ((K.encaps l (K.keygen l seed).1 coin).1.1, (K.encaps l (K.keygen l seed).1 coin).2.1) := by
  obtain ⟨pk, coin, hpk, henc⟩ := h.encapsulate l seed
  refine ⟨coin, ?_⟩
  simp only [Kem.encapsulate, Kem.ofLevel, Raising.eval_bind, Raising.eval_ask, hpk, ok_bind, henc]

theorem decapsulate_eq (h : Follows env S K) (l : MlKem.Level) (seed : Sized 64) (ct : Sized l.sizes.ciphertext) :
    ((Kem.ofLevel l).decapsulate (K.keygen l seed).2.1 ct.1).eval env = .ok (K.decaps l (K.keygen l seed).2 ct).1 := by
  obtain ⟨sk, hsk, hdec⟩ := h.decapsulate l seed ct
  simp only [Kem.decapsulate, Kem.ofLevel, Raising.eval_bind, Raising.eval_ask, hsk, ok_bind, hdec]

theorem encapsulate_of_length (h : RefusesSizes env) {l : MlKem.Level} {pk : Bytes}
    (hlen : pk.length ≠ l.sizes.publicKey) :
    ∃ text, ((Kem.ofLevel l).encapsulate pk).eval env = .error (.error text none) := by
  obtain ⟨text, ht⟩ := h.publicKey l pk hlen
  refine ⟨text, ?_⟩
  simp only [Kem.encapsulate, Kem.ofLevel, Raising.eval_bind, Raising.eval_ask, ht, error_bind]

/-- A ciphertext of another size is refused with a generated key, and a secret key of another size with any
ciphertext. -/
theorem decapsulate_of_length (h : Follows env S K) (hr : RefusesSizes env) {l : MlKem.Level} {sk ct : Bytes}
    (hlen : sk.length ≠ l.sizes.secretKey ∨ ct.length ≠ l.sizes.ciphertext)
    (hsk : sk.length = l.sizes.secretKey → ∃ seed, sk = (K.keygen l seed).2.1) :
    ∃ text, ((Kem.ofLevel l).decapsulate sk ct).eval env = .error (.error text none) := by
  by_cases hsize : sk.length = l.sizes.secretKey
  · obtain ⟨seed, rfl⟩ := hsk hsize
    obtain ⟨key, hkey, -⟩ := h.decapsulate l seed (.zeros _)
    obtain ⟨text, ht⟩ := hr.ciphertext l key ct (hlen.resolve_left (not_not_intro hsize))
    refine ⟨text, ?_⟩
    simp only [Kem.decapsulate, Kem.ofLevel, Raising.eval_bind, Raising.eval_ask, hkey, ok_bind, ht]
  · obtain ⟨text, ht⟩ := hr.secretKey l sk hsize
    refine ⟨text, ?_⟩
    simp only [Kem.decapsulate, Kem.ofLevel, Raising.eval_bind, Raising.eval_ask, ht, error_bind]

/-- A secret key of another size is refused, by both ways to sign. -/
theorem sign_of_length (h : Follows env S K) {l : MlDsa.Level} {secretKey : Bytes}
    (hlen : secretKey.length ≠ l.sizes.secretKey) (m : Bytes) :
    (∃ text, ((Signer.ofLevel l).sign secretKey m).eval env = .error (.error text none)) ∧
      ∃ text, ((Signer.ofLevel l).signHedged secretKey m).eval env = .error (.error text none) := by
  obtain ⟨⟨text, ht⟩, text', ht'⟩ := h.refuses l secretKey hlen
  refine ⟨⟨text, ?_⟩, text', ?_⟩
  · simp only [Signer.sign, Signer.ofLevel, Raising.eval_bind, Raising.eval_ask, ht, error_bind]
  · rw [signHedged_ofLevel]
    simp only [signTo, Raising.eval_bind, Raising.eval_ask, ht', error_bind]

end Results

end Go

/-! ## Rust -/

namespace Rust

/-- The types of `fips204` and `fips203` with their `into_bytes`. -/
structure KeyTypes where
  PublicKey : MlDsa.Level → Type
  PrivateKey : MlDsa.Level → Type
  EncapsKey : MlKem.Level → Type
  DecapsKey : MlKem.Level → Type
  CipherText : MlKem.Level → Type
  SharedSecret : MlKem.Level → Type
  publicBytes : ∀ {l}, PublicKey l → ByteArr l.sizes.publicKey
  privateBytes : ∀ {l}, PrivateKey l → ByteArr l.sizes.secretKey
  encapsBytes : ∀ {l}, EncapsKey l → ByteArr l.sizes.publicKey
  decapsBytes : ∀ {l}, DecapsKey l → ByteArr l.sizes.secretKey
  cipherBytes : ∀ {l}, CipherText l → ByteArr l.sizes.ciphertext
  secretBytes : ∀ {l}, SharedSecret l → ByteArr 32

/-- What is asked of the two crates, in the module of a level. -/
inductive Req (T : KeyTypes)
  | tryKeygen (l : MlDsa.Level)
  | keygenFromSeed (l : MlDsa.Level) (seed : ByteArr 32)
  /-- `PrivateKey::try_from_bytes`. -/
  | privateKey (l : MlDsa.Level) (b : ByteArr l.sizes.secretKey)
  | trySignWithSeed (l : MlDsa.Level) (sk : T.PrivateKey l) (rnd : ByteArr 32) (message ctx : Bytes)
  | trySign (l : MlDsa.Level) (sk : T.PrivateKey l) (message ctx : Bytes)
  /-- `KG::try_keygen`. -/
  | kemTryKeygen (l : MlKem.Level)
  /-- `EncapsKey::try_from_bytes`. -/
  | encapsKey (l : MlKem.Level) (b : ByteArr l.sizes.publicKey)
  | tryEncaps (l : MlKem.Level) (ek : T.EncapsKey l)
  /-- `DecapsKey::try_from_bytes`. -/
  | decapsKey (l : MlKem.Level) (b : ByteArr l.sizes.secretKey)
  /-- `CipherText::try_from_bytes`. -/
  | cipherText (l : MlKem.Level) (b : ByteArr l.sizes.ciphertext)
  | tryDecaps (l : MlKem.Level) (dk : T.DecapsKey l) (ct : T.CipherText l)

/-- The results. -/
abbrev Res {T : KeyTypes} : Req T → Type
  | .tryKeygen l => T.PublicKey l × T.PrivateKey l
  | .keygenFromSeed l _ => T.PublicKey l × T.PrivateKey l
  | .privateKey l _ => T.PrivateKey l
  | .trySignWithSeed l _ _ _ _ => ByteArr l.sizes.signature
  | .trySign l _ _ _ => ByteArr l.sizes.signature
  | .kemTryKeygen l => T.EncapsKey l × T.DecapsKey l
  | .encapsKey l _ => T.EncapsKey l
  | .tryEncaps l _ => T.SharedSecret l × T.CipherText l
  | .decapsKey l _ => T.DecapsKey l
  | .cipherText l _ => T.CipherText l
  | .tryDecaps l _ _ => T.SharedSecret l

/-- A function. -/
abbrev Rs (T : KeyTypes) := Raising Stop (Req T) Res

variable {T : KeyTypes} {α : Type}

/-- `ask` with the type of results of the request. -/
abbrev call (q : Req T) : Rs T (Res q) := Raising.ask q

/-- `map_err(|_| text)?`. -/
def mapErr (text : String) (p : Rs T α) : Rs T α :=
  tryCatch p fun
    | .err _ => throw (.err text)
    | .panic => throw .panic

/-- `try_into().map_err(|_| text)?`. -/
def intoArr (text : String) (n : Nat) (b : Bytes) : Rs T (ByteArr n) :=
  ofExcept ((tryInto n b).mapError fun _ => .err text)

/-! ### ML-DSA -/

/-- `keygen`. -/
def keygen (l : MlDsa.Level) : Rs T (Bytes × Bytes) := do
  let (pk, sk) ← mapErr "keygen failed" (call (.tryKeygen l))
  return ((T.publicBytes pk).1, (T.privateBytes sk).1)

/-- `keygen_from_seed`. -/
def keygenFromSeed (l : MlDsa.Level) (seed : ByteArr 32) : Rs T (Bytes × Bytes) := do
  let (pk, sk) ← call (.keygenFromSeed l seed)
  return ((T.publicBytes pk).1, (T.privateBytes sk).1)

/-- `sign`. -/
def sign (l : MlDsa.Level) (secretKey message : Bytes) : Rs T Bytes := do
  let arr ← intoArr "bad secret key length" l.sizes.secretKey secretKey
  let sk ← mapErr "bad secret key" (call (.privateKey l arr))
  let sig ← mapErr "sign failed" (call (.trySignWithSeed l sk (Sized.zeros 32) message []))
  return sig.1

/-- `sign_hedged`. -/
def signHedged (l : MlDsa.Level) (secretKey message : Bytes) : Rs T Bytes := do
  let arr ← intoArr "bad secret key length" l.sizes.secretKey secretKey
  let sk ← mapErr "bad secret key" (call (.privateKey l arr))
  let sig ← mapErr "sign failed" (call (.trySign l sk message []))
  return sig.1

/-! ### ML-KEM -/

/-- `keygen` of `mlkem`. -/
def kemKeygen (l : MlKem.Level) : Rs T (Bytes × Bytes) := do
  let (ek, dk) ← mapErr "keygen failed" (call (.kemTryKeygen l))
  return ((T.encapsBytes ek).1, (T.decapsBytes dk).1)

/-- `encapsulate`: the ciphertext and the shared secret. -/
def encapsulate (l : MlKem.Level) (publicKey : Bytes) : Rs T (Bytes × Bytes) := do
  let arr ← intoArr "bad public key length" l.sizes.publicKey publicKey
  let ek ← mapErr "bad public key" (call (.encapsKey l arr))
  let (ss, ct) ← mapErr "encaps failed" (call (.tryEncaps l ek))
  return ((T.cipherBytes ct).1, (T.secretBytes ss).1)

/-- `decapsulate`. -/
def decapsulate (l : MlKem.Level) (secretKey ciphertext : Bytes) : Rs T Bytes := do
  let skArr ← intoArr "bad secret key length" l.sizes.secretKey secretKey
  let ctArr ← intoArr "bad ciphertext length" l.sizes.ciphertext ciphertext
  let dk ← mapErr "bad secret key" (call (.decapsKey l skArr))
  let ct ← mapErr "bad ciphertext" (call (.cipherText l ctArr))
  let ss ← mapErr "decaps failed" (call (.tryDecaps l dk ct))
  return (T.secretBytes ss).1

/-! ### What the crates answer -/

/-- `fips204` and `fips203` follow the standards on generated keys. -/
structure Follows (env : ∀ q : Req T, Except Stop (Res q)) (S : MlDsa.Standard) (K : MlKem.Standard) : Prop where
  tryKeygen : ∀ l, ∃ ξ pk sk, env (.tryKeygen l) = .ok (pk, sk) ∧
    T.publicBytes pk = (S.keygen l ξ).1 ∧ T.privateBytes sk = (S.keygen l ξ).2
  keygenFromSeed : ∀ l (ξ : Sized 32), ∃ pk sk, env (.keygenFromSeed l ξ) = .ok (pk, sk) ∧
    T.publicBytes pk = (S.keygen l ξ).1 ∧ T.privateBytes sk = (S.keygen l ξ).2
  sign : ∀ l ξ m, ∃ sk, env (.privateKey l (S.keygen l ξ).2) = .ok sk ∧
    (∀ rnd, env (.trySignWithSeed l sk rnd m []) = .ok (S.sign l (S.keygen l ξ).2 m rnd)) ∧
      ∃ rnd, env (.trySign l sk m []) = .ok (S.sign l (S.keygen l ξ).2 m rnd)
  kemTryKeygen : ∀ l, ∃ seed ek dk, env (.kemTryKeygen l) = .ok (ek, dk) ∧
    T.encapsBytes ek = (K.keygen l seed).1 ∧ T.decapsBytes dk = (K.keygen l seed).2
  encaps : ∀ l seed, ∃ ek ss ct coin, env (.encapsKey l (K.keygen l seed).1) = .ok ek ∧
    env (.tryEncaps l ek) = .ok (ss, ct) ∧ T.cipherBytes ct = (K.encaps l (K.keygen l seed).1 coin).1 ∧
      T.secretBytes ss = (K.encaps l (K.keygen l seed).1 coin).2
  decaps : ∀ l seed c, ∃ dk ct ss, env (.decapsKey l (K.keygen l seed).2) = .ok dk ∧
    env (.cipherText l c) = .ok ct ∧ env (.tryDecaps l dk ct) = .ok ss ∧
      T.secretBytes ss = K.decaps l (K.keygen l seed).2 c

section Results

variable {env : ∀ q : Req T, Except Stop (Res q)} {S : MlDsa.Standard} {K : MlKem.Standard}

theorem mapErr_ok {text : String} {p : Rs T α} {a : α} (h : p.eval env = .ok a) :
    (mapErr text p).eval env = .ok a := by
  rw [mapErr, Raising.eval_tryCatch, h]
  rfl

theorem intoArr_sized (text : String) {n : Nat} (b : Sized n) : (intoArr text n b.1 : Rs T _) = pure b := by
  have hinto : tryInto n b.1 = .ok b := dif_pos b.2
  rw [intoArr, hinto]
  rfl

theorem intoArr_of_ne (text : String) {n : Nat} {b : Bytes} (h : b.length ≠ n) :
    (intoArr text n b : Rs T _) = throw (.err text) := by
  have hinto : tryInto n b = .error () := dif_neg h
  rw [intoArr, hinto]
  rfl

theorem keygen_eq (h : Follows env S K) (l : MlDsa.Level) :
    ∃ ξ, (keygen l).eval env = .ok ((S.keygen l ξ).1.1, (S.keygen l ξ).2.1) := by
  obtain ⟨ξ, pk, sk, hkey, hpk, hsk⟩ := h.tryKeygen l
  refine ⟨ξ, ?_⟩
  simp only [keygen, Raising.eval_bind, mapErr_ok (p := call (.tryKeygen l)) hkey, ok_bind, Raising.eval_pure, hpk, hsk]

theorem keygenFromSeed_eq (h : Follows env S K) (l : MlDsa.Level) (ξ : Sized 32) :
    (keygenFromSeed l ξ).eval env = .ok ((S.keygen l ξ).1.1, (S.keygen l ξ).2.1) := by
  obtain ⟨pk, sk, hkey, hpk, hsk⟩ := h.keygenFromSeed l ξ
  simp only [keygenFromSeed, Raising.eval_bind, Raising.eval_ask, hkey, ok_bind, Raising.eval_pure, hpk, hsk]

/-- **`sign`** is deterministic. -/
theorem sign_eq (h : Follows env S K) (l : MlDsa.Level) (ξ : Sized 32) (m : Bytes) :
    (sign l (S.keygen l ξ).2.1 m).eval env = .ok (S.signDeterministic l (S.keygen l ξ).2 m).1 := by
  obtain ⟨sk, hsk, hsign, -⟩ := h.sign l ξ m
  simp only [sign, intoArr_sized, Raising.eval_bind, Raising.eval_pure, mapErr_ok (p := call (.privateKey l _)) hsk,
    ok_bind, mapErr_ok (p := call (.trySignWithSeed l sk _ m [])) (hsign _)]
  rfl

theorem signHedged_eq (h : Follows env S K) (l : MlDsa.Level) (ξ : Sized 32) (m : Bytes) :
    ∃ rnd, (signHedged l (S.keygen l ξ).2.1 m).eval env = .ok (S.sign l (S.keygen l ξ).2 m rnd).1 := by
  obtain ⟨sk, hsk, -, rnd, hsign⟩ := h.sign l ξ m
  refine ⟨rnd, ?_⟩
  simp only [signHedged, intoArr_sized, Raising.eval_bind, Raising.eval_pure,
    mapErr_ok (p := call (.privateKey l _)) hsk, ok_bind, mapErr_ok (p := call (.trySign l sk m [])) hsign]

theorem kemKeygen_eq (h : Follows env S K) (l : MlKem.Level) :
    ∃ seed, (kemKeygen l).eval env = .ok ((K.keygen l seed).1.1, (K.keygen l seed).2.1) := by
  obtain ⟨seed, ek, dk, hkey, hek, hdk⟩ := h.kemTryKeygen l
  refine ⟨seed, ?_⟩
  simp only [kemKeygen, Raising.eval_bind, mapErr_ok (p := call (.kemTryKeygen l)) hkey, ok_bind, Raising.eval_pure,
    hek, hdk]

theorem encapsulate_eq (h : Follows env S K) (l : MlKem.Level) (seed : Sized 64) :
    ∃ coin, (encapsulate l (K.keygen l seed).1.1).eval env =
      .ok ((K.encaps l (K.keygen l seed).1 coin).1.1, (K.encaps l (K.keygen l seed).1 coin).2.1) := by
  obtain ⟨ek, ss, ct, coin, hek, henc, hct, hss⟩ := h.encaps l seed
  refine ⟨coin, ?_⟩
  simp only [encapsulate, intoArr_sized, Raising.eval_bind, Raising.eval_pure, ok_bind,
    mapErr_ok (p := call (.encapsKey l _)) hek, mapErr_ok (p := call (.tryEncaps l ek)) henc, hct, hss]

theorem decapsulate_eq (h : Follows env S K) (l : MlKem.Level) (seed : Sized 64) (c : Sized l.sizes.ciphertext) :
    (decapsulate l (K.keygen l seed).2.1 c.1).eval env = .ok (K.decaps l (K.keygen l seed).2 c).1 := by
  obtain ⟨dk, ct, ss, hdk, hct, hdec, hss⟩ := h.decaps l seed c
  simp only [decapsulate, intoArr_sized, Raising.eval_bind, Raising.eval_pure, ok_bind,
    mapErr_ok (p := call (.decapsKey l _)) hdk, mapErr_ok (p := call (.cipherText l _)) hct,
    mapErr_ok (p := call (.tryDecaps l dk ct)) hdec, hss]

theorem encapsulate_of_length {l : MlKem.Level} {pk : Bytes} (hlen : pk.length ≠ l.sizes.publicKey) :
    (encapsulate l pk : Rs T _) = throw (.err "bad public key length") := by
  rw [encapsulate, intoArr_of_ne _ hlen]
  rfl

/-- A secret key or a ciphertext of another size is refused before the crate sees it; the text says which. -/
theorem decapsulate_of_length {l : MlKem.Level} {sk ct : Bytes}
    (hlen : sk.length ≠ l.sizes.secretKey ∨ ct.length ≠ l.sizes.ciphertext) :
    (decapsulate l sk ct : Rs T _) =
      throw (.err (if sk.length = l.sizes.secretKey then "bad ciphertext length" else "bad secret key length")) := by
  by_cases hsize : sk.length = l.sizes.secretKey
  · rw [if_pos hsize, decapsulate, intoArr_of_ne _ (hlen.resolve_left (not_not_intro hsize))]
    have hsk : (intoArr "bad secret key length" l.sizes.secretKey sk : Rs T _) = pure ⟨sk, hsize⟩ :=
      intoArr_sized _ ⟨sk, hsize⟩
    rw [hsk]
    rfl
  · rw [if_neg hsize, decapsulate, intoArr_of_ne _ hsize]
    rfl

/-- A secret key of another size is refused before the crate sees it, by both ways to sign. -/
theorem sign_of_length {l : MlDsa.Level} {secretKey : Bytes} (hlen : secretKey.length ≠ l.sizes.secretKey)
    (m : Bytes) : (sign l secretKey m : Rs T _) = throw (.err "bad secret key length") ∧
      (signHedged l secretKey m : Rs T _) = throw (.err "bad secret key length") := by
  constructor
  · rw [sign, intoArr_of_ne _ hlen]
    rfl
  · rw [signHedged, intoArr_of_ne _ hlen]
    rfl

end Results

end Rust

end QorechainPqc
