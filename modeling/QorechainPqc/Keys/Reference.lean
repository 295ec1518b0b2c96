import Mathlib.Data.List.TakeDrop
import QorechainPqc.BouncyCastle.Objects
import QorechainPqc.Keys.Compiled
import QorechainPqc.Keys.Js
import QorechainPqc.Verify.Agreement

/-!
# Libraries that follow the standards

For any functions that are taken as the standards there are libraries that do what `Js.Follows`, `Go.Follows` and
`Rust.Follows` ask: keys and ciphertexts are their own encodings, lengths are checked, and all random bytes are zeros.
For Java it is `Java.Implementation.reference`.

Two functions to take: signatures that are valid unless they are all zeros, and ciphertexts that begin with their
secret.
-/

namespace QorechainPqc

open Program

variable (S : MlDsa.Standard) (K : MlKem.Standard)

/-- `f` of a byte string of the right size. -/
def Sized.apply {ε α : Type} {n : Nat} (refusal : ε) (b : Bytes) (f : Sized n → α) : Except ε α :=
  if h : b.length = n then .ok (f ⟨b, h⟩) else .error refusal

@[simp] theorem Sized.apply_val {ε α : Type} {n : Nat} (refusal : ε) (b : Sized n) (f : Sized n → α) :
    Sized.apply refusal b.1 f = .ok (f b) := dif_pos b.2

theorem Sized.apply_of_ne {ε α : Type} {n : Nat} (refusal : ε) {b : Bytes} (h : b.length ≠ n) (f : Sized n → α) :
    Sized.apply refusal b f = .error refusal := dif_neg h

/-- The bytes of a key pair, or of a ciphertext with its secret. -/
def Sized.bytes {m n : Nat} (p : Sized m × Sized n) : Bytes × Bytes := (p.1.1, p.2.1)

/-! ## JavaScript -/

namespace Js

/-- A byte array, for a function that throws otherwise. -/
def Arg.apply {α : Type} (v : Arg) (f : Bytes → Except Stop α) : Except Stop α :=
  match v with
  | .bytes b => f b
  | .other _ _ => .error .typeError

/-- A library that follows the standards. -/
def reference : ∀ q, Except Stop (Res q)
  | .keygen l none => .ok (Sized.bytes (S.keygen l (.zeros 32)))
  | .keygen l (some seed) => seed.apply fun b => Sized.apply .typeError b fun ξ => Sized.bytes (S.keygen l ξ)
  | .sign l message secretKey _ => message.apply fun m => secretKey.apply fun b =>
    Sized.apply .typeError b fun sk => (S.signDeterministic l sk m).1
  | .kemKeygen l none => .ok (Sized.bytes (K.keygen l (.zeros 64)))
  | .kemKeygen l (some seed) => seed.apply fun b => Sized.apply .typeError b fun seed => Sized.bytes (K.keygen l seed)
  | .encapsulate l publicKey => publicKey.apply fun b =>
    Sized.apply .typeError b fun pk => Sized.bytes (K.encaps l pk (.zeros 32))
  | .decapsulate l cipherText secretKey => cipherText.apply fun c => secretKey.apply fun b =>
    if h : c.length = l.sizes.ciphertext then Sized.apply .typeError b fun sk => (K.decaps l sk ⟨c, h⟩).1
    else .error .typeError

theorem reference_follows : Follows (reference S K) S K where
  keygen _ := ⟨.zeros 32, rfl⟩
  keygenSeed l ξ := by simp [reference, Arg.apply, Sized.bytes]
  sign l ξ m := by simp [reference, Arg.apply]
  signHedged l ξ m := ⟨.zeros 32, by simp [reference, Arg.apply, MlDsa.Standard.signDeterministic]⟩
  kemKeygen _ := ⟨.zeros 64, rfl⟩
  kemKeygenSeed l seed := by simp [reference, Arg.apply, Sized.bytes]
  encapsulate l seed := ⟨.zeros 32, by simp [reference, Arg.apply, Sized.bytes]⟩
  decapsulate l seed ct := by simp [reference, Arg.apply, ct.2]

end Js

/-! ## Go -/

namespace Go

/-- Keys are their encodings. -/
def encodings : KeyTypes := ⟨Bytes, Bytes, Bytes, Bytes⟩

/-- The error of a wrong size. -/
def wrongSize : Fault := .error "wrong size" none

/-- A library that follows the standards. -/
def reference : ∀ q : Req encodings, Except Fault (Res q)
  | .generateKey l => .ok (Sized.bytes (S.keygen l (.zeros 32)))
  | .deriveKey l seed => Sized.apply .panic seed fun ξ => Sized.bytes (S.keygen l ξ)
  | .marshalPublic pk => .ok pk
  | .marshalPrivate sk => .ok sk
  | .unmarshalPrivate l b => Sized.apply (n := l.sizes.secretKey) wrongSize b fun sk => sk.1
  | .sign l sk m => Sized.apply .panic sk fun sk => (S.signDeterministic l sk m).1
  | .packageUnmarshal l b => Sized.apply (n := l.sizes.secretKey) wrongSize b fun sk => sk.1
  | .signTo l sk m _ _ => Sized.apply .panic sk fun sk => (S.signDeterministic l sk m).1
  | .generateKeyPair l => .ok (Sized.bytes (K.keygen l (.zeros 64)))
  | .kemMarshalPublic pk => .ok pk
  | .kemMarshalPrivate sk => .ok sk
  | .kemUnmarshalPublic l b => Sized.apply (n := l.sizes.publicKey) wrongSize b fun pk => pk.1
  | .kemUnmarshalPrivate l b => Sized.apply (n := l.sizes.secretKey) wrongSize b fun sk => sk.1
  | .encapsulate l pk => Sized.apply wrongSize pk fun pk => Sized.bytes (K.encaps l pk (.zeros 32))
  | .decapsulate l sk ct =>
    if h : ct.length = l.sizes.ciphertext then Sized.apply wrongSize sk fun sk => (K.decaps l sk ⟨ct, h⟩).1
    else .error wrongSize

theorem reference_follows : Follows (reference S K) S K where
  generateKey _ := ⟨.zeros 32, _, _, rfl, rfl, rfl⟩
  deriveKey l ξ := ⟨_, _, Sized.apply_val Fault.panic ξ fun ξ => Sized.bytes (S.keygen l ξ), rfl, rfl⟩
  sign l ξ m := ⟨(S.keygen l ξ).2.1, Sized.apply_val _ (S.keygen l ξ).2 _,
    Sized.apply_val Fault.panic (S.keygen l ξ).2 fun sk => (S.signDeterministic l sk m).1⟩
  signTo l ξ m := ⟨(S.keygen l ξ).2.1, .zeros 32, Sized.apply_val _ (S.keygen l ξ).2 _,
    Sized.apply_val Fault.panic (S.keygen l ξ).2 fun sk => (S.signDeterministic l sk m).1⟩
  refuses _ _ hb := ⟨⟨_, Sized.apply_of_ne _ hb _⟩, _, Sized.apply_of_ne _ hb _⟩
  generateKeyPair _ := ⟨.zeros 64, _, _, rfl, rfl, rfl⟩
  encapsulate l seed := ⟨(K.keygen l seed).1.1, .zeros 32, Sized.apply_val _ (K.keygen l seed).1 _,
    Sized.apply_val wrongSize (K.keygen l seed).1 fun pk => Sized.bytes (K.encaps l pk (.zeros 32))⟩
  decapsulate l seed ct := ⟨(K.keygen l seed).2.1, Sized.apply_val _ (K.keygen l seed).2 _,
    (dif_pos ct.2).trans (Sized.apply_val _ (K.keygen l seed).2 _)⟩

/-- It refuses keys and ciphertexts of other sizes. -/
theorem reference_refuses : RefusesSizes (reference S K) where
  publicKey _ _ hb := ⟨_, Sized.apply_of_ne _ hb _⟩
  secretKey _ _ hb := ⟨_, Sized.apply_of_ne _ hb _⟩
  ciphertext _ _ _ hct := ⟨_, dif_neg hct⟩

/-- An encapsulation with this library. -/
theorem reference_encapsulate (l : MlKem.Level) (pk : Sized l.sizes.publicKey) :
    ((Kem.ofLevel l).encapsulate pk.1).eval (reference S K) = .ok (Sized.bytes (K.encaps l pk (.zeros 32))) := by
  have hpk : reference S K (.kemUnmarshalPublic l pk.1) = .ok pk.1 := Sized.apply_val wrongSize pk fun pk => pk.1
  simp only [Kem.encapsulate, Kem.ofLevel, Raising.eval_bind, Raising.eval_ask, hpk]
  exact Sized.apply_val wrongSize pk fun pk => Sized.bytes (K.encaps l pk (.zeros 32))

end Go

/-! ## Rust -/

namespace Rust

/-- Keys and ciphertexts are their encodings. -/
def encodings : KeyTypes where
  PublicKey l := ByteArr l.sizes.publicKey
  PrivateKey l := ByteArr l.sizes.secretKey
  EncapsKey l := ByteArr l.sizes.publicKey
  DecapsKey l := ByteArr l.sizes.secretKey
  CipherText l := ByteArr l.sizes.ciphertext
  SharedSecret _ := ByteArr 32
  publicBytes := id
  privateBytes := id
  encapsBytes := id
  decapsBytes := id
  cipherBytes := id
  secretBytes := id

/-- A library that follows the standards. -/
def reference : ∀ q : Req encodings, Except Stop (Res q)
  | .tryKeygen l => .ok (S.keygen l (.zeros 32))
  | .keygenFromSeed l seed => .ok (S.keygen l seed)
  | .privateKey _ b => .ok b
  | .trySignWithSeed l sk rnd m _ => .ok (S.sign l sk m rnd)
  | .trySign l sk m _ => .ok (S.sign l sk m (.zeros 32))
  | .kemTryKeygen l => .ok (K.keygen l (.zeros 64))
  | .encapsKey _ b => .ok b
  | .tryEncaps l ek => .ok ((K.encaps l ek (.zeros 32)).2, (K.encaps l ek (.zeros 32)).1)
  | .decapsKey _ b => .ok b
  | .cipherText _ b => .ok b
  | .tryDecaps l dk ct => .ok (K.decaps l dk ct)

theorem reference_follows : Follows (reference S K) S K where
  tryKeygen _ := ⟨_, _, _, rfl, rfl, rfl⟩
  keygenFromSeed _ _ := ⟨_, _, rfl, rfl, rfl⟩
  sign _ _ _ := ⟨_, rfl, fun _ => rfl, _, rfl⟩
  kemTryKeygen _ := ⟨_, _, _, rfl, rfl, rfl⟩
  encaps _ _ := ⟨_, _, _, _, rfl, rfl, rfl, rfl⟩
  decaps _ _ _ := ⟨_, _, _, rfl, rfl, rfl, rfl⟩

end Rust

/-! ## Standards -/

/-- Libraries that follow the standards: `@noble/post-quantum`, CIRCL, `fips204` with `fips203`, and Bouncy Castle. -/
structure Libraries (X : Shake256) where
  js : ∀ q, Except Js.Stop (Js.Res q)
  js_follows : Js.Follows js S K
  goTypes : Go.KeyTypes
  go : ∀ q : Go.Req goTypes, Except Go.Fault (Go.Res q)
  go_follows : Go.Follows go S K
  rustTypes : Rust.KeyTypes
  rust : ∀ q : Rust.Req rustTypes, Except Rust.Stop (Rust.Res q)
  rust_follows : Rust.Follows rust S K
  java : Java.Implementation S K X

/-- There are such libraries. -/
def Libraries.reference (X : Shake256) : Libraries S K X where
  js := Js.reference S K
  js_follows := Js.reference_follows S K
  goTypes := Go.encodings
  go := Go.reference S K
  go_follows := Go.reference_follows S K
  rustTypes := Rust.encodings
  rust := Rust.reference S K
  rust_follows := Rust.reference_follows S K
  java := .reference S K X

/-- The first `n` bytes of a byte string and zeros. -/
def Sized.fill (n : Nat) (b : Bytes) : Sized n := ⟨b.takeD n 0, List.takeD_length n b 0⟩

theorem takeD_takeD (b : Bytes) {n : Nat} (h : b.length ≤ n) : (b.takeD n 0).takeD b.length 0 = b := by
  induction b generalizing n with
  | nil => rfl
  | cons x b ih =>
    cases n with
    | zero => exact absurd h (Nat.not_succ_le_zero _)
    | succ n => exact congrArg (x :: ·) (ih (Nat.le_of_succ_le_succ h))

/-- What is filled up can be read again. -/
theorem Sized.fill_fill {m n : Nat} (h : m ≤ n) (b : Sized m) : Sized.fill m (Sized.fill n b.1).1 = b := by
  obtain ⟨b, rfl⟩ := b
  exact Subtype.ext (takeD_takeD b h)

/-- Signatures that begin with a one. -/
def MlDsa.Standard.ones : MlDsa.Standard where
  keygen l ξ := (.fill l.sizes.publicKey ξ.1, .fill l.sizes.secretKey ξ.1)
  sign l _ m rnd := .fill l.sizes.signature (1 :: (rnd.1 ++ m))
  verify _ _ _ sig := sig.any (· != 0)
  valid l _ _ _ := by cases l <;> rfl

/-- Ciphertexts that begin with the coin, which is the secret. -/
def MlKem.Standard.coins : MlKem.Standard where
  keygen l seed := (.fill l.sizes.publicKey seed.1, .fill l.sizes.secretKey seed.1)
  encaps l _ coin := (.fill l.sizes.ciphertext coin.1, coin)
  decaps _ _ ct := .fill 32 ct.1

theorem MlKem.Standard.coins_recovers (l : MlKem.Level) (seed : Sized 64) (coin : Sized 32) :
    MlKem.Standard.coins.Recovers l seed coin := by
  refine Sized.fill_fill ?_ coin
  cases l <;> decide

end QorechainPqc
