import QorechainPqc.SignBytes.Format

/-!
# Parameter sets, and the schemes that liboqs hands out

The three ML-DSA and the three ML-KEM parameter sets with their sizes (FIPS-204 and FIPS-203), and the records behind
`OQS_SIG *` and `OQS_KEM *`. A library build may know many schemes; a record that is one of the sets has the sizes of
the set (`OqsSig.sizes`, `OqsKem.sizes`).
-/

namespace QorechainPqc

namespace MlDsa

/-- The ML-DSA parameter sets. -/
inductive Level
  | l44
  | l65
  | l87
deriving DecidableEq

/-- Sizes of the keys and of the signature. -/
structure Sizes where
  publicKey : Nat
  secretKey : Nat
  signature : Nat
deriving DecidableEq

def Level.sizes : Level → Sizes
  | .l44 => ⟨1312, 2560, 2420⟩
  | .l65 => ⟨1952, 4032, 3309⟩
  | .l87 => ⟨2592, 4896, 4627⟩

/-- The name of the level in the bindings that know their levels. -/
def Level.name : Level → String
  | .l44 => "ml-dsa-44"
  | .l65 => "ml-dsa-65"
  | .l87 => "ml-dsa-87"

/-- The name of the set in liboqs. -/
def Level.oqsName : Level → String
  | .l44 => "ML-DSA-44"
  | .l65 => "ML-DSA-65"
  | .l87 => "ML-DSA-87"

/-- Public key and signature have the exact sizes. -/
def Level.Exact (l : Level) (pk sig : Bytes) : Prop :=
  pk.length = l.sizes.publicKey ∧ sig.length = l.sizes.signature

instance (l : Level) (pk sig : Bytes) : Decidable (l.Exact pk sig) :=
  inferInstanceAs (Decidable (pk.length = l.sizes.publicKey ∧ sig.length = l.sizes.signature))

end MlDsa

namespace MlKem

/-- The ML-KEM parameter sets. -/
inductive Level
  | l512
  | l768
  | l1024
deriving DecidableEq

/-- Sizes of the keys, of the ciphertext and of the shared secret. -/
structure Sizes where
  publicKey : Nat
  secretKey : Nat
  ciphertext : Nat
  sharedSecret : Nat
deriving DecidableEq

def Level.sizes : Level → Sizes
  | .l512 => ⟨800, 1632, 768, 32⟩
  | .l768 => ⟨1184, 2400, 1088, 32⟩
  | .l1024 => ⟨1568, 3168, 1568, 32⟩

/-- The name of the level in the bindings that know their levels. -/
def Level.name : Level → String
  | .l512 => "ml-kem-512"
  | .l768 => "ml-kem-768"
  | .l1024 => "ml-kem-1024"

/-- The name of the set in liboqs. -/
def Level.oqsName : Level → String
  | .l512 => "ML-KEM-512"
  | .l768 => "ML-KEM-768"
  | .l1024 => "ML-KEM-1024"

theorem Level.sharedSecret (l : Level) : l.sizes.sharedSecret = 32 := by cases l <;> rfl

end MlKem

/-- A signature scheme of liboqs: which ML-DSA set it is, if it is one, and its sizes. -/
structure OqsSig where
  set : Option MlDsa.Level
  lengthPublicKey : Nat
  lengthSecretKey : Nat
  lengthSignature : Nat
  sizes : ∀ l ∈ set, l.sizes = ⟨lengthPublicKey, lengthSecretKey, lengthSignature⟩

/-- A KEM of liboqs: which ML-KEM set it is, if it is one, and its sizes. -/
structure OqsKem where
  set : Option MlKem.Level
  lengthPublicKey : Nat
  lengthSecretKey : Nat
  lengthCiphertext : Nat
  lengthSharedSecret : Nat
  sizes : ∀ l ∈ set, l.sizes = ⟨lengthPublicKey, lengthSecretKey, lengthCiphertext, lengthSharedSecret⟩

/-- The record of an ML-DSA set. -/
def OqsSig.ofLevel (l : MlDsa.Level) : OqsSig :=
  ⟨some l, l.sizes.publicKey, l.sizes.secretKey, l.sizes.signature, fun _ h => by cases h; rfl⟩

/-- The record of an ML-KEM set. -/
def OqsKem.ofLevel (l : MlKem.Level) : OqsKem :=
  ⟨some l, l.sizes.publicKey, l.sizes.secretKey, l.sizes.ciphertext, l.sizes.sharedSecret, fun _ h => by cases h; rfl⟩

/-- `memset` on a buffer, for its first `n` bytes. -/
def memset (out : Bytes) (x : UInt8) (n : Nat) : Bytes := List.replicate n x ++ out.drop n

theorem memset_length (out : Bytes) (x : UInt8) : memset out x out.length = List.replicate out.length x := by
  rw [memset, List.drop_length, List.append_nil]

/-- An ML-KEM set has a shared secret of 32 bytes. -/
theorem OqsKem.sharedSecret_eq {k : OqsKem} (h : k.set ≠ none) : k.lengthSharedSecret = 32 := by
  obtain ⟨l, hl⟩ := Option.ne_none_iff_exists'.mp h
  have hs := congrArg MlKem.Sizes.sharedSecret (k.sizes l hl)
  rw [l.sharedSecret] at hs
  exact hs.symm

end QorechainPqc
