import QorechainPqc.Lib.Xof
import QorechainPqc.Verify.Verdict

/-!
# The standards, as functions on byte strings of exact sizes

What the bindings compute, independent of any of them: ML-DSA with the empty context and ML-KEM as functions of their
inputs and of the random bytes they consume. The sizes are part of the types. That a signature made with a generated key
is valid is part of `MlDsa.Standard`; decapsulation may fail for a few keys and coins, so `MlKem.Standard.Recovers` says
where it does not.
-/

namespace QorechainPqc

/-- Byte strings of a given length. -/
abbrev Sized (n : Nat) := { b : Bytes // b.length = n }

/-- Zeros. -/
def Sized.zeros (n : Nat) : Sized n := ⟨List.replicate n 0, List.length_replicate⟩

instance (n : Nat) : Nonempty (Sized n) := ⟨.zeros n⟩

/-- A byte string of zeros is `zeros`. -/
theorem Sized.eq_zeros {n : Nat} {b : Sized n} (h : ∀ x ∈ b.1, x = 0) : b = .zeros n :=
  Subtype.ext (List.eq_replicate_iff.mpr ⟨b.2, h⟩)

/-- Byte strings of different lengths are not the same. -/
theorem Sized.val_ne {m n : Nat} (h : m ≠ n) (a : Sized m) (b : Sized n) : a.1 ≠ b.1 := by
  intro he
  have hlen := congrArg List.length he
  rw [a.2, b.2] at hlen
  exact h hlen

namespace MlDsa

/-- FIPS-204 with the empty context: keys from the seed ξ, and signatures with the random bytes rnd, which are zeros in
the deterministic variant. -/
structure Standard where
  keygen : (l : Level) → Sized 32 → Sized l.sizes.publicKey × Sized l.sizes.secretKey
  sign : (l : Level) → Sized l.sizes.secretKey → Bytes → Sized 32 → Sized l.sizes.signature
  verify : Fips204
  valid : ∀ l ξ m rnd, verify l (keygen l ξ).1 m (sign l (keygen l ξ).2 m rnd) = true

/-- The deterministic signature. -/
def Standard.signDeterministic (S : Standard) (l : Level) (sk : Sized l.sizes.secretKey) (m : Bytes) :
    Sized l.sizes.signature := S.sign l sk m (.zeros 32)

/-- A signature with a generated key gets the verdict yes. -/
theorem Standard.verdict_sign (S : Standard) (l : Level) (ξ : Sized 32) (m : Bytes) (rnd : Sized 32) :
    S.verify.verdict l (S.keygen l ξ).1 m (S.sign l (S.keygen l ξ).2 m rnd) = true := by
  rw [verdict_of_exact ⟨(S.keygen l ξ).1.2, (S.sign l (S.keygen l ξ).2 m rnd).2⟩]
  exact S.valid l ξ m rnd

end MlDsa

namespace MlKem

/-- FIPS-203: keys from the seed d ‖ z, encapsulation with the coin m, and decapsulation. -/
structure Standard where
  keygen : (l : Level) → Sized 64 → Sized l.sizes.publicKey × Sized l.sizes.secretKey
  encaps : (l : Level) → Sized l.sizes.publicKey → Sized 32 → Sized l.sizes.ciphertext × Sized 32
  decaps : (l : Level) → Sized l.sizes.secretKey → Sized l.sizes.ciphertext → Sized 32

/-- The key pair of a seed recovers the secret of a coin. -/
def Standard.Recovers (K : Standard) (l : Level) (seed : Sized 64) (coin : Sized 32) : Prop :=
  K.decaps l (K.keygen l seed).2 (K.encaps l (K.keygen l seed).1 coin).1 = (K.encaps l (K.keygen l seed).1 coin).2

end MlKem

/-- FIPS-202: SHAKE-256 as endless output for every input. -/
abbrev Shake256 := Xof.Stream UInt8 UInt8

end QorechainPqc
