import Mathlib.Tactic.Ring
import Mathlib.Data.List.Induction

/-!
# Big-endian numbers

`beBytes w n` are the `w` big-endian bytes of `n` and `beVal` reads them back. Bits above `8 * w` are dropped
(`beVal_beBytes`), so the writer is injective exactly below `256 ^ w` (`beBytes_inj`).
-/

namespace Framing

/-- The `w` big-endian bytes of `n`; bits above `8 * w` are dropped. -/
def beBytes : Nat → Nat → List UInt8
  | 0, _ => []
  | w + 1, n => beBytes w (n / 256) ++ [UInt8.ofNat n]

/-- The number spelled by big-endian bytes. -/
def beVal (l : List UInt8) : Nat := l.foldl (fun v b => v * 256 + b.toNat) 0

@[simp] theorem beBytes_zero (n : Nat) : beBytes 0 n = [] := rfl

theorem beBytes_succ (w n : Nat) : beBytes (w + 1) n = beBytes w (n / 256) ++ [UInt8.ofNat n] := rfl

@[simp] theorem length_beBytes : ∀ w n : Nat, (beBytes w n).length = w
  | 0, _ => rfl
  | w + 1, n => by simp [beBytes_succ, length_beBytes w]

@[simp] theorem beVal_nil : beVal [] = 0 := rfl

@[simp] theorem beVal_snoc (l : List UInt8) (b : UInt8) : beVal (l ++ [b]) = beVal l * 256 + b.toNat := by
  simp [beVal]

/-- Reading back what was written. -/
theorem beVal_beBytes : ∀ w n : Nat, beVal (beBytes w n) = n % 256 ^ w
  | 0, n => by simp [Nat.mod_one]
  | w + 1, n => by
    rw [beBytes_succ, beVal_snoc, beVal_beBytes w, UInt8.toNat_ofNat', pow_succ' 256 w, Nat.mod_mul]
    omega

theorem beVal_beBytes_of_lt {w n : Nat} (h : n < 256 ^ w) : beVal (beBytes w n) = n := by
  rw [beVal_beBytes, Nat.mod_eq_of_lt h]

theorem beBytes_mod (w n : Nat) : beBytes w (n % 256 ^ w) = beBytes w n := by
  induction w generalizing n with
  | zero => rfl
  | succ w ih =>
    have hd : n % 256 ^ (w + 1) / 256 = n / 256 % 256 ^ w := by
      rw [pow_succ', Nat.mod_mul_right_div_self]
    have hm : UInt8.ofNat (n % 256 ^ (w + 1)) = UInt8.ofNat n := by
      apply UInt8.toNat_inj.mp
      rw [UInt8.toNat_ofNat', UInt8.toNat_ofNat', pow_succ']
      exact Nat.mod_mul_right_mod n 256 (256 ^ w)
    rw [beBytes_succ, beBytes_succ, hd, hm, ih]

/-- Two numbers are written alike exactly when they agree modulo `256 ^ w`. -/
theorem beBytes_eq_iff {w n m : Nat} : beBytes w n = beBytes w m ↔ n % 256 ^ w = m % 256 ^ w := by
  constructor
  · intro h
    rw [← beVal_beBytes, ← beVal_beBytes, h]
  · intro h
    rw [← beBytes_mod, h, beBytes_mod]

theorem beBytes_inj {w n m : Nat} (hn : n < 256 ^ w) (hm : m < 256 ^ w) (h : beBytes w n = beBytes w m) : n = m := by
  rw [← beVal_beBytes_of_lt hn, h, beVal_beBytes_of_lt hm]

/-- `w` bytes spell a number below `256 ^ w`. -/
theorem beVal_lt (l : List UInt8) : beVal l < 256 ^ l.length := by
  induction l using List.reverseRecOn with
  | nil => simp
  | append_singleton l b ih =>
    have hb := b.toNat_lt
    rw [beVal_snoc, List.length_append, List.length_singleton, pow_succ]
    omega

/-! ## Machine words -/

/-- The shifts that spell a 32-bit word. -/
theorem beBytes_uint32 (n : UInt32) :
    beBytes 4 n.toNat = [(n >>> 24).toUInt8, (n >>> 16).toUInt8, (n >>> 8).toUInt8, n.toUInt8] := by
  have h : ∀ k : Nat, UInt8.ofNat (n.toNat >>> k) = UInt8.ofNat (n.toNat / 2 ^ k) := fun k => by
    rw [Nat.shiftRight_eq_div_pow]
  have hb : ∀ m : UInt32, m.toUInt8 = UInt8.ofNat m.toNat := fun m => by
    apply UInt8.toNat_inj.mp
    rw [UInt32.toNat_toUInt8, UInt8.toNat_ofNat']
  simp only [beBytes, hb, UInt32.toNat_shiftRight, List.nil_append, List.cons_append,
    Nat.div_div_eq_div_mul]
  simp [h]

theorem beBytes_ofNat32 (n : Nat) : beBytes 4 (UInt32.ofNat n).toNat = beBytes 4 n := by
  rw [UInt32.toNat_ofNat']
  exact beBytes_mod 4 n

theorem beBytes_ofNat64 (n : Nat) : beBytes 8 (UInt64.ofNat n).toNat = beBytes 8 n := by
  rw [UInt64.toNat_ofNat']
  exact beBytes_mod 8 n

end Framing
