import QorechainPqc.Lib.Buffer
import QorechainPqc.Lib.Except
import QorechainPqc.SignBytes.Rule

/-!
# Sign-bytes in the Rust binding

`lib.rs`: a `&str` is well-formed text, and the builders extend a `Vec<u8>`, whose capacity is at most `isize::MAX`; a
longer one panics. The checked variants (`try_…`) refuse an empty chain id.

`hybridSignBytesV1_eq` and `hybridSignBytesV2_eq` give the builders on every input, `signBytesVersionForApplied_eq` the
rule.
-/

namespace QorechainPqc.Rust

open Detect Failing Framing Text

/-- Why a call returns no bytes: an `Err`, or a panic. -/
inductive Stop
  | err (text : String)
  | panic
deriving DecidableEq

/-! ## The version rule -/

def hybridSignBytesDomain : List Char := "qorechain-pqc-hybrid-v2".toList

def signBytesV2Upgrades : List (List Char) := ["v3.2.0".toList, "v3.1.98".toList]

def legacySignBytesChains : List (List Char) := ["qorechain-vladi".toList, "qorechain-diana".toList]

/-- `SignBytesVersion`. -/
inductive SignBytesVersion
  | V1
  | V2
deriving DecidableEq

/-- `sign_bytes_version_for`. -/
def signBytesVersionFor (chainId : List Char) (v2AppliedHeight : Int) : SignBytesVersion :=
  if decide (v2AppliedHeight > 0) || !legacySignBytesChains.contains chainId then .V2 else .V1

/-- `sign_bytes_version_for_applied`. -/
def signBytesVersionForApplied (chainId : List Char) (appliedHeights : List Char → Option Int) : SignBytesVersion :=
  let best := (signBytesV2Upgrades.filterMap appliedHeights).foldl max 0
  signBytesVersionFor chainId best

/-- The rule's answer as the binding returns it. -/
def ofVersion : Version → SignBytesVersion
  | .v1 => .V1
  | .v2 => .V2

theorem signBytesVersionFor_eq (chainId : List Char) (h : Int) :
    signBytesVersionFor chainId h = ofVersion (rule (legacySignBytesChains.contains chainId) (decide (0 < h))) := by
  rw [signBytesVersionFor]
  by_cases hp : 0 < h
  · rw [decide_eq_true hp, rule_eq_v2.mpr (Or.inr rfl)]; rfl
  · rw [decide_eq_false hp]
    cases legacySignBytesChains.contains chainId <;> rfl

/-- **The version rule in Rust.** -/
theorem signBytesVersionForApplied_eq (chainId : List Char) (appliedHeights : List Char → Option Int) :
    signBytesVersionForApplied chainId appliedHeights =
      ofVersion (rule (legacySignBytesChains.contains chainId) (switched signBytesV2Upgrades appliedHeights)) := by
  rw [signBytesVersionForApplied, signBytesVersionFor_eq]
  congr 2
  rw [Bool.eq_iff_iff, decide_eq_true_eq, switched_iff,
    foldl_detects (R := fun b : Int => 0 < b) (P := fun h => 0 < h) (fun _ _ => lt_max_iff)]
  simp only [lt_irrefl, false_or, List.mem_filterMap]
  constructor
  · rintro ⟨h, ⟨name, hn, he⟩, hp⟩
    exact ⟨name, hn, by rw [he]; exact hp⟩
  · rintro ⟨name, hn, hp⟩
    cases he : appliedHeights name with
    | none => rw [he] at hp; exact absurd hp (lt_irrefl 0)
    | some h => rw [he] at hp; exact ⟨h, ⟨name, hn, he⟩, hp⟩

/-! ## The builders -/

/-- `isize::MAX`. -/
def isizeMax : Nat := 2 ^ 63 - 1

/-- `Vec::with_capacity(n)`, where `n` is a `usize` sum. -/
def withCapacity (n : Nat) : Except Stop Bytes := if n % 2 ^ 64 ≤ isizeMax then .ok [] else .error .panic

/-- `out.extend_from_slice(xs)`. -/
def extendFromSlice (out xs : Bytes) : Except Stop Bytes := (extend isizeMax out xs).elim (.error .panic) .ok

/-- `u32::to_be_bytes`. -/
def toBeBytes32 (v : UInt32) : Bytes := [(v >>> 24).toUInt8, (v >>> 16).toUInt8, (v >>> 8).toUInt8, v.toUInt8]

/-- `u64::to_be_bytes`. -/
def toBeBytes64 (v : UInt64) : Bytes := beBytes 8 v.toNat

/-- `hybrid_sign_bytes_v1`. -/
def hybridSignBytesV1 (bodyWithoutPqcExt authInfoBytes : Bytes) : Except Stop Bytes := do
  let out ← withCapacity (8 + bodyWithoutPqcExt.length + authInfoBytes.length)
  let out ← extendFromSlice out (toBeBytes32 (UInt32.ofNat bodyWithoutPqcExt.length))
  let out ← extendFromSlice out bodyWithoutPqcExt
  let out ← extendFromSlice out (toBeBytes32 (UInt32.ofNat authInfoBytes.length))
  extendFromSlice out authInfoBytes

/-- `hybrid_sign_bytes_v2`. -/
def hybridSignBytesV2 (chainId : List Char) (bodyWithoutPqcExt authInfoBytes : Bytes) : Except Stop Bytes := do
  let cid := utf8 chainId
  let out ← withCapacity ((utf8 hybridSignBytesDomain).length + 8 + cid.length + 8 + bodyWithoutPqcExt.length +
    authInfoBytes.length)
  let out ← extendFromSlice out (utf8 hybridSignBytesDomain)
  let out ← extendFromSlice out (toBeBytes64 (UInt64.ofNat cid.length))
  let out ← extendFromSlice out cid
  let v1 ← hybridSignBytesV1 bodyWithoutPqcExt authInfoBytes
  extendFromSlice out v1

/-- `try_hybrid_sign_bytes_v2`. -/
def tryHybridSignBytesV2 (chainId : List Char) (bodyWithoutPqcExt authInfoBytes : Bytes) : Except Stop Bytes :=
  if chainId = [] then .error (.err "hybrid sign-bytes v2: chain_id is required")
  else hybridSignBytesV2 chainId bodyWithoutPqcExt authInfoBytes

/-- `hybrid_sign_bytes`. -/
def hybridSignBytes (version : SignBytesVersion) (chainId : List Char) (bodyWithoutPqcExt authInfoBytes : Bytes) :
    Except Stop Bytes :=
  match version with
  | .V1 => hybridSignBytesV1 bodyWithoutPqcExt authInfoBytes
  | .V2 => hybridSignBytesV2 chainId bodyWithoutPqcExt authInfoBytes

/-- `try_hybrid_sign_bytes`. -/
def tryHybridSignBytes (version : SignBytesVersion) (chainId : List Char) (bodyWithoutPqcExt authInfoBytes : Bytes) :
    Except Stop Bytes :=
  match version with
  | .V1 => hybridSignBytesV1 bodyWithoutPqcExt authInfoBytes
  | .V2 => tryHybridSignBytesV2 chainId bodyWithoutPqcExt authInfoBytes

theorem extend_append (out xs ys : Bytes) :
    (extendFromSlice out xs >>= fun out => extendFromSlice out ys) = extendFromSlice out (xs ++ ys) := by
  unfold extendFromSlice
  rw [← extend_extend]
  cases extend isizeMax out xs <;> rfl

theorem toBeBytes32_eq (n : Nat) : toBeBytes32 (UInt32.ofNat n) = beBytes 4 n := by
  rw [toBeBytes32, ← beBytes_uint32, beBytes_ofNat32]

theorem toBeBytes64_eq (n : Nat) : toBeBytes64 (UInt64.ofNat n) = beBytes 8 n := beBytes_ofNat64 n

/-- If the capacity wraps and stays small, a later extension panics instead. -/
theorem withCapacity_extend {n : Nat} {xs : Bytes} (h : xs.length = n) :
    (withCapacity n >>= fun out => extendFromSlice out xs) = if n ≤ isizeMax then .ok xs else .error .panic := by
  unfold withCapacity
  split
  · simp only [ok_bind, extendFromSlice, extend, List.length_nil, Nat.zero_add, List.nil_append, h]
    split <;> rfl
  · rename_i hn
    have : ¬ n ≤ isizeMax := fun hle => hn (Nat.le_trans (Nat.mod_le _ _) hle)
    rw [error_bind, if_neg this]

/-- A step that hands out bytes or panics, with a panic behind it, panics. -/
theorem bind_panic {x : Except Stop Bytes} {f : Bytes → Except Stop Bytes} (hx : ∀ t, x ≠ .error (.err t))
    (hf : ∀ out, f out = .error .panic) : (x >>= f) = .error .panic := by
  cases x with
  | ok out => exact hf out
  | error e =>
    cases e with
    | err t => exact absurd rfl (hx t)
    | panic => rfl

theorem withCapacity_ne_err (n : Nat) (t : String) : withCapacity n ≠ .error (.err t) := by
  unfold withCapacity
  split <;> simp

theorem extendFromSlice_ne_err (out xs : Bytes) (t : String) : extendFromSlice out xs ≠ .error (.err t) := by
  unfold extendFromSlice
  cases extend isizeMax out xs <;> simp

/-- **The v1 builder**, on every input. -/
theorem hybridSignBytesV1_eq (b0 auth : Bytes) : hybridSignBytesV1 b0 auth =
    if 8 + b0.length + auth.length ≤ isizeMax then .ok (Format.v1 b0 auth) else .error .panic := by
  rw [← withCapacity_extend (Format.length_v1 b0 auth)]
  simp only [hybridSignBytesV1, toBeBytes32_eq, extend_append, Format.v1, field, List.append_assoc]

/-- **The v2 builder**, on every input, the empty chain id included. -/
theorem hybridSignBytesV2_eq (c : List Char) (b0 auth : Bytes) : hybridSignBytesV2 c b0 auth =
    if 39 + (utf8 c).length + b0.length + auth.length ≤ isizeMax then .ok (Format.v2 (utf8 c) b0 auth)
    else .error .panic := by
  have hlen : (utf8 hybridSignBytesDomain).length + 8 + (utf8 c).length + 8 + b0.length + auth.length =
      39 + (utf8 c).length + b0.length + auth.length := by
    rw [show (utf8 hybridSignBytesDomain).length = 23 from Format.length_domain]
    omega
  by_cases h8 : 8 + b0.length + auth.length ≤ isizeMax
  · rw [← withCapacity_extend (Format.length_v2 (utf8 c) b0 auth)]
    simp only [hybridSignBytesV2, hlen, hybridSignBytesV1_eq, if_pos h8, ok_bind, toBeBytes64_eq, extend_append,
      Format.v2, field, List.append_assoc]
    rfl
  · -- the inner builder panics, and the message is longer still
    rw [if_neg (by omega), hybridSignBytesV2, hybridSignBytesV1_eq, if_neg h8]
    refine bind_panic (withCapacity_ne_err _) fun _ => ?_
    refine bind_panic (extendFromSlice_ne_err _ _) fun _ => ?_
    refine bind_panic (extendFromSlice_ne_err _ _) fun _ => ?_
    exact bind_panic (extendFromSlice_ne_err _ _) fun _ => rfl

end QorechainPqc.Rust
