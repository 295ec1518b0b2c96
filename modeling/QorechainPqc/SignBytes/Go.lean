import QorechainPqc.Lib.Buffer
import QorechainPqc.Lib.Except
import QorechainPqc.SignBytes.Rule

/-!
# Sign-bytes in the Go binding

`pqc.go`: strings and slices are byte sequences, lengths are `int` (64 bits), and the builders append to a slice. A
slice whose length does not fit an `int` cannot be made: the program panics.

`hybridSignBytesV1_eq` and `hybridSignBytesV2_eq` give the builders on every input, `signBytesVersionForApplied_eq` the
rule.
-/

namespace QorechainPqc.Go

open Detect Failing Framing Text

/-- Why a call returns no bytes. -/
inductive Stop
  | error (text : String) (version : Option Int)
  | panic
deriving DecidableEq

/-! ## The version rule -/

def hybridSignBytesDomain : Bytes := utf8 "qorechain-pqc-hybrid-v2".toList

def signBytesV2Upgrades : List Bytes := [utf8 "v3.2.0".toList, utf8 "v3.1.98".toList]

def signBytesV1 : Int := 1

def signBytesV2 : Int := 2

def legacySignBytesChains : List Bytes := [utf8 "qorechain-vladi".toList, utf8 "qorechain-diana".toList]

/-- `SignBytesVersionFor`. -/
def signBytesVersionFor (chainID : Bytes) (v2AppliedHeight : Int) : Int :=
  if v2AppliedHeight > 0 then signBytesV2
  else if legacySignBytesChains.any fun c => c == chainID then signBytesV1
  else signBytesV2

/-- `SignBytesVersionForApplied`; reading an absent key of the map gives `0`. -/
def signBytesVersionForApplied (chainID : Bytes) (appliedHeights : Bytes → Option Int) : Int :=
  let best := signBytesV2Upgrades.foldl
    (fun best name =>
      let h := (appliedHeights name).getD 0
      if h > best then h else best) 0
  signBytesVersionFor chainID best

/-- The rule's answer as the binding returns it. -/
def ofVersion : Version → Int
  | .v1 => signBytesV1
  | .v2 => signBytesV2

theorem signBytesVersionFor_eq (chainID : Bytes) (h : Int) :
    signBytesVersionFor chainID h = ofVersion (rule (legacySignBytesChains.contains chainID) (decide (0 < h))) := by
  have hc : (legacySignBytesChains.any fun c => c == chainID) = legacySignBytesChains.contains chainID := by
    rw [List.contains_eq_any_beq]
    congr 1; funext c
    exact Bool.beq_comm
  rw [signBytesVersionFor, hc]
  by_cases hp : 0 < h
  · rw [if_pos hp, decide_eq_true hp, rule_eq_v2.mpr (Or.inr rfl)]; rfl
  · rw [if_neg hp, decide_eq_false hp]
    cases legacySignBytesChains.contains chainID <;> rfl

/-- **The version rule in Go.** -/
theorem signBytesVersionForApplied_eq (chainID : Bytes) (appliedHeights : Bytes → Option Int) :
    signBytesVersionForApplied chainID appliedHeights =
      ofVersion (rule (legacySignBytesChains.contains chainID) (switched signBytesV2Upgrades appliedHeights)) := by
  rw [signBytesVersionForApplied, signBytesVersionFor_eq]
  congr 2
  rw [Bool.eq_iff_iff, decide_eq_true_eq, switched_iff,
    foldl_detects (R := fun b : Int => 0 < b) (P := fun name => 0 < (appliedHeights name).getD 0) (fun _ _ => best_pos)]
  simp

/-! ## The builders -/

/-- The largest `int`. -/
def maxInt : Nat := 2 ^ 63 - 1

/-- `make([]byte, 0, n)`, where `n` is computed in wrapping `int` arithmetic. -/
def makeSlice (n : Nat) : Except Stop Bytes := if n % 2 ^ 64 ≤ maxInt then .ok [] else .error .panic

/-- `append(out, xs...)`. -/
def append (out xs : Bytes) : Except Stop Bytes := (extend maxInt out xs).elim (.error .panic) .ok

/-- `binary.BigEndian.AppendUint32`. -/
def appendUint32 (out : Bytes) (v : UInt32) : Except Stop Bytes :=
  append out [(v >>> 24).toUInt8, (v >>> 16).toUInt8, (v >>> 8).toUInt8, v.toUInt8]

/-- `binary.BigEndian.AppendUint64`. -/
def appendUint64 (out : Bytes) (v : UInt64) : Except Stop Bytes := append out (beBytes 8 v.toNat)

/-- `HybridSignBytesV1`. -/
def hybridSignBytesV1 (bodyWithoutPqcExt authInfoBytes : Bytes) : Except Stop Bytes := do
  let out ← makeSlice (8 + bodyWithoutPqcExt.length + authInfoBytes.length)
  let out ← appendUint32 out (UInt32.ofNat bodyWithoutPqcExt.length)
  let out ← append out bodyWithoutPqcExt
  let out ← appendUint32 out (UInt32.ofNat authInfoBytes.length)
  append out authInfoBytes

/-- `HybridSignBytesV2`. -/
def hybridSignBytesV2 (chainID bodyWithoutPqcExt authInfoBytes : Bytes) : Except Stop Bytes := do
  let out ← makeSlice (hybridSignBytesDomain.length + 8 + chainID.length + 8 + bodyWithoutPqcExt.length +
    authInfoBytes.length)
  let out ← append out hybridSignBytesDomain
  let out ← appendUint64 out (UInt64.ofNat chainID.length)
  let out ← append out chainID
  let out ← appendUint32 out (UInt32.ofNat bodyWithoutPqcExt.length)
  let out ← append out bodyWithoutPqcExt
  let out ← appendUint32 out (UInt32.ofNat authInfoBytes.length)
  append out authInfoBytes

def errEmptyChainID : Stop := .error "pqc: hybrid sign-bytes v2: chainID is required" none

/-- `HybridSignBytes`. -/
def hybridSignBytes (version : Int) (chainID bodyWithoutPqcExt authInfoBytes : Bytes) : Except Stop Bytes :=
  if version = signBytesV1 then hybridSignBytesV1 bodyWithoutPqcExt authInfoBytes
  else if version = signBytesV2 then
    if chainID = [] then .error errEmptyChainID else hybridSignBytesV2 chainID bodyWithoutPqcExt authInfoBytes
  else .error (.error "hybrid sign-bytes version must be 1 or 2, got" (some version))

theorem append_append (out xs ys : Bytes) : (append out xs >>= fun out => append out ys) = append out (xs ++ ys) := by
  unfold append
  rw [← extend_extend]
  cases extend maxInt out xs <;> rfl

theorem append_nil_eq (xs : Bytes) : append [] xs = if xs.length ≤ maxInt then .ok xs else .error .panic := by
  simp only [append, extend, List.length_nil, Nat.zero_add, List.nil_append]
  split <;> rfl

theorem appendUint32_eq (out : Bytes) (n : Nat) : appendUint32 out (UInt32.ofNat n) = append out (beBytes 4 n) := by
  rw [appendUint32, ← beBytes_uint32, beBytes_ofNat32]

theorem appendUint64_eq (out : Bytes) (n : Nat) : appendUint64 out (UInt64.ofNat n) = append out (beBytes 8 n) := by
  rw [appendUint64, beBytes_ofNat64]

/-- If the capacity wraps and stays small, a later append panics instead. -/
theorem makeSlice_append {n : Nat} {xs : Bytes} (h : xs.length = n) :
    (makeSlice n >>= fun out => append out xs) = if n ≤ maxInt then .ok xs else .error .panic := by
  unfold makeSlice
  split
  · rw [ok_bind, append_nil_eq, h]
  · rename_i hn
    have : ¬ n ≤ maxInt := fun hle => hn (Nat.le_trans (Nat.mod_le _ _) hle)
    rw [error_bind, if_neg this]

/-- **The v1 builder**, on every input. -/
theorem hybridSignBytesV1_eq (b0 auth : Bytes) : hybridSignBytesV1 b0 auth =
    if 8 + b0.length + auth.length ≤ maxInt then .ok (Format.v1 b0 auth) else .error .panic := by
  rw [← makeSlice_append (Format.length_v1 b0 auth)]
  simp only [hybridSignBytesV1, appendUint32_eq, append_append, Format.v1, field, List.append_assoc]

/-- **The v2 builder**, on every input, the empty chain id included. -/
theorem hybridSignBytesV2_eq (c b0 auth : Bytes) : hybridSignBytesV2 c b0 auth =
    if 39 + c.length + b0.length + auth.length ≤ maxInt then .ok (Format.v2 c b0 auth) else .error .panic := by
  have hlen : hybridSignBytesDomain.length + 8 + c.length + 8 + b0.length + auth.length =
      39 + c.length + b0.length + auth.length := by
    rw [show hybridSignBytesDomain.length = 23 from Format.length_domain]
    omega
  rw [← makeSlice_append (Format.length_v2 c b0 auth)]
  simp only [hybridSignBytesV2, hlen, appendUint32_eq, appendUint64_eq, append_append, Format.v2, Format.v1, field,
    List.append_assoc]
  rfl

end QorechainPqc.Go
