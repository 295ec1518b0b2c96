import QorechainPqc.Lib.Buffer
import QorechainPqc.SignBytes.Rule

/-!
# Sign-bytes in the Java binding

`Pqc.java`: references may be `null`, strings are lists of UTF-16 code units, and lengths are `int`s that wrap at 32
bits. The builders allocate a `ByteBuffer` of the computed size and put the parts into it; a buffer that is too small
refuses.

`hybridSignBytesV1_of_fits` and `hybridSignBytesV2_of_fits` give the builders where the message fits an array,
`hybridSignBytesV1_of_overflow` and `hybridSignBytesV2_of_overflow` where it does not, and
`signBytesVersionForApplied_eq` the rule.
-/

namespace QorechainPqc.Java

open Detect Failing Framing Text

/-- A string: UTF-16 code units. -/
abbrev Str := List UInt16

/-- A string literal. -/
def str (s : String) : Str := utf16 s.toList

/-- Why a call throws. -/
inductive Stop
  /-- `IllegalArgumentException`; `shown` is the number that its text ends in. -/
  | illegalArgument (text : String) (shown : Option Int)
  | nullPointer
  | bufferOverflow
  | outOfMemory
deriving DecidableEq

/-! ## The version rule -/

def hybridSignBytesDomain : Str := str "qorechain-pqc-hybrid-v2"

def signBytesV2Upgrades : List Str := [str "v3.2.0", str "v3.1.98"]

def legacySignBytesChains : List Str := [str "qorechain-vladi", str "qorechain-diana"]

def signBytesV1 : Int := 1

def signBytesV2 : Int := 2

/-- `LEGACY_SIGN_BYTES_CHAINS.contains(chainId)`; an immutable list throws when asked for `null`. -/
def legacyContains : Option Str → Except Stop Bool
  | none => .error .nullPointer
  | some chainId => .ok (legacySignBytesChains.contains chainId)

/-- `signBytesVersionFor`. -/
def signBytesVersionFor (chainId : Option Str) (v2AppliedHeight : Int) : Except Stop Int := do
  if v2AppliedHeight > 0 then return signBytesV2
  if !(← legacyContains chainId) then return signBytesV2
  return signBytesV1

/-- `signBytesVersionForApplied`; the map answers `null` for a name it does not hold. -/
def signBytesVersionForApplied (chainId : Option Str) (appliedHeights : Option (Str → Option Int)) : Except Stop Int :=
  let best := match appliedHeights with
    | none => 0
    | some get => signBytesV2Upgrades.foldl
      (fun best name => match get name with
        | none => best
        | some h => if h > best then h else best) 0
  signBytesVersionFor chainId best

/-- The rule's answer as the binding returns it. -/
def ofVersion : Version → Int
  | .v1 => signBytesV1
  | .v2 => signBytesV2

theorem signBytesVersionFor_eq (chainId : Str) (h : Int) : signBytesVersionFor (some chainId) h =
    .ok (ofVersion (rule (legacySignBytesChains.contains chainId) (decide (0 < h)))) := by
  rw [signBytesVersionFor]
  by_cases hp : 0 < h
  · rw [if_pos hp, decide_eq_true hp, rule_eq_v2.mpr (Or.inr rfl)]; rfl
  · rw [if_neg hp, decide_eq_false hp, legacyContains]
    cases legacySignBytesChains.contains chainId <;> rfl

/-- The loop finds a positive height if a listed name has one. -/
theorem signBytesVersionForApplied_best (chainId : Option Str) (appliedHeights : Option (Str → Option Int)) :
    ∃ best : Int, signBytesVersionForApplied chainId appliedHeights = signBytesVersionFor chainId best ∧
      (0 < best ↔ switched signBytesV2Upgrades (fun name => appliedHeights.bind fun get => get name) = true) := by
  refine ⟨_, rfl, ?_⟩
  rw [switched_iff]
  cases appliedHeights with
  | none => simp
  | some get =>
    have hstep : ∀ (best : Int) (name : Str),
        0 < (match get name with
          | none => best
          | some h => if h > best then h else best) ↔ 0 < best ∨ 0 < (get name).getD 0 := by
      intro best name
      cases get name with
      | none => simp
      | some h => exact best_pos
    simp only [Option.bind_some]
    rw [foldl_detects (R := fun b : Int => 0 < b) (P := fun name => 0 < (get name).getD 0) hstep]
    simp

/-- **The version rule in Java.** -/
theorem signBytesVersionForApplied_eq (chainId : Str) (appliedHeights : Option (Str → Option Int)) :
    signBytesVersionForApplied (some chainId) appliedHeights =
      .ok (ofVersion (rule (legacySignBytesChains.contains chainId)
        (switched signBytesV2Upgrades fun name => appliedHeights.bind fun get => get name))) := by
  obtain ⟨best, heq, hbest⟩ := signBytesVersionForApplied_best (some chainId) appliedHeights
  rw [heq, signBytesVersionFor_eq]
  congr 3
  rw [Bool.eq_iff_iff, decide_eq_true_eq, hbest]

/-! ## Byte buffers -/

/-- The largest `int`. -/
def maxInt : Nat := 2 ^ 31 - 1

/-- What is left of a number in an `int`. -/
def toInt (n : Nat) : Int := (n : Int).bmod (2 ^ 32)

/-- `ByteBuffer`: the array behind it and the position of the next put. -/
structure ByteBuffer where
  array : Buffer
  position : Nat

/-- `ByteBuffer.allocate`. -/
def allocate (capacity : Int) : Except Stop ByteBuffer :=
  if capacity < 0 then .error (.illegalArgument "capacity < 0" (some capacity))
  else .ok ⟨Buffer.alloc capacity.toNat, 0⟩

/-- `put(src)`. -/
def ByteBuffer.put (b : ByteBuffer) (src : Bytes) : Except Stop ByteBuffer :=
  match b.array.copy b.position src with
  | none => .error .bufferOverflow
  | some array => .ok ⟨array, b.position + src.length⟩

/-- `putInt(n)`. -/
def ByteBuffer.putInt (b : ByteBuffer) (n : Int) : Except Stop ByteBuffer := b.put (beBytes 4 (n % 2 ^ 32).toNat)

/-- `putLong(n)`. -/
def ByteBuffer.putLong (b : ByteBuffer) (n : Int) : Except Stop ByteBuffer := b.put (beBytes 8 (n % 2 ^ 64).toNat)

/-- The puts of `ps`, one after the other. -/
def ByteBuffer.putAll (b : ByteBuffer) : List Bytes → Except Stop ByteBuffer
  | [] => .ok b
  | p :: ps => b.put p >>= fun b => b.putAll ps

theorem putAll_eq (ps : List Bytes) (b : ByteBuffer) : b.putAll ps =
    match b.array.copyAll b.position ps with
    | none => .error .bufferOverflow
    | some array => .ok ⟨array, b.position + ps.flatten.length⟩ := by
  induction ps generalizing b with
  | nil => rfl
  | cons p ps ih =>
    rw [ByteBuffer.putAll, ByteBuffer.put, Buffer.copyAll]
    cases b.array.copy b.position p with
    | none => rfl
    | some array =>
      simp only [ok_bind, Option.bind_some, ih, List.flatten_cons, List.length_append, Nat.add_assoc]

/-- Allocate, put the parts and hand out the array. -/
def putParts (capacity : Int) (ps : List Bytes) : Except Stop Buffer := do
  let buf ← allocate capacity
  let buf ← buf.putAll ps
  return buf.array

theorem toInt_of_le {n : Nat} (h : n ≤ maxInt) : toInt n = n := by
  rw [maxInt] at h
  exact Int.bmod_eq_of_le (by omega) (by omega)

/-- A size that does not fit an `int` wraps to less. -/
theorem toInt_lt {n : Nat} (h : maxInt < n) : toInt n < n := by
  have hlt : toInt n < (2 ^ 32 + 1) / 2 := Int.bmod_lt (by decide)
  rw [maxInt] at h
  omega

theorem putParts_of_fits {ps : List Bytes} (h : ps.flatten.length ≤ maxInt) :
    putParts (toInt ps.flatten.length) ps = .ok (Buffer.filled ps.flatten 0) := by
  have hneg : ¬ ((ps.flatten.length : Nat) : Int) < 0 := by omega
  simp only [putParts, toInt_of_le h, allocate, if_neg hneg, ok_bind, putAll_eq, Int.toNat_natCast,
    Buffer.copyAll_alloc, le_refl, if_true, Nat.sub_self, pure_eq_ok]

/-- Sizes that come out of an `int` as a smaller size. -/
def Wraps (n : Nat) : Prop := maxInt < n ∧ 0 ≤ toInt n

instance (n : Nat) : Decidable (Wraps n) := inferInstanceAs (Decidable (maxInt < n ∧ 0 ≤ toInt n))

theorem not_wraps_iff {n : Nat} : ¬Wraps n ↔ n ≤ maxInt ∨ toInt n < 0 := by
  unfold Wraps
  omega

theorem putParts_of_negative {n : Nat} {ps : List Bytes} (h : toInt n < 0) :
    putParts (toInt n) ps = .error (.illegalArgument "capacity < 0" (some (toInt n))) := by
  unfold putParts allocate
  rw [if_pos h]
  rfl

/-- The buffer is smaller than what is put into it. -/
theorem putParts_of_wraps {ps : List Bytes} (h : Wraps ps.flatten.length) :
    putParts (toInt ps.flatten.length) ps = .error .bufferOverflow := by
  obtain ⟨hover, hpos⟩ := h
  have hlt := toInt_lt hover
  have hsmall : ¬ ps.flatten.length ≤ (toInt ps.flatten.length).toNat := by omega
  unfold putParts allocate
  rw [if_neg (Int.not_lt.mpr hpos)]
  simp only [ok_bind, putAll_eq, Buffer.copyAll_alloc, if_neg hsmall, error_bind]

theorem putParts_of_overflow {ps : List Bytes} (h : maxInt < ps.flatten.length) :
    ∃ e, putParts (toInt ps.flatten.length) ps = .error e := by
  by_cases hneg : toInt ps.flatten.length < 0
  · exact ⟨_, putParts_of_negative hneg⟩
  · exact ⟨_, putParts_of_wraps ⟨h, Int.not_lt.mp hneg⟩⟩

/-! ## The builders -/

/-- `requireNonNull`. -/
def requireNonNull (fn arg : String) : Option Bytes → Except Stop Bytes
  | none => .error (.illegalArgument (fn ++ ": " ++ arg ++ " must not be null") none)
  | some value => .ok value

/-- `getBytes(UTF_8)`, with `?` for an unpaired surrogate; the bytes have to fit an array. -/
def getBytes (s : Str) : Except Stop Bytes :=
  if (utf8 (decode16 '?' s)).length ≤ maxInt then .ok (utf8 (decode16 '?' s)) else .error .outOfMemory

/-- `hybridSignBytesV1`. -/
def hybridSignBytesV1 (bodyWithoutPqcExt authInfoBytes : Option Bytes) : Except Stop Buffer := do
  let bodyWithoutPqcExt ← requireNonNull "hybridSignBytesV1" "bodyWithoutPqcExt" bodyWithoutPqcExt
  let authInfoBytes ← requireNonNull "hybridSignBytesV1" "authInfoBytes" authInfoBytes
  let buf ← allocate (toInt (8 + bodyWithoutPqcExt.length + authInfoBytes.length))
  let buf ← buf.putInt (toInt bodyWithoutPqcExt.length)
  let buf ← buf.put bodyWithoutPqcExt
  let buf ← buf.putInt (toInt authInfoBytes.length)
  let buf ← buf.put authInfoBytes
  return buf.array

def errChainId : Stop := .illegalArgument "hybridSignBytesV2: chainId is required" none

/-- `hybridSignBytesV2`. -/
def hybridSignBytesV2 (chainId : Option Str) (bodyWithoutPqcExt authInfoBytes : Option Bytes) : Except Stop Buffer := do
  match chainId with
  | none => throw errChainId
  | some chainId =>
    if chainId.length = 0 then throw errChainId
    let bodyWithoutPqcExt ← requireNonNull "hybridSignBytesV2" "bodyWithoutPqcExt" bodyWithoutPqcExt
    let authInfoBytes ← requireNonNull "hybridSignBytesV2" "authInfoBytes" authInfoBytes
    let domain ← getBytes hybridSignBytesDomain
    let cid ← getBytes chainId
    let buf ← allocate (toInt (domain.length + 8 + cid.length + 8 + bodyWithoutPqcExt.length + authInfoBytes.length))
    let buf ← buf.put domain
    let buf ← buf.putLong (toInt cid.length)
    let buf ← buf.put cid
    let buf ← buf.putInt (toInt bodyWithoutPqcExt.length)
    let buf ← buf.put bodyWithoutPqcExt
    let buf ← buf.putInt (toInt authInfoBytes.length)
    let buf ← buf.put authInfoBytes
    return buf.array

/-- `hybridSignBytes`. -/
def hybridSignBytes (version : Int) (chainId : Option Str) (bodyWithoutPqcExt authInfoBytes : Option Bytes) :
    Except Stop Buffer :=
  if version = signBytesV1 then hybridSignBytesV1 bodyWithoutPqcExt authInfoBytes
  else if version = signBytesV2 then hybridSignBytesV2 chainId bodyWithoutPqcExt authInfoBytes
  else .error (.illegalArgument "hybrid sign-bytes version must be 1 or 2, got " (some version))

/-! ## What the puts write -/

/-- An `int` keeps the low 32 bits, which are all that `putInt` writes. -/
theorem putInt_toInt (b : ByteBuffer) (n : Nat) : b.putInt (toInt n) = b.put (beBytes 4 n) := by
  have hint : toInt n % 2 ^ 32 = (n : Int) % 2 ^ 32 := Int.bmod_emod
  have hmod : (toInt n % 2 ^ 32).toNat = n % 256 ^ 4 := by omega
  rw [ByteBuffer.putInt, hmod, beBytes_mod]

theorem putLong_toInt (b : ByteBuffer) {n : Nat} (h : n ≤ maxInt) : b.putLong (toInt n) = b.put (beBytes 8 n) := by
  have hmod : ((n : Int) % 2 ^ 64).toNat = n := by
    rw [maxInt] at h
    omega
  rw [ByteBuffer.putLong, toInt_of_le h, hmod]

theorem getBytes_utf16 (s : List Char) :
    getBytes (utf16 s) = if (utf8 s).length ≤ maxInt then .ok (utf8 s) else .error .outOfMemory := by
  rw [getBytes, decode16_utf16]

theorem getBytes_domain : getBytes hybridSignBytesDomain = .ok Format.domain := by
  rw [hybridSignBytesDomain, str, getBytes_utf16]
  exact if_pos (by decide)

/-- The v1 builder puts the four parts of the message. -/
theorem hybridSignBytesV1_parts (b0 auth : Bytes) : hybridSignBytesV1 (some b0) (some auth) =
    putParts (toInt (8 + b0.length + auth.length)) [beBytes 4 b0.length, b0, beBytes 4 auth.length, auth] := by
  simp only [hybridSignBytesV1, requireNonNull, ok_bind, putParts, ByteBuffer.putAll, putInt_toInt, bind_assoc]

/-- **The v1 builder**, for a message that fits an array. -/
theorem hybridSignBytesV1_of_fits {b0 auth : Bytes} (h : 8 + b0.length + auth.length ≤ maxInt) :
    hybridSignBytesV1 (some b0) (some auth) = .ok (Buffer.filled (Format.v1 b0 auth) 0) := by
  rw [← Format.length_v1, ← Format.flatten_v1] at h
  rw [hybridSignBytesV1_parts, ← Format.length_v1, ← Format.flatten_v1]
  exact putParts_of_fits h

/-- A longer one is refused. -/
theorem hybridSignBytesV1_of_overflow {b0 auth : Bytes} (h : maxInt < 8 + b0.length + auth.length) :
    ∃ e, hybridSignBytesV1 (some b0) (some auth) = .error e := by
  rw [← Format.length_v1, ← Format.flatten_v1] at h
  rw [hybridSignBytesV1_parts, ← Format.length_v1, ← Format.flatten_v1]
  exact putParts_of_overflow h

theorem hybridSignBytesV1_of_negative {b0 auth : Bytes} (h : toInt (8 + b0.length + auth.length) < 0) :
    hybridSignBytesV1 (some b0) (some auth) =
      .error (.illegalArgument "capacity < 0" (some (toInt (8 + b0.length + auth.length)))) := by
  rw [hybridSignBytesV1_parts]
  exact putParts_of_negative h

theorem hybridSignBytesV1_of_wraps {b0 auth : Bytes} (h : Wraps (8 + b0.length + auth.length)) :
    hybridSignBytesV1 (some b0) (some auth) = .error .bufferOverflow := by
  rw [← Format.length_v1, ← Format.flatten_v1] at h
  rw [hybridSignBytesV1_parts, ← Format.length_v1, ← Format.flatten_v1]
  exact putParts_of_wraps h

/-- The bytes of a chain id. -/
def chainBytes (chainId : Str) : Bytes := utf8 (decode16 '?' chainId)

theorem chainBytes_utf16 (s : List Char) : chainBytes (utf16 s) = utf8 s := by rw [chainBytes, decode16_utf16]

/-- The v2 builder puts the seven parts of the message, if the chain id fits an array. -/
theorem hybridSignBytesV2_parts {chainId : Str} (hc : chainId ≠ []) (hl : (chainBytes chainId).length ≤ maxInt)
    (b0 auth : Bytes) : hybridSignBytesV2 (some chainId) (some b0) (some auth) =
      putParts (toInt (39 + (chainBytes chainId).length + b0.length + auth.length))
        [Format.domain, beBytes 8 (chainBytes chainId).length, chainBytes chainId, beBytes 4 b0.length, b0,
          beBytes 4 auth.length, auth] := by
  have hc0 : ¬ chainId.length = 0 := fun h => hc (List.length_eq_zero_iff.mp h)
  have hcid : getBytes chainId = .ok (chainBytes chainId) := if_pos hl
  have hsize : 23 + 8 + (chainBytes chainId).length + 8 + b0.length + auth.length =
      39 + (chainBytes chainId).length + b0.length + auth.length := by omega
  simp only [hybridSignBytesV2, if_neg hc0, requireNonNull, getBytes_domain, hcid, Format.length_domain, hsize, ok_bind,
    putParts, ByteBuffer.putAll, putInt_toInt, putLong_toInt _ hl, bind_assoc]

/-- **The v2 builder**, for a message that fits an array. -/
theorem hybridSignBytesV2_of_fits {chainId : Str} (hc : chainId ≠ []) {b0 auth : Bytes}
    (h : 39 + (chainBytes chainId).length + b0.length + auth.length ≤ maxInt) :
    hybridSignBytesV2 (some chainId) (some b0) (some auth) =
      .ok (Buffer.filled (Format.v2 (chainBytes chainId) b0 auth) 0) := by
  have hl : (chainBytes chainId).length ≤ maxInt := by omega
  rw [← Format.length_v2, ← Format.flatten_v2] at h
  rw [hybridSignBytesV2_parts hc hl, ← Format.length_v2, ← Format.flatten_v2]
  exact putParts_of_fits h

theorem hybridSignBytesV2_of_negative {chainId : Str} (hc : chainId ≠ []) (hl : (chainBytes chainId).length ≤ maxInt)
    {b0 auth : Bytes} (h : toInt (39 + (chainBytes chainId).length + b0.length + auth.length) < 0) :
    hybridSignBytesV2 (some chainId) (some b0) (some auth) = .error (.illegalArgument "capacity < 0"
      (some (toInt (39 + (chainBytes chainId).length + b0.length + auth.length)))) := by
  rw [hybridSignBytesV2_parts hc hl]
  exact putParts_of_negative h

theorem hybridSignBytesV2_of_wraps {chainId : Str} (hc : chainId ≠ []) (hl : (chainBytes chainId).length ≤ maxInt)
    {b0 auth : Bytes} (h : Wraps (39 + (chainBytes chainId).length + b0.length + auth.length)) :
    hybridSignBytesV2 (some chainId) (some b0) (some auth) = .error .bufferOverflow := by
  rw [← Format.length_v2, ← Format.flatten_v2] at h
  rw [hybridSignBytesV2_parts hc hl, ← Format.length_v2, ← Format.flatten_v2]
  exact putParts_of_wraps h

/-- A chain id that does not fit an array. -/
theorem hybridSignBytesV2_of_chainId {chainId : Str} (hc : chainId ≠ []) (hl : maxInt < (chainBytes chainId).length)
    (b0 auth : Bytes) : hybridSignBytesV2 (some chainId) (some b0) (some auth) = .error .outOfMemory := by
  have hc0 : ¬ chainId.length = 0 := fun h => hc (List.length_eq_zero_iff.mp h)
  have hcid : getBytes chainId = .error .outOfMemory := if_neg (Nat.not_le.mpr hl)
  simp only [hybridSignBytesV2, if_neg hc0, requireNonNull, getBytes_domain, hcid, ok_bind, error_bind]

/-- A longer one is refused. -/
theorem hybridSignBytesV2_of_overflow {chainId : Str} {b0 auth : Bytes}
    (h : maxInt < 39 + (chainBytes chainId).length + b0.length + auth.length) :
    ∃ e, hybridSignBytesV2 (some chainId) (some b0) (some auth) = .error e := by
  by_cases hc : chainId = []
  · exact ⟨errChainId, by rw [hc]; rfl⟩
  · by_cases hl : (chainBytes chainId).length ≤ maxInt
    · rw [← Format.length_v2, ← Format.flatten_v2] at h
      rw [hybridSignBytesV2_parts hc hl, ← Format.length_v2, ← Format.flatten_v2]
      exact putParts_of_overflow h
    · exact ⟨_, hybridSignBytesV2_of_chainId hc (Nat.not_le.mp hl) b0 auth⟩

end QorechainPqc.Java
