import Mathlib.Data.List.TakeWhile
import QorechainPqc.Lib.Buffer
import QorechainPqc.Lib.Except
import QorechainPqc.SignBytes.Rule

/-!
# Sign-bytes in the C binding

`qorechain_pqc.c`: the version rule over C strings and arrays that may be `NULL`, and the builders, which compute the
size of the message in `size_t`, allocate a block of that size and store into it at running offsets. A store outside the
block is undefined behaviour, kept apart from the error code (`Stop`).

* `be32_eq_write`, `be64_eq_write`: the byte stores spell big-endian words (`be64` runs from the last byte down).
* `qpqcHybridSignBytesV1_eq`, `qpqcHybridSignBytesV2_eq`: what the builders do on every input. The exact size either
  fits `size_t` and the block is the message, each cell stored once, or it wraps and a store leaves the block.
* `qpqcSignBytesVersionForApplied_eq`: the loop over the observations is the rule.
-/

namespace QorechainPqc.C

open Detect Failing Framing Text

/-! ## Sizes and strings -/

/-- The width of `size_t`. -/
inductive SizeT
  | w32
  | w64
deriving DecidableEq

namespace SizeT

/-- `size_t` counts modulo this. -/
def modulus : SizeT → Nat
  | w32 => 2 ^ 32
  | w64 => 2 ^ 64

/-- Addition in `size_t`. -/
def add (w : SizeT) (a b : Nat) : Nat := (a + b) % w.modulus

theorem modulus_ge (w : SizeT) : 2 ^ 32 ≤ w.modulus := by cases w <;> decide

theorem modulus_le (w : SizeT) : w.modulus ≤ 2 ^ 64 := by cases w <;> decide

theorem add_of_lt {w : SizeT} {a b : Nat} (h : a + b < w.modulus) : w.add a b = a + b := Nat.mod_eq_of_lt h

theorem add_lt (w : SizeT) (a b : Nat) : w.add a b < w.modulus :=
  Nat.mod_lt _ (Nat.lt_of_lt_of_le (by decide) w.modulus_ge)

@[simp] theorem add_add (w : SizeT) (a b c : Nat) : w.add (w.add a b) c = w.add (a + b) c := by
  simp [add]

end SizeT

/-- The string that starts at memory: the bytes before the first zero. -/
def cstr (s : Bytes) : Bytes := s.takeWhile (· ≠ 0)

/-- `!strcmp(a, b)`. -/
def strEq (a b : Bytes) : Bool := cstr a == cstr b

theorem cstr_of_notMem {s : Bytes} (h : (0 : UInt8) ∉ s) : cstr s = s := by
  have hd : ∀ b ∈ s, decide (b ≠ 0) = true := fun b hb => decide_eq_true fun e => h (e ▸ hb)
  exact List.takeWhile_eq_self_iff.mpr hd

/-! ## The version rule -/

def qpqcSignBytesV1 : Int := 1

def qpqcSignBytesV2 : Int := 2

def qpqcSignBytesV2Upgrades : List Bytes := [utf8 "v3.2.0".toList, utf8 "v3.1.98".toList]

/-- `qpqc_sign_bytes_version_for`. -/
def qpqcSignBytesVersionFor (chainId : Option Bytes) (v2AppliedHeight : Int) : Int :=
  match chainId with
  | none => qpqcSignBytesV2
  | some c =>
    if v2AppliedHeight > 0 then qpqcSignBytesV2
    else if strEq c (utf8 "qorechain-vladi".toList) || strEq c (utf8 "qorechain-diana".toList) then qpqcSignBytesV1
    else qpqcSignBytesV2

/-- The loop over the upgrade names for one observation that has a name. -/
def bestOf (name : Bytes) (height : Int) (best : Int) : Int :=
  qpqcSignBytesV2Upgrades.foldl (fun best up => if strEq name up && decide (height > best) then height else best) best

/-- The loop over the first `n` observations. -/
def bestHeight (names : List (Option Bytes)) (heights : List Int) (n : Nat) : Int :=
  ((names.zip heights).take n).foldl
    (fun best o => match o.1 with
      | none => best
      | some name => bestOf name o.2 best) 0

/-- `qpqc_sign_bytes_version_for_applied`; either array may be `NULL`. -/
def qpqcSignBytesVersionForApplied (chainId : Option Bytes) (names : Option (List (Option Bytes)))
    (heights : Option (List Int)) (n : Nat) : Int :=
  let best := match names, heights with
    | some names, some heights => bestHeight names heights n
    | _, _ => 0
  qpqcSignBytesVersionFor chainId best

/-- `true` for the C string of a legacy network. -/
def legacy (chainId : Option Bytes) : Bool := chainId.any fun c => (legacyChains.map utf8).contains (cstr c)

/-- The rule's answer as the binding returns it. -/
def ofVersion : Version → Int
  | .v1 => qpqcSignBytesV1
  | .v2 => qpqcSignBytesV2

/-- The observations that the loop sees, with names as C strings. -/
def seen (names : Option (List (Option Bytes))) (heights : Option (List Int)) (n : Nat) : Observations Bytes :=
  match names, heights with
  | some names, some heights => ((names.zip heights).take n).map fun o => (o.1.map cstr, o.2)
  | _, _ => []

theorem cstr_upgrade : ∀ up ∈ qpqcSignBytesV2Upgrades, cstr up = up := by decide

theorem strEq_iff {a b : Bytes} : strEq a b = true ↔ cstr a = cstr b := beq_iff_eq

theorem qpqcSignBytesVersionFor_eq (chainId : Option Bytes) (h : Int) :
    qpqcSignBytesVersionFor chainId h = ofVersion (rule (legacy chainId) (decide (0 < h))) := by
  cases chainId with
  | none => rfl
  | some c =>
    have hc : legacy (some c) =
        (strEq c (utf8 "qorechain-vladi".toList) || strEq c (utf8 "qorechain-diana".toList)) := by
      have hv : cstr (utf8 "qorechain-vladi".toList) = utf8 "qorechain-vladi".toList := by decide
      have hd : cstr (utf8 "qorechain-diana".toList) = utf8 "qorechain-diana".toList := by decide
      simp only [legacy, legacyChains, strEq, hv, hd, Option.any_some, List.map_cons, List.map_nil, List.contains_cons,
        List.contains_nil, Bool.or_false]
    rw [hc, qpqcSignBytesVersionFor]
    by_cases hp : 0 < h
    · rw [if_pos hp, decide_eq_true hp, rule_eq_v2.mpr (Or.inr rfl)]; rfl
    · rw [if_neg hp, decide_eq_false hp]
      cases strEq c (utf8 "qorechain-vladi".toList) || strEq c (utf8 "qorechain-diana".toList) <;> rfl

/-- The inner loop detects a listed name with a positive height. -/
theorem bestOf_pos (name : Bytes) (height best : Int) :
    0 < bestOf name height best ↔ 0 < best ∨ ∃ up ∈ qpqcSignBytesV2Upgrades, cstr name = up ∧ 0 < height := by
  have hstep : ∀ (best : Int) (up : Bytes),
      0 < (if strEq name up && decide (height > best) then height else best) ↔
        0 < best ∨ (cstr name = cstr up ∧ 0 < height) := by
    intro best up
    by_cases he : cstr name = cstr up
    · by_cases hh : height > best
      · rw [if_pos (by rw [strEq_iff.mpr he, decide_eq_true hh]; rfl)]
        exact ⟨fun h => Or.inr ⟨he, h⟩, fun h => by omega⟩
      · rw [if_neg (by simp [hh])]
        exact ⟨Or.inl, fun h => by omega⟩
    · rw [if_neg (by simp [strEq_iff, he])]
      exact ⟨Or.inl, fun h => h.resolve_right fun h' => he h'.1⟩
  rw [bestOf, foldl_detects (R := fun b : Int => 0 < b) (P := fun up => cstr name = cstr up ∧ 0 < height) hstep]
  constructor
  · rintro (h | ⟨up, hup, he, hp⟩)
    · exact Or.inl h
    · exact Or.inr ⟨up, hup, he.trans (cstr_upgrade up hup), hp⟩
  · rintro (h | ⟨up, hup, he, hp⟩)
    · exact Or.inl h
    · exact Or.inr ⟨up, hup, he.trans (cstr_upgrade up hup).symm, hp⟩

/-- The loop detects an observation that switches. -/
theorem bestHeight_pos (names : List (Option Bytes)) (heights : List Int) (n : Nat) :
    0 < bestHeight names heights n ↔ observed qpqcSignBytesV2Upgrades (seen (some names) (some heights) n) = true := by
  have hstep : ∀ (best : Int) (o : Option Bytes × Int),
      0 < (match o.1 with
        | none => best
        | some name => bestOf name o.2 best) ↔
        0 < best ∨ ∃ up ∈ qpqcSignBytesV2Upgrades, o.1.map cstr = some up ∧ 0 < o.2 := by
    rintro best ⟨name, height⟩
    cases name with
    | none => simp
    | some name => simpa using bestOf_pos name height best
  rw [bestHeight, foldl_detects (R := fun b : Int => 0 < b)
    (P := fun o => ∃ up ∈ qpqcSignBytesV2Upgrades, o.1.map cstr = some up ∧ 0 < o.2) hstep, observed_iff, seen]
  simp only [lt_irrefl, false_or, List.mem_map]
  constructor
  · rintro ⟨o, ho, h⟩; exact ⟨_, ⟨o, ho, rfl⟩, h⟩
  · rintro ⟨_, ⟨o, ho, rfl⟩, h⟩; exact ⟨o, ho, h⟩

/-- **The version rule in C**: the chain id and the names count up to their first zero byte. -/
theorem qpqcSignBytesVersionForApplied_eq (chainId : Option Bytes) (names : Option (List (Option Bytes)))
    (heights : Option (List Int)) (n : Nat) :
    qpqcSignBytesVersionForApplied chainId names heights n =
      ofVersion (rule (legacy chainId) (observed qpqcSignBytesV2Upgrades (seen names heights n))) := by
  unfold qpqcSignBytesVersionForApplied
  rw [qpqcSignBytesVersionFor_eq]
  congr 2
  cases names with
  | none => rfl
  | some names =>
    cases heights with
    | none => rfl
    | some heights =>
      rw [Bool.eq_iff_iff, decide_eq_true_eq]
      exact bestHeight_pos names heights n

/-! ## The builders -/

/-- Why a call hands out no bytes. -/
inductive Stop
  /-- `QPQC_ERR`. -/
  | err
  /-- Undefined behaviour: a store outside the allocated block. -/
  | fault
deriving DecidableEq

/-- `malloc`, with a `NULL` result answered by `QPQC_ERR`. -/
def allocate (malloc : Nat → Bool) (n : Nat) : Except Stop Buffer :=
  if malloc n then .ok (Buffer.alloc n) else .error .err

/-- Stores that stay inside the block. -/
def inBlock : Option Buffer → Except Stop Buffer
  | some b => .ok b
  | none => .error .fault

def be32 (o : Buffer) (p : Nat) (n : UInt32) : Option Buffer := do
  let o ← o.set p (n >>> 24).toUInt8
  let o ← o.set (p + 1) (n >>> 16).toUInt8
  let o ← o.set (p + 2) (n >>> 8).toUInt8
  o.set (p + 3) n.toUInt8

/-- The loop of `be64`, from byte `i - 1` down to byte `0`. -/
def be64Loop (p : Nat) : Nat → Buffer → UInt64 → Option Buffer
  | 0, o, _ => some o
  | i + 1, o, n => (o.set (p + i) n.toUInt8).bind fun o => be64Loop p i o (n >>> 8)

def be64 (o : Buffer) (p : Nat) (n : UInt64) : Option Buffer := be64Loop p 8 o n

/-- `if (n) memcpy(...)` from a source of `n` bytes. -/
def memcpyIf (o : Buffer) (p : Nat) (src : Bytes) : Option Buffer :=
  if src.length ≠ 0 then o.write p src else some o

/-- `qpqcHybridSignBytesDomain`. -/
def qpqcHybridSignBytesDomain : Bytes := utf8 "qorechain-pqc-hybrid-v2".toList

theorem qpqcHybridSignBytesDomain_eq : qpqcHybridSignBytesDomain = Format.domain := rfl

/-- `qpqc_hybrid_sign_bytes_v1`: the block stored in `*out` and the size stored in `*out_len`. -/
def qpqcHybridSignBytesV1 (w : SizeT) (malloc : Nat → Bool) (b0 auth : Bytes) : Except Stop (Buffer × Nat) := do
  let total := w.add (w.add 8 b0.length) auth.length
  let buf ← allocate malloc (if total ≠ 0 then total else 1)
  let buf ← inBlock (be32 buf 0 (UInt32.ofNat b0.length))
  let buf ← inBlock (memcpyIf buf 4 b0)
  let buf ← inBlock (be32 buf (4 + b0.length) (UInt32.ofNat auth.length))
  let buf ← inBlock (memcpyIf buf (8 + b0.length) auth)
  return (buf, total)

/-- `qpqc_hybrid_sign_bytes_v2`; `chainId` is `none` for a `NULL` pointer. -/
def qpqcHybridSignBytesV2 (w : SizeT) (malloc : Nat → Bool) (chainId : Option Bytes) (b0 auth : Bytes) :
    Except Stop (Buffer × Nat) := do
  match chainId with
  | none => throw .err
  | some chainId =>
    if chainId.length = 0 then throw .err
    let dl := qpqcHybridSignBytesDomain.length
    let total := w.add (w.add (w.add (w.add (w.add dl 8) chainId.length) 8) b0.length) auth.length
    let buf ← allocate malloc total
    let o := 0
    let buf ← inBlock (buf.write o qpqcHybridSignBytesDomain)
    let o := w.add o dl
    let buf ← inBlock (be64 buf o (UInt64.ofNat chainId.length))
    let o := w.add o 8
    let buf ← inBlock (memcpyIf buf o chainId)
    let o := w.add o chainId.length
    let buf ← inBlock (be32 buf o (UInt32.ofNat b0.length))
    let o := w.add o 4
    let buf ← inBlock (memcpyIf buf o b0)
    let o := w.add o b0.length
    let buf ← inBlock (be32 buf o (UInt32.ofNat auth.length))
    let o := w.add o 4
    let buf ← inBlock (memcpyIf buf o auth)
    return (buf, total)

/-- `qpqc_hybrid_sign_bytes`. -/
def qpqcHybridSignBytes (w : SizeT) (malloc : Nat → Bool) (version : Int) (chainId : Option Bytes) (b0 auth : Bytes) :
    Except Stop (Buffer × Nat) :=
  if version = qpqcSignBytesV1 then qpqcHybridSignBytesV1 w malloc b0 auth
  else if version = qpqcSignBytesV2 then qpqcHybridSignBytesV2 w malloc chainId b0 auth
  else .error .err

/-! ## What the stores write -/

theorem be32_eq_write (o : Buffer) (p : Nat) (n : UInt32) : be32 o p n = o.write p (beBytes 4 n.toNat) := by
  rw [beBytes_uint32]
  simp only [be32, Buffer.write, Option.bind_eq_bind, Nat.add_assoc, Nat.reduceAdd]
  congr 1; funext o
  congr 1; funext o
  congr 1; funext o
  exact (Option.bind_fun_some _).symm

/-- Byte by byte from the last one, the loop stores the `i` low bytes of `n`. -/
theorem be64Loop_eq_write (p : Nat) : ∀ (i : Nat) (o : Buffer) (n : UInt64),
    be64Loop p i o n = o.write p (beBytes i n.toNat)
  | 0, _, _ => rfl
  | i + 1, o, n => by
    have hb : n.toUInt8 = UInt8.ofNat n.toNat := by
      apply UInt8.toNat_inj.mp
      rw [UInt64.toNat_toUInt8, UInt8.toNat_ofNat']
    have hn : (n >>> 8).toNat = n.toNat / 256 := by
      rw [UInt64.toNat_shiftRight]
      exact Nat.shiftRight_eq_div_pow _ 8
    rw [be64Loop, beBytes_succ, Buffer.write_snoc, length_beBytes, hb]
    congr 1; funext o
    rw [be64Loop_eq_write p i, hn]

theorem be64_eq_write (o : Buffer) (p : Nat) (n : UInt64) : be64 o p n = o.write p (beBytes 8 n.toNat) :=
  be64Loop_eq_write p 8 o n

/-- The guard only skips a copy of nothing. -/
theorem memcpyIf_eq_write (o : Buffer) (p : Nat) (src : Bytes) : memcpyIf o p src = o.write p src := by
  unfold memcpyIf
  split
  · rfl
  · rename_i h
    rw [List.length_eq_zero_iff.mp (not_not.mp h), Buffer.write]

theorem inBlock_bind (b : Option Buffer) (f : Buffer → Option Buffer) :
    (inBlock b >>= fun b => inBlock (f b)) = inBlock (b.bind f) := by
  cases b <;> rfl

/-- Parts at a running offset that is kept in `size_t`. -/
def writeMod (w : SizeT) (b : Buffer) (o : Nat) : List Bytes → Option Buffer
  | [] => some b
  | p :: ps => (b.write o p).bind fun b => writeMod w b (w.add o p.length) ps

/-- Up to the first store outside the block the offset does not wrap. -/
theorem writeMod_eq (w : SizeT) : ∀ (ps : List Bytes) {b : Buffer} {o : Nat}, b.size < w.modulus → o < w.modulus →
    writeMod w b o ps = b.writeAll o ps
  | [], _, _, _, _ => rfl
  | p :: ps, b, o, hb, ho => by
    rw [writeMod, Buffer.writeAll]
    cases h : b.write o p with
    | none => rfl
    | some b' =>
      obtain ⟨hs, hp⟩ := Buffer.write_bounds h
      have hlt : o + p.length < w.modulus := by
        rcases hp with rfl | hp
        · simpa using ho
        · omega
      simp only [Option.bind_some]
      rw [SizeT.add_of_lt hlt]
      exact writeMod_eq w ps (hs ▸ hb) hlt

/-- Allocate `n` cells, store the parts one behind the other and return the block with the size `t`. -/
def build (malloc : Nat → Bool) (n : Nat) (ps : List Bytes) (t : Nat) : Except Stop (Buffer × Nat) := do
  let buf ← allocate malloc n
  let buf ← inBlock (buf.writeAll 0 ps)
  return (buf, t)

theorem build_eq (malloc : Nat → Bool) (n : Nat) (ps : List Bytes) (t : Nat) : build malloc n ps t =
    if malloc n = false then .error .err
    else if ps.flatten.length ≤ n then .ok (Buffer.filled ps.flatten (n - ps.flatten.length), t)
    else .error .fault := by
  unfold build allocate
  cases malloc n with
  | false => rfl
  | true =>
    simp only [if_true, ok_bind, Buffer.writeAll_eq, Buffer.write_alloc]
    split <;> rfl

/-! ## The builders on every input -/

/-- The size that the v1 builder asks `malloc` for. -/
def mallocSizeV1 (w : SizeT) (b0 auth : Bytes) : Nat :=
  if w.add (8 + b0.length) auth.length ≠ 0 then w.add (8 + b0.length) auth.length else 1

/-- The size that the v2 builder asks `malloc` for. -/
def mallocSizeV2 (w : SizeT) (chainId b0 auth : Bytes) : Nat := w.add (39 + chainId.length + b0.length) auth.length

theorem mallocSizeV1_of_fits {w : SizeT} {b0 auth : Bytes} (h : 8 + b0.length + auth.length < w.modulus) :
    mallocSizeV1 w b0 auth = 8 + b0.length + auth.length := by
  rw [mallocSizeV1, SizeT.add_of_lt h, if_pos (by omega)]

theorem mallocSizeV2_of_fits {w : SizeT} {chainId b0 auth : Bytes}
    (h : 39 + chainId.length + b0.length + auth.length < w.modulus) :
    mallocSizeV2 w chainId b0 auth = 39 + chainId.length + b0.length + auth.length := SizeT.add_of_lt h

/-- A size that wraps is smaller than the message. -/
theorem mallocSizeV1_lt {w : SizeT} {b0 auth : Bytes} (h : w.modulus ≤ 8 + b0.length + auth.length) :
    mallocSizeV1 w b0 auth < 8 + b0.length + auth.length := by
  have := w.add_lt (8 + b0.length) auth.length
  unfold mallocSizeV1
  split <;> omega

theorem mallocSizeV2_lt {w : SizeT} {chainId b0 auth : Bytes}
    (h : w.modulus ≤ 39 + chainId.length + b0.length + auth.length) :
    mallocSizeV2 w chainId b0 auth < 39 + chainId.length + b0.length + auth.length :=
  Nat.lt_of_lt_of_le (w.add_lt _ _) h

/-- The v1 builder stores the four parts of the message at a running offset. -/
theorem qpqcHybridSignBytesV1_build (w : SizeT) (malloc : Nat → Bool) (b0 auth : Bytes) :
    qpqcHybridSignBytesV1 w malloc b0 auth = build malloc (mallocSizeV1 w b0 auth)
      [beBytes 4 b0.length, b0, beBytes 4 auth.length, auth] (w.add (8 + b0.length) auth.length) := by
  have h8 : 4 + b0.length + 4 = 8 + b0.length := by omega
  have hstores : ∀ buf : Buffer, (inBlock (be32 buf 0 (UInt32.ofNat b0.length)) >>= fun buf =>
      inBlock (memcpyIf buf 4 b0) >>= fun buf =>
      inBlock (be32 buf (4 + b0.length) (UInt32.ofNat auth.length)) >>= fun buf =>
      inBlock (memcpyIf buf (8 + b0.length) auth)) =
      inBlock (buf.writeAll 0 [beBytes 4 b0.length, b0, beBytes 4 auth.length, auth]) := by
    intro buf
    simp only [be32_eq_write, memcpyIf_eq_write, beBytes_ofNat32, inBlock_bind, Buffer.writeAll, length_beBytes,
      Nat.zero_add, h8, Option.bind_fun_some]
  simp only [build, ← hstores, bind_assoc, qpqcHybridSignBytesV1, mallocSizeV1, SizeT.add_add]

/-- **The v1 builder**, on every input. -/
theorem qpqcHybridSignBytesV1_eq (w : SizeT) (malloc : Nat → Bool) (b0 auth : Bytes) :
    qpqcHybridSignBytesV1 w malloc b0 auth =
      if malloc (mallocSizeV1 w b0 auth) = false then .error .err
      else if 8 + b0.length + auth.length < w.modulus then
        .ok (Buffer.filled (Format.v1 b0 auth) 0, 8 + b0.length + auth.length)
      else .error .fault := by
  rw [qpqcHybridSignBytesV1_build, build_eq, Format.flatten_v1, Format.length_v1]
  by_cases h : 8 + b0.length + auth.length < w.modulus
  · rw [mallocSizeV1_of_fits h, SizeT.add_of_lt h, if_pos (Nat.le_refl _), Nat.sub_self, if_pos h]
  · rw [if_neg (Nat.not_le.mpr (mallocSizeV1_lt (Nat.not_lt.mp h))), if_neg h]

/-- The v2 builder stores the seven parts of the message, at an offset that it keeps in `size_t`. -/
theorem qpqcHybridSignBytesV2_build (w : SizeT) (malloc : Nat → Bool) {chainId : Bytes} (hc : chainId ≠ [])
    (b0 auth : Bytes) :
    qpqcHybridSignBytesV2 w malloc (some chainId) b0 auth = build malloc (mallocSizeV2 w chainId b0 auth)
      [qpqcHybridSignBytesDomain, beBytes 8 chainId.length, chainId, beBytes 4 b0.length, b0, beBytes 4 auth.length,
        auth] (w.add (39 + chainId.length + b0.length) auth.length) := by
  have hc0 : ¬ chainId.length = 0 := fun h => hc (List.length_eq_zero_iff.mp h)
  have hdl : qpqcHybridSignBytesDomain.length = 23 := Format.length_domain
  have htotal : w.add (w.add (w.add (w.add (w.add 23 8) chainId.length) 8) b0.length) auth.length =
      w.add (39 + chainId.length + b0.length) auth.length := by
    simp only [SizeT.add_add]
    congr 1
    omega
  have hstores : ∀ buf : Buffer, (inBlock (buf.write 0 qpqcHybridSignBytesDomain) >>= fun buf =>
      inBlock (be64 buf (w.add 0 23) (UInt64.ofNat chainId.length)) >>= fun buf =>
      inBlock (memcpyIf buf (w.add (w.add 0 23) 8) chainId) >>= fun buf =>
      inBlock (be32 buf (w.add (w.add (w.add 0 23) 8) chainId.length) (UInt32.ofNat b0.length)) >>= fun buf =>
      inBlock (memcpyIf buf (w.add (w.add (w.add (w.add 0 23) 8) chainId.length) 4) b0) >>= fun buf =>
      inBlock (be32 buf (w.add (w.add (w.add (w.add (w.add 0 23) 8) chainId.length) 4) b0.length)
        (UInt32.ofNat auth.length)) >>= fun buf =>
      inBlock (memcpyIf buf (w.add (w.add (w.add (w.add (w.add (w.add 0 23) 8) chainId.length) 4) b0.length) 4)
        auth)) =
      inBlock (writeMod w buf 0 [qpqcHybridSignBytesDomain, beBytes 8 chainId.length, chainId, beBytes 4 b0.length, b0,
        beBytes 4 auth.length, auth]) := by
    intro buf
    simp only [be32_eq_write, be64_eq_write, memcpyIf_eq_write, beBytes_ofNat32, beBytes_ofNat64, inBlock_bind,
      writeMod, length_beBytes, hdl, Option.bind_fun_some]
  have hsize : mallocSizeV2 w chainId b0 auth < w.modulus := w.add_lt _ _
  simp only [build, qpqcHybridSignBytesV2, hc0, if_false, hdl, htotal, mallocSizeV2] at hsize ⊢
  cases hm : malloc (w.add (39 + chainId.length + b0.length) auth.length) with
  | false => simp only [allocate, hm]; rfl
  | true =>
    simp only [allocate, hm, if_true, ok_bind]
    rw [← writeMod_eq w _ (by rwa [Buffer.size_alloc]) (Nat.lt_of_le_of_lt (Nat.zero_le _) hsize), ← hstores]
    simp only [bind_assoc]

/-- **The v2 builder**, on every input. -/
theorem qpqcHybridSignBytesV2_eq (w : SizeT) (malloc : Nat → Bool) {chainId : Bytes} (hc : chainId ≠ [])
    (b0 auth : Bytes) :
    qpqcHybridSignBytesV2 w malloc (some chainId) b0 auth =
      if malloc (mallocSizeV2 w chainId b0 auth) = false then .error .err
      else if 39 + chainId.length + b0.length + auth.length < w.modulus then
        .ok (Buffer.filled (Format.v2 chainId b0 auth) 0, 39 + chainId.length + b0.length + auth.length)
      else .error .fault := by
  rw [qpqcHybridSignBytesV2_build w malloc hc, build_eq, qpqcHybridSignBytesDomain_eq, Format.flatten_v2,
    Format.length_v2]
  by_cases h : 39 + chainId.length + b0.length + auth.length < w.modulus
  · rw [mallocSizeV2_of_fits h, SizeT.add_of_lt h, if_pos (Nat.le_refl _), Nat.sub_self, if_pos h]
  · rw [if_neg (Nat.not_le.mpr (mallocSizeV2_lt (Nat.not_lt.mp h))), if_neg h]

end QorechainPqc.C
