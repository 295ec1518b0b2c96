import QorechainPqc.SignBytes.C
import QorechainPqc.SignBytes.Go
import QorechainPqc.SignBytes.Java
import QorechainPqc.SignBytes.Js
import QorechainPqc.SignBytes.Python
import QorechainPqc.SignBytes.Rust

/-!
# The six bindings side by side

A `Binding` is one of the six, the C one with its `size_t` and its `malloc`. Each has its own type of chain ids, of
versions and of recorded heights; the functions here only select the binding's own and read its result as an `Outcome`.

* `v1_bytes`, `v2_bytes`: whatever a builder returns is the format, truncated lengths included.
* `v1_of_room`, `v2_of_room`: a builder returns it where the lengths fit and there is room.
* `dispatch_v1`, `dispatch_v2`, `dispatch_empty`, `dispatch_other`: the checked dispatchers.
* `versionFor_eq`: the version rule.
-/

namespace QorechainPqc

open Detect Framing Text

/-- What a caller gets: bytes, an error of whatever kind, or undefined behaviour. -/
inductive Outcome
  | bytes (bs : Bytes)
  | refused
  | fault
deriving DecidableEq

namespace Outcome

def ofBytes {ε : Type} : Except ε Bytes → Outcome
  | .ok bs => .bytes bs
  | .error _ => .refused

def ofBuffer {ε : Type} : Except ε Buffer → Outcome
  | .ok buf => .bytes buf.contents
  | .error _ => .refused

/-- The caller of a C builder reads `*out_len` bytes at `*out`. -/
def ofC : Except C.Stop (Buffer × Nat) → Outcome
  | .ok (buf, n) => .bytes (buf.contents.take n)
  | .error .err => .refused
  | .error .fault => .fault

/-- A refusal, or bytes with the property; nothing is ensured of undefined behaviour. -/
def Ensures (P : Bytes → Prop) : Outcome → Prop
  | bytes bs => P bs
  | refused => True
  | fault => False

theorem ofBytes_ne_fault {ε : Type} (r : Except ε Bytes) : ofBytes r ≠ .fault := by
  cases r <;> rintro ⟨⟩

theorem ofBuffer_ne_fault {ε : Type} (r : Except ε Buffer) : ofBuffer r ≠ .fault := by
  cases r <;> rintro ⟨⟩

end Outcome

/-- The bindings. In C, `malloc n` says whether `n` bytes can be had. -/
inductive Binding
  | c (w : C.SizeT) (malloc : Nat → Bool)
  | go
  | rust
  | js
  | python (digits : Python.Digits)
  | java

/-- The two parallel arrays that the C rule reads, with the count. -/
structure CHeights where
  names : Option (List (Option Bytes))
  heights : Option (List Int)
  n : Nat

namespace Binding

/-! ## Types -/

/-- Chain ids as a caller may pass them. -/
abbrev Chain : Binding → Type
  | c _ _ => Option Bytes
  | go => Bytes
  | rust => List Char
  | js => Js.Value
  | python _ => Python.Str
  | java => Option Java.Str

/-- Version arguments. -/
abbrev VersionArg : Binding → Type
  | c _ _ => Int
  | go => Int
  | rust => Rust.SignBytesVersion
  | js => Js.Value
  | python _ => Python.Str
  | java => Int

/-- Records of applied heights. -/
abbrev Heights : Binding → Type
  | c _ _ => CHeights
  | go => Bytes → Option Int
  | rust => List Char → Option Int
  | js => Js.Applied
  | python _ => Option (Python.Str → Option Python.Value)
  | java => Option (Java.Str → Option Int)

/-- A text as a chain id. -/
def text : (b : Binding) → List Char → b.Chain
  | c _ _, s => some (utf8 s)
  | go, s => utf8 s
  | rust, s => s
  | js, s => .string (utf16 s)
  | python _, s => codePoints s
  | java, s => some (utf16 s)

/-- The constant of the binding for a form. -/
def version : (b : Binding) → Version → b.VersionArg
  | c _ _, v => C.ofVersion v
  | go, v => Go.ofVersion v
  | rust, v => Rust.ofVersion v
  | js, v => .string (Js.ofVersion v)
  | python _, v => Python.ofVersion v
  | java, v => Java.ofVersion v

/-! ## Functions -/

/-- The v1 builder. -/
def v1 : Binding → Bytes → Bytes → Outcome
  | c w malloc, b0, auth => .ofC (C.qpqcHybridSignBytesV1 w malloc b0 auth)
  | go, b0, auth => .ofBytes (Go.hybridSignBytesV1 b0 auth)
  | rust, b0, auth => .ofBytes (Rust.hybridSignBytesV1 b0 auth)
  | js, b0, auth => .ofBuffer (Js.hybridSignBytesV1 b0 auth)
  | python _, b0, auth => .ofBytes (Python.hybridSignBytesV1 b0 auth)
  | java, b0, auth => .ofBuffer (Java.hybridSignBytesV1 (some b0) (some auth))

/-- The v2 builder; in Go and Rust it does not look whether the chain id is empty. -/
def v2 : (b : Binding) → b.Chain → Bytes → Bytes → Outcome
  | c w malloc, chain, b0, auth => .ofC (C.qpqcHybridSignBytesV2 w malloc chain b0 auth)
  | go, chain, b0, auth => .ofBytes (Go.hybridSignBytesV2 chain b0 auth)
  | rust, chain, b0, auth => .ofBytes (Rust.hybridSignBytesV2 chain b0 auth)
  | js, chain, b0, auth => .ofBuffer (Js.hybridSignBytesV2 chain b0 auth)
  | python _, chain, b0, auth => .ofBytes (Python.hybridSignBytesV2 chain b0 auth)
  | java, chain, b0, auth => .ofBuffer (Java.hybridSignBytesV2 chain (some b0) (some auth))

/-- The checked dispatcher. -/
def dispatch : (b : Binding) → b.VersionArg → b.Chain → Bytes → Bytes → Outcome
  | c w malloc, version, chain, b0, auth => .ofC (C.qpqcHybridSignBytes w malloc version chain b0 auth)
  | go, version, chain, b0, auth => .ofBytes (Go.hybridSignBytes version chain b0 auth)
  | rust, version, chain, b0, auth => .ofBytes (Rust.tryHybridSignBytes version chain b0 auth)
  | js, version, chain, b0, auth => .ofBuffer (Js.hybridSignBytes version chain b0 auth)
  | python _, version, chain, b0, auth => .ofBytes (Python.hybridSignBytes version chain b0 auth)
  | java, version, chain, b0, auth => .ofBuffer (Java.hybridSignBytes version chain (some b0) (some auth))

/-- The version rule; there is no answer where it throws. -/
def versionFor : (b : Binding) → b.Chain → b.Heights → Option b.VersionArg
  | c _ _, chain, m => some (C.qpqcSignBytesVersionForApplied chain m.names m.heights m.n)
  | go, chain, m => some (Go.signBytesVersionForApplied chain m)
  | rust, chain, m => some (Rust.signBytesVersionForApplied chain m)
  | js, chain, m => (Js.signBytesVersionForApplied chain m).toOption.map .string
  | python digits, chain, m => (Python.signBytesVersionForApplied digits chain m).toOption
  | java, chain, m => (Java.signBytesVersionForApplied chain m).toOption

/-- The block that the v1 builder wrote, in the bindings that write into one. -/
def blockV1 : Binding → Bytes → Bytes → Option Buffer
  | c w malloc, b0, auth => (C.qpqcHybridSignBytesV1 w malloc b0 auth).toOption.map (·.1)
  | js, b0, auth => (Js.hybridSignBytesV1 b0 auth).toOption
  | java, b0, auth => (Java.hybridSignBytesV1 (some b0) (some auth)).toOption
  | _, _, _ => none

/-- The block that the v2 builder wrote. -/
def blockV2 : (b : Binding) → b.Chain → Bytes → Bytes → Option Buffer
  | c w malloc, chain, b0, auth => (C.qpqcHybridSignBytesV2 w malloc chain b0 auth).toOption.map (·.1)
  | js, chain, b0, auth => (Js.hybridSignBytesV2 chain b0 auth).toOption
  | java, chain, b0, auth => (Java.hybridSignBytesV2 chain (some b0) (some auth)).toOption
  | _, _, _, _ => none

/-! ## Properties of arguments -/

/-- The bytes of a chain id in a message. -/
def wire : (b : Binding) → b.Chain → Bytes
  | c _ _, chain => chain.getD []
  | go, chain => chain
  | rust, chain => utf8 chain
  | js, .string s => Js.encode s
  | js, _ => []
  | python _, chain => (Python.encode chain).toOption.getD []
  | java, chain => (chain.map Java.chainBytes).getD []

/-- A chain id in good form: bytes in C and Go, else a text. -/
def WellFormed : (b : Binding) → b.Chain → Prop
  | c _ _, chain => ∃ bs, chain = some bs
  | go, _ => True
  | rust, _ => True
  | js, chain => ∃ s, chain = text js s
  | python digits, chain => ∃ s, chain = text (python digits) s
  | java, chain => ∃ s, chain = text java s

/-- A chain id is there and not empty, as far as the binding looks. -/
def Present : (b : Binding) → b.Chain → Prop
  | c _ _, chain => ∃ bs, bs ≠ [] ∧ chain = some bs
  | go, chain => chain ≠ []
  | rust, chain => chain ≠ []
  | js, chain => ∃ s, s ≠ [] ∧ chain = .string s
  | python _, chain => chain ≠ []
  | java, chain => ∃ s, s ≠ [] ∧ chain = some s

/-- The v2 builder itself takes the chain id; Python encodes strictly. -/
def Accepts : (b : Binding) → b.Chain → Prop
  | go, _ => True
  | rust, _ => True
  | python _, chain => chain ≠ [] ∧ ∃ cid, Python.encode chain = .ok cid
  | c w malloc, chain => (c w malloc).Present chain
  | js, chain => js.Present chain
  | java, chain => java.Present chain

/-- The binding takes the chain id for a legacy network. -/
def legacy : (b : Binding) → b.Chain → Bool
  | c _ _, chain => C.legacy chain
  | go, chain => Go.legacySignBytesChains.contains chain
  | rust, chain => Rust.legacySignBytesChains.contains chain
  | js, chain => Js.legacy chain
  | python _, chain => Python.legacySignBytesChains.contains chain
  | java, chain => chain.any Java.legacySignBytesChains.contains

/-- The height that the record holds under a name. -/
def heightUnder : (b : Binding) → b.Heights → List Char → Option Int
  | c _ _, m, name => greatest (C.seen m.names m.heights m.n) (utf8 name)
  | go, m, name => m (utf8 name)
  | rust, m, name => m name
  | js, m, name => Js.heightOf m (utf16 name)
  | python digits, m, name => Python.heightOf digits m (codePoints name)
  | java, m, name => m.bind fun get => get (utf16 name)

/-- The heights under the listed names can be read. -/
def Readable : (b : Binding) → b.Heights → Prop
  | js, m => Js.ReadableHeights m
  | python digits, m => Python.ReadableHeights digits m
  | c _ _, _ => True
  | go, _ => True
  | rust, _ => True
  | java, _ => True

/-- The longest message there can be. -/
def maxSize : Binding → Nat
  | c w _ => w.modulus - 1
  | go => Go.maxInt
  | rust => Rust.isizeMax
  | js => Js.maxLength
  | python _ => Python.maxsize
  | java => Java.maxInt

/-- A message of `n` bytes can be represented. -/
def Fits (b : Binding) (n : Nat) : Prop := n ≤ b.maxSize

instance (b : Binding) (n : Nat) : Decidable (b.Fits n) := inferInstanceAs (Decidable (n ≤ b.maxSize))

/-- `n` bytes can be allocated. -/
def Allocates : Binding → Nat → Prop
  | c _ malloc, n => malloc n = true
  | _, _ => True

/-- There is room for a message of `n` bytes. -/
def Room (b : Binding) (n : Nat) : Prop := b.Fits n ∧ b.Allocates n

/-- Python refuses a length that does not fit its field; the other bindings truncate. -/
def Packs : Binding → Bytes → Bytes → Prop
  | python _, b0, auth => b0.length < 2 ^ 32 ∧ auth.length < 2 ^ 32
  | _, _, _ => True

/-! ## What the builders return -/

variable {b : Binding} {b0 auth bs : Bytes}

theorem ofBytes_eq {ε : Type} {r : Except ε Bytes} (h : Outcome.ofBytes r = .bytes bs) : r = .ok bs := by
  cases r with
  | ok bs' => cases h; rfl
  | error e => cases h

/-- The C v1 builder as its caller sees it. -/
theorem v1_c (w : C.SizeT) (malloc : Nat → Bool) (b0 auth : Bytes) : (c w malloc).v1 b0 auth =
    if malloc (C.mallocSizeV1 w b0 auth) = false then .refused
    else if 8 + b0.length + auth.length < w.modulus then .bytes (Format.v1 b0 auth)
    else .fault := by
  rw [v1, C.qpqcHybridSignBytesV1_eq]
  split
  · rfl
  · split
    · rw [Outcome.ofC, Buffer.contents_filled, ← Format.length_v1, List.take_length]
    · rfl

/-- The C v2 builder as its caller sees it. -/
theorem v2_c (w : C.SizeT) (malloc : Nat → Bool) {chain : Bytes} (hc : chain ≠ []) (b0 auth : Bytes) :
    (c w malloc).v2 (some chain) b0 auth =
      if malloc (C.mallocSizeV2 w chain b0 auth) = false then .refused
      else if 39 + chain.length + b0.length + auth.length < w.modulus then .bytes (Format.v2 chain b0 auth)
      else .fault := by
  rw [v2, C.qpqcHybridSignBytesV2_eq w malloc hc]
  split
  · rfl
  · split
    · rw [Outcome.ofC, Buffer.contents_filled, ← Format.length_v2, List.take_length]
    · rfl

theorem fits_c {w : C.SizeT} {malloc : Nat → Bool} {n : Nat} : (c w malloc).Fits n ↔ n < w.modulus := by
  have := w.modulus_ge
  simp only [Fits, maxSize]
  omega

/-- **The v1 builders** return the format where there is room. -/
theorem v1_of_room (hp : b.Packs b0 auth) (hr : b.Room (8 + b0.length + auth.length)) :
    b.v1 b0 auth = .bytes (Format.v1 b0 auth) := by
  obtain ⟨hf, ha⟩ := hr
  cases b with
  | c w malloc =>
    have hf := fits_c.mp hf
    have ha : malloc (8 + b0.length + auth.length) = true := ha
    rw [v1_c, C.mallocSizeV1_of_fits hf, ha, if_neg (by decide), if_pos hf]
  | go =>
    have hf : 8 + b0.length + auth.length ≤ Go.maxInt := hf
    rw [v1, Go.hybridSignBytesV1_eq, if_pos hf]; rfl
  | rust =>
    have hf : 8 + b0.length + auth.length ≤ Rust.isizeMax := hf
    rw [v1, Rust.hybridSignBytesV1_eq, if_pos hf]; rfl
  | js =>
    have hf : 8 + b0.length + auth.length ≤ Js.maxLength := hf
    rw [v1, Js.hybridSignBytesV1_eq, if_pos hf]
    exact congrArg Outcome.bytes (Buffer.contents_filled _)
  | python _ => rw [v1, Python.hybridSignBytesV1_eq_ok.mpr ⟨hp.1, hp.2, rfl⟩]; rfl
  | java =>
    rw [v1, Java.hybridSignBytesV1_of_fits hf]
    exact congrArg Outcome.bytes (Buffer.contents_filled _)

/-- Whatever a v1 builder returns is the format, where there is room. -/
theorem v1_bytes (h : b.v1 b0 auth = .bytes bs) :
    bs = Format.v1 b0 auth ∧ b.Packs b0 auth ∧ b.Room (8 + b0.length + auth.length) := by
  cases b with
  | c w malloc =>
    rw [v1_c] at h
    split at h
    · cases h
    · rename_i ha
      split at h
      · rename_i hf
        cases h
        rw [C.mallocSizeV1_of_fits hf, Bool.not_eq_false] at ha
        exact ⟨rfl, trivial, fits_c.mpr hf, ha⟩
      · cases h
  | go =>
    rw [v1, Go.hybridSignBytesV1_eq] at h
    split at h
    · rename_i hf; cases h; exact ⟨rfl, trivial, hf, trivial⟩
    · cases h
  | rust =>
    rw [v1, Rust.hybridSignBytesV1_eq] at h
    split at h
    · rename_i hf; cases h; exact ⟨rfl, trivial, hf, trivial⟩
    · cases h
  | js =>
    rw [v1, Js.hybridSignBytesV1_eq] at h
    split at h
    · rename_i hf
      rw [Outcome.ofBuffer, Buffer.contents_filled] at h
      cases h
      exact ⟨rfl, trivial, hf, trivial⟩
    · cases h
  | python _ =>
    obtain ⟨hb, ha, rfl⟩ := Python.hybridSignBytesV1_eq_ok.mp (ofBytes_eq h)
    refine ⟨rfl, ⟨hb, ha⟩, ?_, trivial⟩
    simp only [Fits, maxSize, Python.maxsize]
    omega
  | java =>
    by_cases hf : 8 + b0.length + auth.length ≤ Java.maxInt
    · rw [v1, Java.hybridSignBytesV1_of_fits hf, Outcome.ofBuffer, Buffer.contents_filled] at h
      cases h
      exact ⟨rfl, trivial, hf, trivial⟩
    · obtain ⟨e, he⟩ := Java.hybridSignBytesV1_of_overflow (Nat.lt_of_not_le hf)
      rw [v1, he] at h
      cases h

/-- The bindings other than C have no `malloc` to ask. -/
theorem allocates (hb : ∀ w malloc, b ≠ .c w malloc) (n : Nat) : b.Allocates n := by
  cases b with
  | c w malloc => exact absurd rfl (hb w malloc)
  | _ => trivial

variable {chain : b.Chain}

/-- Without a chain id, C refuses v2. -/
theorem v2_absent {w : C.SizeT} {malloc : Nat → Bool} {chain : (c w malloc).Chain} (hc : ¬ (c w malloc).Present chain)
    (b0 auth : Bytes) : (c w malloc).v2 chain b0 auth = .refused := by
  cases chain with
  | none => rfl
  | some cid =>
    cases cid with
    | nil => rfl
    | cons x cid => exact absurd ⟨x :: cid, List.cons_ne_nil _ _, rfl⟩ hc

/-- **The v2 builders** return the format where there is room. -/
theorem v2_of_room (hc : b.Accepts chain) (hp : b.Packs b0 auth)
    (hr : b.Room (39 + (b.wire chain).length + b0.length + auth.length)) :
    b.v2 chain b0 auth = .bytes (Format.v2 (b.wire chain) b0 auth) := by
  obtain ⟨hf, ha⟩ := hr
  cases b with
  | c w malloc =>
    obtain ⟨bs, hne, rfl⟩ := hc
    have hf : 39 + bs.length + b0.length + auth.length < w.modulus := fits_c.mp hf
    have ha : malloc (39 + bs.length + b0.length + auth.length) = true := ha
    rw [v2_c w malloc hne, C.mallocSizeV2_of_fits hf, ha, if_neg (by decide), if_pos hf]
    rfl
  | go =>
    have hf : 39 + chain.length + b0.length + auth.length ≤ Go.maxInt := hf
    rw [v2, Go.hybridSignBytesV2_eq, if_pos hf]; rfl
  | rust =>
    have hf : 39 + (utf8 chain).length + b0.length + auth.length ≤ Rust.isizeMax := hf
    rw [v2, Rust.hybridSignBytesV2_eq, if_pos hf]; rfl
  | js =>
    obtain ⟨s, hne, rfl⟩ := hc
    have hf : 39 + (Js.encode s).length + b0.length + auth.length ≤ Js.maxLength := hf
    rw [v2, Js.hybridSignBytesV2_eq hne, if_pos hf]
    exact congrArg Outcome.bytes (Buffer.contents_filled _)
  | python digits =>
    obtain ⟨hne, cid, he⟩ := hc
    have hw : (python digits).wire chain = cid := by rw [wire, he]; rfl
    rw [hw] at hf ⊢
    rw [v2, Python.hybridSignBytesV2_eq_ok.mpr ⟨hne, cid, he, hp.1, hp.2, hf, rfl⟩]
    rfl
  | java =>
    obtain ⟨s, hne, rfl⟩ := hc
    rw [v2, Java.hybridSignBytesV2_of_fits hne hf]
    exact congrArg Outcome.bytes (Buffer.contents_filled _)

/-- Whatever a v2 builder returns is the format, for a chain id that it accepts and where there is room. -/
theorem v2_bytes (h : b.v2 chain b0 auth = .bytes bs) :
    bs = Format.v2 (b.wire chain) b0 auth ∧ b.Accepts chain ∧ b.Packs b0 auth ∧
      b.Room (39 + (b.wire chain).length + b0.length + auth.length) := by
  cases b with
  | c w malloc =>
    by_cases hc : (c w malloc).Present chain
    · obtain ⟨cid, hne, rfl⟩ := hc
      rw [v2_c w malloc hne] at h
      split at h
      · cases h
      · rename_i ha
        split at h
        · rename_i hf
          cases h
          rw [C.mallocSizeV2_of_fits hf, Bool.not_eq_false] at ha
          exact ⟨rfl, ⟨cid, hne, rfl⟩, trivial, fits_c.mpr hf, ha⟩
        · cases h
    · rw [v2_absent hc] at h
      cases h
  | go =>
    rw [v2, Go.hybridSignBytesV2_eq] at h
    split at h
    · rename_i hf; cases h; exact ⟨rfl, trivial, trivial, hf, trivial⟩
    · cases h
  | rust =>
    rw [v2, Rust.hybridSignBytesV2_eq] at h
    split at h
    · rename_i hf; cases h; exact ⟨rfl, trivial, trivial, hf, trivial⟩
    · cases h
  | js =>
    cases chain with
    | string s =>
      cases s with
      | nil => cases h
      | cons u s =>
        rw [v2, Js.hybridSignBytesV2_eq (List.cons_ne_nil u s)] at h
        split at h
        · rename_i hf
          rw [Outcome.ofBuffer, Buffer.contents_filled] at h
          cases h
          exact ⟨rfl, ⟨u :: s, List.cons_ne_nil u s, rfl⟩, trivial, hf, trivial⟩
        · cases h
    | _ => cases h
  | python digits =>
    obtain ⟨hne, cid, he, hb, ha, hf, rfl⟩ := Python.hybridSignBytesV2_eq_ok.mp (ofBytes_eq h)
    have hw : (python digits).wire chain = cid := by rw [wire, he]; rfl
    rw [hw]
    exact ⟨rfl, ⟨hne, cid, he⟩, ⟨hb, ha⟩, hf, trivial⟩
  | java =>
    cases chain with
    | none => cases h
    | some s =>
      by_cases hne : s = []
      · subst hne; cases h
      · by_cases hf : 39 + (Java.chainBytes s).length + b0.length + auth.length ≤ Java.maxInt
        · rw [v2, Java.hybridSignBytesV2_of_fits hne hf, Outcome.ofBuffer, Buffer.contents_filled] at h
          cases h
          exact ⟨rfl, ⟨s, hne, rfl⟩, trivial, hf, trivial⟩
        · obtain ⟨e, he⟩ := Java.hybridSignBytesV2_of_overflow (Nat.lt_of_not_le hf)
          rw [v2, he] at h
          cases h

/-! ## The dispatchers -/

theorem dispatch_v1 (chain : b.Chain) (b0 auth : Bytes) : b.dispatch (b.version .v1) chain b0 auth = b.v1 b0 auth := by
  cases b with
  | js =>
    have hne : ¬ Js.Value.string (Js.ofVersion .v1) = .string (Js.str "v2") := by decide
    rw [dispatch, version, Js.hybridSignBytes, if_neg hne]
    exact congrArg Outcome.ofBuffer (if_pos rfl)
  | python _ =>
    have hne : ¬ Python.ofVersion .v1 = Python.str "v2" := by decide
    rw [dispatch, version, Python.hybridSignBytes, if_neg hne]
    exact congrArg Outcome.ofBytes (if_pos rfl)
  | _ => rfl

theorem dispatch_v2 (hc : b.Present chain) (b0 auth : Bytes) :
    b.dispatch (b.version .v2) chain b0 auth = b.v2 chain b0 auth := by
  cases b with
  | go => exact congrArg Outcome.ofBytes (if_neg hc)
  | rust => exact congrArg Outcome.ofBytes (if_neg hc)
  | _ => rfl

/-- Without a chain id, v2 is refused. -/
theorem dispatch_empty (hc : ¬ b.Present chain) (b0 auth : Bytes) :
    b.dispatch (b.version .v2) chain b0 auth = .refused := by
  cases b with
  | c w malloc => exact v2_absent hc b0 auth
  | go => exact congrArg Outcome.ofBytes (if_pos (not_not.mp hc))
  | rust => exact congrArg Outcome.ofBytes (if_pos (not_not.mp hc))
  | js =>
    cases chain with
    | string s =>
      cases s with
      | nil => rfl
      | cons u s => exact absurd ⟨u :: s, List.cons_ne_nil _ _, rfl⟩ hc
    | _ => rfl
  | python _ =>
    have hc : chain = [] := not_not.mp hc
    subst hc
    rfl
  | java =>
    cases chain with
    | none => rfl
    | some s =>
      cases s with
      | nil => rfl
      | cons u s => exact absurd ⟨u :: s, List.cons_ne_nil _ _, rfl⟩ hc

/-- There is no third form. -/
theorem dispatch_other {v : b.VersionArg} (h₁ : v ≠ b.version .v1) (h₂ : v ≠ b.version .v2) (chain : b.Chain)
    (b0 auth : Bytes) : b.dispatch v chain b0 auth = .refused := by
  cases b with
  | c w malloc => exact congrArg Outcome.ofC ((if_neg h₁).trans (if_neg h₂))
  | go => exact congrArg Outcome.ofBytes ((if_neg h₁).trans (if_neg h₂))
  | rust =>
    cases v with
    | V1 => exact absurd rfl h₁
    | V2 => exact absurd rfl h₂
  | js => exact congrArg Outcome.ofBuffer ((if_neg h₂).trans (if_neg h₁))
  | python _ => exact congrArg Outcome.ofBytes ((if_neg h₂).trans (if_neg h₁))
  | java => exact congrArg Outcome.ofBuffer ((if_neg h₁).trans (if_neg h₂))

/-! ## Chain ids in good form -/

theorem wellFormed_text (b : Binding) (s : List Char) : b.WellFormed (b.text s) := by
  cases b with
  | c w malloc => exact ⟨_, rfl⟩
  | go => trivial
  | rust => trivial
  | _ => exact ⟨s, rfl⟩

/-- The bytes of a text are its UTF-8 bytes. -/
theorem wire_text (b : Binding) (s : List Char) : b.wire (b.text s) = utf8 s := by
  cases b with
  | js => exact Js.encode_utf16 s
  | python _ =>
    rw [wire, text, Python.encode_codePoints]
    rfl
  | java => exact Java.chainBytes_utf16 s
  | _ => rfl

/-- Chain ids in good form are told apart by their bytes. -/
theorem wire_inj {chain chain' : b.Chain} (hc : b.WellFormed chain) (hc' : b.WellFormed chain')
    (h : b.wire chain = b.wire chain') : chain = chain' := by
  cases b with
  | c w malloc =>
    obtain ⟨bs, rfl⟩ := hc
    obtain ⟨bs', rfl⟩ := hc'
    exact congrArg some h
  | go => exact h
  | rust => exact utf8_inj h
  | _ =>
    obtain ⟨s, rfl⟩ := hc
    obtain ⟨s', rfl⟩ := hc'
    rw [wire_text, wire_text] at h
    rw [utf8_inj h]

theorem present_iff (hc : b.WellFormed chain) : b.Present chain ↔ chain ≠ b.text [] := by
  cases b with
  | c w malloc =>
    obtain ⟨bs, rfl⟩ := hc
    constructor
    · rintro ⟨_, hne, h⟩ h'
      cases h
      exact hne (Option.some.inj h')
    · exact fun h => ⟨bs, fun hn => h (congrArg some hn), rfl⟩
  | go => exact Iff.rfl
  | rust => exact Iff.rfl
  | js =>
    obtain ⟨s, rfl⟩ := hc
    constructor
    · rintro ⟨_, hne, h⟩ h'
      rw [h] at h'
      exact hne (Js.Value.string.inj h')
    · exact fun h => ⟨utf16 s, fun hn => h (congrArg Js.Value.string hn), rfl⟩
  | python _ => exact Iff.rfl
  | java =>
    obtain ⟨s, rfl⟩ := hc
    constructor
    · rintro ⟨_, hne, h⟩ h'
      rw [h] at h'
      exact hne (Option.some.inj h')
    · exact fun h => ⟨utf16 s, fun hn => h (congrArg some hn), rfl⟩

theorem present_text {s : List Char} (h : s ≠ []) : b.Present (b.text s) := by
  refine (present_iff (b.wellFormed_text s)).mpr fun he => h ?_
  have hw := congrArg b.wire he
  rwa [wire_text, wire_text, utf8_nil, utf8_eq_nil] at hw

theorem accepts_of_present (hc : b.WellFormed chain) (h : b.Present chain) : b.Accepts chain := by
  cases b with
  | go => trivial
  | rust => trivial
  | python _ =>
    obtain ⟨s, rfl⟩ := hc
    exact ⟨h, utf8 s, Python.encode_codePoints s⟩
  | _ => exact h

/-! ## The version rule -/

theorem version_inj {v v' : Version} (h : b.version v = b.version v') : v = v' := by
  cases v with
  | v1 =>
    cases v' with
    | v1 => rfl
    | v2 =>
      cases b with
      | js => exact absurd (show Js.Value.string (Js.ofVersion .v1) = .string (Js.ofVersion .v2) from h) (by decide)
      | python _ => exact absurd (show Python.ofVersion .v1 = Python.ofVersion .v2 from h) (by decide)
      | _ => cases h
  | v2 =>
    cases v' with
    | v2 => rfl
    | v1 =>
      cases b with
      | js => exact absurd (show Js.Value.string (Js.ofVersion .v2) = .string (Js.ofVersion .v1) from h) (by decide)
      | python _ => exact absurd (show Python.ofVersion .v2 = Python.ofVersion .v1 from h) (by decide)
      | _ => cases h

/-- **The version rule** of every binding, for heights that can be read. -/
theorem versionFor_eq {m : b.Heights} (hc : b.WellFormed chain) (hm : b.Readable m) :
    b.versionFor chain m =
      some (b.version (rule (b.legacy chain) (switched upgradeNames (b.heightUnder m)))) := by
  cases b with
  | c w malloc =>
    have hs : observed C.qpqcSignBytesV2Upgrades (C.seen m.names m.heights m.n) =
        switched upgradeNames ((c w malloc).heightUnder m) := switched_map utf8 upgradeNames _
    rw [versionFor, C.qpqcSignBytesVersionForApplied_eq, hs]
    rfl
  | go =>
    have hs : switched Go.signBytesV2Upgrades m = switched upgradeNames (go.heightUnder m) :=
      switched_map utf8 upgradeNames _
    rw [versionFor, Go.signBytesVersionForApplied_eq, hs]
    rfl
  | rust =>
    rw [versionFor, Rust.signBytesVersionForApplied_eq]
    rfl
  | js =>
    have hs : switched Js.signBytesV2Upgrades (Js.heightOf m) = switched upgradeNames (js.heightUnder m) :=
      switched_map utf16 upgradeNames _
    rw [versionFor, Js.signBytesVersionForApplied_eq chain hm, hs]
    rfl
  | python digits =>
    have hs : switched Python.signBytesV2Upgrades (Python.heightOf digits m) =
        switched upgradeNames ((python digits).heightUnder m) :=
      switched_map codePoints upgradeNames _
    rw [versionFor, Python.signBytesVersionForApplied_eq digits chain hm, hs]
    rfl
  | java =>
    obtain ⟨s, rfl⟩ := hc
    have hs : switched Java.signBytesV2Upgrades (fun name => m.bind fun get => get name) =
        switched upgradeNames (java.heightUnder m) := switched_map utf16 upgradeNames _
    rw [versionFor, text, Java.signBytesVersionForApplied_eq, hs]
    rfl

/-- An answer means that the heights could be read. -/
theorem readable_of_versionFor {m : b.Heights} {v : b.VersionArg} (h : b.versionFor chain m = some v) :
    b.Readable m := by
  cases b with
  | js =>
    rw [versionFor] at h
    cases he : Js.signBytesVersionForApplied chain m with
    | error e => rw [he] at h; cases h
    | ok v' => exact Js.readable_of_version he
  | python digits =>
    rw [versionFor] at h
    cases he : Python.signBytesVersionForApplied digits chain m with
    | error e => rw [he] at h; cases h
    | ok v' => exact Python.readable_of_version he
  | _ => trivial

theorem contains_map {α β : Type} [BEq α] [LawfulBEq α] [BEq β] [LawfulBEq β] {f : α → β}
    (hf : Function.Injective f) (l : List α)
    (a : α) : (l.map f).contains (f a) = l.contains a := by
  rw [Bool.eq_iff_iff, List.contains_iff_mem, List.contains_iff_mem, List.mem_map_of_injective hf]

/-- The part of a chain id that is compared with the legacy networks: in C, up to the first zero byte. -/
def compared : Binding → (Bytes → Bytes)
  | c _ _ => C.cstr
  | go => id
  | rust => id
  | js => id
  | python _ => id
  | java => id

theorem compared_of_notMem {bs : Bytes} (h : (0 : UInt8) ∉ bs) : b.compared bs = bs := by
  cases b with
  | c w malloc => exact C.cstr_of_notMem h
  | _ => rfl

theorem legacy_eq (hc : b.WellFormed chain) :
    b.legacy chain = (legacyChains.map utf8).contains (b.compared (b.wire chain)) := by
  cases b with
  | c w malloc =>
    obtain ⟨bs, rfl⟩ := hc
    rfl
  | go => rfl
  | rust => exact (contains_map utf8_injective legacyChains chain).symm
  | js =>
    obtain ⟨s, rfl⟩ := hc
    have hl : Js.legacySignBytesChains = legacyChains.map utf16 := rfl
    rw [wire_text, compared, id_eq, contains_map utf8_injective, legacy, text, Js.legacy, hl,
      contains_map (fun _ _ => Js.Value.string.inj), contains_map utf16_injective]
  | python _ =>
    obtain ⟨s, rfl⟩ := hc
    have hl : Python.legacySignBytesChains = legacyChains.map codePoints := rfl
    rw [wire_text, compared, id_eq, contains_map utf8_injective, legacy, text, hl,
      contains_map codePoints_injective]
  | java =>
    obtain ⟨s, rfl⟩ := hc
    have hl : Java.legacySignBytesChains = legacyChains.map utf16 := rfl
    rw [wire_text, compared, id_eq, contains_map utf8_injective, legacy, text, Option.any_some, hl,
      contains_map utf16_injective]

end Binding

end QorechainPqc
