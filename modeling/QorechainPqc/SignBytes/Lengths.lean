import QorechainPqc.SignBytes.Separation

/-!
# Long inputs

What the builders do beyond the lengths that a transaction has.

* `sizes_exact`: in C the size of the block is the exact size of the message, unless the sum of the lengths leaves
  `size_t`; there it wraps, and the stores leave the block (`size_wraps`).
* `java_sizes_exact`: in Java a sum that leaves `int` is refused, whatever it wraps to.
* `lengths_honest`: the length in front of a field is its length, where the binding refuses, or `b0` and `auth` fit 32
  bits and the size is exact; elsewhere a length is truncated, and two transactions share their sign-bytes, or C stores
  outside the block (`lengths_truncated`).
-/

namespace QorechainPqc

open Framing Text Binding

/-! ## Sizes in C -/

/-- A v1 call fails with the error code, or its block, of the size that `malloc` was asked for, has exactly the size of
the message, and every byte of it was stored once. -/
def SizedV1 (w : C.SizeT) (malloc : Nat → Bool) (b0 auth : Bytes) : Prop :=
  C.qpqcHybridSignBytesV1 w malloc b0 auth = .error .err ∨
    ∃ buf, C.qpqcHybridSignBytesV1 w malloc b0 auth = .ok (buf, 8 + b0.length + auth.length) ∧
      buf.size = 8 + b0.length + auth.length ∧ buf.WrittenOnce

/-- The same of a v2 call. -/
def SizedV2 (w : C.SizeT) (malloc : Nat → Bool) (chainId : Option Bytes) (b0 auth : Bytes) : Prop :=
  C.qpqcHybridSignBytesV2 w malloc chainId b0 auth = .error .err ∨
    ∃ buf, C.qpqcHybridSignBytesV2 w malloc chainId b0 auth =
        .ok (buf, 39 + (chainId.getD []).length + b0.length + auth.length) ∧
      buf.size = 39 + (chainId.getD []).length + b0.length + auth.length ∧ buf.WrittenOnce

/-- A builder that asks `malloc` for `size` bytes and leaves the block unless `p` has exact sizes exactly if `p`. -/
theorem sized_iff {build : (Nat → Bool) → Except C.Stop (Buffer × Nat)} {size n : Nat} {bs : Bytes} {p : Prop}
    [Decidable p] (hn : bs.length = n)
    (hbuild : ∀ malloc, build malloc = if malloc size = false then .error .err
      else if p then .ok (Buffer.filled bs 0, n) else .error .fault) :
    (∀ malloc, build malloc = .error .err ∨
      ∃ buf, build malloc = .ok (buf, n) ∧ buf.size = n ∧ buf.WrittenOnce) ↔ p := by
  constructor
  · intro h
    by_contra hp
    have hfault : build (fun _ => true) = .error .fault := by rw [hbuild, if_neg (by decide), if_neg hp]
    rcases h fun _ => true with he | ⟨buf, he, _⟩
    · rw [hfault] at he; cases he
    · rw [hfault] at he; cases he
  · intro hp malloc
    rw [hbuild, if_pos hp]
    cases malloc size with
    | false => exact Or.inl rfl
    | true => exact Or.inr ⟨_, rfl, by rw [Buffer.size_filled]; exact hn, Buffer.writtenOnce_filled _⟩

theorem sizedV1_iff (w : C.SizeT) (b0 auth : Bytes) :
    (∀ malloc, SizedV1 w malloc b0 auth) ↔ 8 + b0.length + auth.length < w.modulus :=
  sized_iff (Format.length_v1 b0 auth) fun malloc => C.qpqcHybridSignBytesV1_eq w malloc b0 auth

theorem sizedV2_iff (w : C.SizeT) (chainId : Option Bytes) (b0 auth : Bytes) :
    (∀ malloc, SizedV2 w malloc chainId b0 auth) ↔ chainId.getD [] = [] ∨
      39 + (chainId.getD []).length + b0.length + auth.length < w.modulus := by
  by_cases hc : chainId.getD [] = []
  · have hrefused : ∀ malloc, C.qpqcHybridSignBytesV2 w malloc chainId b0 auth = .error .err := by
      intro malloc
      cases chainId with
      | none => rfl
      | some c =>
        have hc : c = [] := hc
        subst hc
        rfl
    exact ⟨fun _ => Or.inl hc, fun _ malloc => Or.inl (hrefused malloc)⟩
  obtain ⟨c, rfl⟩ : ∃ c, chainId = some c := by
    cases chainId with
    | none => exact absurd rfl hc
    | some c => exact ⟨c, rfl⟩
  rw [or_iff_right hc]
  exact sized_iff (Format.length_v2 c b0 auth) fun malloc => C.qpqcHybridSignBytesV2_eq w malloc hc b0 auth

/-- **Exact sizes**: the C builders allocate and fill the message itself, for every behaviour of `malloc`, as long as
the sum of the lengths does not leave `size_t`, and only then. -/
theorem sizes_exact (w : C.SizeT) (chainId : Option Bytes) (b0 auth : Bytes) :
    ((∀ malloc, SizedV1 w malloc b0 auth) ↔ 8 + b0.length + auth.length < w.modulus) ∧
    ((∀ malloc, SizedV2 w malloc chainId b0 auth) ↔ chainId.getD [] = [] ∨
      39 + (chainId.getD []).length + b0.length + auth.length < w.modulus) :=
  ⟨sizedV1_iff w b0 auth, sizedV2_iff w chainId b0 auth⟩

/-- Two sources of almost half the address space each; they may overlap. -/
@[irreducible] def halfSpace : Bytes := List.replicate 0x7FFFFFFC 0

theorem length_halfSpace : halfSpace.length = 0x7FFFFFFC := by rw [halfSpace, List.length_replicate]

/-- The size wraps to `0`, one byte is allocated, and the stores leave it. -/
theorem size_wraps : halfSpace.length < C.SizeT.w32.modulus ∧
    C.mallocSizeV1 .w32 halfSpace halfSpace = 1 ∧
    C.qpqcHybridSignBytesV1 .w32 (fun _ => true) halfSpace halfSpace = .error .fault ∧
    ¬ SizedV1 .w32 (fun _ => true) halfSpace halfSpace := by
  have hwrap : ¬ 8 + halfSpace.length + halfSpace.length < C.SizeT.w32.modulus := by
    rw [length_halfSpace, C.SizeT.modulus]
    omega
  have hfault : C.qpqcHybridSignBytesV1 .w32 (fun _ => true) halfSpace halfSpace = .error .fault := by
    rw [C.qpqcHybridSignBytesV1_eq, if_neg (by decide), if_neg hwrap]
  refine ⟨?_, ?_, hfault, ?_⟩
  · rw [length_halfSpace, C.SizeT.modulus]
    omega
  · have hzero : C.SizeT.w32.add (8 + halfSpace.length) halfSpace.length = 0 := by
      rw [length_halfSpace, C.SizeT.add, C.SizeT.modulus]
      norm_num
    rw [C.mallocSizeV1, hzero]
    rfl
  · rintro (h | ⟨_, h, _⟩)
    · rw [hfault] at h; cases h
    · rw [hfault] at h; cases h

/-! ## Sizes in Java -/

/-- The block holds `bs` and nothing else, and every byte of it was written once. -/
structure Holds (buf : Buffer) (bs : Bytes) : Prop where
  size : buf.size = bs.length
  once : buf.WrittenOnce
  contents : buf.contents = bs

theorem holds_filled (bs : Bytes) : Holds (Buffer.filled bs 0) bs where
  size := Buffer.size_filled bs 0
  once := Buffer.writtenOnce_filled bs
  contents := Buffer.contents_filled bs

/-- A call that fills a block with `bs` where `bs` fits an array and throws elsewhere. -/
theorem holds_of_fits {r : Except Java.Stop Buffer} {bs : Bytes} {n : Nat} (hn : bs.length = n)
    (hfits : n ≤ Java.maxInt → r = .ok (Buffer.filled bs 0)) (hover : Java.maxInt < n → ∃ e, r = .error e) :
    ((∃ buf, r = .ok buf) ↔ n ≤ Java.maxInt) ∧ ∀ buf, r = .ok buf → buf.size = n ∧ Holds buf bs := by
  rcases Nat.lt_or_ge Java.maxInt n with h | h
  · obtain ⟨e, he⟩ := hover h
    have hthrown : ∀ buf, r ≠ .ok buf := by
      intro buf hbuf
      rw [he] at hbuf
      cases hbuf
    refine ⟨⟨fun ⟨buf, hbuf⟩ => absurd hbuf (hthrown buf), fun hle => ?_⟩, fun buf hbuf => absurd hbuf (hthrown buf)⟩
    omega
  · refine ⟨⟨fun _ => h, fun _ => ⟨_, hfits h⟩⟩, fun buf hbuf => ?_⟩
    rw [hfits h] at hbuf
    cases hbuf
    exact ⟨(holds_filled bs).size.trans hn, holds_filled bs⟩

/-- **Wrap-around in Java**: a builder returns exactly if the true length fits an `int`, and then the whole message;
elsewhere it throws, to whatever capacity the sum wraps. -/
theorem java_sizes_exact (chainId : Java.Str) (b0 auth : Bytes) :
    ((∃ buf, Java.hybridSignBytesV1 (some b0) (some auth) = .ok buf) ↔ 8 + b0.length + auth.length ≤ Java.maxInt) ∧
    (∀ buf, Java.hybridSignBytesV1 (some b0) (some auth) = .ok buf →
      buf.size = 8 + b0.length + auth.length ∧ Holds buf (Format.v1 b0 auth)) ∧
    ((∃ buf, Java.hybridSignBytesV2 (some chainId) (some b0) (some auth) = .ok buf) ↔ chainId ≠ [] ∧
      39 + (Java.chainBytes chainId).length + b0.length + auth.length ≤ Java.maxInt) ∧
    (∀ buf, Java.hybridSignBytesV2 (some chainId) (some b0) (some auth) = .ok buf →
      buf.size = 39 + (Java.chainBytes chainId).length + b0.length + auth.length ∧
        Holds buf (Format.v2 (Java.chainBytes chainId) b0 auth)) := by
  obtain ⟨h₁, h₁'⟩ := holds_of_fits (Format.length_v1 b0 auth) Java.hybridSignBytesV1_of_fits
    Java.hybridSignBytesV1_of_overflow
  refine ⟨h₁, h₁', ?_⟩
  by_cases hc : chainId = []
  · subst hc
    have hrefused : ∀ buf, Java.hybridSignBytesV2 (some []) (some b0) (some auth) ≠ .ok buf := by
      intro buf h
      cases h
    exact ⟨⟨fun ⟨buf, h⟩ => absurd h (hrefused buf), fun h => absurd rfl h.1⟩, fun buf h => absurd h (hrefused buf)⟩
  · obtain ⟨h₂, h₂'⟩ := holds_of_fits (Format.length_v2 (Java.chainBytes chainId) b0 auth)
      (Java.hybridSignBytesV2_of_fits hc) Java.hybridSignBytesV2_of_overflow
    exact ⟨h₂.trans (and_iff_right hc).symm, h₂'⟩

/-! ## Length fields -/

/-- The message frames `b0` and `auth` behind their true lengths. -/
def HonestV1 (bs b0 auth : Bytes) : Prop :=
  ∃ l₀ l₁ : Bytes, l₀.length = 4 ∧ l₁.length = 4 ∧ bs = l₀ ++ b0 ++ l₁ ++ auth ∧
    beVal l₀ = b0.length ∧ beVal l₁ = auth.length

/-- The message frames the chain id, `b0` and `auth` behind their true lengths. -/
def HonestV2 (bs chainId b0 auth : Bytes) : Prop :=
  ∃ l rest : Bytes, l.length = 8 ∧ bs = Format.domain ++ l ++ chainId ++ rest ∧ beVal l = chainId.length ∧
    HonestV1 rest b0 auth

/-- Lengths that fit 32 bits. -/
def Short (b0 auth : Bytes) : Prop := b0.length < 2 ^ 32 ∧ auth.length < 2 ^ 32

/-- A length field of four bytes has no room for more. -/
theorem HonestV1.short {bs b0 auth : Bytes} (h : HonestV1 bs b0 auth) : Short b0 auth := by
  obtain ⟨l₀, l₁, h₀, h₁, -, hv₀, hv₁⟩ := h
  have hlt₀ := beVal_lt l₀
  have hlt₁ := beVal_lt l₁
  rw [h₀, hv₀] at hlt₀
  rw [h₁, hv₁] at hlt₁
  exact ⟨hlt₀, hlt₁⟩

theorem HonestV1.length {bs b0 auth : Bytes} (h : HonestV1 bs b0 auth) :
    bs.length = 8 + b0.length + auth.length := by
  obtain ⟨l₀, l₁, h₀, h₁, rfl, -, -⟩ := h
  simp only [List.length_append, h₀, h₁]
  omega

theorem HonestV2.length {bs c b0 auth : Bytes} (h : HonestV2 bs c b0 auth) :
    bs.length = 39 + c.length + b0.length + auth.length := by
  obtain ⟨l, rest, hl, rfl, -, hrest⟩ := h
  simp only [List.length_append, Format.length_domain, hl, hrest.length]
  omega

/-- An honest message tells its parts. -/
theorem HonestV1.inj {bs b0 b0' auth auth' : Bytes} (h : HonestV1 bs b0 auth) (h' : HonestV1 bs b0' auth') :
    b0 = b0' ∧ auth = auth' := by
  obtain ⟨l₀, l₁, h₀, h₁, rfl, hv₀, hv₁⟩ := h
  obtain ⟨l₀', l₁', h₀', h₁', heq, hv₀', hv₁'⟩ := h'
  simp only [List.append_assoc] at heq
  obtain ⟨rfl, hrest⟩ := List.append_inj heq (h₀.trans h₀'.symm)
  obtain ⟨rfl, htail⟩ := List.append_inj hrest (hv₀.symm.trans hv₀')
  exact ⟨rfl, (List.append_inj htail (h₁.trans h₁'.symm)).2⟩

theorem HonestV2.inj {bs c c' b0 b0' auth auth' : Bytes} (h : HonestV2 bs c b0 auth) (h' : HonestV2 bs c' b0' auth') :
    c = c' ∧ b0 = b0' ∧ auth = auth' := by
  obtain ⟨l, rest, hl, rfl, hv, hrest⟩ := h
  obtain ⟨l', rest', hl', heq, hv', hrest'⟩ := h'
  simp only [List.append_assoc, List.append_cancel_left_eq] at heq
  obtain ⟨rfl, htail⟩ := List.append_inj heq (hl.trans hl'.symm)
  obtain ⟨rfl, rfl⟩ := List.append_inj htail (hv.symm.trans hv')
  exact ⟨rfl, hrest.inj hrest'⟩

theorem honestV1_iff {b0 auth : Bytes} : HonestV1 (Format.v1 b0 auth) b0 auth ↔ Short b0 auth := by
  constructor
  · exact HonestV1.short
  · rintro ⟨hb, ha⟩
    exact ⟨beBytes 4 b0.length, beBytes 4 auth.length, length_beBytes _ _, length_beBytes _ _,
      by simp [Format.v1, field], beVal_beBytes_of_lt hb, beVal_beBytes_of_lt ha⟩

theorem honestV2_iff {c b0 auth : Bytes} (hc : c.length < 2 ^ 64) :
    HonestV2 (Format.v2 c b0 auth) c b0 auth ↔ Short b0 auth := by
  constructor
  · rintro ⟨l, rest, -, -, -, hrest⟩
    exact hrest.short
  · intro h
    exact ⟨beBytes 8 c.length, Format.v1 b0 auth, length_beBytes _ _, by simp [Format.v2, field],
      beVal_beBytes_of_lt hc, honestV1_iff.mpr h⟩

namespace Binding

/-- The v1 builder refuses, or what it returns is honest. -/
def TruthfulV1 (b : Binding) (b0 auth : Bytes) : Prop := (b.v1 b0 auth).Ensures fun bs => HonestV1 bs b0 auth

/-- The v2 builder refuses, or what it returns is honest. -/
def TruthfulV2 (b : Binding) (chain : b.Chain) (b0 auth : Bytes) : Prop :=
  (b.v2 chain b0 auth).Ensures fun bs => HonestV2 bs (b.wire chain) b0 auth

/-- The dispatcher refuses, or what it returns is honest. -/
def TruthfulDispatch (b : Binding) (v : b.VersionArg) (chain : b.Chain) (b0 auth : Bytes) : Prop :=
  (b.dispatch v chain b0 auth).Ensures fun bs =>
    (v = b.version .v1 ∧ HonestV1 bs b0 auth) ∨ (v = b.version .v2 ∧ HonestV2 bs (b.wire chain) b0 auth)

/-- The v1 builder refuses the input. In C this is up to `malloc`, at the size that it is asked for, which may have
wrapped; the other bindings see whether the lengths fit. -/
def RefusesV1 : Binding → Bytes → Bytes → Prop
  | c w malloc, b0, auth => malloc (C.mallocSizeV1 w b0 auth) = false
  | b, b0, auth => ¬ (b.Packs b0 auth ∧ b.Fits (8 + b0.length + auth.length))

/-- The v2 builder refuses the input. -/
def RefusesV2 : (b : Binding) → b.Chain → Bytes → Bytes → Prop
  | c w malloc, chain, b0, auth =>
    (c w malloc).Present chain → malloc (C.mallocSizeV2 w (chain.getD []) b0 auth) = false
  | b, chain, b0, auth =>
    ¬ (b.Accepts chain ∧ b.Packs b0 auth ∧ b.Fits (39 + (b.wire chain).length + b0.length + auth.length))

/-- The dispatcher refuses the input: the version, or the chain id in v2, or the builder does. -/
def Refuses (b : Binding) (v : b.VersionArg) (chain : b.Chain) (b0 auth : Bytes) : Prop :=
  (v = b.version .v1 → b.RefusesV1 b0 auth) ∧ (v = b.version .v2 → b.Present chain → b.RefusesV2 chain b0 auth)

/-- The lengths fit their fields, and the size of the v1 message is exact. -/
def ExactV1 (b : Binding) (b0 auth : Bytes) : Prop := Short b0 auth ∧ b.Fits (8 + b0.length + auth.length)

/-- The lengths fit their fields, and the size of the v2 message is exact. -/
def ExactV2 (b : Binding) (chain : b.Chain) (b0 auth : Bytes) : Prop :=
  Short b0 auth ∧ b.Fits (39 + (b.wire chain).length + b0.length + auth.length)

variable {b : Binding} {chain : b.Chain} {b0 auth : Bytes}

/-- Only C has undefined behaviour. -/
theorem v1_ne_fault (hb : ∀ w malloc, b ≠ .c w malloc) : b.v1 b0 auth ≠ .fault := by
  cases b with
  | c w malloc => exact absurd rfl (hb w malloc)
  | go => rw [v1]; exact Outcome.ofBytes_ne_fault _
  | rust => rw [v1]; exact Outcome.ofBytes_ne_fault _
  | js => rw [v1]; exact Outcome.ofBuffer_ne_fault _
  | python _ => rw [v1]; exact Outcome.ofBytes_ne_fault _
  | java => rw [v1]; exact Outcome.ofBuffer_ne_fault _

theorem v2_ne_fault (hb : ∀ w malloc, b ≠ .c w malloc) : b.v2 chain b0 auth ≠ .fault := by
  cases b with
  | c w malloc => exact absurd rfl (hb w malloc)
  | go => rw [v2]; exact Outcome.ofBytes_ne_fault _
  | rust => rw [v2]; exact Outcome.ofBytes_ne_fault _
  | js => rw [v2]; exact Outcome.ofBuffer_ne_fault _
  | python _ => rw [v2]; exact Outcome.ofBytes_ne_fault _
  | java => rw [v2]; exact Outcome.ofBuffer_ne_fault _

/-- The v1 builders on every input: in C a size that wrapped and was not refused is a store outside the block. -/
theorem v1_cases (b : Binding) (b0 auth : Bytes) :
    (b.RefusesV1 b0 auth ∧ b.v1 b0 auth = .refused) ∨
    (¬ b.RefusesV1 b0 auth ∧ b.Fits (8 + b0.length + auth.length) ∧ b.v1 b0 auth = .bytes (Format.v1 b0 auth)) ∨
    (¬ b.RefusesV1 b0 auth ∧ ¬ b.Fits (8 + b0.length + auth.length) ∧ b.v1 b0 auth = .fault) := by
  by_cases hb : ∃ w malloc, b = .c w malloc
  · obtain ⟨w, malloc, rfl⟩ := hb
    rw [v1_c]
    simp only [RefusesV1, fits_c]
    split
    · exact Or.inl ⟨by assumption, rfl⟩
    · split
      · exact Or.inr (Or.inl ⟨by assumption, by assumption, rfl⟩)
      · exact Or.inr (Or.inr ⟨by assumption, by assumption, rfl⟩)
  · have hb : ∀ w malloc, b ≠ .c w malloc := fun w malloc h => hb ⟨w, malloc, h⟩
    have hrefuses : b.RefusesV1 b0 auth ↔ ¬ (b.Packs b0 auth ∧ b.Fits (8 + b0.length + auth.length)) := by
      cases b with
      | c w malloc => exact absurd rfl (hb w malloc)
      | _ => exact Iff.rfl
    rw [hrefuses, not_not]
    by_cases h : b.Packs b0 auth ∧ b.Fits (8 + b0.length + auth.length)
    · exact Or.inr (Or.inl ⟨h, h.2, v1_of_room h.1 ⟨h.2, allocates hb _⟩⟩)
    · cases hv : b.v1 b0 auth with
      | refused => exact Or.inl ⟨h, rfl⟩
      | bytes bs =>
        obtain ⟨-, hp, hr⟩ := v1_bytes hv
        exact absurd ⟨hp, hr.1⟩ h
      | fault => exact absurd hv (v1_ne_fault hb)

/-- The v2 builders on every input. -/
theorem v2_cases (b : Binding) (chain : b.Chain) (b0 auth : Bytes) :
    (b.RefusesV2 chain b0 auth ∧ b.v2 chain b0 auth = .refused) ∨
    (¬ b.RefusesV2 chain b0 auth ∧ b.Fits (39 + (b.wire chain).length + b0.length + auth.length) ∧
      b.v2 chain b0 auth = .bytes (Format.v2 (b.wire chain) b0 auth)) ∨
    (¬ b.RefusesV2 chain b0 auth ∧ ¬ b.Fits (39 + (b.wire chain).length + b0.length + auth.length) ∧
      b.v2 chain b0 auth = .fault) := by
  by_cases hb : ∃ w malloc, b = .c w malloc
  · obtain ⟨w, malloc, rfl⟩ := hb
    by_cases hc : (c w malloc).Present chain
    · simp only [RefusesV2, hc, true_implies, fits_c]
      obtain ⟨cid, hne, rfl⟩ := hc
      rw [v2_c w malloc hne]
      simp only [Option.getD_some, wire]
      split
      · exact Or.inl ⟨by assumption, rfl⟩
      · split
        · exact Or.inr (Or.inl ⟨by assumption, by assumption, rfl⟩)
        · exact Or.inr (Or.inr ⟨by assumption, by assumption, rfl⟩)
    · exact Or.inl ⟨fun h => absurd h hc, v2_absent hc b0 auth⟩
  · have hb : ∀ w malloc, b ≠ .c w malloc := fun w malloc h => hb ⟨w, malloc, h⟩
    have hrefuses : b.RefusesV2 chain b0 auth ↔ ¬ (b.Accepts chain ∧ b.Packs b0 auth ∧
        b.Fits (39 + (b.wire chain).length + b0.length + auth.length)) := by
      cases b with
      | c w malloc => exact absurd rfl (hb w malloc)
      | _ => exact Iff.rfl
    rw [hrefuses, not_not]
    by_cases h : b.Accepts chain ∧ b.Packs b0 auth ∧ b.Fits (39 + (b.wire chain).length + b0.length + auth.length)
    · exact Or.inr (Or.inl ⟨h, h.2.2, v2_of_room h.1 h.2.1 ⟨h.2.2, allocates hb _⟩⟩)
    · cases hv : b.v2 chain b0 auth with
      | refused => exact Or.inl ⟨h, rfl⟩
      | bytes bs =>
        obtain ⟨-, hc, hp, hr⟩ := v2_bytes hv
        exact absurd ⟨hc, hp, hr.1⟩ h
      | fault => exact absurd hv (v2_ne_fault hb)

/-- A message that fits has a chain id that fits its length field. -/
theorem wire_lt (h : b.Fits (39 + (b.wire chain).length + b0.length + auth.length)) :
    (b.wire chain).length < 2 ^ 64 := by
  have hm : b.maxSize < 2 ^ 64 := by
    cases b with
    | c w malloc =>
      have h₁ := w.modulus_ge
      have h₂ := w.modulus_le
      simp only [maxSize]
      omega
    | _ => simp only [maxSize, Go.maxInt, Rust.isizeMax, Js.maxLength, Python.maxsize, Java.maxInt]; omega
  unfold Fits at h
  omega

theorem truthfulV1_iff : b.TruthfulV1 b0 auth ↔ b.RefusesV1 b0 auth ∨ b.ExactV1 b0 auth := by
  unfold TruthfulV1 ExactV1
  rcases v1_cases b b0 auth with ⟨hr, hv⟩ | ⟨hr, hf, hv⟩ | ⟨hr, hf, hv⟩
  · simp only [hv, Outcome.Ensures, hr, true_or]
  · simp only [hv, Outcome.Ensures, honestV1_iff, hr, hf, false_or, and_true]
  · simp only [hv, Outcome.Ensures, hr, hf, and_false, or_false]

theorem truthfulV2_iff : b.TruthfulV2 chain b0 auth ↔ b.RefusesV2 chain b0 auth ∨ b.ExactV2 chain b0 auth := by
  unfold TruthfulV2 ExactV2
  rcases v2_cases b chain b0 auth with ⟨hr, hv⟩ | ⟨hr, hf, hv⟩ | ⟨hr, hf, hv⟩
  · simp only [hv, Outcome.Ensures, hr, true_or]
  · simp only [hv, Outcome.Ensures, honestV2_iff (wire_lt hf), hr, hf, false_or, and_true]
  · simp only [hv, Outcome.Ensures, hr, hf, and_false, or_false]

theorem truthfulDispatch_iff (v : b.VersionArg) :
    b.TruthfulDispatch v chain b0 auth ↔ b.Refuses v chain b0 auth ∨
      (v = b.version .v1 → b.ExactV1 b0 auth) ∧ (v = b.version .v2 → b.ExactV2 chain b0 auth) := by
  have hne : b.version .v1 ≠ b.version .v2 := fun h => absurd (version_inj h) (by decide)
  by_cases h₁ : v = b.version .v1
  · subst h₁
    simp only [TruthfulDispatch, dispatch_v1, hne, true_and, false_and, or_false, Refuses, true_implies,
      false_implies, and_true]
    exact truthfulV1_iff
  by_cases h₂ : v = b.version .v2
  · subst h₂
    by_cases hc : b.Present chain
    · simp only [TruthfulDispatch, dispatch_v2 hc, h₁, true_and, false_and, false_or, Refuses, true_implies,
        false_implies, hc]
      exact truthfulV2_iff
    · simp only [TruthfulDispatch, dispatch_empty hc, Outcome.Ensures, Refuses, h₁, hc, false_implies, and_self,
        implies_true, true_or]
  · simp only [TruthfulDispatch, dispatch_other h₁ h₂, Outcome.Ensures, Refuses, h₁, h₂, false_implies, and_self,
      true_or]

end Binding

/-- **Honest lengths**: what a builder or a dispatcher returns tells the true lengths exactly where the input is
refused, or `b0` and `auth` fit 32 bits and the size of the message is exact; and inputs that fit never share their
bytes. -/
theorem lengths_honest (b : Binding) (chain : b.Chain) (b0 auth : Bytes) :
    (b.TruthfulV1 b0 auth ↔ b.RefusesV1 b0 auth ∨ b.ExactV1 b0 auth) ∧
    (b.TruthfulV2 chain b0 auth ↔ b.RefusesV2 chain b0 auth ∨ b.ExactV2 chain b0 auth) ∧
    (∀ v, b.TruthfulDispatch v chain b0 auth ↔ b.Refuses v chain b0 auth ∨
      (v = b.version .v1 → b.ExactV1 b0 auth) ∧ (v = b.version .v2 → b.ExactV2 chain b0 auth)) ∧
    (∀ b0' auth' bs, Short b0 auth → Short b0' auth' → b.v1 b0 auth = .bytes bs → b.v1 b0' auth' = .bytes bs →
      b0 = b0' ∧ auth = auth') ∧
    (∀ chain' b0' auth' bs, b.WellFormed chain → b.WellFormed chain' → Short b0 auth → Short b0' auth' →
      b.v2 chain b0 auth = .bytes bs → b.v2 chain' b0' auth' = .bytes bs →
      chain = chain' ∧ b0 = b0' ∧ auth = auth') := by
  refine ⟨truthfulV1_iff, truthfulV2_iff, truthfulDispatch_iff, fun b0' auth' bs hs hs' h h' => ?_,
    fun chain' b0' auth' bs hc hc' hs hs' h h' => ?_⟩
  · have he := (v1_bytes h).1.symm.trans (v1_bytes h').1
    simpa using Format.v1_selfDelimiting.inj (a := (b0, auth)) (b := (b0', auth')) hs hs' he
  · obtain ⟨rfl, -, -, hr⟩ := v2_bytes h
    obtain ⟨he, -, -, hr'⟩ := v2_bytes h'
    have := Format.v2_selfDelimiting.inj (a := (b.wire chain, b0, auth)) (b := (b.wire chain', b0', auth'))
      ⟨wire_lt hr.1, hs⟩ ⟨wire_lt hr'.1, hs'⟩ he
    simp only [Prod.mk.injEq] at this
    exact ⟨wire_inj hc hc' this.1, this.2⟩

/-- The bytes of a part whose length does not fit 32 bits. -/
@[irreducible] def longZeros : Bytes := List.replicate (2 ^ 32) 0

theorem length_longZeros : longZeros.length = 2 ^ 32 := by rw [longZeros, List.length_replicate]

/-- Zeros whose length is a multiple of `2 ^ 32` may stand on either side. -/
theorem v1_zeros {n : Nat} (h : n % 2 ^ 32 = 0) :
    Format.v1 (List.replicate n 0) [] = Format.v1 [] (List.replicate n 0) := by
  have hn : beBytes 4 n = List.replicate 4 0 := beBytes_eq_iff.mpr (show n % 256 ^ 4 = 0 % 256 ^ 4 from h)
  have h0 : beBytes 4 0 = List.replicate 4 0 := rfl
  simp only [Format.v1, field, List.length_replicate, List.length_nil, hn, h0, List.append_nil,
    List.replicate_append_replicate]
  congr 1
  omega

/-- A binding writes a length of `2 ^ 32` as `0`, and the bytes can be moved from one part to the other. -/
def Truncates (b : Binding) : Prop :=
  ¬b.TruthfulV1 longZeros [] ∧ longZeros ≠ [] ∧ ∃ bs, b.v1 longZeros [] = .bytes bs ∧ b.v1 [] longZeros = .bytes bs

/-- Every binding that accepts such a length does. -/
theorem truncates {b : Binding} (hroom : b.Room (8 + 2 ^ 32)) (hleft : b.Packs longZeros [])
    (hright : b.Packs [] longZeros) : Truncates b := by
  have hne : longZeros ≠ [] := fun h => absurd (length_longZeros.symm.trans (congrArg List.length h)) (by norm_num)
  have hzeros : Format.v1 longZeros [] = Format.v1 [] longZeros := by rw [longZeros]; exact v1_zeros (by norm_num)
  have hv : b.v1 longZeros [] = .bytes (Format.v1 longZeros []) :=
    v1_of_room hleft (by rwa [length_longZeros])
  refine ⟨fun h => ?_, hne, _, hv, ?_⟩
  · rw [TruthfulV1, hv] at h
    exact absurd (length_longZeros ▸ (honestV1_iff.mp h).1) (lt_irrefl _)
  · rw [hzeros]
    exact v1_of_room hright (by rwa [length_longZeros])

/-- C, Go, Rust and JavaScript do; and C with a 32-bit `size_t` stores lengths that fit outside the block. -/
theorem lengths_truncated :
    Truncates (.c .w64 fun _ => true) ∧ Truncates .go ∧ Truncates .rust ∧ Truncates .js ∧
    Short halfSpace halfSpace ∧ ¬ (Binding.c .w32 fun _ => true).TruthfulV1 halfSpace halfSpace := by
  refine ⟨?_, ?_, ?_, ?_, ?_, ?_⟩
  · exact truncates ⟨by decide, rfl⟩ trivial trivial
  · exact truncates ⟨by decide, trivial⟩ trivial trivial
  · exact truncates ⟨by decide, trivial⟩ trivial trivial
  · exact truncates ⟨by decide, trivial⟩ trivial trivial
  · rw [Short, length_halfSpace]
    omega
  · rw [truthfulV1_iff, ExactV1, fits_c, length_halfSpace, C.SizeT.modulus]
    rintro (h | ⟨-, h⟩)
    · cases h
    · omega

end QorechainPqc
