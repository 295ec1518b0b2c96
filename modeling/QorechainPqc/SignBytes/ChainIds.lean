import QorechainPqc.SignBytes.Bindings

/-!
# Chain ids as the caller wrote them

The JavaScript and the Java builder encode a chain id with a replacement for unpaired surrogates, `U+FFFD` and `?`.
`chain_ids_bound`: a chain id has sign-bytes of its own just where it is a text without the replacement character; two
texts never share theirs. `chain_ids_collide` are three that do. The Python builder raises on an unpaired surrogate.
-/

namespace QorechainPqc

open Framing Text

/-- No other chain id gives the bytes that `c` gives. -/
def BindsChainId (v2 : List UInt16 → Outcome) (c : List UInt16) : Prop :=
  ∀ c', c' ≠ [] → ∀ bs, v2 c = .bytes bs → v2 c' = .bytes bs → c = c'

/-- The v2 builder of JavaScript on a string. -/
def jsV2 (b0 auth : Bytes) (c : Js.Str) : Outcome := Binding.js.v2 (.string c) b0 auth

/-- The v2 builder of Java on a string. -/
def javaV2 (b0 auth : Bytes) (c : Java.Str) : Outcome := Binding.java.v2 (some c) b0 auth

/-- Equal messages with equal parts behind the chain id have equal chain ids, of whatever length the parts are. -/
theorem Format.v2_chainId_left {c c' b0 auth : Bytes} (h : Format.v2 c b0 auth = Format.v2 c' b0 auth) : c = c' := by
  have hlen := congrArg List.length h
  rw [Format.length_v2, Format.length_v2] at hlen
  simp only [Format.v2, List.append_cancel_left_eq, List.append_cancel_right_eq, field] at h
  exact (List.append_inj h (by simp)).2

/-- A v2 builder that writes `r` for unpaired surrogates, for messages up to a size. -/
structure Replaces (v2 : List UInt16 → Outcome) (r : Char) (b0 auth : Bytes) (limit : Nat) : Prop where
  empty : v2 [] = .refused
  eq_ite : ∀ c, c ≠ [] → v2 c = if 39 + (utf8 (decode16 r c)).length + b0.length + auth.length ≤ limit then
    .bytes (Format.v2 (utf8 (decode16 r c)) b0 auth) else .refused

namespace Replaces

variable {v2 : List UInt16 → Outcome} {r : Char} {b0 auth bs : Bytes} {limit : Nat}

/-- What the builder returns is the message of the text that it reads. -/
theorem bytes (h : Replaces v2 r b0 auth limit) {c : List UInt16} (hbs : v2 c = .bytes bs) :
    bs = Format.v2 (utf8 (decode16 r c)) b0 auth := by
  by_cases hc : c = []
  · rw [hc, h.empty] at hbs
    cases hbs
  · rw [h.eq_ite c hc] at hbs
    split at hbs
    · exact (Outcome.bytes.inj hbs).symm
    · cases hbs

/-- It binds the texts without `r` and, unless the message does not fit, nothing else. -/
theorem binds_iff (h : Replaces v2 r b0 auth limit) (c : List UInt16) : BindsChainId v2 c ↔
    Plain r c ∨ limit < 39 + (utf8 (decode16 r c)).length + b0.length + auth.length := by
  by_cases hc : c = []
  · subst hc
    refine ⟨fun _ => Or.inl ⟨[], rfl, List.not_mem_nil⟩, fun _ c' _ bs hbs => ?_⟩
    rw [h.empty] at hbs
    cases hbs
  by_cases hfits : 39 + (utf8 (decode16 r c)).length + b0.length + auth.length ≤ limit
  · rw [or_iff_left (by omega), ← decode16_determines]
    have hbs : v2 c = .bytes (Format.v2 (utf8 (decode16 r c)) b0 auth) := by rw [h.eq_ite c hc, if_pos hfits]
    constructor
    · intro hb c' hc' hread
      refine (hb c' hc' _ hbs ?_).symm
      rw [h.eq_ite c' hc', hread, if_pos hfits]
    · intro hread c' hc' bs he he'
      have hsame := Format.v2_chainId_left ((h.bytes he).symm.trans (h.bytes he'))
      exact (hread c' hc' (utf8_inj hsame).symm).symm
  · refine ⟨fun _ => Or.inr (by omega), fun _ c' _ bs hbs => ?_⟩
    rw [h.eq_ite c hc, if_neg hfits] at hbs
    cases hbs

/-- Two texts have sign-bytes of their own. -/
theorem texts (h : Replaces v2 r b0 auth limit) {s t : List Char} (hs : v2 (utf16 s) = .bytes bs)
    (ht : v2 (utf16 t) = .bytes bs) : s = t := by
  have he := (h.bytes hs).symm.trans (h.bytes ht)
  rw [decode16_utf16, decode16_utf16] at he
  exact utf8_inj (Format.v2_chainId_left he)

end Replaces

theorem jsV2_replaces (b0 auth : Bytes) : Replaces (jsV2 b0 auth) '\uFFFD' b0 auth Js.maxLength where
  empty := rfl
  eq_ite c hc := by
    rw [jsV2, Binding.v2, Js.hybridSignBytesV2_eq hc, Js.encode]
    split
    · exact congrArg Outcome.bytes (Buffer.contents_filled _)
    · rfl

theorem javaV2_replaces (b0 auth : Bytes) : Replaces (javaV2 b0 auth) '?' b0 auth Java.maxInt where
  empty := rfl
  eq_ite c hc := by
    rw [javaV2, Binding.v2]
    split
    · rename_i h
      rw [Java.hybridSignBytesV2_of_fits hc h]
      exact congrArg Outcome.bytes (Buffer.contents_filled _)
    · rename_i h
      have hlong : Java.maxInt < 39 + (Java.chainBytes c).length + b0.length + auth.length := Nat.lt_of_not_le h
      obtain ⟨e, he⟩ := Java.hybridSignBytesV2_of_overflow hlong
      rw [he]; rfl

/-- **Chain ids are bound** where they are texts without the replacement character, and, unless the message does not
fit, only there. -/
theorem chain_ids_bound (c : List UInt16) (b0 auth : Bytes) :
    (BindsChainId (jsV2 b0 auth) c ↔
      Plain '\uFFFD' c ∨ Js.maxLength < 39 + (Js.encode c).length + b0.length + auth.length) ∧
    (BindsChainId (javaV2 b0 auth) c ↔
      Plain '?' c ∨ Java.maxInt < 39 + (Java.chainBytes c).length + b0.length + auth.length) ∧
    (∀ s t bs, jsV2 b0 auth (utf16 s) = .bytes bs → jsV2 b0 auth (utf16 t) = .bytes bs → s = t) ∧
    (∀ s t bs, javaV2 b0 auth (utf16 s) = .bytes bs → javaV2 b0 auth (utf16 t) = .bytes bs → s = t) :=
  ⟨(jsV2_replaces b0 auth).binds_iff c, (javaV2_replaces b0 auth).binds_iff c,
    fun _ _ _ => (jsV2_replaces b0 auth).texts, fun _ _ _ => (javaV2_replaces b0 auth).texts⟩

/-- Different unpaired surrogates, and `?` in Java, give the same sign-bytes. -/
theorem chain_ids_collide :
    (∃ bs, jsV2 [] [] [0xD800] = .bytes bs ∧ jsV2 [] [] [0xD801] = .bytes bs) ∧
    (∃ bs, javaV2 [] [] [0xD800] = .bytes bs ∧ javaV2 [] [] [0x3F] = .bytes bs) ∧
    ¬ BindsChainId (jsV2 [] []) [0xD800] ∧ ¬ BindsChainId (javaV2 [] []) [0xD800] := by
  have hjs : ∃ bs, jsV2 [] [] [0xD800] = .bytes bs ∧ jsV2 [] [] [0xD801] = .bytes bs :=
    ⟨_, by rw [(jsV2_replaces [] []).eq_ite _ (by decide)]; exact if_pos (by decide),
      by rw [(jsV2_replaces [] []).eq_ite _ (by decide)]; exact if_pos (by decide)⟩
  have hjava : ∃ bs, javaV2 [] [] [0xD800] = .bytes bs ∧ javaV2 [] [] [0x3F] = .bytes bs :=
    ⟨_, by rw [(javaV2_replaces [] []).eq_ite _ (by decide)]; exact if_pos (by decide),
      by rw [(javaV2_replaces [] []).eq_ite _ (by decide)]; exact if_pos (by decide)⟩
  refine ⟨hjs, hjava, fun h => ?_, fun h => ?_⟩
  · obtain ⟨bs, he, he'⟩ := hjs
    exact absurd (h _ (by decide) bs he he') (by decide)
  · obtain ⟨bs, he, he'⟩ := hjava
    exact absurd (h _ (by decide) bs he he') (by decide)

/-- Python raises. -/
example : Python.hybridSignBytesV2 [⟨0xD800, by decide⟩] [] [] = .error .unicodeEncodeError := rfl

end QorechainPqc
