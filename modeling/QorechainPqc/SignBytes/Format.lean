import QorechainPqc.Lib.SelfDelimiting
import QorechainPqc.Lib.Unicode

/-!
# The hybrid sign-bytes format

What the six bindings are meant to produce, independent of any of them: the legacy form `Format.v1` frames the
transaction body `b0` and the AuthInfo bytes `auth`, and `Format.v2` puts the domain tag and the framed chain id in
front of it.

* Both forms are self-delimiting as long as the lengths fit their fields (`v1_selfDelimiting`, `v2_selfDelimiting`).
* A v1 message cannot start like the tag, unless `b0` has the one length whose four bytes spell `qore` (`v1_not_qore`).
* No message of either form starts with another reserved domain string (`not_reserved_v1`, `not_reserved_v2`).
-/

namespace QorechainPqc

open Framing Text

abbrev Bytes := List UInt8

/-- The two forms of the message that a signature covers. -/
inductive Version
  | v1
  | v2
deriving DecidableEq

namespace Format

/-- The domain tag of the v2 form. -/
def domain : Bytes := utf8 "qorechain-pqc-hybrid-v2".toList

/-- The legacy form: `BE32(len b0) || b0 || BE32(len auth) || auth`. -/
def v1 (b0 auth : Bytes) : Bytes := field 4 b0 ++ field 4 auth

/-- The domain-tagged form: `domain || BE64(len chainId) || chainId || v1`. -/
def v2 (chainId b0 auth : Bytes) : Bytes := domain ++ (field 8 chainId ++ v1 b0 auth)

theorem length_domain : domain.length = 23 := by decide

theorem length_v1 (b0 auth : Bytes) : (v1 b0 auth).length = 8 + b0.length + auth.length := by
  simp only [v1, List.length_append, length_field]
  omega

theorem length_v2 (chainId b0 auth : Bytes) :
    (v2 chainId b0 auth).length = 39 + chainId.length + b0.length + auth.length := by
  simp only [v2, List.length_append, length_field, length_v1, length_domain]
  omega

/-- The parts of a v1 message, one behind the other. -/
theorem flatten_v1 (b0 auth : Bytes) : [beBytes 4 b0.length, b0, beBytes 4 auth.length, auth].flatten = v1 b0 auth := by
  simp [v1, field]

/-- The parts of a v2 message, one behind the other. -/
theorem flatten_v2 (chainId b0 auth : Bytes) :
    [domain, beBytes 8 chainId.length, chainId, beBytes 4 b0.length, b0, beBytes 4 auth.length, auth].flatten =
      v2 chainId b0 auth := by
  simp [v2, v1, field]

/-! ## Framing -/

theorem v1_selfDelimiting :
    SelfDelimiting (fun p : Bytes × Bytes => p.1.length < 2 ^ 32 ∧ p.2.length < 2 ^ 32) (fun p => v1 p.1 p.2) :=
  SelfDelimiting.pair (field_selfDelimiting 4) (field_selfDelimiting 4)

theorem v2_selfDelimiting :
    SelfDelimiting
      (fun p : Bytes × Bytes × Bytes => p.1.length < 2 ^ 64 ∧ p.2.1.length < 2 ^ 32 ∧ p.2.2.length < 2 ^ 32)
      (fun p => v2 p.1 p.2.1 p.2.2) :=
  SelfDelimiting.behind (SelfDelimiting.pair (field_selfDelimiting 8) v1_selfDelimiting) domain

/-- The chain id is bound even when its length does not fit the length field: the total length tells it. -/
theorem v2_chainId_inj {c c' b0 b0' auth auth' : Bytes} (hb : b0.length < 2 ^ 32) (hb' : b0'.length < 2 ^ 32)
    (ha : auth.length < 2 ^ 32) (ha' : auth'.length < 2 ^ 32) (h : v2 c b0 auth = v2 c' b0' auth') : c = c' := by
  have hlen := congrArg List.length h
  rw [length_v2, length_v2] at hlen
  simp only [v2, field, List.append_assoc, List.append_cancel_left_eq] at h
  obtain ⟨hc, h⟩ := List.append_inj h (by simp)
  -- equal length bytes, and lengths that differ by less than their modulus
  have hmod := beBytes_eq_iff.mp hc
  exact (List.append_inj h (by omega)).1

/-! ## The two forms never meet -/

/-- The length whose four big-endian bytes spell `qore`. -/
def qoreLength : Nat := 0x716F7265

theorem domain_take : domain.take 4 = beBytes 4 qoreLength := by decide

/-- A v1 message starts with the length of its body. -/
theorem v1_take (b0 auth : Bytes) : (v1 b0 auth).take 4 = beBytes 4 b0.length := by
  rw [v1, field, List.append_assoc, List.take_left' (length_beBytes 4 _)]

theorem v1_not_qore {b0 : Bytes} (hb : b0.length < qoreLength) (auth : Bytes) :
    (v1 b0 auth).take 4 ≠ domain.take 4 := by
  rw [v1_take, domain_take]
  intro h
  have hlt : b0.length < 256 ^ 4 := Nat.lt_trans hb (by decide)
  exact absurd (beBytes_inj hlt (by decide) h) (Nat.ne_of_lt hb)

theorem v2_take (c b0 auth : Bytes) : (v2 c b0 auth).take 4 = domain.take 4 := by
  rw [v2, List.take_append_of_le_length (by rw [length_domain]; omega)]

/-- A v1 message is never a v2 message. -/
theorem v1_ne_v2 {b0 : Bytes} (hb : b0.length < qoreLength) (auth c b0' auth' : Bytes) :
    v1 b0 auth ≠ v2 c b0' auth' := by
  intro h
  exact v1_not_qore hb auth (by rw [h, v2_take])

/-! ## Reserved domain strings -/

/-- The domain strings that the design notes reserve for other purposes. -/
def otherDomains : List Bytes :=
  ["qorechain-pqc-pop-v1|", "qorechain:pqc:v1|", "qorechain:pqc:recovery:v1", "qorechain-svm-auth-v2",
    "qorechain-siwq-v1|", "qorechain-msg-v1|"].map fun s => utf8 s.toList

/-- Every other domain string starts with `qore`, and neither it nor the tag extends the other. -/
theorem otherDomains_apart : ∀ d ∈ otherDomains, d.take 4 = domain.take 4 ∧ ¬ d <+: domain ∧ ¬ domain <+: d := by
  decide

theorem not_reserved_v1 {d : Bytes} (hd : d ∈ otherDomains) {b0 : Bytes} (hb : b0.length < qoreLength)
    (auth : Bytes) : ¬ d <+: v1 b0 auth := by
  rintro ⟨rest, h⟩
  have hq := (otherDomains_apart d hd).1
  have h4 : 4 ≤ d.length := by
    have := congrArg List.length hq
    simp only [List.length_take, length_domain] at this
    omega
  apply v1_not_qore hb auth
  rw [← h, List.take_append_of_le_length h4, hq]

theorem not_reserved_v2 {d : Bytes} (hd : d ∈ otherDomains) (c b0 auth : Bytes) : ¬ d <+: v2 c b0 auth := by
  intro h
  obtain ⟨_, h₁, h₂⟩ := otherDomains_apart d hd
  have ht : domain <+: v2 c b0 auth := List.prefix_append _ _
  rcases List.prefix_or_prefix_of_prefix h ht with h' | h'
  · exact h₁ h'
  · exact h₂ h'

end Format

end QorechainPqc
