import QorechainPqc.SignBytes.Agreement

/-!
# One upgrade name only

The deprecated constant of each binding is the newest upgrade name alone. A client that looks up this name, and hands
its height to the rule for one height, misreads the networks that have switched under another name (`primary_misreads`):
it takes them for networks that have not switched, never the other way round.
-/

namespace QorechainPqc

open Detect Failing Text

/-- `SIGN_BYTES_V2_UPGRADE`. -/
def signBytesV2Upgrade : List Char := "v3.2.0".toList

/-- What a client takes that sees less. -/
theorem rule_ne_iff {legacy seen actual : Bool} (h : seen = true → actual = true) :
    rule legacy seen ≠ rule legacy actual ↔ legacy = true ∧ seen = false ∧ actual = true := by
  cases seen with
  | true =>
    rw [h rfl]
    exact iff_of_false (not_not_intro rfl) nofun
  | false => cases legacy <;> cases actual <;> decide

/-- Only the height that is read matters. -/
theorem Js.signBytesVersionFor_of_height {chainId v : Js.Value} {h : Int} (hv : Js.toHeight v = .ok h) :
    Js.signBytesVersionFor chainId v = .ok (Js.ofVersion (rule (Js.legacy chainId) (decide (0 < h)))) := by
  rw [← Js.signBytesVersionFor_bigint, Js.signBytesVersionFor, hv]
  rfl

theorem Python.signBytesVersionFor_of_height {digits : Python.Digits} {chainId : Python.Str} {v : Python.Value}
    {h : Int} (hv : Python.height digits v = .ok h) : Python.signBytesVersionFor digits chainId v =
      .ok (Python.ofVersion (rule (Python.legacySignBytesChains.contains chainId) (decide (0 < h)))) := by
  rw [← Python.signBytesVersionFor_int digits, Python.signBytesVersionFor, hv]
  rfl

namespace Binding

/-- The rule for one height, on what the record holds under the newest name. -/
def versionByPrimary : (b : Binding) → b.Chain → b.Heights → Option b.VersionArg
  | c _ _, chain, m => some (C.qpqcSignBytesVersionFor chain
      ((greatest (C.seen m.names m.heights m.n) (utf8 signBytesV2Upgrade)).getD 0))
  | go, chain, m => some (Go.signBytesVersionFor chain ((m (utf8 signBytesV2Upgrade)).getD 0))
  | rust, chain, m => some (Rust.signBytesVersionFor chain ((m signBytesV2Upgrade).getD 0))
  | js, chain, m => (Js.signBytesVersionFor chain (Js.get m (utf16 signBytesV2Upgrade))).toOption.map .string
  | python digits, chain, m =>
    (Python.signBytesVersionFor digits chain (Python.get m (codePoints signBytesV2Upgrade))).toOption
  | java, chain, m => (Java.signBytesVersionFor chain
      ((m.bind fun get => get (utf16 signBytesV2Upgrade)).getD 0)).toOption

variable {b : Binding} {chain : b.Chain} {m : b.Heights} {obs : Observations Bytes}

/-- Some positive height was observed under the newest name. -/
def observedPrimary (obs : Observations Bytes) : Bool := observed [utf8 signBytesV2Upgrade] obs

theorem observedPrimary_eq (obs : Observations Bytes) :
    observedPrimary obs = decide (0 < (greatest obs (utf8 signBytesV2Upgrade)).getD 0) := by
  rw [observedPrimary, observed, switched, List.any_cons, List.any_nil, Bool.or_false]

theorem observed_of_primary (h : observedPrimary obs = true) : observed upgrades obs = true := by
  obtain ⟨o, ho, name, hn, he, hp⟩ := observed_iff.mp h
  obtain rfl := List.mem_singleton.mp hn
  exact observed_iff.mpr ⟨o, ho, _, List.mem_cons_self, he, hp⟩

theorem mem_upgradeNames : signBytesV2Upgrade ∈ upgradeNames := List.mem_cons_self

/-- The rule for one height, in every binding. -/
theorem versionByPrimary_eq (hc : b.WellFormed chain) (hm : b.Records m obs) : b.versionByPrimary chain m =
    some (b.version (rule (legacyIds.contains (b.compared (b.wire chain))) (observedPrimary obs))) := by
  have hlegacy : (legacyIds.contains (b.compared (b.wire chain))) = b.legacy chain := (legacy_eq hc).symm
  rw [observedPrimary_eq, hlegacy]
  cases b with
  | c w malloc =>
    have hm : C.seen m.names m.heights m.n = obs := hm
    rw [versionByPrimary, hm, C.qpqcSignBytesVersionFor_eq]
    rfl
  | go =>
    have hm := hm _ mem_upgradeNames
    rw [versionByPrimary, hm, Go.signBytesVersionFor_eq]
    rfl
  | rust =>
    have hm := hm _ mem_upgradeNames
    rw [versionByPrimary, hm, Rust.signBytesVersionFor_eq]
    rfl
  | js =>
    have hm := (hm _ mem_upgradeNames).toHeight
    rw [versionByPrimary, Js.signBytesVersionFor_of_height hm]
    rfl
  | python digits =>
    have hm : Python.height digits _ = _ := (hm _ mem_upgradeNames).height
    rw [versionByPrimary, Python.signBytesVersionFor_of_height hm]
    rfl
  | java =>
    obtain ⟨s, rfl⟩ := hc
    have hm := hm _ mem_upgradeNames
    rw [versionByPrimary, hm, text, Java.signBytesVersionFor_eq]
    rfl

end Binding

open Binding in
/-- **What the newest name misses**: by this name alone a client takes the wrong form just for a legacy network that has
switched under another name, and the form that it takes is then v1. -/
theorem primary_misreads {b : Binding} {chain : b.Chain} {m : b.Heights} {obs : Observations Bytes}
    (hc : b.WellFormed chain) (hm : b.Records m obs) :
    ∃ v v', b.versionByPrimary chain m = some (b.version v) ∧ b.versionFor chain m = some (b.version v') ∧
      (v ≠ v' ↔ b.compared (b.wire chain) ∈ legacyIds ∧
        (∀ height, (some (utf8 signBytesV2Upgrade), height) ∈ obs → height ≤ 0) ∧
          ∃ name ∈ upgrades, ∃ height, (some name, height) ∈ obs ∧ 0 < height) ∧
      (v ≠ v' → v = .v1) := by
  refine ⟨_, _, versionByPrimary_eq hc hm, versionFor_of_records hc hm, ?_, ?_⟩
  · have hnone : (∀ height, (some (utf8 signBytesV2Upgrade), height) ∈ obs → height ≤ 0) ↔
        observedPrimary obs = false := by
      rw [← Bool.not_eq_true, observedPrimary, observed_iff]
      constructor
      · rintro h ⟨⟨_, height⟩, ho, name, hn, rfl, hp⟩
        obtain rfl := List.mem_singleton.mp hn
        exact absurd (h height ho) (Int.not_le.mpr hp)
      · intro h height ho
        by_contra hp
        exact h ⟨_, ho, _, List.mem_singleton_self _, rfl, Int.not_le.mp hp⟩
    have hsome : (∃ name ∈ upgrades, ∃ height, (some name, height) ∈ obs ∧ 0 < height) ↔
        observed upgrades obs = true := by
      rw [observed_iff]
      constructor
      · rintro ⟨name, hn, height, ho, hp⟩
        exact ⟨_, ho, name, hn, rfl, hp⟩
      · rintro ⟨⟨_, height⟩, ho, name, hn, rfl, hp⟩
        exact ⟨name, hn, height, ho, hp⟩
    rw [hnone, hsome, ← List.contains_iff_mem]
    exact rule_ne_iff observed_of_primary
  · intro hne
    obtain ⟨hlegacy, hprimary, -⟩ := (rule_ne_iff observed_of_primary).mp hne
    exact rule_eq_v1.mpr ⟨hlegacy, hprimary⟩

/-- `primary_misreads` for the legacy test network after its switch. -/
theorem primary_misreads_diana : ∃ v v',
    Binding.go.versionByPrimary (utf8 "qorechain-diana".toList) (greatest [(some (utf8 "v3.1.98".toList), 100)]) =
      some (Go.ofVersion v) ∧
    Binding.go.versionFor (utf8 "qorechain-diana".toList) (greatest [(some (utf8 "v3.1.98".toList), 100)]) =
      some (Go.ofVersion v') ∧ v ≠ v' ∧ v = .v1 := by
  let obs : Observations Bytes := [(some (utf8 "v3.1.98".toList), 100)]
  have hc : Binding.go.WellFormed (utf8 "qorechain-diana".toList) := trivial
  have hm : Binding.go.Records (greatest obs) obs := fun _ _ => rfl
  obtain ⟨v, v', hv, hv', hne, hv1⟩ := primary_misreads hc hm
  have hmisread : v ≠ v' := by
    refine hne.mpr ⟨by decide, fun height ho => ?_, utf8 "v3.1.98".toList, by decide, 100, List.mem_cons_self,
      by decide⟩
    have he : some (utf8 signBytesV2Upgrade) = some (utf8 "v3.1.98".toList) :=
      congrArg Prod.fst (List.mem_singleton.mp ho)
    exact absurd he (by decide)
  exact ⟨v, v', hv, hv', hmisread, hv1 hmisread⟩

end QorechainPqc
