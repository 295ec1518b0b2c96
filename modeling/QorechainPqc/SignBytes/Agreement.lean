import QorechainPqc.SignBytes.Bindings

/-!
# The bindings agree

* `encoders_agree`: all builders and dispatchers produce the format, and those that write into a block store every byte
  of it exactly once.
* `version_rule_agrees`: all bindings answer the version rule alike, from what was observed, in whatever order; along a
  growing record the answer changes at most once, from v1 to v2.
-/

namespace QorechainPqc

open Detect Framing Text

namespace Binding

variable {b : Binding} {b0 auth : Bytes}

/-! ## Blocks -/

/-- The bindings that write into a block of the computed size. -/
def Writes : Binding → Prop
  | c _ _ => True
  | js => True
  | java => True
  | _ => False

/-- The builders that do not look at the chain id. -/
def Unchecked (b : Binding) : Prop := b = go ∨ b = rust

/-- The block behind a v1 message: every byte was stored exactly once. -/
theorem blockV1_of_room (hw : b.Writes) (hr : b.Room (8 + b0.length + auth.length)) :
    ∃ buf, b.blockV1 b0 auth = some buf ∧ buf.WrittenOnce ∧ buf.contents = Format.v1 b0 auth := by
  refine ⟨Buffer.filled (Format.v1 b0 auth) 0, ?_, Buffer.writtenOnce_filled _, Buffer.contents_filled _⟩
  obtain ⟨hf, ha⟩ := hr
  cases b with
  | c w malloc =>
    have hf := fits_c.mp hf
    have ha : malloc (8 + b0.length + auth.length) = true := ha
    rw [blockV1, C.qpqcHybridSignBytesV1_eq, C.mallocSizeV1_of_fits hf, ha, if_neg (by decide), if_pos hf]
    rfl
  | js =>
    have hf : 8 + b0.length + auth.length ≤ Js.maxLength := hf
    rw [blockV1, Js.hybridSignBytesV1_eq, if_pos hf]
    rfl
  | java =>
    rw [blockV1, Java.hybridSignBytesV1_of_fits hf]
    rfl
  | _ => exact hw.elim

/-- The block behind a v2 message: every byte was stored exactly once. -/
theorem blockV2_of_room {chain : b.Chain} (hw : b.Writes) (hc : b.Accepts chain)
    (hr : b.Room (39 + (b.wire chain).length + b0.length + auth.length)) :
    ∃ buf, b.blockV2 chain b0 auth = some buf ∧ buf.WrittenOnce ∧
      buf.contents = Format.v2 (b.wire chain) b0 auth := by
  refine ⟨Buffer.filled (Format.v2 (b.wire chain) b0 auth) 0, ?_, Buffer.writtenOnce_filled _,
    Buffer.contents_filled _⟩
  obtain ⟨hf, ha⟩ := hr
  cases b with
  | c w malloc =>
    obtain ⟨bs, hne, rfl⟩ := hc
    have hf : 39 + bs.length + b0.length + auth.length < w.modulus := fits_c.mp hf
    have ha : malloc (39 + bs.length + b0.length + auth.length) = true := ha
    rw [blockV2, C.qpqcHybridSignBytesV2_eq w malloc hne, C.mallocSizeV2_of_fits hf, ha, if_neg (by decide), if_pos hf]
    rfl
  | js =>
    obtain ⟨s, hne, rfl⟩ := hc
    have hf : 39 + (Js.encode s).length + b0.length + auth.length ≤ Js.maxLength := hf
    rw [blockV2, Js.hybridSignBytesV2_eq hne, if_pos hf]
    rfl
  | java =>
    obtain ⟨s, hne, rfl⟩ := hc
    rw [blockV2, Java.hybridSignBytesV2_of_fits hne hf]
    rfl
  | _ => exact hw.elim

/-! ## One format -/

theorem accepts_text {s : List Char} (h : s ≠ [] ∨ b.Unchecked) : b.Accepts (b.text s) := by
  rcases h with h | rfl | rfl
  · exact accepts_of_present (b.wellFormed_text s) (present_text h)
  · trivial
  · trivial

theorem packs_of_lt (hb : b0.length < 2 ^ 32) (ha : auth.length < 2 ^ 32) : b.Packs b0 auth := by
  cases b with
  | python _ => exact ⟨hb, ha⟩
  | _ => trivial

end Binding

/-- **Six encoders, one format.** -/
theorem encoders_agree (b : Binding) (s : List Char) {b0 auth : Bytes} (hb : b0.length < 2 ^ 32)
    (ha : auth.length < 2 ^ 32) :
    (b.Room (8 + b0.length + auth.length) →
      b.v1 b0 auth = .bytes (Format.v1 b0 auth) ∧
      (∀ chain, b.dispatch (b.version .v1) chain b0 auth = .bytes (Format.v1 b0 auth)) ∧
      (b.Writes → ∃ buf, b.blockV1 b0 auth = some buf ∧ buf.WrittenOnce ∧ buf.contents = Format.v1 b0 auth)) ∧
    (b.Room (39 + (utf8 s).length + b0.length + auth.length) → s ≠ [] ∨ b.Unchecked →
      b.v2 (b.text s) b0 auth = .bytes (Format.v2 (utf8 s) b0 auth) ∧
      (s ≠ [] → b.dispatch (b.version .v2) (b.text s) b0 auth = .bytes (Format.v2 (utf8 s) b0 auth)) ∧
      (b.Writes → ∃ buf, b.blockV2 (b.text s) b0 auth = some buf ∧ buf.WrittenOnce ∧
        buf.contents = Format.v2 (utf8 s) b0 auth)) ∧
    b.dispatch (b.version .v2) (b.text []) b0 auth = .refused ∧
    ∀ v, v ≠ b.version .v1 → v ≠ b.version .v2 → b.dispatch v (b.text s) b0 auth = .refused := by
  have hp : b.Packs b0 auth := Binding.packs_of_lt hb ha
  refine ⟨fun hr => ⟨Binding.v1_of_room hp hr, fun chain => ?_, fun hw => Binding.blockV1_of_room hw hr⟩,
    fun hr hs => ?_, ?_, fun v h₁ h₂ => Binding.dispatch_other h₁ h₂ _ _ _⟩
  · rw [Binding.dispatch_v1, Binding.v1_of_room hp hr]
  · have hc := Binding.accepts_text hs
    rw [← b.wire_text s] at hr ⊢
    refine ⟨Binding.v2_of_room hc hp hr, fun hne => ?_, fun hw => Binding.blockV2_of_room hw hc hr⟩
    rw [Binding.dispatch_v2 (Binding.present_text hne), Binding.v2_of_room hc hp hr]
  · exact Binding.dispatch_empty (fun h => (Binding.present_iff (b.wellFormed_text [])).mp h rfl) _ _

theorem encoders_agree_java : Binding.java.v1 [1, 2] [3] = .bytes [0, 0, 0, 2, 1, 2, 0, 0, 0, 1, 3] :=
  ((encoders_agree .java [] (by decide) (by decide)).1 ⟨by decide, trivial⟩).1.trans (by decide)

/-! ## One version rule -/

namespace Binding

/-- The listed names and the legacy networks, as bytes. -/
def upgrades : List Bytes := upgradeNames.map utf8

def legacyIds : List Bytes := legacyChains.map utf8

/-- The record of heights holds what was observed: in C the observations themselves, elsewhere for each listed name
the greatest height observed under it. -/
def Records : (b : Binding) → b.Heights → Observations Bytes → Prop
  | c _ _, m, obs => C.seen m.names m.heights m.n = obs
  | go, m, obs => ∀ name ∈ upgradeNames, m (utf8 name) = greatest obs (utf8 name)
  | rust, m, obs => ∀ name ∈ upgradeNames, m name = greatest obs (utf8 name)
  | js, m, obs => ∀ name ∈ upgradeNames, Js.Spells (Js.get m (utf16 name)) (greatest obs (utf8 name))
  | python _, m, obs => ∀ name ∈ upgradeNames, Python.Spells (Python.get m (codePoints name)) (greatest obs (utf8 name))
  | java, m, obs => ∀ name ∈ upgradeNames, (m.bind fun get => get (utf16 name)) = greatest obs (utf8 name)

variable {b : Binding} {chain : b.Chain} {m : b.Heights} {obs : Observations Bytes}

theorem readable_of_records (h : b.Records m obs) : b.Readable m := by
  cases b with
  | js =>
    intro name hn
    obtain ⟨s, hs, rfl⟩ := List.mem_map.mp (show name ∈ upgradeNames.map utf16 from hn)
    exact ⟨_, (h s hs).toHeight⟩
  | python _ =>
    intro name hn
    obtain ⟨s, hs, rfl⟩ := List.mem_map.mp (show name ∈ upgradeNames.map codePoints from hn)
    exact ⟨_, (h s hs).height⟩
  | _ => trivial

/-- What a record holds under the listed names tells what was observed. -/
theorem switched_of_records (h : b.Records m obs) :
    switched upgradeNames (b.heightUnder m) = observed upgrades obs := by
  rw [upgrades, observed, switched_map]
  refine switched_congr fun name hn => ?_
  cases b with
  | c w malloc =>
    have h : C.seen m.names m.heights m.n = obs := h
    rw [heightUnder, h]
    rfl
  | go => exact congrArg (·.getD 0) (h name hn)
  | rust => exact congrArg (·.getD 0) (h name hn)
  | js =>
    rw [heightUnder, Js.heightOf, (h name hn).toHeight]
    rfl
  | python _ =>
    rw [heightUnder, Python.heightOf, (h name hn).height]
    rfl
  | java => exact congrArg (·.getD 0) (h name hn)

/-- The rule in terms of what was observed. -/
theorem versionFor_of_records (hc : b.WellFormed chain) (h : b.Records m obs) : b.versionFor chain m =
    some (b.version (rule (legacyIds.contains (b.compared (b.wire chain))) (observed upgrades obs))) := by
  rw [versionFor_eq hc (readable_of_records h), switched_of_records h, legacy_eq hc]
  rfl

end Binding

namespace Binding

/-- The v1 form is for a legacy network without a listed upgrade at a positive height. -/
theorem rule_observed_eq_v1 {id : Bytes} {obs : Observations Bytes} :
    rule (legacyIds.contains id) (observed upgrades obs) = .v1 ↔
      id ∈ legacyIds ∧ ∀ name ∈ upgrades, ∀ height, (some name, height) ∈ obs → height ≤ 0 := by
  rw [rule_eq_v1, List.contains_iff_mem, ← Bool.not_eq_true, observed_iff]
  refine and_congr_right fun _ => ⟨fun h name hn height ho => ?_, ?_⟩
  · by_contra hp
    exact h ⟨_, ho, name, hn, rfl, Int.not_le.mp hp⟩
  · rintro h ⟨⟨_, height⟩, ho, name, hn, rfl, hp⟩
    exact absurd (h name hn height ho) (Int.not_le.mpr hp)

end Binding

open Binding in
/-- **One version rule**: what it answers, that all bindings answer alike whatever the order and the multiplicity of the
observations, and that the answer switches one way. -/
theorem version_rule_agrees :
    (∀ {b : Binding} {chain : b.Chain} {m : b.Heights} {obs : Observations Bytes}, b.WellFormed chain →
      b.Records m obs → ∃ v, b.versionFor chain m = some (b.version v) ∧
        (v = .v1 ↔ b.compared (b.wire chain) ∈ legacyIds ∧
          ∀ name ∈ upgrades, ∀ height, (some name, height) ∈ obs → height ≤ 0)) ∧
    (∀ {b b' : Binding} {chain : b.Chain} {chain' : b'.Chain} {m : b.Heights} {m' : b'.Heights}
      {obs obs' : Observations Bytes}, b.WellFormed chain → b'.WellFormed chain' →
      b.compared (b.wire chain) = b'.compared (b'.wire chain') → b.Records m obs → b'.Records m' obs' →
      (∀ name ∈ upgrades, ∀ height, (some name, height) ∈ obs ↔ (some name, height) ∈ obs') →
      ∃ v, b.versionFor chain m = some (b.version v) ∧ b'.versionFor chain' m' = some (b'.version v)) ∧
    (∀ {b : Binding} {chain : b.Chain} {m : Nat → b.Heights} {obs : Nat → Observations Bytes}, b.WellFormed chain →
      (∀ n, b.Records (m n) (obs n)) → (∀ n, Grows (obs n) (obs (n + 1))) →
      (∀ n, b.versionFor chain (m n) = b.versionFor chain (m 0)) ∨
        ∃ k, ∀ n, b.versionFor chain (m n) = some (b.version (if n < k then .v1 else .v2))) := by
  refine ⟨fun hc hm => ⟨_, versionFor_of_records hc hm, rule_observed_eq_v1⟩,
    fun hc hc' hid hm hm' hobs => ⟨_, versionFor_of_records hc hm, ?_⟩, fun {b chain m obs} hc hm hg => ?_⟩
  · rw [versionFor_of_records hc' hm', hid, observed_congr hobs]
  · simp only [versionFor_of_records hc (hm _)]
    rcases rule_switches_once (legacyIds.contains (b.compared (b.wire chain))) upgrades hg with h | ⟨k, h⟩
    · exact Or.inl fun n => by rw [h n]
    · exact Or.inr ⟨k, fun n => by rw [h n]⟩

open Binding in
/-- `version_rule_agrees` in Go and Rust, on the legacy main network: before its switch both say v1, afterwards v2, and
they go on to say so. -/
theorem version_rule_agrees_go_rust :
    (let vladi := utf8 "qorechain-vladi".toList
    let obs (n : Nat) : Observations Bytes := List.replicate n (some (utf8 "v3.1.98".toList), 5)
    Binding.go.versionFor vladi (greatest (obs 0)) = some (Binding.go.version .v1) ∧
    Binding.rust.versionFor "qorechain-vladi".toList (fun name => greatest (obs 0) (utf8 name)) =
      some (Binding.rust.version .v1) ∧
    ∃ k, ∀ n, Binding.go.versionFor vladi (greatest (obs n)) =
      some (Binding.go.version (if n < k then .v1 else .v2))) := by
  obtain ⟨hrule, hagree, hrun⟩ := version_rule_agrees
  let vladi : Bytes := utf8 "qorechain-vladi".toList
  let obs (n : Nat) : Observations Bytes := List.replicate n (some (utf8 "v3.1.98".toList), 5)
  have hrecords (n : Nat) : Binding.go.Records (greatest (obs n)) (obs n) := fun _ _ => rfl
  obtain ⟨v, hv, hiff⟩ := @hrule .go vladi _ _ trivial (hrecords 0)
  obtain rfl : v = .v1 := hiff.mpr ⟨by decide, fun _ _ _ h => absurd h List.not_mem_nil⟩
  obtain ⟨v', hv', hiff'⟩ := @hrule .go vladi _ _ trivial (hrecords 1)
  have hne : v' ≠ .v1 := fun h => absurd ((hiff'.mp h).2 _ (by decide) 5 List.mem_cons_self) (by decide)
  have hrecords' : Binding.rust.Records (fun name => greatest (obs 0) (utf8 name)) (obs 0) := fun _ _ => rfl
  obtain ⟨w, hgo, hrust⟩ := @hagree .go .rust vladi "qorechain-vladi".toList _ _ _ _ trivial trivial rfl (hrecords 0)
    hrecords' fun _ _ _ => Iff.rfl
  have hgrows (n : Nat) : Grows (obs n) (obs (n + 1)) := fun name height h => ⟨height, List.mem_cons_of_mem _ h, le_rfl⟩
  have hw : w = .v1 := by
    cases w with
    | v1 => rfl
    | v2 => exact absurd (hv.symm.trans hgo) (by decide)
  subst hw
  refine ⟨hv, hrust, (@hrun .go vladi _ _ trivial hrecords hgrows).resolve_left fun h => ?_⟩
  have hsame := (hv'.symm.trans (h 1)).trans hv
  cases v' with
  | v1 => exact hne rfl
  | v2 => exact absurd hsame (by decide)

end QorechainPqc
