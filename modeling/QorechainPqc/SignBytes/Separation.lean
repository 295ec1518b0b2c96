import QorechainPqc.SignBytes.Agreement

/-!
# Sign-bytes do not travel

* `framing_unambiguous`: in each form, sign-bytes that are a prefix of other sign-bytes frame the same fields.
* `no_replay`: the message that a client signs for a network, in the form that its record of upgrades selects, is not a
  message for another network, of the other form, or of another purpose.
-/

namespace QorechainPqc

open Detect Framing Text Binding

/-! ## Framing -/

/-- **Unambiguous framing**, across all bindings. -/
theorem framing_unambiguous {b b' : Binding} :
    (∀ {chain : b.Chain} {chain' : b'.Chain} {b0 auth b0' auth' bs bs' : Bytes},
      (b.wire chain).length < 2 ^ 64 → b0.length < 2 ^ 32 → auth.length < 2 ^ 32 →
      (b'.wire chain').length < 2 ^ 64 → b0'.length < 2 ^ 32 → auth'.length < 2 ^ 32 →
      b.v2 chain b0 auth = .bytes bs → b'.v2 chain' b0' auth' = .bytes bs' → bs <+: bs' →
      b.wire chain = b'.wire chain' ∧ b0 = b0' ∧ auth = auth') ∧
    (∀ {b0 auth b0' auth' bs bs' : Bytes},
      b0.length < 2 ^ 32 → auth.length < 2 ^ 32 → b0'.length < 2 ^ 32 → auth'.length < 2 ^ 32 →
      b.v1 b0 auth = .bytes bs → b'.v1 b0' auth' = .bytes bs' → bs <+: bs' → b0 = b0' ∧ auth = auth') := by
  constructor
  · intro chain chain' b0 auth b0' auth' bs bs' hc hb ha hc' hb' ha' h h' hp
    rw [(v2_bytes h).1, (v2_bytes h').1] at hp
    have he := Format.v2_selfDelimiting.prefix_eq (a := (b.wire chain, b0, auth)) (b := (b'.wire chain', b0', auth'))
      ⟨hc, hb, ha⟩ ⟨hc', hb', ha'⟩ hp
    simpa using he
  · intro b0 auth b0' auth' bs bs' hb ha hb' ha' h h' hp
    rw [(v1_bytes h).1, (v1_bytes h').1] at hp
    have he := Format.v1_selfDelimiting.prefix_eq (a := (b0, auth)) (b := (b0', auth')) ⟨hb, ha⟩ ⟨hb', ha'⟩ hp
    simpa using he

/-- `framing_unambiguous` for Go and JavaScript: messages that differ in one byte of the transaction, or in the chain
id. -/
theorem framing_unambiguous_go_js :
    (∃ bs bs', Binding.go.v1 [7] [9] = .bytes bs ∧ Binding.js.v1 [7] [8] = .bytes bs' ∧ ¬bs <+: bs') ∧
    ∃ bs bs', Binding.go.v2 (utf8 "qorechain-vladi".toList) [7] [9] = .bytes bs ∧
      Binding.js.v2 (.string (Js.str "qorechain-diana")) [7] [9] = .bytes bs' ∧ ¬bs <+: bs' := by
  constructor
  · refine ⟨_, _, rfl, rfl, fun hp => ?_⟩
    have hparts : [(7 : UInt8)] = [7] ∧ [(9 : UInt8)] = [8] :=
      (@framing_unambiguous .go .js).2 (by decide) (by decide) (by decide) (by decide) rfl rfl hp
    exact absurd hparts.2 (by decide)
  · refine ⟨_, _, rfl, rfl, fun hp => ?_⟩
    have hparts : Binding.go.wire (utf8 "qorechain-vladi".toList) =
        Binding.js.wire (.string (Js.str "qorechain-diana")) ∧ [(7 : UInt8)] = [7] ∧ [(9 : UInt8)] = [9] :=
      (@framing_unambiguous .go .js).1 (by decide) (by decide) (by decide) (by decide) (by decide) (by decide) rfl rfl
        hp
    exact absurd hparts.1 (by decide)

/-! ## Contexts -/

/-- What a client signs: a network with its record of upgrades, and a transaction whose parts are short enough that no
length spells `qore`. -/
structure Context (b : Binding) where
  chain : b.Chain
  heights : b.Heights
  b0 : Bytes
  auth : Bytes
  chain_wf : b.WellFormed chain
  b0_short : b0.length < Format.qoreLength
  auth_short : auth.length < Format.qoreLength

namespace Context

variable {b b' : Binding}

/-- The message: the version that the rule returns, handed to the checked dispatcher. -/
def out (x : Context b) : Outcome :=
  match b.versionFor x.chain x.heights with
  | some v => b.dispatch v x.chain x.b0 x.auth
  | none => .refused

/-- The form that the rule selects. -/
def selected (x : Context b) : Version := rule (b.legacy x.chain) (switched upgradeNames (b.heightUnder x.heights))

/-- The size of the message in a form. -/
def size (x : Context b) : Version → Nat
  | .v1 => 8 + x.b0.length + x.auth.length
  | .v2 => 39 + (b.wire x.chain).length + x.b0.length + x.auth.length

/-- The message in a form. -/
def message (x : Context b) : Version → Bytes
  | .v1 => Format.v1 x.b0 x.auth
  | .v2 => Format.v2 (b.wire x.chain) x.b0 x.auth

theorem versionFor_of_readable {x : Context b} (h : b.Readable x.heights) :
    b.versionFor x.chain x.heights = some (b.version x.selected) := versionFor_eq x.chain_wf h

/-- What the rule answers is the selected form. -/
theorem eq_of_versionFor {x : Context b} {v : b.VersionArg} (h : b.versionFor x.chain x.heights = some v) :
    v = b.version x.selected := by
  have hsel := versionFor_of_readable (readable_of_versionFor h)
  rw [h] at hsel
  exact Option.some.inj hsel

theorem selected_of_versionFor {x : Context b} {v : Version} (h : b.versionFor x.chain x.heights = some (b.version v)) :
    x.selected = v := (version_inj (eq_of_versionFor h)).symm

theorem b0_lt (x : Context b) : x.b0.length < 2 ^ 32 := Nat.lt_trans x.b0_short (by decide)

theorem auth_lt (x : Context b) : x.auth.length < 2 ^ 32 := Nat.lt_trans x.auth_short (by decide)

/-- A message that exists is the selected one. -/
theorem out_bytes {x : Context b} {bs : Bytes} (h : x.out = .bytes bs) : bs = x.message x.selected := by
  unfold out at h
  split at h
  · rename_i v hv
    obtain rfl := eq_of_versionFor hv
    cases hs : x.selected with
    | v1 =>
      rw [hs, dispatch_v1] at h
      exact (v1_bytes h).1
    | v2 =>
      by_cases hc : b.Present x.chain
      · rw [hs, dispatch_v2 hc] at h
        exact (v2_bytes h).1
      · rw [hs, dispatch_empty hc] at h
        cases h
  · cases h

/-- The selected message exists, where there is room. -/
theorem out_of_room {x : Context b} (hc : x.chain ≠ b.text []) (hm : b.Readable x.heights)
    (hr : b.Room (x.size x.selected)) : x.out = .bytes (x.message x.selected) := by
  have hp : b.Packs x.b0 x.auth := packs_of_lt x.b0_lt x.auth_lt
  have hpres := (present_iff x.chain_wf).mpr hc
  unfold out
  rw [versionFor_of_readable hm]
  cases hs : x.selected with
  | v1 =>
    rw [hs] at hr
    exact (dispatch_v1 _ _ _).trans (v1_of_room hp hr)
  | v2 =>
    rw [hs] at hr
    exact (dispatch_v2 hpres _ _).trans (v2_of_room (accepts_of_present x.chain_wf hpres) hp hr)

/-- Nothing is signed for the empty chain id. -/
theorem out_empty {x : Context b} (hc : x.chain = b.text []) : x.out = .refused := by
  have hpres : ¬ b.Present x.chain := fun h => (present_iff x.chain_wf).mp h hc
  unfold out
  split
  · rename_i v hv
    have hleg : b.legacy x.chain = false := by
      rw [legacy_eq x.chain_wf, hc, wire_text, utf8_nil, compared_of_notMem List.not_mem_nil]
      decide
    have hv2 : x.selected = .v2 := rule_eq_v2.mpr (Or.inl hleg)
    rw [eq_of_versionFor hv, hv2, dispatch_empty hpres]
  · rfl

/-- Messages of different forms differ. -/
theorem message_ne {x : Context b} {y : Context b'} : x.message .v1 ≠ y.message .v2 :=
  Format.v1_ne_v2 x.b0_short _ _ _ _

/-- A v2 message is bound to its network. -/
theorem wire_eq_of_message {x : Context b} {y : Context b'} (h : x.message .v2 = y.message .v2) :
    b.wire x.chain = b'.wire y.chain :=
  Format.v2_chainId_inj x.b0_lt y.b0_lt x.auth_lt y.auth_lt h

/-- No message starts with a domain string of another purpose. -/
theorem not_reserved (x : Context b) {d : Bytes} (hd : d ∈ Format.otherDomains) : ∀ v, ¬ d <+: x.message v
  | .v1 => Format.not_reserved_v1 hd x.b0_short _
  | .v2 => Format.not_reserved_v2 hd _ _ _

/-- The chain id, as the binding compares it, is a legacy network, and no listed upgrade has a positive height. -/
def Unswitched (x : Context b) : Prop :=
  b.compared (b.wire x.chain) ∈ legacyIds ∧ ∀ name ∈ upgradeNames, (b.heightUnder x.heights name).getD 0 ≤ 0

theorem selected_eq_v1 {x : Context b} : x.selected = .v1 ↔ x.Unswitched := by
  rw [selected, rule_eq_v1, legacy_eq x.chain_wf, List.contains_iff_mem, ← Bool.not_eq_true, switched_iff]
  refine and_congr_right fun _ => ⟨fun h name hn => ?_, ?_⟩
  · by_contra hp
    exact h ⟨name, hn, Int.not_le.mp hp⟩
  · rintro h ⟨name, hn, hp⟩
    exact absurd (h name hn) (Int.not_le.mpr hp)

end Context

open Context in
/-- **No replay**: across networks, forms and purposes. -/
theorem no_replay {b b' : Binding} (x : Context b) (y : Context b') :
    (x.chain = b.text [] → x.out = .refused) ∧
    (x.chain ≠ b.text [] → b.Readable x.heights → b.Room (x.size x.selected) → ∃ bs, x.out = .bytes bs) ∧
    (∀ bs, b.wire x.chain ≠ b'.wire y.chain → x.out = .bytes bs → y.out = .bytes bs → x.Unswitched ∧ y.Unswitched) ∧
    (∀ bs, b.versionFor x.chain x.heights = some (b.version .v1) →
      b'.versionFor y.chain y.heights = some (b'.version .v2) → x.out = .bytes bs → y.out ≠ .bytes bs) ∧
    (∀ bs, x.out = .bytes bs → ∀ d ∈ Format.otherDomains, ¬ d <+: bs) := by
  refine ⟨out_empty, fun hc hm hr => ⟨_, out_of_room hc hm hr⟩, fun bs hne hx hy => ?_, fun bs hvx hvy hx hy => ?_,
    fun bs hx d hd => ?_⟩
  · have he : x.message x.selected = y.message y.selected := (out_bytes hx).symm.trans (out_bytes hy)
    cases hsx : x.selected with
    | v1 =>
      cases hsy : y.selected with
      | v1 => exact ⟨selected_eq_v1.mp hsx, selected_eq_v1.mp hsy⟩
      | v2 => rw [hsx, hsy] at he; exact absurd he message_ne
    | v2 =>
      cases hsy : y.selected with
      | v1 => rw [hsx, hsy] at he; exact absurd he.symm message_ne
      | v2 => rw [hsx, hsy] at he; exact absurd (wire_eq_of_message he) hne
  · have he : x.message x.selected = y.message y.selected := (out_bytes hx).symm.trans (out_bytes hy)
    rw [selected_of_versionFor hvx, selected_of_versionFor hvy] at he
    exact message_ne he
  · rw [out_bytes hx]
    exact not_reserved x hd _

/-- A record without heights. -/
def noHeights : CHeights := ⟨none, none, 0⟩

/-- Java signs no message that is too long for an array. -/
theorem Context.out_java_of_long {x : Context .java} (hsel : x.selected = .v2) (h : Java.maxInt < x.size .v2) :
    x.out = .refused := by
  obtain ⟨s, hs⟩ := x.chain_wf
  rw [Context.size, hs] at h
  obtain ⟨e, he⟩ := Java.hybridSignBytesV2_of_overflow h
  have hm : Binding.java.Readable x.heights := trivial
  by_cases hc : Binding.java.Present x.chain
  · unfold Context.out
    rw [Context.versionFor_of_readable hm, hsel]
    refine (dispatch_v2 hc _ _).trans ?_
    rw [hs, v2, text, he]
    rfl
  · exact Context.out_empty (not_not.mp fun hne => hc ((present_iff x.chain_wf).mpr hne))

/-- A long part of a transaction. -/
@[irreducible] def longPart : Bytes := List.replicate 1500000000 0

theorem length_longPart : longPart.length = 1500000000 := by rw [longPart, List.length_replicate]

theorem longPart_short : longPart.length < Format.qoreLength := by
  rw [length_longPart, Format.qoreLength]
  omega

/-- A network with a transaction of two long parts. -/
def longContext : Context .java :=
  ⟨some (utf16 ['a']), none, longPart, longPart, ⟨['a'], rfl⟩, longPart_short, longPart_short⟩

theorem longContext_size : Java.maxInt < longContext.size .v2 := by
  have hb : longContext.b0.length = 1500000000 := length_longPart
  have ha : longContext.auth.length = 1500000000 := length_longPart
  rw [Context.size, hb, ha, Java.maxInt]
  omega

/-- A C chain id with a zero byte passes for the legacy network in front of it, and a message too long for a Java array
is refused whatever its chain id. -/
theorem no_replay_limits :
    (∃ x y : Context (.c .w64 fun _ => true),
      x.chain = some (utf8 "qorechain-vladi".toList) ∧ y.chain = some (utf8 "qorechain-vladi\x00x".toList) ∧
      x.out = .bytes [0, 0, 0, 1, 7, 0, 0, 0, 1, 9] ∧ y.out = .bytes [0, 0, 0, 1, 7, 0, 0, 0, 1, 9] ∧
      Binding.wire _ y.chain ∉ legacyIds) ∧
    (∃ x : Context .java, x.chain ≠ Binding.java.text [] ∧ x.out = .refused) := by
  constructor
  · exact ⟨⟨some (utf8 "qorechain-vladi".toList), noHeights, [7], [9], ⟨_, rfl⟩, by decide, by decide⟩,
      ⟨some (utf8 "qorechain-vladi\x00x".toList), noHeights, [7], [9], ⟨_, rfl⟩, by decide, by decide⟩, rfl, rfl,
      by decide, by decide, by decide⟩
  · have hsel : longContext.selected = .v2 := rule_eq_v2.mpr (Or.inl (by
      rw [legacy_eq longContext.chain_wf]
      decide))
    exact ⟨longContext, fun h => absurd (Option.some.inj h) (by decide),
      Context.out_java_of_long hsel longContext_size⟩

end QorechainPqc
