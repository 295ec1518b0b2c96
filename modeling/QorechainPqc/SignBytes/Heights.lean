import QorechainPqc.SignBytes.HeightStrings

/-!
# Heights in JavaScript and Python

`heights_read_alike` says when the two version rules agree on maps that hold the same values, and
`heights_read_differently` that on some they do not.
-/

namespace QorechainPqc

open Text

/-! ## One value in both languages -/

/-- A value of JavaScript and the value of Python that holds the same, or two other values that are read alike. -/
inductive SameValue : Js.Value → Python.Value → Prop
  | undefined : SameValue .undefined .none
  | null : SameValue .null .none
  | boolean (b : Bool) : SameValue (.boolean b) (.int (if b then 1 else 0))
  | number (x : Double) : SameValue (.number x) (.float x)
  | integer (i : Int) : SameValue (.number (.finite i)) (.int i)
  | bigint (i : Int) : SameValue (.bigint i) (.int i)
  | string (s : Python.Str) : SameValue (.string (units s)) (.str s)
  | other (i : Option Int) {height : Except Python.Stop Int} (h : i = height.toOption) :
      SameValue (.other i) (.other height)

/-- A text is the same string in both. -/
theorem SameValue.text (s : String) : SameValue (.string (Js.str s)) (.str (Python.str s)) := by
  rw [Js.str, ← units_codePoints]
  exact .string _

/-- The value is a string of the form `F`. -/
def HasForm (F : Python.Str → Prop) (v : Python.Value) : Prop := ∃ s, v = .str s ∧ F s

section Values

variable {digits : Python.Digits} {v : Js.Value} {v' : Python.Value}

theorem number_alike (x : Double) :
    (Js.toHeight (.number x)).toOption = (Python.height digits (.float x)).toOption := by
  simp only [Js.toHeight, Python.height, Python.intOfFloat, Js.mathTrunc, reduceCtorEq, or_self, if_false]
  cases x with
  | nan => rfl
  | infinite _ => rfl
  | finite q =>
    simp only [Double.toInt, Option.elim, Js.bigInt, Rat.num_intCast, Rat.den_intCast, if_true]
    rfl

theorem HasForm.python_rejects (h : HasForm JsForm v') : (Python.height digits v').toOption = none := by
  obtain ⟨s, rfl, hs⟩ := h
  exact QorechainPqc.python_rejects hs

theorem SameValue.js_rejects (h : SameValue v v') (hf : HasForm (PythonForm digits) v') :
    (Js.toHeight v).toOption = none := by
  obtain ⟨s, rfl, hs⟩ := hf
  cases h
  exact QorechainPqc.js_rejects hs

theorem SameValue.read_alike (h : SameValue v v') (hj : ¬HasForm JsForm v') (hp : ¬HasForm (PythonForm digits) v') :
    (Js.toHeight v).toOption = (Python.height digits v').toOption := by
  cases h with
  | undefined => rfl
  | null => rfl
  | boolean b => rfl
  | number x => exact number_alike x
  | integer i => rw [Js.toHeight_number]; rfl
  | bigint i => rfl
  | @other i height h =>
    rw [h]
    cases height with
    | ok n => rfl
    | error e => rfl
  | string s => exact QorechainPqc.read_alike (fun hs => hj ⟨s, rfl, hs⟩) fun hs => hp ⟨s, rfl, hs⟩

end Values

/-! ## The version rule -/

/-- Both calls fail, or both return the same version. -/
inductive SameAnswer : Except Js.Stop Js.Str → Except Python.Stop Python.Str → Prop
  | reject (e : Js.Stop) (e' : Python.Stop) : SameAnswer (.error e) (.error e')
  | same (v : Version) : SameAnswer (.ok (Js.ofVersion v)) (.ok (Python.ofVersion v))

theorem SameAnswer.returns_iff {r : Except Js.Stop Js.Str} {r' : Except Python.Stop Python.Str} (h : SameAnswer r r') :
    (∃ v, r = .ok v) ↔ ∃ v, r' = .ok v := by
  cases h with
  | reject e e' => exact iff_of_false (fun ⟨v, hv⟩ => by cases hv) fun ⟨v, hv⟩ => by cases hv
  | same v => exact iff_of_true ⟨_, rfl⟩ ⟨_, rfl⟩

/-- The maps hold the same under the listed names. -/
def SameHeights (m : Js.Applied) (m' : Option (Python.Str → Option Python.Value)) : Prop :=
  ∀ name ∈ upgradeNames, SameValue (Js.get m (utf16 name)) (Python.get m' (codePoints name))

/-- A listed name maps to a string of the form `F`. -/
def Listed (F : Python.Str → Prop) (m' : Option (Python.Str → Option Python.Value)) : Prop :=
  ∃ name ∈ upgradeNames, HasForm F (Python.get m' (codePoints name))

namespace Js

variable {m m₁ m₂ : Applied}

theorem legacy_of_mem {c : List Char} (hc : c ∈ legacyChains) : legacy (.string (utf16 c)) = true :=
  List.contains_iff_mem.mpr (List.mem_map_of_mem (List.mem_map_of_mem hc))

theorem readableHeights_iff : ReadableHeights m ↔ ∀ name ∈ upgradeNames, heightOf m (utf16 name) ≠ none := by
  have hnames : signBytesV2Upgrades = upgradeNames.map utf16 := rfl
  rw [ReadableHeights, readable_iff, hnames, List.forall_mem_map]
  rfl

/-- An error is raised for heights that cannot be read. -/
theorem error_of_not_readable (chainId : Value) (h : ¬ReadableHeights m) :
    ∃ e, signBytesVersionForApplied chainId m = .error e := by
  cases hr : signBytesVersionForApplied chainId m with
  | error e => exact ⟨e, rfl⟩
  | ok v => exact absurd (readable_of_version hr) h

/-- Values that are read alike are interchangeable. -/
theorem signBytesVersionForApplied_congr (chainId : Value)
    (h : ∀ name ∈ upgradeNames, toHeight (get m₁ (utf16 name)) = toHeight (get m₂ (utf16 name))) :
    signBytesVersionForApplied chainId m₁ = signBytesVersionForApplied chainId m₂ := by
  have hread : ∀ name ∈ upgradeNames.map utf16, toHeight (get m₁ name) = toHeight (get m₂ name) :=
    List.forall_mem_map.mpr h
  have hbest : bestRead (fun name => toHeight (get m₁ name)) signBytesV2Upgrades =
      bestRead (fun name => toHeight (get m₂ name)) signBytesV2Upgrades := bestRead_congr _ hread
  rw [signBytesVersionForApplied, signBytesVersionForApplied, hbest]

end Js

namespace Python

variable {digits : Digits} {m m₁ m₂ : Option (Str → Option Value)}

theorem legacy_of_mem {c : List Char} (hc : c ∈ legacyChains) : legacySignBytesChains.contains (codePoints c) = true :=
  List.contains_iff_mem.mpr (List.mem_map_of_mem hc)

theorem readableHeights_iff :
    ReadableHeights digits m ↔ ∀ name ∈ upgradeNames, heightOf digits m (codePoints name) ≠ none := by
  have hnames : signBytesV2Upgrades = upgradeNames.map codePoints := rfl
  rw [ReadableHeights, readable_iff, hnames, List.forall_mem_map]
  rfl

theorem error_of_not_readable (chainId : Str) (h : ¬ReadableHeights digits m) :
    ∃ e, signBytesVersionForApplied digits chainId m = .error e := by
  cases hr : signBytesVersionForApplied digits chainId m with
  | error e => exact ⟨e, rfl⟩
  | ok v => exact absurd (readable_of_version hr) h

theorem signBytesVersionForApplied_congr (chainId : Str)
    (h : ∀ name ∈ upgradeNames, height digits (get m₁ (codePoints name)) = height digits (get m₂ (codePoints name))) :
    signBytesVersionForApplied digits chainId m₁ = signBytesVersionForApplied digits chainId m₂ := by
  have hread : ∀ name ∈ upgradeNames.map codePoints, height digits (get m₁ name) = height digits (get m₂ name) :=
    List.forall_mem_map.mpr h
  have hbest : bestRead (fun name => height digits (get m₁ name)) signBytesV2Upgrades =
      bestRead (fun name => height digits (get m₂ name)) signBytesV2Upgrades := bestRead_congr _ hread
  exact congrArg (· >>= fun best => signBytesVersionFor digits chainId (.int best)) hbest

end Python

section Rule

variable {digits : Python.Digits} {c : List Char} {m : Js.Applied} {m' : Option (Python.Str → Option Python.Value)}

theorem not_readable_of_jsForm (h : Listed JsForm m') : ¬Python.ReadableHeights digits m' := by
  obtain ⟨name, hn, hf⟩ := h
  exact fun hr => Python.readableHeights_iff.mp hr name hn hf.python_rejects

theorem not_readable_of_pythonForm (hm : SameHeights m m') (h : Listed (PythonForm digits) m') :
    ¬Js.ReadableHeights m := by
  obtain ⟨name, hn, hf⟩ := h
  exact fun hr => Js.readableHeights_iff.mp hr name hn ((hm name hn).js_rejects hf)

/-- Without either form the same heights are read. -/
theorem heightOf_alike (hm : SameHeights m m') (hj : ¬Listed JsForm m') (hp : ¬Listed (PythonForm digits) m') :
    ∀ name ∈ upgradeNames, Js.heightOf m (utf16 name) = Python.heightOf digits m' (codePoints name) := fun name hn =>
  (hm name hn).read_alike (fun h => hj ⟨name, hn, h⟩) fun h => hp ⟨name, hn, h⟩

theorem readable_alike (hm : SameHeights m m') (hj : ¬Listed JsForm m') (hp : ¬Listed (PythonForm digits) m') :
    Js.ReadableHeights m ↔ Python.ReadableHeights digits m' := by
  rw [Js.readableHeights_iff, Python.readableHeights_iff]
  refine forall₂_congr fun name hn => ?_
  rw [heightOf_alike hm hj hp name hn]

theorem reject_of_not_readable (hj : ¬Js.ReadableHeights m) (hp : ¬Python.ReadableHeights digits m') :
    SameAnswer (Js.signBytesVersionForApplied (.string (utf16 c)) m)
      (Python.signBytesVersionForApplied digits (codePoints c) m') := by
  obtain ⟨e, he⟩ := Js.error_of_not_readable (.string (utf16 c)) hj
  obtain ⟨e', he'⟩ := Python.error_of_not_readable (codePoints c) hp
  rw [he, he']
  exact .reject e e'

/-- Without either form the two calls agree. -/
theorem agree_of_neither (hc : c ∈ legacyChains) (hm : SameHeights m m') (hj : ¬Listed JsForm m')
    (hp : ¬Listed (PythonForm digits) m') : SameAnswer (Js.signBytesVersionForApplied (.string (utf16 c)) m)
      (Python.signBytesVersionForApplied digits (codePoints c) m') := by
  by_cases hr : Js.ReadableHeights m
  · have hswitched : switched Js.signBytesV2Upgrades (Js.heightOf m) =
        switched Python.signBytesV2Upgrades (Python.heightOf digits m') :=
      calc switched Js.signBytesV2Upgrades (Js.heightOf m)
        _ = switched upgradeNames (Js.heightOf m ∘ utf16) := switched_map utf16 upgradeNames _
        _ = switched upgradeNames (Python.heightOf digits m' ∘ codePoints) := switched_congr fun name hn =>
          congrArg (·.getD 0) (heightOf_alike hm hj hp name hn)
        _ = switched Python.signBytesV2Upgrades (Python.heightOf digits m') :=
          (switched_map codePoints upgradeNames _).symm
    rw [Js.signBytesVersionForApplied_eq _ hr,
      Python.signBytesVersionForApplied_eq digits _ ((readable_alike hm hj hp).mp hr), Js.legacy_of_mem hc,
      Python.legacy_of_mem hc, hswitched]
    exact .same _
  · exact reject_of_not_readable hr (mt (readable_alike hm hj hp).mpr hr)

/-- The calls disagree exactly if one of them returns in spite of a form that the other rejects. -/
theorem sameAnswer_iff (hc : c ∈ legacyChains) (hm : SameHeights m m') :
    SameAnswer (Js.signBytesVersionForApplied (.string (utf16 c)) m)
        (Python.signBytesVersionForApplied digits (codePoints c) m') ↔
      ¬(Js.ReadableHeights m ∧ Listed JsForm m') ∧
        ¬(Python.ReadableHeights digits m' ∧ Listed (PythonForm digits) m') := by
  constructor
  · intro h
    refine ⟨fun ⟨hr, hf⟩ => ?_, fun ⟨hr, hf⟩ => ?_⟩
    · obtain ⟨v, hv⟩ := h.returns_iff.mp ⟨_, Js.signBytesVersionForApplied_eq _ hr⟩
      exact not_readable_of_jsForm hf (Python.readable_of_version hv)
    · obtain ⟨v, hv⟩ := h.returns_iff.mpr ⟨_, Python.signBytesVersionForApplied_eq digits _ hr⟩
      exact not_readable_of_pythonForm hm hf (Js.readable_of_version hv)
  · rintro ⟨hj, hp⟩
    by_cases hfj : Listed JsForm m'
    · exact reject_of_not_readable (fun hr => hj ⟨hr, hfj⟩) (not_readable_of_jsForm hfj)
    by_cases hfp : Listed (PythonForm digits) m'
    · exact reject_of_not_readable (not_readable_of_pythonForm hm hfp) fun hr => hp ⟨hr, hfp⟩
    · exact agree_of_neither hc hm hfj hfp

end Rule

/-- **Heights** are read alike but for two kinds of strings, which one of the languages rejects: the calls agree unless
the other one reads the whole map. A canonical numeral is as good as its number. -/
theorem heights_read_alike (digits : Python.Digits) {c : List Char} (hc : c ∈ legacyChains) {m : Js.Applied}
    {m' : Option (Python.Str → Option Python.Value)} (hm : SameHeights m m') :
    (SameAnswer (Js.signBytesVersionForApplied (.string (utf16 c)) m)
        (Python.signBytesVersionForApplied digits (codePoints c) m') ↔
      ¬(Js.ReadableHeights m ∧ Listed JsForm m') ∧
        ¬(Python.ReadableHeights digits m' ∧ Listed (PythonForm digits) m')) ∧
    (Listed JsForm m' → ∃ e, Python.signBytesVersionForApplied digits (codePoints c) m' = .error e) ∧
    (Listed (PythonForm digits) m' → ∃ e, Js.signBytesVersionForApplied (.string (utf16 c)) m = .error e) ∧
    (∀ chainId m₁ m₂, (∀ name ∈ upgradeNames, Js.get m₁ (utf16 name) = Js.get m₂ (utf16 name) ∨
        ∃ n : Nat, Js.Spells (Js.get m₁ (utf16 name)) (some n) ∧ Js.Spells (Js.get m₂ (utf16 name)) (some n)) →
      Js.signBytesVersionForApplied chainId m₁ = Js.signBytesVersionForApplied chainId m₂) ∧
    (∀ chainId m₁ m₂, (∀ name ∈ upgradeNames,
        Python.get m₁ (codePoints name) = Python.get m₂ (codePoints name) ∨
        ∃ n : Nat, Python.Spells (Python.get m₁ (codePoints name)) (some n) ∧
          Python.Spells (Python.get m₂ (codePoints name)) (some n)) →
      Python.signBytesVersionForApplied digits chainId m₁ = Python.signBytesVersionForApplied digits chainId m₂) := by
  refine ⟨sameAnswer_iff hc hm, fun h => ?_, fun h => ?_, fun chainId m₁ m₂ h => ?_, fun chainId m₁ m₂ h => ?_⟩
  · exact Python.error_of_not_readable _ (not_readable_of_jsForm h)
  · exact Js.error_of_not_readable _ (not_readable_of_pythonForm hm h)
  · refine Js.signBytesVersionForApplied_congr chainId fun name hn => ?_
    rcases h name hn with h | ⟨n, h₁, h₂⟩
    · rw [h]
    · rw [h₁.toHeight, h₂.toHeight]
  · refine Python.signBytesVersionForApplied_congr chainId fun name hn => ?_
    rcases h name hn with h | ⟨n, h₁, h₂⟩
    · rw [h]
    · rw [h₁.height, h₂.height]

/-- A map of one height. -/
def Js.single (v : Value) : Applied := .object fun name => if name = str "v3.2.0" then some v else none

def Python.single (v : Value) : Option (Str → Option Value) :=
  some fun name => if name = str "v3.2.0" then some v else none

theorem sameHeights_single {v : Js.Value} {v' : Python.Value} (h : SameValue v v') :
    SameHeights (Js.single v) (Python.single v') := by
  intro name hn
  rcases List.mem_pair.mp hn with rfl | rfl
  · exact h
  · exact .undefined

theorem heights_read_alike_underscore : ∃ e, Js.signBytesVersionForApplied (.string (utf16 "qorechain-vladi".toList))
    (Js.single (.string (Js.str "1_0"))) = .error e :=
  (heights_read_alike .unicode15 List.mem_cons_self (sameHeights_single (.text "1_0"))).2.2.1
    ⟨_, List.mem_cons_self, _, rfl, codePoint '_', by decide, Or.inl rfl⟩

/-- JavaScript reads another base, and takes white space for an upgrade that was not applied; Python reads
underscores, and digits outside ASCII. And whatever else a name maps to may be read by one of them: the list `[5]` is
the string `5` for JavaScript, and Python refuses it. -/
theorem heights_read_differently :
    (Js.signBytesVersionForApplied (.string (Js.str "qorechain-vladi")) (Js.single (.string (Js.str "0x10"))) =
        .ok (Js.str "v2") ∧
      ∃ e, Python.signBytesVersionForApplied .unicode15 (Python.str "qorechain-vladi")
        (Python.single (.str (Python.str "0x10"))) = .error e) ∧
    (Js.signBytesVersionForApplied (.string (Js.str "qorechain-vladi")) (Js.single (.string (Js.str "  "))) =
        .ok (Js.str "v1") ∧
      ∃ e, Python.signBytesVersionForApplied .unicode15 (Python.str "qorechain-vladi")
        (Python.single (.str (Python.str "  "))) = .error e) ∧
    ((∃ e, Js.signBytesVersionForApplied (.string (Js.str "qorechain-vladi"))
        (Js.single (.string (Js.str "1_0"))) = .error e) ∧
      Python.signBytesVersionForApplied .unicode15 (Python.str "qorechain-vladi")
        (Python.single (.str (Python.str "1_0"))) = .ok (Python.str "v2")) ∧
    ((∃ e, Js.signBytesVersionForApplied (.string (Js.str "qorechain-vladi"))
        (Js.single (.string (Js.str "𑽑"))) = .error e) ∧
      Python.signBytesVersionForApplied .unicode15 (Python.str "qorechain-vladi")
        (Python.single (.str (Python.str "𑽑"))) = .ok (Python.str "v2")) ∧
    (Js.signBytesVersionForApplied (.string (Js.str "qorechain-vladi")) (Js.single (.other (some 5))) =
        .ok (Js.str "v2") ∧
      ∃ e, Python.signBytesVersionForApplied .unicode15 (Python.str "qorechain-vladi")
        (Python.single (.other (.error .typeError))) = .error e) ∧
    ¬∀ m m', SameHeights m m' → SameAnswer (Js.signBytesVersionForApplied (.string (Js.str "qorechain-vladi")) m)
      (Python.signBytesVersionForApplied .unicode15 (Python.str "qorechain-vladi") m') := by
  refine ⟨⟨rfl, _, rfl⟩, ⟨rfl, _, rfl⟩, ⟨⟨_, rfl⟩, rfl⟩, ⟨⟨_, rfl⟩, rfl⟩, ⟨rfl, _, rfl⟩, fun h => ?_⟩
  have hagree := h _ _ (sameHeights_single (.text "0x10"))
  obtain ⟨v, hv⟩ := hagree.returns_iff.mp ⟨Js.str "v2", rfl⟩
  cases hv

end QorechainPqc
