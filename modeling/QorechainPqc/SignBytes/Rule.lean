import QorechainPqc.Lib.Detect
import QorechainPqc.Lib.Except
import QorechainPqc.SignBytes.Format

/-!
# Which form a network accepts

The rule that the six bindings mirror from the chain, over any type of names: a legacy network accepts v1 until one of
the listed upgrades is recorded at a positive height, and everything else is v2 (`rule`, `switched`). A record of
applied upgrades only grows, so a network's answer changes at most once, from v1 to v2 (`rule_switches_once`).
-/

namespace QorechainPqc

open Detect Failing

/-- The networks that existed before v2. -/
def legacyChains : List (List Char) := ["qorechain-vladi".toList, "qorechain-diana".toList]

/-- The upgrade plans that switched a network to v2, newest first. -/
def upgradeNames : List (List Char) := ["v3.2.0".toList, "v3.1.98".toList]

/-- The form that a network accepts. -/
def rule (legacy switched : Bool) : Version := if legacy && !switched then .v1 else .v2

theorem rule_eq_v1 {legacy switched : Bool} : rule legacy switched = .v1 ↔ legacy = true ∧ switched = false := by
  cases legacy <;> cases switched <;> decide

theorem rule_eq_v2 {legacy switched : Bool} : rule legacy switched = .v2 ↔ legacy = false ∨ switched = true := by
  cases legacy <;> cases switched <;> decide

variable {ν : Type}

/-- Some listed upgrade has a positive height. -/
def switched (upgrades : List ν) (heights : ν → Option Int) : Bool :=
  upgrades.any fun name => decide (0 < (heights name).getD 0)

theorem switched_iff {upgrades : List ν} {heights : ν → Option Int} :
    switched upgrades heights = true ↔ ∃ name ∈ upgrades, 0 < (heights name).getD 0 := by
  simp [switched]

/-- Only the heights of the listed names matter, an absent one like `0`. -/
theorem switched_congr {upgrades : List ν} {m m' : ν → Option Int}
    (h : ∀ name ∈ upgrades, (m name).getD 0 = (m' name).getD 0) : switched upgrades m = switched upgrades m' := by
  rw [Bool.eq_iff_iff, switched_iff, switched_iff]
  constructor
  · rintro ⟨name, hn, hp⟩; exact ⟨name, hn, h name hn ▸ hp⟩
  · rintro ⟨name, hn, hp⟩; exact ⟨name, hn, (h name hn).symm ▸ hp⟩

/-- Spelling the names otherwise changes nothing. -/
theorem switched_map {μ : Type} (e : ν → μ) (upgrades : List ν) (m : μ → Option Int) :
    switched (upgrades.map e) m = switched upgrades (m ∘ e) := by
  simp [switched, List.any_map, Function.comp_def]

/-- A step that keeps the better of the best height so far and the height of a name detects a positive one. -/
theorem best_pos {best h : Int} : 0 < (if h > best then h else best) ↔ 0 < best ∨ 0 < h := by
  split <;> omega

/-! ## Heights that have to be read -/

section Read

variable {ε : Type} (read : ν → Except ε Int)

/-- The loop over the listed names, where reading a height may fail. -/
def bestRead (upgrades : List ν) : Except ε Int :=
  upgrades.foldlM (fun best name => do
    let h ← read name
    return if h > best then h else best) 0

/-- Every listed name has a height that can be read. -/
def Readable (upgrades : List ν) : Prop := ∀ name ∈ upgrades, ∃ h, read name = .ok h

theorem readable_iff {upgrades : List ν} :
    Readable read upgrades ↔ ∀ name ∈ upgrades, (read name).toOption ≠ none := by
  refine forall₂_congr fun name _ => ?_
  cases read name with
  | error e => exact iff_of_false (fun ⟨_, h⟩ => by cases h) fun h => h rfl
  | ok h => exact iff_of_true ⟨h, rfl⟩ (Option.some_ne_none h)

theorem foldlM_read {upgrades : List ν} {b r : Int} :
    upgrades.foldlM (fun best name => do
      let h ← read name
      return if h > best then h else best) b = .ok r ↔
      Readable read upgrades ∧
        r = upgrades.foldl (fun best name =>
          let h := (read name).toOption.getD 0
          if h > best then h else best) b := by
  induction upgrades generalizing b with
  | nil => simp [Readable, eq_comm]
  | cons name upgrades ih =>
    rw [List.foldlM_cons, bind_eq_ok]
    simp only [bind_eq_ok, pure_eq_ok, Except.ok.injEq, Readable, List.forall_mem_cons, List.foldl_cons]
    constructor
    · rintro ⟨_, ⟨h, hr, rfl⟩, hrest⟩
      obtain ⟨hall, rfl⟩ := ih.mp hrest
      exact ⟨⟨⟨h, hr⟩, hall⟩, by rw [hr]; rfl⟩
    · rintro ⟨⟨⟨h, hr⟩, hall⟩, rfl⟩
      exact ⟨_, ⟨h, hr, rfl⟩, ih.mpr ⟨hall, by rw [hr]; rfl⟩⟩

/-- The loop ends well when every listed height can be read, with a best height that detects a positive one. -/
theorem bestRead_ok {upgrades : List ν} (hr : Readable read upgrades) :
    ∃ best, bestRead read upgrades = .ok best ∧
      decide (0 < best) = switched upgrades fun name => (read name).toOption := by
  refine ⟨_, (foldlM_read read).mpr ⟨hr, rfl⟩, ?_⟩
  rw [Bool.eq_iff_iff, decide_eq_true_eq, switched_iff, foldl_detects (R := fun b : Int => 0 < b)
    (P := fun name => 0 < (read name).toOption.getD 0) (fun _ _ => best_pos)]
  simp

theorem readable_of_bestRead {upgrades : List ν} {best : Int} (h : bestRead read upgrades = .ok best) :
    Readable read upgrades := ((foldlM_read read).mp h).1

/-- Only the listed names are read. -/
theorem bestRead_congr {read' : ν → Except ε Int} {upgrades : List ν}
    (h : ∀ name ∈ upgrades, read name = read' name) : bestRead read upgrades = bestRead read' upgrades := by
  have hfold (b : Int) : upgrades.foldlM (fun best name => do
      let h ← read name
      return if h > best then h else best) b = upgrades.foldlM (fun best name => do
      let h ← read' name
      return if h > best then h else best) b := by
    induction upgrades generalizing b with
    | nil => rfl
    | cons name upgrades ih =>
      rw [List.foldlM_cons, List.foldlM_cons, h name List.mem_cons_self]
      exact congrArg _ (funext fun b => ih (fun n hn => h n (List.mem_cons_of_mem _ hn)) b)
  exact hfold 0

end Read

/-! ## Observations -/

variable [DecidableEq ν]

/-- What was observed: an upgrade name, or none, with a height. -/
abbrev Observations (ν : Type) := List (Option ν × Int)

/-- Some listed upgrade was observed at a positive height. -/
def observed (upgrades : List ν) (obs : Observations ν) : Bool := switched upgrades (greatest obs)

theorem observed_iff {upgrades : List ν} {obs : Observations ν} :
    observed upgrades obs = true ↔ ∃ o ∈ obs, ∃ name ∈ upgrades, o.1 = some name ∧ 0 < o.2 := by
  rw [observed, switched_iff]
  constructor
  · rintro ⟨name, hn, hp⟩
    obtain ⟨o, ho, he, hpos⟩ := greatest_pos.mp hp
    exact ⟨o, ho, name, hn, he, hpos⟩
  · rintro ⟨o, ho, name, hn, he, hpos⟩
    exact ⟨name, hn, greatest_pos.mpr ⟨o, ho, he, hpos⟩⟩

/-- The observations of listed names decide, in whatever order and however often they come. -/
theorem observed_congr {upgrades : List ν} {obs obs' : Observations ν}
    (h : ∀ name ∈ upgrades, ∀ height, (some name, height) ∈ obs ↔ (some name, height) ∈ obs') :
    observed upgrades obs = observed upgrades obs' := by
  rw [Bool.eq_iff_iff, observed_iff, observed_iff]
  constructor
  · rintro ⟨⟨_, height⟩, ho, name, hn, rfl, hp⟩
    exact ⟨_, (h name hn height).mp ho, name, hn, rfl, hp⟩
  · rintro ⟨⟨_, height⟩, ho, name, hn, rfl, hp⟩
    exact ⟨_, (h name hn height).mpr ho, name, hn, rfl, hp⟩

/-- Names that were observed stay so, at heights that do not decrease. -/
def Grows (obs obs' : Observations ν) : Prop :=
  ∀ name height, (some name, height) ∈ obs → ∃ height', (some name, height') ∈ obs' ∧ height ≤ height'

theorem observed_mono {upgrades : List ν} {obs obs' : Observations ν} (hg : Grows obs obs')
    (h : observed upgrades obs = true) : observed upgrades obs' = true := by
  obtain ⟨⟨_, height⟩, ho, name, hn, rfl, hp⟩ := observed_iff.mp h
  obtain ⟨height', ho', hle⟩ := hg name height ho
  exact observed_iff.mpr ⟨_, ho', name, hn, rfl, lt_of_lt_of_le hp hle⟩

/-- **One-way switch**: along a growing record the form is the same for ever, or v1 up to a point and v2 from there. -/
theorem rule_switches_once (legacy : Bool) (upgrades : List ν) {obs : Nat → Observations ν}
    (hg : ∀ n, Grows (obs n) (obs (n + 1))) :
    (∀ n, rule legacy (observed upgrades (obs n)) = rule legacy (observed upgrades (obs 0))) ∨
      ∃ k, ∀ n, rule legacy (observed upgrades (obs n)) = if n < k then .v1 else .v2 := by
  rcases switches_once (S := fun n => observed upgrades (obs n) = true) (fun n => observed_mono (hg n)) with h | ⟨k, h⟩
  · refine Or.inl fun n => ?_
    rw [Bool.eq_false_iff.mpr (h n), Bool.eq_false_iff.mpr (h 0)]
  · cases legacy with
    | false => exact Or.inl fun _ => rfl
    | true =>
      refine Or.inr ⟨k, fun n => ?_⟩
      split
      · rename_i hlt
        exact rule_eq_v1.mpr ⟨rfl, Bool.eq_false_iff.mpr fun ho => absurd ((h n).mp ho) (Nat.not_le.mpr hlt)⟩
      · rename_i hge
        exact rule_eq_v2.mpr (Or.inr ((h n).mpr (Nat.not_lt.mp hge)))

end QorechainPqc
