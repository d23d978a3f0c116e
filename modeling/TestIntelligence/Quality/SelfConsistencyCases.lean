import TestIntelligence.Quality.SelfConsistencySteps

/-!
# One merged case

An undisputed case says what a majority of the samples says exactly when a majority holds
whatever the case kept of its base because absence won.
-/

namespace TestIntelligence.Quality

open Js Votes

section

variable (localeCompare : JsString → JsString → ℤ) (figures : Figures)
  (samples : List (Option GeneratedTestCase))

def winnerOn (field : GeneratedTestCase → Option JsString) : Option JsString :=
  (voteScalar localeCompare figures (fieldColumn samples field) samples.length).winner

def actionWinner (s : ℕ) : Option JsString := winnerOn localeCompare figures samples (actionAt s)

def expectedWinner (s : ℕ) : Option JsString :=
  winnerOn localeCompare figures samples (expectedAt s)

/-- The case that comes out of settled votes. -/
structure SettledOutcome (maxStepCount : ℕ) (base merged : GeneratedTestCase) : Prop where
  type : merged.type = (winnerOn localeCompare figures samples typeOf).getD base.type
  technique : merged.technique =
    (winnerOn localeCompare figures samples techniqueOf).getD base.technique
  riskCategory : merged.riskCategory =
    (winnerOn localeCompare figures samples riskCategoryOf).getD base.riskCategory
  steps : merged.steps = renumber (writeSteps (actionWinner localeCompare figures samples)
    (expectedWinner localeCompare figures samples) base.steps maxStepCount)

end

variable {localeCompare : JsString → JsString → ℤ} {figures : Figures}
  {samples : List (Option GeneratedTestCase)} {base merged : GeneratedTestCase}
  {field : GeneratedTestCase → Option JsString}

theorem getElem?_renumber (steps : List GeneratedTestCaseStep) (i : ℕ) :
    (renumber steps)[i]? = steps[i]?.map fun step ↦ { step with index := i + 1 } := by
  rw [renumber, List.getElem?_map, List.getElem?_zipIdx]
  cases steps[i]? <;> simp

@[simp] theorem length_renumber (steps : List GeneratedTestCaseStep) :
    (renumber steps).length = steps.length := by simp [renumber]

theorem held_winnerOn_iff (localeCompare : JsString → JsString → ℤ) (figures : Figures)
    (h : Settled (fieldColumn samples field)) (own : Option JsString) :
    HeldByMajority (fieldColumn samples field)
        ((winnerOn localeCompare figures samples field).or own) ↔
      Kept (fieldColumn samples field) own := by
  have hheld := heldByMajority_iff localeCompare figures h own
  rwa [length_fieldColumn] at hheld

theorem held_getD_iff (localeCompare : JsString → JsString → ℤ) (figures : Figures)
    (h : Settled (fieldColumn samples field)) (own : JsString) :
    HeldByMajority (fieldColumn samples field)
        (some ((winnerOn localeCompare figures samples field).getD own)) ↔
      Kept (fieldColumn samples field) (some own) := by
  rw [← held_winnerOn_iff localeCompare figures h]
  cases winnerOn localeCompare figures samples field <;> rfl

/-- Where the base has nothing, it adds nothing to a vote that absence wins. -/
theorem winnerOn_eq_none_iff (h : Settled (fieldColumn samples field))
    (hfirst : samples.findSome? id = some base) (hfield : field base = none) :
    winnerOn localeCompare figures samples field = none ↔
      AbsenceWins (fieldColumn samples field) := by
  have hcases := settled_cases localeCompare figures h
  rw [length_fieldColumn, firstFor_of_missing hfirst hfield] at hcases
  rcases hcases with ⟨habsence, hwinner⟩ | ⟨text, habsence, -, hwinner⟩
  · simp [winnerOn, hwinner, habsence]
  · simp [winnerOn, hwinner, habsence]

theorem held_of_winnerOn (h : Settled (fieldColumn samples field))
    (hfirst : samples.findSome? id = some base) (hfield : field base = none) {text : JsString}
    (hwinner : winnerOn localeCompare figures samples field = some text) :
    HeldByMajority (fieldColumn samples field) (some text) := by
  have hcases := settled_cases localeCompare figures h
  rw [length_fieldColumn, firstFor_of_missing hfirst hfield] at hcases
  rcases hcases with ⟨-, hnone⟩ | ⟨text', -, hheld, hsome⟩
  · rw [winnerOn, hnone] at hwinner
    simp at hwinner
  · rw [winnerOn, hsome] at hwinner
    obtain rfl := Option.some.inj hwinner
    exact hheld

theorem actionAt_eq_none_iff {s : ℕ} {testCase : GeneratedTestCase} :
    actionAt s testCase = none ↔ testCase.steps.length ≤ s := by
  simp [actionAt]

theorem expectedAt_of_none {s : ℕ} {testCase : GeneratedTestCase}
    (h : testCase.steps[s]? = none) : expectedAt s testCase = none := by
  simp [expectedAt, h]

/-- Beyond the base, a step that is appended is one that a majority has. -/
theorem majorityHasStep_of_winner (hfirst : samples.findSome? id = some base)
    (hundisputed : Undisputed samples) {s : ℕ} (hs : base.steps.length ≤ s)
    (hwinner : (actionWinner localeCompare figures samples s).isSome = true) :
    MajorityHasStep samples s := by
  obtain ⟨text, htext⟩ := Option.isSome_iff_exists.mp hwinner
  exact majorityHasStep_of_held
    (held_of_winnerOn (hundisputed.action s) hfirst (actionAt_eq_none_iff.mpr hs) htext)

/-- Beyond the base, no step of a majority is lost to absence. -/
def StepsComplete (samples : List (Option GeneratedTestCase)) (base : GeneratedTestCase) : Prop :=
  ∀ s, base.steps[s]? = none → MajorityHasStep samples s →
    ¬ AbsenceWins (fieldColumn samples (actionAt s))

theorem noGap_of_complete (localeCompare : JsString → JsString → ℤ) (figures : Figures)
    (hfirst : samples.findSome? id = some base) (hundisputed : Undisputed samples)
    (hcomplete : StepsComplete samples base) :
    NoGap (actionWinner localeCompare figures samples) base.steps := by
  intro s hs hnone
  have habsence := (winnerOn_eq_none_iff (hundisputed.action s) hfirst
    (actionAt_eq_none_iff.mpr hs)).mp hnone
  have hshort : ¬ MajorityHasStep samples (s + 1) := fun hhas ↦
    hcomplete s (List.getElem?_eq_none hs) (hhas.of_le (Nat.le_succ s)) habsence
  by_contra hnext
  exact hshort (majorityHasStep_of_winner hfirst hundisputed (by omega)
    (Option.isSome_iff_ne_none.mpr hnext))

/-- The steps of an outcome that misses nothing. -/
theorem getElem?_outcome {maxStepCount : ℕ} (hfirst : samples.findSome? id = some base)
    (hundisputed : Undisputed samples) (hcomplete : StepsComplete samples base)
    (houtcome : SettledOutcome localeCompare figures samples maxStepCount base merged)
    (hbase : base.steps.length ≤ maxStepCount) (s : ℕ) :
    merged.steps[s]? = if s < maxStepCount then
      (settledStep (actionWinner localeCompare figures samples)
        (expectedWinner localeCompare figures samples) base.steps s).map
        fun step ↦ { step with index := s + 1 }
      else none := by
  rw [houtcome.steps, getElem?_renumber,
    getElem?_writeSteps (noGap_of_complete localeCompare figures hfirst hundisputed hcomplete)]
  by_cases hs : s < maxStepCount
  · rw [if_pos hs, if_pos hs]
  · rw [if_neg hs, if_neg hs, List.getElem?_eq_none (by omega), Option.map_none]

theorem settledStep_expected {actions expecteds : ℕ → Option JsString}
    {steps : List GeneratedTestCaseStep} {s : ℕ} {step : GeneratedTestCaseStep}
    (h : settledStep actions expecteds steps s = some step) :
    step.expected = (expecteds s).or (steps[s]?.bind GeneratedTestCaseStep.expected) := by
  rw [settledStep] at h
  cases hown : steps[s]? with
  | some own =>
      simp only [hown, Option.some.injEq] at h
      simp [← h]
  | none =>
      simp only [hown, Option.map_eq_some_iff] at h
      obtain ⟨action, -, rfl⟩ := h
      simp

theorem settledStep_action {actions expecteds : ℕ → Option JsString}
    {steps : List GeneratedTestCaseStep} {s : ℕ} {step : GeneratedTestCaseStep}
    (h : settledStep actions expecteds steps s = some step) :
    (∃ own, steps[s]? = some own ∧ step.action = (actions s).getD own.action) ∨
      steps[s]? = none ∧ actions s = some step.action := by
  rw [settledStep] at h
  cases hown : steps[s]? with
  | some own =>
      simp only [hown, Option.some.injEq] at h
      exact Or.inl ⟨own, rfl, by rw [← h]⟩
  | none =>
      simp only [hown, Option.map_eq_some_iff] at h
      obtain ⟨action, haction, rfl⟩ := h
      exact Or.inr ⟨rfl, haction⟩

/-- If the steps are those of a majority, none was lost. -/
theorem complete_of_positions {maxStepCount : ℕ} (hfirst : samples.findSome? id = some base)
    (hundisputed : Undisputed samples)
    (houtcome : SettledOutcome localeCompare figures samples maxStepCount base merged)
    (hmax : ∀ s, MajorityHasStep samples s → s < maxStepCount)
    (hpositions : ∀ s, s < merged.steps.length ↔ MajorityHasStep samples s) :
    StepsComplete samples base := by
  intro s hs hhas habsence
  have hbase : base.steps.length ≤ s := List.getElem?_eq_none_iff.mp hs
  have hgap : actionWinner localeCompare figures samples s = none :=
    (winnerOn_eq_none_iff (hundisputed.action s) hfirst (actionAt_eq_none_iff.mpr hbase)).mpr
      habsence
  have hlt := (hpositions s).mpr hhas
  have hle : merged.steps.length ≤ maxStepCount := by
    have hlast := hmax _ ((hpositions (merged.steps.length - 1)).mp (by omega))
    omega
  have hnone : ∀ t, merged.steps.length ≤ t →
      actionWinner localeCompare figures samples t = none := by
    intro t ht
    by_contra hwinner
    have hmajority := majorityHasStep_of_winner hfirst hundisputed (by omega)
      (Option.isSome_iff_ne_none.mpr hwinner)
    exact absurd ((hpositions t).mpr hmajority) (by omega)
  have hshort := length_writeSteps_lt (expectedWinner localeCompare figures samples) hbase hgap hlt
  have hconst := length_writeSteps_of_none (expectedWinner localeCompare figures samples)
    base.steps hle hnone
  have hlength := congrArg List.length houtcome.steps
  rw [length_renumber] at hlength
  omega

theorem isSome_outcome {maxStepCount : ℕ} (hfirst : samples.findSome? id = some base)
    (hundisputed : Undisputed samples) (hcomplete : StepsComplete samples base)
    (houtcome : SettledOutcome localeCompare figures samples maxStepCount base merged)
    (hbase : base.steps.length ≤ maxStepCount) (s : ℕ) :
    s < merged.steps.length ↔ s < maxStepCount ∧ (s < base.steps.length ∨
      (actionWinner localeCompare figures samples s).isSome = true) := by
  have hget := getElem?_outcome hfirst hundisputed hcomplete houtcome hbase s
  have hlength : s < merged.steps.length ↔ merged.steps[s]?.isSome = true := by simp
  rw [hlength, hget]
  by_cases hs : s < maxStepCount
  · rw [if_pos hs, Option.isSome_map, isSome_settledStep]
    simp [hs]
  · simp [hs]

theorem majorityCase_of_keeps {maxStepCount : ℕ} (hfirst : samples.findSome? id = some base)
    (hundisputed : Undisputed samples)
    (houtcome : SettledOutcome localeCompare figures samples maxStepCount base merged)
    (hmax : ∀ s, MajorityHasStep samples s → s < maxStepCount)
    (hbase : base.steps.length ≤ maxStepCount) (h : KeepsMajority samples base) :
    MajorityCase samples merged := by
  have htype : HeldByMajority (fieldColumn samples typeOf) (some merged.type) := by
    rw [houtcome.type, held_getD_iff localeCompare figures hundisputed.type]
    exact h.type
  have haction : ∀ s step, merged.steps[s]? = some step →
      HeldByMajority (fieldColumn samples (actionAt s)) (some step.action) := by
    intro s step hstep
    rw [getElem?_outcome hfirst hundisputed h.missing houtcome hbase] at hstep
    split at hstep
    · obtain ⟨settled, hsettled, rfl⟩ := Option.map_eq_some_iff.mp hstep
      rcases settledStep_action hsettled with ⟨own, hown, haction⟩ | ⟨hown, haction⟩
      · change HeldByMajority _ (some settled.action)
        rw [haction]
        exact (held_getD_iff localeCompare figures (hundisputed.action s) own.action).mpr
          (h.action s own hown)
      · exact held_of_winnerOn (hundisputed.action s) hfirst
          (actionAt_eq_none_iff.mpr (List.getElem?_eq_none_iff.mp hown)) haction
    · exact absurd hstep (by simp)
  have hpositions : ∀ s, s < merged.steps.length ↔ MajorityHasStep samples s := by
    intro s
    constructor
    · intro hs
      exact majorityHasStep_of_held (haction s _ (List.getElem?_eq_getElem hs))
    · intro hhas
      rw [isSome_outcome hfirst hundisputed h.missing houtcome hbase]
      refine ⟨hmax s hhas, ?_⟩
      rcases Nat.lt_or_ge s base.steps.length with hlt | hge
      · exact Or.inl hlt
      · right
        rw [Option.isSome_iff_ne_none]
        intro hnone
        exact h.missing s (List.getElem?_eq_none hge) hhas
          ((winnerOn_eq_none_iff (hundisputed.action s) hfirst (actionAt_eq_none_iff.mpr hge)).mp
            hnone)
  refine ⟨?_, htype, ?_, ?_, hpositions, haction, ?_⟩
  · exact countP_of_held htype fun sample hsample ↦ by
      obtain ⟨testCase, rfl, -⟩ := Option.bind_eq_some_iff.mp hsample
      rfl
  · rw [houtcome.technique, held_getD_iff localeCompare figures hundisputed.technique]
    exact h.technique
  · rw [houtcome.riskCategory, held_getD_iff localeCompare figures hundisputed.riskCategory]
    exact h.riskCategory
  · intro s step hstep
    have hhas := (hpositions s).mp (List.getElem?_eq_some_iff.mp hstep).1
    rw [getElem?_outcome hfirst hundisputed h.missing houtcome hbase, if_pos (hmax s hhas)] at hstep
    obtain ⟨settled, hsettled, rfl⟩ := Option.map_eq_some_iff.mp hstep
    change HeldByMajority _ settled.expected
    rw [settledStep_expected hsettled]
    exact (held_winnerOn_iff localeCompare figures (hundisputed.expected s) _).mpr
      (h.expected s hhas)

theorem keeps_of_majorityCase {maxStepCount : ℕ} (hfirst : samples.findSome? id = some base)
    (hundisputed : Undisputed samples)
    (houtcome : SettledOutcome localeCompare figures samples maxStepCount base merged)
    (hmax : ∀ s, MajorityHasStep samples s → s < maxStepCount)
    (hbase : base.steps.length ≤ maxStepCount) (h : MajorityCase samples merged) :
    KeepsMajority samples base := by
  have hcomplete := complete_of_positions hfirst hundisputed houtcome hmax h.positions
  have hstepAt : ∀ s, s < merged.steps.length → ∃ settled,
      settledStep (actionWinner localeCompare figures samples)
        (expectedWinner localeCompare figures samples) base.steps s = some settled ∧
      merged.steps[s]? = some { settled with index := s + 1 } := by
    intro s hs
    have hget := getElem?_outcome hfirst hundisputed hcomplete houtcome hbase s
    rw [if_pos (hmax s ((h.positions s).mp hs)), List.getElem?_eq_getElem hs] at hget
    obtain ⟨settled, hsettled, hmerged⟩ := Option.map_eq_some_iff.mp hget.symm
    exact ⟨settled, hsettled, by rw [List.getElem?_eq_getElem hs, hmerged]⟩
  refine ⟨?_, ?_, ?_, ?_, hcomplete, ?_⟩
  · exact (held_getD_iff localeCompare figures hundisputed.type base.type).mp (houtcome.type ▸ h.type)
  · exact (held_getD_iff localeCompare figures hundisputed.technique base.technique).mp
      (houtcome.technique ▸ h.technique)
  · exact (held_getD_iff localeCompare figures hundisputed.riskCategory base.riskCategory).mp
      (houtcome.riskCategory ▸ h.riskCategory)
  · intro s own hown
    have hs : s < merged.steps.length := by
      rw [isSome_outcome hfirst hundisputed hcomplete houtcome hbase]
      have hlt := (List.getElem?_eq_some_iff.mp hown).1
      exact ⟨by omega, Or.inl hlt⟩
    obtain ⟨settled, hsettled, hmerged⟩ := hstepAt s hs
    have hheld := h.action s _ hmerged
    rcases settledStep_action hsettled with ⟨own', hown', haction⟩ | ⟨hnone, -⟩
    · obtain rfl : own = own' := Option.some.inj (hown.symm.trans hown')
      rw [← held_getD_iff localeCompare figures (hundisputed.action s)]
      change HeldByMajority _ (some settled.action) at hheld
      rwa [haction] at hheld
    · exact absurd (hown.symm.trans hnone) (by simp)
  · intro s hhas
    obtain ⟨settled, hsettled, hmerged⟩ := hstepAt s ((h.positions s).mpr hhas)
    have hheld := h.expected s _ hmerged
    change HeldByMajority _ settled.expected at hheld
    rw [settledStep_expected hsettled] at hheld
    exact (held_winnerOn_iff localeCompare figures (hundisputed.expected s) _).mp hheld

end TestIntelligence.Quality
