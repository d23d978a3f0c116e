import TestIntelligence.Quality.SelfConsistencyCases

/-!
# The targets of a job

Each target holds one case of each sample that has it, and the report flags exactly the targets
on which some vote is not settled.
-/

namespace TestIntelligence.Quality

open Js Votes

/-! ## Grouping -/

section

variable (localeCompare : JsString → JsString → ℤ)

/-- The case of a sample for a target: the first one by id. -/
def sampleCase (targetKey : JsString) (testCases : List GeneratedTestCase) :
    Option GeneratedTestCase :=
  (orderedById localeCompare testCases).find? fun testCase ↦
    deriveTargetKey localeCompare testCase = targetKey

def samplesOf (lists : List GeneratedTestCaseList) (targetKey : JsString) :
    List (Option GeneratedTestCase) :=
  lists.map fun list ↦ sampleCase localeCompare targetKey list.testCases

end

def groupFrom : ℕ → List (Option GeneratedTestCase) → List IndexedCase
  | _, [] => []
  | start, none :: samples => groupFrom (start + 1) samples
  | start, some testCase :: samples => ⟨start, testCase⟩ :: groupFrom (start + 1) samples

variable {localeCompare : JsString → JsString → ℤ} {figures : Figures}
  {samples : List (Option GeneratedTestCase)} {base : GeneratedTestCase}

theorem collectCase_skip {sampleIndex : ℕ} {collected : Collected} {testCase : GeneratedTestCase}
    (h : deriveTargetKey localeCompare testCase ∈ collected.seenInSample) :
    collectCase localeCompare sampleIndex collected testCase = collected := by
  rw [collectCase, if_pos h]

theorem collectCase_new {sampleIndex : ℕ} {collected : Collected} {testCase : GeneratedTestCase}
    (h : deriveTargetKey localeCompare testCase ∉ collected.seenInSample) :
    collectCase localeCompare sampleIndex collected testCase =
      { seenInSample :=
          setAdd collected.seenInSample (deriveTargetKey localeCompare testCase)
        targetMap := mapSet collected.targetMap (deriveTargetKey localeCompare testCase)
          ((mapGet collected.targetMap (deriveTargetKey localeCompare testCase)).getD [] ++
            [⟨sampleIndex, testCase⟩]) } := by
  rw [collectCase, if_neg h]
  cases mapGet collected.targetMap (deriveTargetKey localeCompare testCase) <;> rfl

/-- A sample adds its case, if it has one, to the group of a target. -/
def addToGroup (group : Option (List IndexedCase)) (sampleIndex : ℕ) :
    Option GeneratedTestCase → Option (List IndexedCase)
  | none => group
  | some testCase => some (group.getD [] ++ [⟨sampleIndex, testCase⟩])

theorem mapGet_foldl_collectCase (localeCompare : JsString → JsString → ℤ) (sampleIndex : ℕ)
    (testCases : List GeneratedTestCase) (collected : Collected) (targetKey : JsString) :
    mapGet (testCases.foldl (collectCase localeCompare sampleIndex) collected).targetMap targetKey =
      if targetKey ∈ collected.seenInSample then mapGet collected.targetMap targetKey
      else addToGroup (mapGet collected.targetMap targetKey) sampleIndex
        (testCases.find? fun testCase ↦ deriveTargetKey localeCompare testCase = targetKey) := by
  induction testCases generalizing collected with
  | nil => simp [addToGroup]
  | cons testCase testCases ih =>
      rw [List.foldl_cons, ih]
      by_cases hseen : deriveTargetKey localeCompare testCase ∈ collected.seenInSample
      · rw [collectCase_skip hseen]
        by_cases htarget : targetKey ∈ collected.seenInSample
        · rw [if_pos htarget, if_pos htarget]
        · have hne : deriveTargetKey localeCompare testCase ≠ targetKey := fun h ↦ htarget (h ▸ hseen)
          rw [if_neg htarget, if_neg htarget, List.find?_cons_of_neg (by simpa using hne)]
      · rw [collectCase_new hseen]
        by_cases htarget : deriveTargetKey localeCompare testCase = targetKey
        · subst htarget
          rw [if_pos (mem_setAdd.mpr (Or.inr rfl)), if_neg hseen, mapGet_mapSet_self,
            List.find?_cons_of_pos (by simp)]
          rfl
        · have hmem : targetKey ∈ setAdd collected.seenInSample
              (deriveTargetKey localeCompare testCase) ↔ targetKey ∈ collected.seenInSample := by
            rw [mem_setAdd]
            exact or_iff_left (Ne.symm htarget)
          simp only [hmem, mapGet_mapSet, if_neg (Ne.symm htarget)]
          rw [List.find?_cons_of_neg (by simpa using htarget)]

theorem nodup_foldl_collectCase (localeCompare : JsString → JsString → ℤ) (sampleIndex : ℕ)
    (testCases : List GeneratedTestCase) {collected : Collected}
    (h : (collected.targetMap.map Prod.fst).Nodup) :
    ((testCases.foldl (collectCase localeCompare sampleIndex) collected).targetMap.map
      Prod.fst).Nodup := by
  induction testCases generalizing collected with
  | nil => exact h
  | cons testCase testCases ih =>
      rw [List.foldl_cons]
      apply ih
      by_cases hseen : deriveTargetKey localeCompare testCase ∈ collected.seenInSample
      · rwa [collectCase_skip hseen]
      · rw [collectCase_new hseen, keys_mapSet]
        exact nodup_setAdd h _

def appendGroup (group : Option (List IndexedCase)) : List IndexedCase → Option (List IndexedCase)
  | [] => group
  | entry :: entries => some (group.getD [] ++ entry :: entries)

theorem appendGroup_addToGroup (group : Option (List IndexedCase)) (start : ℕ)
    (sample : Option GeneratedTestCase) (samples : List (Option GeneratedTestCase)) :
    appendGroup (addToGroup group start sample) (groupFrom (start + 1) samples) =
      appendGroup group (groupFrom start (sample :: samples)) := by
  cases sample with
  | none => rfl
  | some testCase =>
      cases hrest : groupFrom (start + 1) samples with
      | nil => simp [groupFrom, addToGroup, appendGroup, hrest]
      | cons entry entries => simp [groupFrom, addToGroup, appendGroup, hrest]

theorem foldlM_collectSample {input : VoteInput} {lists : List GeneratedTestCaseList} {start : ℕ}
    {targetMap result : TargetMap}
    (h : (lists.zipIdx start).foldlM (collectSample localeCompare input) targetMap = .ok result) :
    (∀ targetKey, mapGet result targetKey = appendGroup (mapGet targetMap targetKey)
      (groupFrom start (samplesOf localeCompare lists targetKey))) ∧
    ((targetMap.map Prod.fst).Nodup → (result.map Prod.fst).Nodup) := by
  induction lists generalizing start targetMap with
  | nil =>
      obtain rfl : targetMap = result := by simpa [pure, Except.pure] using h
      exact ⟨fun _ ↦ rfl, id⟩
  | cons list lists ih =>
      rw [List.zipIdx_cons, List.foldlM_cons, collectSample] at h
      split at h
      · exact absurd h (by simp [bind, Except.bind])
      · obtain ⟨hget, hnodup⟩ := ih h
        refine ⟨fun targetKey ↦ ?_, fun hstart ↦ hnodup (nodup_foldl_collectCase _ _ _ hstart)⟩
        rw [hget, mapGet_foldl_collectCase, if_neg List.not_mem_nil]
        exact appendGroup_addToGroup _ _ _ _

/-! ## The group of a target -/

theorem le_sampleIndex_of_mem {start : ℕ} {entry : IndexedCase}
    (h : entry ∈ groupFrom start samples) : start ≤ entry.sampleIndex := by
  induction samples generalizing start with
  | nil => exact absurd h List.not_mem_nil
  | cons sample samples ih =>
      cases sample with
      | none => exact Nat.le_of_succ_le (ih h)
      | some testCase =>
          rcases List.mem_cons.mp h with rfl | h
          · exact Nat.le_refl _
          · exact Nat.le_of_succ_le (ih h)

theorem pairwise_groupFrom (start : ℕ) (samples : List (Option GeneratedTestCase)) :
    (groupFrom start samples).Pairwise fun a b ↦ a.sampleIndex < b.sampleIndex := by
  induction samples generalizing start with
  | nil => exact List.Pairwise.nil
  | cons sample samples ih =>
      cases sample with
      | none => exact ih _
      | some testCase =>
          refine List.pairwise_cons.mpr ⟨fun entry hentry ↦ ?_, ih _⟩
          exact Nat.lt_of_succ_le (le_sampleIndex_of_mem hentry)

theorem sortBy_groupFrom (localeCompare : JsString → JsString → ℤ) (start : ℕ)
    (samples : List (Option GeneratedTestCase)) :
    sortBy (stableCaseSort localeCompare) (groupFrom start samples) = groupFrom start samples := by
  apply List.Pairwise.insertionSort_eq
  refine (pairwise_groupFrom start samples).imp fun {a b} hlt ↦ ?_
  rw [stableCaseSort, if_pos (Nat.ne_of_lt hlt)]
  omega

theorem find?_groupFrom (start i : ℕ) (samples : List (Option GeneratedTestCase)) :
    ((groupFrom start samples).find? fun entry ↦ entry.sampleIndex = start + i).map
      IndexedCase.testCase = samples[i]?.join := by
  induction samples generalizing start i with
  | nil => rfl
  | cons sample samples ih =>
      have hnone : ∀ entry ∈ groupFrom (start + 1) samples, ¬ entry.sampleIndex = start := by
        intro entry hentry
        have hle := le_sampleIndex_of_mem hentry
        omega
      cases i with
      | zero =>
          have hrest : (groupFrom (start + 1) samples).find?
              (fun entry ↦ entry.sampleIndex = start) = none := by
            simpa using hnone
          cases sample with
          | none => simp [groupFrom, hrest]
          | some testCase => simp [groupFrom]
      | succ i =>
          have hshift : start + (i + 1) = start + 1 + i := by omega
          rw [hshift, List.getElem?_cons_succ, ← ih]
          cases sample with
          | none => rfl
          | some testCase =>
              rw [groupFrom, List.find?_cons_of_neg (by simp; omega)]

theorem head?_groupFrom (start : ℕ) (samples : List (Option GeneratedTestCase)) :
    (groupFrom start samples).head?.map IndexedCase.testCase = samples.findSome? id := by
  induction samples generalizing start with
  | nil => rfl
  | cons sample samples ih =>
      cases sample with
      | none => exact ih _
      | some testCase => rfl

theorem mem_groupFrom_iff {start : ℕ} {testCase : GeneratedTestCase} :
    testCase ∈ (groupFrom start samples).map IndexedCase.testCase ↔ some testCase ∈ samples := by
  induction samples generalizing start with
  | nil => simp [groupFrom]
  | cons sample samples ih =>
      cases sample with
      | none => simpa [groupFrom] using @ih (start + 1)
      | some other =>
          rw [groupFrom, List.map_cons, List.mem_cons, ih, List.mem_cons, Option.some.injEq]

/-- The votes are those of the samples in their order. -/
theorem column_groupFrom (samples : List (Option GeneratedTestCase))
    (field : GeneratedTestCase → Option JsString) :
    column ((groupFrom 0 samples).foldl
      (fun cases sample ↦ mapSet cases sample.sampleIndex sample.testCase) []) samples.length
      field = fieldColumn samples field := by
  have hnodup : ((groupFrom 0 samples).map IndexedCase.sampleIndex).Nodup :=
    List.pairwise_map.mpr ((pairwise_groupFrom 0 samples).imp Nat.ne_of_lt)
  apply List.ext_getElem
  · simp [column, fieldColumn]
  · intro i hi _
    have hlt : i < samples.length := by simpa [column] using hi
    have hfind := find?_groupFrom 0 i samples
    rw [Nat.zero_add, List.getElem?_eq_getElem hlt, Option.join_some] at hfind
    simp only [column, fieldColumn, List.getElem_map, List.getElem_range]
    rw [mapGet_foldl_mapSet IndexedCase.sampleIndex IndexedCase.testCase hnodup, mapGet_nil,
      Option.or_none, hfind]

/-! ## The merge of a target -/

theorem lt_foldl_max_iff {lengths : List ℕ} {start s : ℕ} :
    s < lengths.foldl max start ↔ s < start ∨ ∃ n ∈ lengths, s < n := by
  induction lengths generalizing start with
  | nil => simp
  | cons n lengths ih =>
      rw [List.foldl_cons, ih]
      simp only [List.mem_cons, exists_eq_or_imp, lt_max_iff, or_assoc]

def maxStepsOf (samples : List (Option GeneratedTestCase)) : ℕ :=
  ((groupFrom 0 samples).map fun sample ↦ sample.testCase.steps.length).foldl max 0

theorem lt_maxStepsOf_iff {s : ℕ} : s < maxStepsOf samples ↔
    ∃ testCase, some testCase ∈ samples ∧ s < testCase.steps.length := by
  have hgroup : (groupFrom 0 samples).map (fun sample ↦ sample.testCase.steps.length) =
      ((groupFrom 0 samples).map IndexedCase.testCase).map fun testCase ↦
        testCase.steps.length := by
    rw [List.map_map]
    rfl
  rw [maxStepsOf, hgroup, lt_foldl_max_iff]
  simp only [Nat.not_lt_zero, false_or]
  constructor
  · rintro ⟨n, hn, hlt⟩
    obtain ⟨testCase, hmem, rfl⟩ := List.mem_map.mp hn
    exact ⟨testCase, mem_groupFrom_iff.mp hmem, hlt⟩
  · rintro ⟨testCase, hmem, hlt⟩
    exact ⟨_, List.mem_map_of_mem (mem_groupFrom_iff.mpr hmem), hlt⟩

theorem majorityHasStep_lt {s : ℕ} (h : MajorityHasStep samples s) : s < maxStepsOf samples := by
  have hpos : 0 < samples.countP fun sample ↦
      sample.any fun testCase ↦ decide (s < testCase.steps.length) :=
    Nat.lt_of_lt_of_le (Nat.succ_pos _) h
  obtain ⟨sample, hmem, hany⟩ := List.countP_pos_iff.mp hpos
  cases sample with
  | none => exact absurd hany (by simp)
  | some testCase =>
      exact lt_maxStepsOf_iff.mpr ⟨testCase, hmem, by simpa using hany⟩

theorem length_steps_le (h : samples.findSome? id = some base) :
    base.steps.length ≤ maxStepsOf samples := by
  obtain ⟨sample, hmem, hsample⟩ := List.exists_of_findSome?_eq_some h
  obtain rfl : sample = some base := hsample
  by_contra hlt
  have hmax := (lt_maxStepsOf_iff (s := maxStepsOf samples)).mpr ⟨base, hmem, by omega⟩
  exact absurd hmax (Nat.lt_irrefl _)

section

variable (localeCompare : JsString → JsString → ℤ) (figures : Figures)
  (samples : List (Option GeneratedTestCase))

def voteOn (field : GeneratedTestCase → Option JsString) : VoteScalarResult :=
  voteScalar localeCompare figures (fieldColumn samples field) samples.length

/-- The votes of a target, in the order in which they are pushed. -/
def votesOn (maxStepCount : ℕ) : List FieldVote :=
  [fieldVote .type none (voteOn localeCompare figures samples typeOf),
    fieldVote .technique none (voteOn localeCompare figures samples techniqueOf),
    fieldVote .riskCategory none (voteOn localeCompare figures samples riskCategoryOf)] ++
  (List.range maxStepCount).flatMap fun s ↦
    [fieldVote .stepAction (some s) (voteOn localeCompare figures samples (actionAt s)),
      fieldVote .stepExpected (some s) (voteOn localeCompare figures samples (expectedAt s))]

end

theorem settled_iff_voteOn (localeCompare : JsString → JsString → ℤ) (figures : Figures)
    (hsamples : samples ≠ []) (field : GeneratedTestCase → Option JsString) :
    majorityThreshold samples.length ≤ (voteOn localeCompare figures samples field).majorityCount ↔
      Settled (fieldColumn samples field) := by
  have hcolumn : fieldColumn samples field ≠ [] := by
    simpa [fieldColumn] using hsamples
  have hsettled := settled_iff localeCompare figures hcolumn
  rwa [length_fieldColumn] at hsettled

/-- Beyond all steps the vote is settled: nobody has anything to say. -/
theorem settled_of_absent (hsamples : samples ≠ []) {field : GeneratedTestCase → Option JsString}
    (h : ∀ testCase, some testCase ∈ samples → field testCase = none) :
    Settled (fieldColumn samples field) := by
  refine ⟨undefinedKey, ?_⟩
  have hall : votesFor voteKey (fieldColumn samples field) undefinedKey = samples.length := by
    rw [votesFor, ← @length_fieldColumn samples field, List.countP_eq_length]
    intro value hvalue
    obtain ⟨sample, hsample, rfl⟩ := List.mem_map.mp hvalue
    cases sample with
    | none => simp [voteKey]
    | some testCase => simp [h testCase hsample, voteKey]
  rw [hall, length_fieldColumn, majorityThreshold]
  have hpos := List.length_pos_iff.mpr hsamples
  omega

/-- No vote is below the threshold exactly when every vote is settled. -/
theorem undisputed_iff (localeCompare : JsString → JsString → ℤ) (figures : Figures)
    (hsamples : samples ≠ []) :
    ((votesOn localeCompare figures samples (maxStepsOf samples)).any fun vote ↦
      decide (vote.majorityCount < majorityThreshold samples.length)) = false ↔
    Undisputed samples := by
  have hvote : ∀ field, ¬ (voteOn localeCompare figures samples field).majorityCount <
      majorityThreshold samples.length ↔ Settled (fieldColumn samples field) := by
    intro field
    rw [Nat.not_lt, settled_iff_voteOn localeCompare figures hsamples]
  have hflat : ((votesOn localeCompare figures samples (maxStepsOf samples)).any fun vote ↦
      decide (vote.majorityCount < majorityThreshold samples.length)) = false ↔
      (Settled (fieldColumn samples typeOf) ∧ Settled (fieldColumn samples techniqueOf) ∧
        Settled (fieldColumn samples riskCategoryOf)) ∧
      ∀ s < maxStepsOf samples, Settled (fieldColumn samples (actionAt s)) ∧
        Settled (fieldColumn samples (expectedAt s)) := by
    simp only [← hvote]
    simp [votesOn, fieldVote, and_assoc]
  rw [hflat]
  constructor
  · rintro ⟨⟨htype, htechnique, hrisk⟩, hsteps⟩
    have habsent : ∀ s, ¬ s < maxStepsOf samples → ∀ testCase, some testCase ∈ samples →
        testCase.steps[s]? = none := by
      intro s hs testCase hmem
      refine List.getElem?_eq_none (Nat.not_lt.mp fun hlt ↦ hs ?_)
      exact lt_maxStepsOf_iff.mpr ⟨testCase, hmem, hlt⟩
    refine ⟨htype, htechnique, hrisk, fun s ↦ ?_, fun s ↦ ?_⟩
    · by_cases hs : s < maxStepsOf samples
      · exact (hsteps s hs).1
      · exact settled_of_absent hsamples fun testCase hmem ↦ by
          rw [actionAt, habsent s hs testCase hmem, Option.map_none]
    · by_cases hs : s < maxStepsOf samples
      · exact (hsteps s hs).2
      · exact settled_of_absent hsamples fun testCase hmem ↦
          expectedAt_of_none (habsent s hs testCase hmem)
  · intro h
    exact ⟨⟨h.type, h.technique, h.riskCategory⟩, fun s _ ↦ ⟨h.action s, h.expected s⟩⟩

theorem applyAction_of_settled {threshold s : ℕ} {vote : VoteScalarResult}
    (h : threshold ≤ vote.majorityCount) (steps : List GeneratedTestCaseStep) :
    applyAction threshold vote s steps = writeAction vote.winner s steps := by
  rw [applyAction, if_pos h]
  rfl

theorem applyExpected_of_settled {threshold s : ℕ} {vote : VoteScalarResult}
    (h : threshold ≤ vote.majorityCount) (steps : List GeneratedTestCaseStep) :
    applyExpected threshold vote s steps = writeExpected vote.winner s steps := by
  rw [applyExpected, if_pos h]
  rfl

/-- The loop over the steps, on the columns of the samples. -/
theorem foldl_voteStep (localeCompare : JsString → JsString → ℤ) (figures : Figures)
    {sampleByIndex : List (ℕ × GeneratedTestCase)}
    (hcolumn : ∀ field, column sampleByIndex samples.length field = fieldColumn samples field)
    (steps : List GeneratedTestCaseStep) (votes : List FieldVote) (n : ℕ) :
    ((List.range n).foldl (voteStep localeCompare figures sampleByIndex samples.length)
        ⟨steps, votes⟩).votes =
      votes ++ (List.range n).flatMap (fun s ↦
        [fieldVote .stepAction (some s) (voteOn localeCompare figures samples (actionAt s)),
          fieldVote .stepExpected (some s) (voteOn localeCompare figures samples (expectedAt s))]) ∧
    ((∀ s, majorityThreshold samples.length ≤
        (voteOn localeCompare figures samples (actionAt s)).majorityCount ∧
      majorityThreshold samples.length ≤
        (voteOn localeCompare figures samples (expectedAt s)).majorityCount) →
      ((List.range n).foldl (voteStep localeCompare figures sampleByIndex samples.length)
        ⟨steps, votes⟩).steps =
      writeSteps (actionWinner localeCompare figures samples)
        (expectedWinner localeCompare figures samples) steps n) := by
  induction n with
  | zero => exact ⟨by simp, fun _ ↦ rfl⟩
  | succ n ih =>
      obtain ⟨hvotes, hsteps⟩ := ih
      rw [List.range_succ, List.foldl_append, List.foldl_cons, List.foldl_nil, voteStep, hcolumn,
        hcolumn, hvotes]
      refine ⟨?_, fun hsettled ↦ ?_⟩
      · rw [List.flatMap_append, ← List.append_assoc]
        simp [voteOn]
      · rw [writeSteps_succ, ← hsteps hsettled]
        exact (applyExpected_of_settled (hsettled n).2 _).trans
          (congrArg _ (applyAction_of_settled (hsettled n).1 _))

theorem applyVote_of_settled {threshold : ℕ} {vote : VoteScalarResult}
    (h : threshold ≤ vote.majorityCount) (own : JsString) :
    applyVote threshold vote own = vote.winner.getD own := if_pos h

/-- The lookup of a target, on the group of its samples. -/
def caseByIndex (samples : List (Option GeneratedTestCase)) : List (ℕ × GeneratedTestCase) :=
  (groupFrom 0 samples).foldl
    (fun cases sample ↦ mapSet cases sample.sampleIndex sample.testCase) []

theorem draftCase_votes (localeCompare : JsString → JsString → ℤ) (figures : Figures)
    (samples : List (Option GeneratedTestCase)) (base : GeneratedTestCase) (maxStepCount : ℕ) :
    (draftCase localeCompare figures (caseByIndex samples) samples.length maxStepCount base).2 =
      votesOn localeCompare figures samples maxStepCount := by
  have hcolumn := column_groupFrom samples
  rw [votesOn, ← (foldl_voteStep localeCompare figures hcolumn base.steps _ maxStepCount).1]
  simp only [draftCase, caseByIndex, hcolumn]
  rfl

theorem draftCase_outcome (localeCompare : JsString → JsString → ℤ) (figures : Figures)
    (hsamples : samples ≠ []) (h : Undisputed samples) (base : GeneratedTestCase)
    (maxStepCount : ℕ) :
    SettledOutcome localeCompare figures samples maxStepCount base
      (draftCase localeCompare figures (caseByIndex samples) samples.length maxStepCount base).1 := by
  have hcolumn := column_groupFrom samples
  have hsettled : ∀ field, Settled (fieldColumn samples field) →
      majorityThreshold samples.length ≤
        (voteOn localeCompare figures samples field).majorityCount :=
    fun field ↦ (settled_iff_voteOn localeCompare figures hsamples field).mpr
  have hfold := fun votes ↦ (foldl_voteStep localeCompare figures hcolumn base.steps votes
    maxStepCount).2 fun s ↦ ⟨hsettled _ (h.action s), hsettled _ (h.expected s)⟩
  simp only [draftCase, caseByIndex, hcolumn]
  refine ⟨?_, ?_, ?_, ?_⟩
  · exact applyVote_of_settled (hsettled _ h.type) base.type
  · exact applyVote_of_settled (hsettled _ h.technique) base.technique
  · exact applyVote_of_settled (hsettled _ h.riskCategory) base.riskCategory
  · exact congrArg renumber (hfold _)

/-- What a target gives to the result. -/
theorem mergeTarget_spec (localeCompare : JsString → JsString → ℤ) (figures : Figures)
    {input : VoteInput} (targetKey : JsString) (hsamples : samples ≠ [])
    (hlength : samples.length = input.lists.length) (hfirst : samples.findSome? id = some base) :
    ∃ merged entry, mergeTarget localeCompare figures input (targetKey, groupFrom 0 samples) =
        some (merged, entry) ∧
      entry.targetKey = targetKey ∧
      deriveTargetKey localeCompare merged = deriveTargetKey localeCompare base ∧
      (entry.disagreement = false ↔ Undisputed samples) ∧
      (Undisputed samples →
        SettledOutcome localeCompare figures samples (maxStepsOf samples) base merged) := by
  obtain ⟨first, hhead, rfl⟩ : ∃ first, (groupFrom 0 samples).head? = some first ∧
      first.testCase = base := by
    rw [← head?_groupFrom 0] at hfirst
    exact Option.map_eq_some_iff.mp hfirst
  have hundisputed := undisputed_iff localeCompare figures hsamples
  have hvotes := draftCase_votes localeCompare figures samples first.testCase (maxStepsOf samples)
  rw [mergeTarget]
  simp only [sortBy_groupFrom, hhead, Option.map_some, ← hlength]
  refine ⟨_, _, rfl, rfl, ?_, ?_, fun h ↦ ?_⟩
  · split <;> rfl
  · rw [← hundisputed, ← hvotes]
    rfl
  · have houtcome := draftCase_outcome localeCompare figures hsamples h first.testCase
      (maxStepsOf samples)
    split
    · exact ⟨houtcome.type, houtcome.technique, houtcome.riskCategory, houtcome.steps⟩
    · exact ⟨houtcome.type, houtcome.technique, houtcome.riskCategory, houtcome.steps⟩

/-! ## The result -/

theorem exists_foldlM_collectSample (localeCompare : JsString → JsString → ℤ) {input : VoteInput}
    {lists : List GeneratedTestCaseList} (h : ∀ list ∈ lists, list.jobId = input.jobId) (start : ℕ)
    (targetMap : TargetMap) :
    ∃ result, (lists.zipIdx start).foldlM (collectSample localeCompare input) targetMap =
      .ok result := by
  induction lists generalizing start targetMap with
  | nil => exact ⟨targetMap, rfl⟩
  | cons list lists ih =>
      obtain ⟨hlist, hlists⟩ := List.forall_mem_cons.mp h
      obtain ⟨result, hresult⟩ := ih hlists (start + 1) ((orderedById localeCompare
        list.testCases).foldl (collectCase localeCompare start) ⟨[], targetMap⟩).targetMap
      refine ⟨result, ?_⟩
      rw [List.zipIdx_cons, List.foldlM_cons, collectSample, if_neg (not_not_intro hlist)]
      exact hresult

/-- The vote fails only without samples and on a sample of another job. -/
theorem exists_result (localeCompare : JsString → JsString → ℤ) (figures : Figures)
    {input : VoteInput} (hlists : input.lists ≠ [])
    (hjobs : ∀ list ∈ input.lists, list.jobId = input.jobId) :
    ∃ result, voteGeneratedTestCaseSamples localeCompare figures input = .ok result := by
  obtain ⟨targetMap, hmap⟩ := exists_foldlM_collectSample localeCompare hjobs 0 []
  obtain ⟨list, lists, hcons⟩ := List.exists_cons_of_ne_nil hlists
  simp only [voteGeneratedTestCaseSamples]
  split
  · next hnil => exact absurd hnil hlists
  · rw [hmap]
    exact ⟨_, rfl⟩

/-- Every merged case that is not flagged says what a strict majority of the samples says. -/
def UnflaggedAreMajority (localeCompare : JsString → JsString → ℤ)
    (lists : List GeneratedTestCaseList) (result : VoteResult) : Prop :=
  ∀ merged ∈ result.merged.testCases, ∀ entry ∈ result.report.targets,
    entry.targetKey = deriveTargetKey localeCompare merged → entry.disagreement = false →
    MajorityCase (samplesOf localeCompare lists entry.targetKey) merged

theorem targetKey_of_first {lists : List GeneratedTestCaseList} {targetKey : JsString}
    (h : (samplesOf localeCompare lists targetKey).findSome? id = some base) :
    deriveTargetKey localeCompare base = targetKey := by
  obtain ⟨sample, hmem, hsample⟩ := List.exists_of_findSome?_eq_some h
  obtain rfl : sample = some base := hsample
  obtain ⟨list, -, hcase⟩ := List.mem_map.mp hmem
  simpa using List.find?_some hcase

theorem exists_first_of_group {targetKey : JsString} {lists : List GeneratedTestCaseList}
    {group : List IndexedCase} (h : appendGroup none
      (groupFrom 0 (samplesOf localeCompare lists targetKey)) = some group) :
    group = groupFrom 0 (samplesOf localeCompare lists targetKey) ∧
      ∃ base, (samplesOf localeCompare lists targetKey).findSome? id = some base := by
  have hhead := head?_groupFrom 0 (samplesOf localeCompare lists targetKey)
  cases hgroup : groupFrom 0 (samplesOf localeCompare lists targetKey) with
  | nil =>
      rw [hgroup] at h
      exact absurd h (by simp [appendGroup])
  | cons entry entries =>
      rw [hgroup] at h hhead
      exact ⟨(Option.some.inj h).symm, entry.testCase, hhead.symm⟩

/-- A target that some sample has, with what it gives to the result. -/
def MergedAs (localeCompare : JsString → JsString → ℤ) (figures : Figures) (input : VoteInput)
    (targetKey : JsString) (base merged : GeneratedTestCase) (entry : TargetReportEntry) : Prop :=
  (samplesOf localeCompare input.lists targetKey).findSome? id = some base ∧
    mergeTarget localeCompare figures input
      (targetKey, groupFrom 0 (samplesOf localeCompare input.lists targetKey)) = some (merged, entry)

theorem mem_targetMap_iff {input : VoteInput} {targetMap : TargetMap}
    (h : input.lists.zipIdx.foldlM (collectSample localeCompare input) [] = .ok targetMap)
    {target : JsString × List IndexedCase} :
    target ∈ targetMap ↔
      target.2 = groupFrom 0 (samplesOf localeCompare input.lists target.1) ∧
      ∃ base, (samplesOf localeCompare input.lists target.1).findSome? id = some base := by
  obtain ⟨hget, hnodup⟩ := foldlM_collectSample h
  have hkeys := hnodup List.nodup_nil
  constructor
  · intro hmem
    have htarget := mapGet_eq_some_of_mem hkeys hmem
    rw [hget, mapGet_nil] at htarget
    exact exists_first_of_group htarget
  · rintro ⟨hgroup, base, hbase⟩
    apply mem_of_mapGet
    rw [hget, mapGet_nil, hgroup]
    rw [← head?_groupFrom 0] at hbase
    obtain ⟨entry, hentry, -⟩ := Option.map_eq_some_iff.mp hbase
    obtain ⟨entries, hentries⟩ := List.head?_eq_some_iff.mp hentry
    rw [hentries]
    rfl

/-- The cases and the rows of the report come from the same targets. -/
theorem mem_result_iff {input : VoteInput} {result : VoteResult}
    (h : voteGeneratedTestCaseSamples localeCompare figures input = .ok result) :
    (∀ merged, merged ∈ result.merged.testCases ↔
      ∃ targetKey base entry, MergedAs localeCompare figures input targetKey base merged entry) ∧
    (∀ entry, entry ∈ result.report.targets ↔
      ∃ targetKey base merged, MergedAs localeCompare figures input targetKey base merged entry) := by
  have hmerges : ∀ targetMap, input.lists.zipIdx.foldlM (collectSample localeCompare input) [] =
      .ok targetMap → ∀ merge : GeneratedTestCase × TargetReportEntry,
      merge ∈ (sortBy (fun left right ↦ localeCompare left.1 right.1) targetMap).filterMap
        (mergeTarget localeCompare figures input) ↔
      ∃ targetKey base, MergedAs localeCompare figures input targetKey base merge.1 merge.2 := by
    intro targetMap hmap merge
    simp only [List.mem_filterMap, mem_sortBy, mem_targetMap_iff hmap]
    constructor
    · rintro ⟨⟨targetKey, group⟩, ⟨hgroup, base, hbase⟩, hmerge⟩
      change group = groupFrom 0 (samplesOf localeCompare input.lists targetKey) at hgroup
      subst hgroup
      exact ⟨targetKey, base, hbase, hmerge⟩
    · rintro ⟨targetKey, base, hbase, hmerge⟩
      exact ⟨_, ⟨rfl, base, hbase⟩, hmerge⟩
  rw [voteGeneratedTestCaseSamples] at h
  split at h
  · exact absurd h (by simp)
  · cases hmap : input.lists.zipIdx.foldlM (collectSample localeCompare input) [] with
    | error message =>
        rw [hmap] at h
        exact absurd h (by simp [bind, Except.bind])
    | ok targetMap =>
        rw [hmap] at h
        obtain rfl := Except.ok.inj h
        refine ⟨fun merged ↦ ?_, fun entry ↦ ?_⟩
        · simp only [orderedById, mem_sortBy, List.mem_map]
          constructor
          · rintro ⟨merge, hmem, rfl⟩
            obtain ⟨targetKey, base, hmerge⟩ := (hmerges targetMap hmap merge).mp hmem
            exact ⟨targetKey, base, merge.2, hmerge⟩
          · rintro ⟨targetKey, base, entry, hmerge⟩
            exact ⟨(merged, entry), (hmerges targetMap hmap _).mpr ⟨targetKey, base, hmerge⟩, rfl⟩
        · simp only [List.mem_map]
          constructor
          · rintro ⟨merge, hmem, rfl⟩
            obtain ⟨targetKey, base, hmerge⟩ := (hmerges targetMap hmap merge).mp hmem
            exact ⟨targetKey, base, merge.1, hmerge⟩
          · rintro ⟨targetKey, base, merged, hmerge⟩
            exact ⟨(merged, entry), (hmerges targetMap hmap _).mpr ⟨targetKey, base, hmerge⟩, rfl⟩

theorem samplesOf_ne_nil {lists : List GeneratedTestCaseList} {targetKey : JsString}
    (h : (samplesOf localeCompare lists targetKey).findSome? id = some base) :
    samplesOf localeCompare lists targetKey ≠ [] := by
  intro hnil
  rw [hnil] at h
  exact absurd h (by simp)

theorem exists_mergedAs (figures : Figures) {input : VoteInput} {targetKey : JsString}
    (h : (samplesOf localeCompare input.lists targetKey).findSome? id = some base) :
    ∃ merged entry, MergedAs localeCompare figures input targetKey base merged entry := by
  obtain ⟨merged, entry, hmerge, -⟩ :=
    mergeTarget_spec localeCompare figures targetKey (samplesOf_ne_nil h) (List.length_map _) h
  exact ⟨merged, entry, h, hmerge⟩

/-- The target of a merged case, with everything that is known of it. -/
theorem mergedAs_spec {input : VoteInput} {targetKey : JsString} {merged : GeneratedTestCase}
    {entry : TargetReportEntry}
    (h : MergedAs localeCompare figures input targetKey base merged entry) :
    entry.targetKey = targetKey ∧ deriveTargetKey localeCompare merged = targetKey ∧
      (entry.disagreement = false ↔ Undisputed (samplesOf localeCompare input.lists targetKey)) ∧
      (Undisputed (samplesOf localeCompare input.lists targetKey) →
        (MajorityCase (samplesOf localeCompare input.lists targetKey) merged ↔
          KeepsMajority (samplesOf localeCompare input.lists targetKey) base)) := by
  obtain ⟨hfirst, hmerge⟩ := h
  obtain ⟨merged', entry', hspec, hentry, hkey, hdisagreement, houtcome⟩ :=
    mergeTarget_spec localeCompare figures targetKey (samplesOf_ne_nil hfirst) (List.length_map _)
      hfirst
  obtain ⟨rfl, rfl⟩ := Prod.mk.inj (Option.some.inj (hmerge.symm.trans hspec))
  refine ⟨hentry, hkey.trans (targetKey_of_first hfirst), hdisagreement, fun hundisputed ↦ ?_⟩
  have hbase := length_steps_le hfirst
  exact ⟨keeps_of_majorityCase hfirst hundisputed (houtcome hundisputed)
      (fun _ ↦ majorityHasStep_lt) hbase,
    majorityCase_of_keeps hfirst hundisputed (houtcome hundisputed)
      (fun _ ↦ majorityHasStep_lt) hbase⟩

/-- An unflagged case is a majority case exactly if, on every target without an open vote, a strict
majority holds what the case keeps where absence wins. -/
theorem unflaggedAreMajority_iff (localeCompare : JsString → JsString → ℤ) (figures : Figures)
    (input : VoteInput) (result : VoteResult)
    (h : voteGeneratedTestCaseSamples localeCompare figures input = .ok result) :
    UnflaggedAreMajority localeCompare input.lists result ↔
      ∀ targetKey base,
        (samplesOf localeCompare input.lists targetKey).findSome? id = some base →
        Undisputed (samplesOf localeCompare input.lists targetKey) →
        KeepsMajority (samplesOf localeCompare input.lists targetKey) base := by
  obtain ⟨hcases, hentries⟩ := mem_result_iff h
  constructor
  · intro hmajority targetKey base hfirst hundisputed
    obtain ⟨merged, entry, hmerged⟩ := exists_mergedAs figures hfirst
    obtain ⟨hentry, hkey, hdisagreement, hiff⟩ := mergedAs_spec hmerged
    refine (hiff hundisputed).mp ?_
    have hcase := hmajority merged ((hcases merged).mpr ⟨targetKey, base, entry, hmerged⟩) entry
      ((hentries entry).mpr ⟨targetKey, base, merged, hmerged⟩) (hentry.trans hkey.symm)
      (hdisagreement.mpr hundisputed)
    rwa [hentry] at hcase
  · intro hkeeps merged hmem entry hentryMem hkeyEq hflag
    obtain ⟨targetKey, base, entry₁, hmerged⟩ := (hcases merged).mp hmem
    obtain ⟨targetKey', base', merged', hmerged'⟩ := (hentries entry).mp hentryMem
    have hspec := mergedAs_spec hmerged
    have hspec' := mergedAs_spec hmerged'
    obtain rfl : targetKey' = targetKey :=
      hspec'.1.symm.trans (hkeyEq.trans hspec.2.1)
    have hundisputed := hspec'.2.2.1.mp hflag
    rw [hspec'.1]
    exact (hspec.2.2.2 hundisputed).mpr (hkeeps _ base hmerged.1 hundisputed)

/-- Two thirds, and its interval, to six places. -/
def sampleFigures : Figures where
  agreementRate := fun majorityCount sampleCount ↦
    if majorityCount = sampleCount then 1 else JsNumber.ofRat (666667 / 1000000)
  wilsonInterval95 := fun majorityCount sampleCount ↦
    if majorityCount = sampleCount then (JsNumber.ofRat (438503 / 1000000), 1)
    else (JsNumber.ofRat (207660 / 1000000), JsNumber.ofRat (938508 / 1000000))
  meanAgreement := fun rates ↦ rates.headD 1

def sampleCaseOne : GeneratedTestCase where
  id := js "tc-1"
  type := js "functional"
  technique := js "use_case"
  riskCategory := js "low"
  steps := []
  figmaTraceRefs := [⟨js "screen"⟩]
  openQuestions := []
  qualitySignals := ⟨[], [], [], [], 1⟩
  reviewState := .draft

def sampleVoteInput (samples : List (List GeneratedTestCase)) : VoteInput where
  jobId := js "job"
  generatedAt := js "2026-01-01T00:00:00.000Z"
  lists := samples.map fun testCases ↦ ⟨js "1.4.0", js "job", testCases⟩
  disagreementRoute := none
  arbitrationTriggered := none

theorem exists_sample_result {samples : List (List GeneratedTestCase)} (h : samples ≠ []) :
    ∃ result, voteGeneratedTestCaseSamples codeUnitCompare sampleFigures (sampleVoteInput samples) =
      .ok result := by
  apply exists_result
  · simpa [sampleVoteInput] using h
  · intro list hlist
    obtain ⟨testCases, -, rfl⟩ := List.mem_map.mp hlist
    rfl

theorem unflaggedAreMajority_sample : ∃ result,
    voteGeneratedTestCaseSamples codeUnitCompare sampleFigures
      (sampleVoteInput [[sampleCaseOne], [sampleCaseOne], []]) = .ok result ∧
    (UnflaggedAreMajority codeUnitCompare
        (sampleVoteInput [[sampleCaseOne], [sampleCaseOne], []]).lists result ↔
      ∀ targetKey base,
        (samplesOf codeUnitCompare (sampleVoteInput [[sampleCaseOne], [sampleCaseOne], []]).lists
          targetKey).findSome? id = some base →
        Undisputed (samplesOf codeUnitCompare
          (sampleVoteInput [[sampleCaseOne], [sampleCaseOne], []]).lists targetKey) →
        KeepsMajority (samplesOf codeUnitCompare
          (sampleVoteInput [[sampleCaseOne], [sampleCaseOne], []]).lists targetKey) base) := by
  obtain ⟨result, hresult⟩ := @exists_sample_result [[sampleCaseOne], [sampleCaseOne], []] (by simp)
  exact ⟨result, hresult, unflaggedAreMajority_iff codeUnitCompare sampleFigures _ result hresult⟩

/-- A case that two of three samples do not have is merged without a flag. -/
theorem minority_case_unflagged : ∃ result,
    voteGeneratedTestCaseSamples codeUnitCompare sampleFigures
      (sampleVoteInput [[sampleCaseOne], [], []]) = .ok result ∧
    ¬ UnflaggedAreMajority codeUnitCompare (sampleVoteInput [[sampleCaseOne], [], []]).lists
      result := by
  obtain ⟨result, hresult⟩ := @exists_sample_result [[sampleCaseOne], [], []] (by simp)
  refine ⟨result, hresult, fun hmajority ↦ ?_⟩
  obtain ⟨hcases, hentries⟩ := mem_result_iff hresult
  have hsamples : samplesOf codeUnitCompare (sampleVoteInput [[sampleCaseOne], [], []]).lists
      (deriveTargetKey codeUnitCompare sampleCaseOne) = [some sampleCaseOne, none, none] := by
    simp [samplesOf, sampleVoteInput, sampleCase, orderedById, sortBy]
  obtain ⟨merged, entry, hmerged⟩ := @exists_mergedAs codeUnitCompare sampleCaseOne sampleFigures
    (sampleVoteInput [[sampleCaseOne], [], []]) (deriveTargetKey codeUnitCompare sampleCaseOne)
    (by rw [hsamples]; rfl)
  obtain ⟨hentry, hkey, hdisagreement, -⟩ := mergedAs_spec hmerged
  rw [hsamples] at hdisagreement
  have hundisputed : Undisputed [some sampleCaseOne, none, none] := by
    have habsent : ∀ field, Settled (fieldColumn [some sampleCaseOne, none, none] field) := by
      intro field
      refine ⟨undefinedKey, ?_⟩
      have hsublist : List.Sublist [none, none]
          (fieldColumn [some sampleCaseOne, none, none] field) := List.sublist_cons_self _ _
      have htwo : votesFor voteKey [none, none] undefinedKey = 2 := by decide
      rw [length_fieldColumn]
      exact Nat.le_trans (Nat.le_of_eq htwo.symm) (hsublist.countP_le)
    exact ⟨habsent _, habsent _, habsent _, fun _ ↦ habsent _, fun _ ↦ habsent _⟩
  have hcase := hmajority merged ((hcases merged).mpr ⟨_, _, entry, hmerged⟩) entry
    ((hentries entry).mpr ⟨_, _, merged, hmerged⟩) (hentry.trans hkey.symm)
    (hdisagreement.mpr hundisputed)
  rw [hentry, hsamples] at hcase
  exact absurd hcase.present (by decide)

end TestIntelligence.Quality
