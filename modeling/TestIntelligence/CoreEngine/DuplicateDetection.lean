import TestIntelligence.Js.Collections
import TestIntelligence.Js.Json
import TestIntelligence.Js.Sorting
import TestIntelligence.Lists.Pairs
import TestIntelligence.Review.FourEyes

/-!
# Duplicate test cases

Two test cases are duplicates of each other when the Jaccard similarity of their
fingerprints reaches a threshold and the targets they cover are not disjoint.  Similarities
are exact; `toLowerCase` and the characters of the categories P and S are parameters.
-/

namespace TestIntelligence.CoreEngine.Duplicates

open Js Lists Review

/-! ## Test cases -/

inductive TestCaseType
  | functional
  | negative
  | boundary
  | validation
  | navigation
  | regression
  | exploratory
  | accessibility

def TestCaseType.text : TestCaseType → JsString
  | .functional => js "functional"
  | .negative => js "negative"
  | .boundary => js "boundary"
  | .validation => js "validation"
  | .navigation => js "navigation"
  | .regression => js "regression"
  | .exploratory => js "exploratory"
  | .accessibility => js "accessibility"

structure QualitySignals where
  coveredFieldIds : List JsString
  coveredActionIds : List JsString
  coveredValidationIds : List JsString
  coveredNavigationIds : List JsString
  coveredRequirementIds : Option (List JsString)

/-- The steps are their actions and the trace references their screen ids. -/
structure GeneratedTestCase where
  id : JsString
  title : JsString
  type : TestCaseType
  riskCategory : TestCaseRiskCategory
  steps : List JsString
  figmaTraceRefs : List JsString
  qualitySignals : QualitySignals

structure TestCaseDuplicatePair where
  leftTestCaseId : JsString
  rightTestCaseId : JsString
  similarity : ℚ
  deriving DecidableEq

/-! ## Fingerprints -/

/-- The characters of a text; a surrogate outside a pair is one of its own. -/
def characters : JsString → List JsString
  | [] => []
  | [u] => [[u]]
  | u :: v :: rest =>
      if isLeadSurrogate u && isTrailSurrogate v then [u, v] :: characters rest
      else [u] :: characters (v :: rest)

/-- `replace(/…+/g, " ")` for a class of characters -/
def replaceRuns (matching : JsString → Bool) : (inRun : Bool) → List JsString → JsString
  | _, [] => []
  | inRun, c :: rest =>
      if matching c then (if inRun then [] else [0x20]) ++ replaceRuns matching true rest
      else c ++ replaceRuns matching false rest

def shingleSize : ℕ := 3

/-- The windows of a text. -/
def windows : JsString → List JsString
  | [] => []
  | u :: rest =>
      if (u :: rest).length < shingleSize then []
      else (u :: rest).take shingleSize :: windows rest

def toShingles (input : JsString) : List JsString :=
  if input.length = 0 then [] else if input.length ≤ shingleSize then [input] else windows input

section

variable (toLowerCase : JsString → JsString) (isPunctuationOrSymbol : JsString → Bool)

def normaliseString (input : JsString) : JsString :=
  let spaced := replaceRuns isPunctuationOrSymbol false (characters (toLowerCase input))
  trim (replaceRuns (·.all isWhiteSpace) false (spaced.map fun u ↦ [u]))

def buildTestCaseFingerprint (testCase : GeneratedTestCase) : List JsString :=
  let normalise := normaliseString toLowerCase isPunctuationOrSymbol
  setOf ((toShingles (normalise testCase.title)).map (js "title::" ++ ·) ++
    testCase.steps.flatMap (fun action ↦
      ((split 0x20 (normalise action)).filter (0 < ·.length)).map (js "step::" ++ ·)) ++
    testCase.figmaTraceRefs.map (js "trace::" ++ ·) ++
    [js "type::" ++ testCase.type.text, js "risk::" ++ testCase.riskCategory.text])

end

/-! ## Targets -/

def coverageTargetIds (testCase : GeneratedTestCase) : List JsString :=
  let signals := testCase.qualitySignals
  setOf (signals.coveredFieldIds.map (js "field:" ++ ·) ++
    signals.coveredActionIds.map (js "action:" ++ ·) ++
    signals.coveredValidationIds.map (js "validation:" ++ ·) ++
    signals.coveredNavigationIds.map (js "navigation:" ++ ·) ++
    (signals.coveredRequirementIds.getD []).map (js "requirement:" ++ ·))

def fieldCoverageTargetIds (testCase : GeneratedTestCase) : List JsString :=
  setOf testCase.qualitySignals.coveredFieldIds

/-- The smaller of two sets is searched in the larger one. -/
def haveNoneInCommon (left right : List JsString) : Bool :=
  let smaller := if left.length ≤ right.length then left else right
  let larger := if left.length ≤ right.length then right else left
  smaller.all fun target ↦ !larger.contains target

def haveDisjointCoverageTargets (left right : GeneratedTestCase) : Bool :=
  let leftFields := fieldCoverageTargetIds left
  let rightFields := fieldCoverageTargetIds right
  if 0 < leftFields.length ∧ 0 < rightFields.length then haveNoneInCommon leftFields rightFields
  else
    let leftTargets := coverageTargetIds left
    let rightTargets := coverageTargetIds right
    if leftTargets.length = 0 ∨ rightTargets.length = 0 then false
    else haveNoneInCommon leftTargets rightTargets

/-! ## Pairs -/

def jaccardSimilarity (a b : List JsString) : ℚ :=
  let smaller := if a.length ≤ b.length then a else b
  let larger := if a.length ≤ b.length then b else a
  let intersection := (smaller.filter larger.contains).length
  let union := a.length + b.length - intersection
  if a.length = 0 ∧ b.length = 0 then 1
  else if union = 0 then 0
  else intersection / union

/-- `similarity >= threshold` -/
def reaches (similarity : ℚ) : JsNumber → Bool
  | .nan => false
  | .infinity negative => negative
  | .negZero => 0 ≤ similarity
  | .finite threshold => threshold.val ≤ similarity

def roundTo (value : ℚ) (digits : ℕ) : ℚ := ⌊value * 10 ^ digits + 1 / 2⌋ / 10 ^ digits

def comparePairs (a b : TestCaseDuplicatePair) : ℤ :=
  if a.leftTestCaseId ≠ b.leftTestCaseId then
    if a.leftTestCaseId < b.leftTestCaseId then -1 else 1
  else if a.rightTestCaseId ≠ b.rightTestCaseId then
    if a.rightTestCaseId < b.rightTestCaseId then -1 else 1
  else 0

def thresholdError : JsString := js "threshold must be in [0, 1]"

section

variable (toLowerCase : JsString → JsString) (isPunctuationOrSymbol : JsString → Bool)

/-- The pair that is pushed for two test cases. -/
def duplicatePair (fingerprints : List (JsString × List JsString)) (threshold : JsNumber) :
    GeneratedTestCase × GeneratedTestCase → Option TestCaseDuplicatePair
  | (left, right) =>
      match mapGet fingerprints left.id with
      | none => none
      | some fpLeft =>
          if haveDisjointCoverageTargets left right then none
          else
            match mapGet fingerprints right.id with
            | none => none
            | some fpRight =>
                let similarity := jaccardSimilarity fpLeft fpRight
                if reaches similarity threshold then
                  let ids := if left.id ≤ right.id then (left.id, right.id)
                    else (right.id, left.id)
                  some ⟨ids.1, ids.2, roundTo similarity 6⟩
                else none

/-- The error is the message of a `RangeError`. -/
def detectDuplicateTestCases (testCases : List GeneratedTestCase) (threshold : JsNumber) :
    Except JsString (List TestCaseDuplicatePair) :=
  if threshold.lt 0 || JsNumber.lt 1 threshold then .error thresholdError
  else
    let fingerprints := testCases.foldl
      (fun fingerprints tc ↦ mapSet fingerprints tc.id
        (buildTestCaseFingerprint toLowerCase isPunctuationOrSymbol tc)) []
    .ok (sortBy comparePairs ((pairs testCases).filterMap (duplicatePair fingerprints threshold)))

end

/-! ## Sets of texts -/

theorem nodup_setOf {α : Type*} [DecidableEq α] (xs : List α) : (setOf xs).Nodup :=
  nodup_foldl_setAdd List.nodup_nil

theorem haveNoneInCommon_iff {left right : List JsString} :
    haveNoneInCommon left right = true ↔ ∀ target ∈ left, target ∉ right := by
  unfold haveNoneInCommon
  dsimp only
  split
  · simp
  · simp only [List.all_eq_true, Bool.not_eq_true', List.contains_eq_mem, decide_eq_false_iff_not]
    exact ⟨fun h target hleft hright ↦ h target hright hleft,
      fun h target hright hleft ↦ h target hleft hright⟩

theorem haveNoneInCommon_comm (left right : List JsString) :
    haveNoneInCommon left right = haveNoneInCommon right left := by
  rw [Bool.eq_iff_iff, haveNoneInCommon_iff, haveNoneInCommon_iff]
  exact ⟨fun h target hright hleft ↦ h target hleft hright,
    fun h target hleft hright ↦ h target hright hleft⟩

theorem haveDisjointCoverageTargets_comm (left right : GeneratedTestCase) :
    haveDisjointCoverageTargets left right = haveDisjointCoverageTargets right left := by
  unfold haveDisjointCoverageTargets
  exact if_congr and_comm (haveNoneInCommon_comm _ _)
    (if_congr or_comm rfl (haveNoneInCommon_comm _ _))

/-- What two sets share is counted from either side. -/
theorem length_filter_contains_comm {a b : List JsString} (ha : a.Nodup) (hb : b.Nodup) :
    (a.filter b.contains).length = (b.filter a.contains).length := by
  apply List.Perm.length_eq
  rw [List.perm_ext_iff_of_nodup (ha.filter _) (hb.filter _)]
  intro v
  simp only [List.mem_filter, List.contains_eq_mem, decide_eq_true_eq]
  exact and_comm

/-- The similarity by what the first set shares with the second. -/
theorem jaccardSimilarity_eq {a b : List JsString} (ha : a.Nodup) (hb : b.Nodup) :
    jaccardSimilarity a b = if a.length = 0 ∧ b.length = 0 then 1
      else ((a.filter b.contains).length : ℚ) /
        (a.length + b.length - (a.filter b.contains).length : ℕ) := by
  have hshared : ((if a.length ≤ b.length then a else b).filter
      (if a.length ≤ b.length then b else a).contains).length = (a.filter b.contains).length := by
    split
    · rfl
    · exact length_filter_contains_comm hb ha
  unfold jaccardSimilarity
  dsimp only
  rw [hshared]
  split
  · rfl
  · split
    · next hunion => rw [hunion, Nat.cast_zero, div_zero]
    · rfl

theorem jaccardSimilarity_comm {a b : List JsString} (ha : a.Nodup) (hb : b.Nodup) :
    jaccardSimilarity a b = jaccardSimilarity b a := by
  rw [jaccardSimilarity_eq ha hb, jaccardSimilarity_eq hb ha, length_filter_contains_comm ha hb,
    Nat.add_comm a.length]
  exact if_congr and_comm rfl rfl

theorem jaccardSimilarity_mem {a b : List JsString} (ha : a.Nodup) (hb : b.Nodup) :
    0 ≤ jaccardSimilarity a b ∧ jaccardSimilarity a b ≤ 1 := by
  rw [jaccardSimilarity_eq ha hb]
  split
  · exact ⟨zero_le_one, le_rfl⟩
  · have hleft : (a.filter b.contains).length ≤ a.length := List.length_filter_le _ _
    have hright : (a.filter b.contains).length ≤ b.length :=
      (length_filter_contains_comm ha hb).trans_le (List.length_filter_le _ _)
    refine ⟨by positivity, div_le_one_of_le₀ ?_ (Nat.cast_nonneg _)⟩
    rw [Nat.cast_le]
    omega

theorem roundTo_mem {value : ℚ} (h : 0 ≤ value ∧ value ≤ 1) (digits : ℕ) :
    0 ≤ roundTo value digits ∧ roundTo value digits ≤ 1 := by
  have hpow : (0 : ℚ) < 10 ^ digits := by positivity
  have hfloor : (0 : ℤ) ≤ ⌊value * 10 ^ digits + 1 / 2⌋ ∧
      ⌊value * 10 ^ digits + 1 / 2⌋ ≤ (10 ^ digits : ℤ) := by
    constructor
    · apply Int.floor_nonneg.mpr
      have hscaled := mul_nonneg h.1 hpow.le
      linarith
    · rw [← Int.lt_add_one_iff, Int.floor_lt]
      have hscaled := mul_le_of_le_one_left hpow.le h.2
      push_cast
      linarith
  unfold roundTo
  refine ⟨div_nonneg (by exact_mod_cast hfloor.1) hpow.le, div_le_one_of_le₀ ?_ hpow.le⟩
  exact_mod_cast hfloor.2

/-! ## The order of the report -/

theorem comparePairs_nonpos (a b : TestCaseDuplicatePair) : comparePairs a b ≤ 0 ↔
    a.leftTestCaseId < b.leftTestCaseId ∨ a.leftTestCaseId = b.leftTestCaseId ∧
      a.rightTestCaseId ≤ b.rightTestCaseId := by
  unfold comparePairs
  by_cases hleft : a.leftTestCaseId = b.leftTestCaseId
  · rw [if_neg (not_not.mpr hleft), hleft]
    have hself : ¬ b.leftTestCaseId < b.leftTestCaseId := Std.lt_irrefl
    by_cases hright : a.rightTestCaseId = b.rightTestCaseId
    · simp [hright]
    · rw [if_pos hright]
      split
      · next hlt => simp [Std.le_of_lt hlt]
      · next hlt =>
        have hle : ¬ a.rightTestCaseId ≤ b.rightTestCaseId := fun hle ↦
          hright (Std.le_antisymm hle (Std.not_lt.mp hlt))
        simp [hself, hle]
  · rw [if_pos hleft]
    split
    · next hlt => simp [hlt]
    · next hlt => simp [hlt, hleft]

theorem consistent_comparePairs : Consistent comparePairs :=
  consistent_of_texts comparePairs_nonpos

/-! ## The pairs of a report -/

section

variable {toLowerCase : JsString → JsString} {isPunctuationOrSymbol : JsString → Bool}
  {testCases : List GeneratedTestCase} {threshold : JsNumber}

variable (toLowerCase isPunctuationOrSymbol) in
/-- The similarity of the fingerprints of two test cases. -/
def similarity (left right : GeneratedTestCase) : ℚ :=
  jaccardSimilarity (buildTestCaseFingerprint toLowerCase isPunctuationOrSymbol left)
    (buildTestCaseFingerprint toLowerCase isPunctuationOrSymbol right)

theorem similarity_comm (left right : GeneratedTestCase) :
    similarity toLowerCase isPunctuationOrSymbol left right =
      similarity toLowerCase isPunctuationOrSymbol right left :=
  jaccardSimilarity_comm (nodup_setOf _) (nodup_setOf _)

theorem similarity_mem (left right : GeneratedTestCase) :
    0 ≤ similarity toLowerCase isPunctuationOrSymbol left right ∧
      similarity toLowerCase isPunctuationOrSymbol left right ≤ 1 :=
  jaccardSimilarity_mem (nodup_setOf _) (nodup_setOf _)

variable (toLowerCase isPunctuationOrSymbol threshold) in
/-- Two test cases whose targets are not disjoint and whose similarity reaches the threshold. -/
def Duplicates (left right : GeneratedTestCase) : Prop :=
  haveDisjointCoverageTargets left right = false ∧
    reaches (similarity toLowerCase isPunctuationOrSymbol left right) threshold = true

instance (left right : GeneratedTestCase) :
    Decidable (Duplicates toLowerCase isPunctuationOrSymbol threshold left right) :=
  inferInstanceAs (Decidable (_ ∧ _))

variable (toLowerCase isPunctuationOrSymbol) in
/-- The pair of two test cases, the smaller id on the left. -/
def pairOf (left right : GeneratedTestCase) : TestCaseDuplicatePair :=
  let ids := if left.id ≤ right.id then (left.id, right.id) else (right.id, left.id)
  ⟨ids.1, ids.2, roundTo (similarity toLowerCase isPunctuationOrSymbol left right) 6⟩

variable (toLowerCase isPunctuationOrSymbol threshold) in
def reported (p : GeneratedTestCase × GeneratedTestCase) : Option TestCaseDuplicatePair :=
  if Duplicates toLowerCase isPunctuationOrSymbol threshold p.1 p.2 then
    some (pairOf toLowerCase isPunctuationOrSymbol p.1 p.2)
  else none

theorem pairOf_comm (left right : GeneratedTestCase) :
    pairOf toLowerCase isPunctuationOrSymbol left right =
      pairOf toLowerCase isPunctuationOrSymbol right left := by
  unfold pairOf
  rw [similarity_comm left right]
  by_cases heq : left.id = right.id
  · simp [heq]
  by_cases hle : left.id ≤ right.id
  · have hnot : ¬ right.id ≤ left.id := fun hge ↦ heq (Std.le_antisymm hle hge)
    rw [if_pos hle, if_neg hnot]
  · have hge : right.id ≤ left.id := (@Std.le_total _ _ _ left.id right.id).resolve_left hle
    rw [if_neg hle, if_pos hge]

theorem duplicates_comm (left right : GeneratedTestCase) :
    Duplicates toLowerCase isPunctuationOrSymbol threshold left right ↔
      Duplicates toLowerCase isPunctuationOrSymbol threshold right left := by
  rw [Duplicates, Duplicates, haveDisjointCoverageTargets_comm, similarity_comm]

theorem reported_comm (left right : GeneratedTestCase) :
    reported toLowerCase isPunctuationOrSymbol threshold (left, right) =
      reported toLowerCase isPunctuationOrSymbol threshold (right, left) :=
  if_congr (duplicates_comm left right) (congrArg some (pairOf_comm left right)) rfl

/-- With distinct ids every test case is compared by its own fingerprint. -/
theorem detectDuplicateTestCases_eq (hids : (testCases.map (·.id)).Nodup)
    (hthreshold : (threshold.lt 0 || JsNumber.lt 1 threshold) = false) :
    detectDuplicateTestCases toLowerCase isPunctuationOrSymbol testCases threshold =
      .ok (sortBy comparePairs ((pairs testCases).filterMap
        (reported toLowerCase isPunctuationOrSymbol threshold))) := by
  have hfingerprint : ∀ tc ∈ testCases, mapGet (testCases.foldl
      (fun fingerprints tc ↦ mapSet fingerprints tc.id
        (buildTestCaseFingerprint toLowerCase isPunctuationOrSymbol tc)) []) tc.id =
      some (buildTestCaseFingerprint toLowerCase isPunctuationOrSymbol tc) := by
    intro tc htc
    rw [mapGet_foldl_mapSet GeneratedTestCase.id _ hids,
      (find?_key_eq_some_iff hids).mpr ⟨htc, rfl⟩]
    rfl
  unfold detectDuplicateTestCases
  rw [hthreshold, if_neg Bool.false_ne_true]
  dsimp only
  congr 2
  apply List.filterMap_congr
  rintro ⟨left, right⟩ hmem
  obtain ⟨hleft, hright⟩ := mem_of_mem_pairs hmem
  unfold duplicatePair reported
  dsimp only
  rw [hfingerprint left hleft, hfingerprint right hright]
  dsimp only
  cases hdisjoint : haveDisjointCoverageTargets left right with
  | true => rw [if_pos rfl, if_neg fun h ↦ absurd (h.1.symm.trans hdisjoint) Bool.false_ne_true]
  | false =>
      rw [if_neg Bool.false_ne_true]
      exact if_congr (by simp [Duplicates, hdisjoint, similarity]) rfl rfl

theorem pairOf_of_lt {left right : GeneratedTestCase} (h : left.id < right.id) :
    pairOf toLowerCase isPunctuationOrSymbol left right = ⟨left.id, right.id,
      roundTo (similarity toLowerCase isPunctuationOrSymbol left right) 6⟩ := by
  unfold pairOf
  rw [if_pos (Std.le_of_lt h)]

theorem ids_pairOf (left right : GeneratedTestCase) :
    s((pairOf toLowerCase isPunctuationOrSymbol left right).leftTestCaseId,
      (pairOf toLowerCase isPunctuationOrSymbol left right).rightTestCaseId) =
        s(left.id, right.id) := by
  unfold pairOf
  split
  · rfl
  · exact Sym2.eq_swap

theorem reported_eq_some {p : GeneratedTestCase × GeneratedTestCase}
    {pair : TestCaseDuplicatePair} :
    reported toLowerCase isPunctuationOrSymbol threshold p = some pair ↔
      Duplicates toLowerCase isPunctuationOrSymbol threshold p.1 p.2 ∧
        pairOf toLowerCase isPunctuationOrSymbol p.1 p.2 = pair := by
  unfold reported
  split
  · next h => simp [h]
  · next h => simp [h]

theorem mem_detected (hids : (testCases.map (·.id)).Nodup) {pair : TestCaseDuplicatePair} :
    pair ∈ (pairs testCases).filterMap (reported toLowerCase isPunctuationOrSymbol threshold) ↔
      ∃ left ∈ testCases, ∃ right ∈ testCases, left.id < right.id ∧
        Duplicates toLowerCase isPunctuationOrSymbol threshold left right ∧
        pair = ⟨left.id, right.id,
          roundTo (similarity toLowerCase isPunctuationOrSymbol left right) 6⟩ := by
  rw [List.mem_filterMap]
  constructor
  · rintro ⟨⟨left, right⟩, hmem, hreported⟩
    obtain ⟨hduplicates, rfl⟩ := reported_eq_some.mp hreported
    obtain ⟨hleft, hright⟩ := mem_of_mem_pairs hmem
    have hne : left.id ≠ right.id := rel_of_mem_pairs (List.pairwise_map.mp hids) hmem
    rcases Std.lt_trichotomy left.id right.id with hlt | heq | hlt
    · exact ⟨left, hleft, right, hright, hlt, hduplicates, pairOf_of_lt hlt⟩
    · exact absurd heq hne
    · refine ⟨right, hright, left, hleft, hlt, (duplicates_comm left right).mp hduplicates, ?_⟩
      exact (pairOf_comm left right).trans (pairOf_of_lt hlt)
  · rintro ⟨left, hleft, right, hright, hlt, hduplicates, rfl⟩
    have hne : left ≠ right := fun heq ↦ Std.lt_irrefl (heq ▸ hlt)
    have hreported := (@reported_eq_some _ _ _ (left, right) _).mpr
      ⟨hduplicates, pairOf_of_lt hlt⟩
    rcases mem_pairs_or hleft hright hne with hmem | hmem
    · exact ⟨_, hmem, hreported⟩
    · exact ⟨_, hmem, (reported_comm right left).trans hreported⟩

/-- The pairs of a report are about different test cases. -/
theorem nodup_detected (hids : (testCases.map (·.id)).Nodup) :
    (((pairs testCases).filterMap (reported toLowerCase isPunctuationOrSymbol threshold)).map
      fun pair ↦ s(pair.leftTestCaseId, pair.rightTestCaseId)).Nodup := by
  have hnodup := nodup_pairs hids
  rw [pairs_map, List.map_map] at hnodup
  apply List.Nodup.sublist (sublist_map_filterMap _ _) hnodup
  intro p pair hpair
  obtain ⟨-, rfl⟩ := reported_eq_some.mp hpair
  exact ids_pairOf p.1 p.2

theorem sortBy_detected_of_perm (hids : (testCases.map (·.id)).Nodup)
    {testCases' : List GeneratedTestCase} (hperm : testCases.Perm testCases') :
    sortBy comparePairs ((pairs testCases).filterMap
        (reported toLowerCase isPunctuationOrSymbol threshold)) =
      sortBy comparePairs ((pairs testCases').filterMap
        (reported toLowerCase isPunctuationOrSymbol threshold)) := by
  apply consistent_comparePairs.sortBy_eq_of_perm _ (perm_filterMap_pairs reported_comm hperm)
  intro a ha b hb hab hba
  obtain ⟨hleft, hright⟩ := texts_eq_of_compare comparePairs_nonpos hab hba
  exact List.inj_on_of_nodup_map (nodup_detected hids) ha hb (by rw [hleft, hright])

/-! ## Reports -/

variable (toLowerCase isPunctuationOrSymbol testCases threshold) in
/-- What a report says, and that every order of the test cases gives the same one. -/
structure ExactReport (report : List TestCaseDuplicatePair) : Prop where
  mem_iff : ∀ pair, pair ∈ report ↔
    ∃ left ∈ testCases, ∃ right ∈ testCases, left.id < right.id ∧
      haveDisjointCoverageTargets left right = false ∧
      reaches (similarity toLowerCase isPunctuationOrSymbol left right) threshold = true ∧
      pair = ⟨left.id, right.id,
        roundTo (similarity toLowerCase isPunctuationOrSymbol left right) 6⟩
  once : (report.map fun pair ↦ s(pair.leftTestCaseId, pair.rightTestCaseId)).Nodup
  bounded : ∀ pair ∈ report, 0 ≤ pair.similarity ∧ pair.similarity ≤ 1
  orderFree : ∀ testCases' : List GeneratedTestCase, testCases.Perm testCases' →
    detectDuplicateTestCases toLowerCase isPunctuationOrSymbol testCases' threshold = .ok report

/-- Every threshold from 0 to 1 gives an exact report, every other one the error, and the
similarity of two test cases does not depend on their order. -/
theorem detectDuplicateTestCases_exact (hids : (testCases.map (·.id)).Nodup) :
    (∀ left right, similarity toLowerCase isPunctuationOrSymbol left right =
      similarity toLowerCase isPunctuationOrSymbol right left) ∧
    if threshold.lt 0 || JsNumber.lt 1 threshold then
      ∀ testCases', detectDuplicateTestCases toLowerCase isPunctuationOrSymbol testCases'
        threshold = .error thresholdError
    else ∃ report, detectDuplicateTestCases toLowerCase isPunctuationOrSymbol testCases
        threshold = .ok report ∧
      ExactReport toLowerCase isPunctuationOrSymbol testCases threshold report := by
  refine ⟨similarity_comm, ?_⟩
  cases hthreshold : (threshold.lt 0 || JsNumber.lt 1 threshold) with
  | true =>
      intro testCases'
      unfold detectDuplicateTestCases
      rw [hthreshold, if_pos rfl]
  | false =>
      refine ⟨_, detectDuplicateTestCases_eq hids hthreshold, ?_⟩
      have hperm := sortBy_perm comparePairs ((pairs testCases).filterMap
        (reported toLowerCase isPunctuationOrSymbol threshold))
      have hmem : ∀ pair, pair ∈ sortBy comparePairs ((pairs testCases).filterMap
          (reported toLowerCase isPunctuationOrSymbol threshold)) ↔ _ := fun pair ↦
        mem_sortBy.trans (mem_detected hids)
      constructor
      · intro pair
        simpa only [Duplicates, and_assoc] using hmem pair
      · exact (hperm.map _).nodup_iff.mpr (nodup_detected hids)
      · intro pair hpair
        obtain ⟨left, -, right, -, -, -, rfl⟩ := (hmem pair).mp hpair
        exact roundTo_mem (similarity_mem left right) 6
      · intro testCases' htestCases
        have hids' := (htestCases.map (·.id)).nodup_iff.mp hids
        rw [detectDuplicateTestCases_eq hids' hthreshold, sortBy_detected_of_perm hids htestCases]

/-! ## Two cases of one wording -/

/-- Test cases that differ in their ids and fields. -/
def sampleCase (id field : String) : GeneratedTestCase where
  id := js id
  title := js "enter value"
  type := .functional
  riskCategory := .low
  steps := [js "enter a value"]
  figmaTraceRefs := [js "s-1"]
  qualitySignals := ⟨[js field], [], [], [], none⟩

theorem detectDuplicateTestCases_exact_sample :
    ∃ report, detectDuplicateTestCases id (fun _ ↦ false)
        [sampleCase "tc-2" "amount", sampleCase "tc-1" "amount"] 1 = .ok report ∧
      ExactReport id (fun _ ↦ false)
        [sampleCase "tc-2" "amount", sampleCase "tc-1" "amount"] 1 report := by
  have hexact := (@detectDuplicateTestCases_exact id (fun _ ↦ false)
    [sampleCase "tc-2" "amount", sampleCase "tc-1" "amount"] 1 (by decide)).2
  rwa [show (JsNumber.lt 1 0 || JsNumber.lt 1 1) = false by decide +kernel,
    if_neg Bool.false_ne_true] at hexact

/-- The fingerprints are the same and the fields are not, and no pair is reported. -/
theorem disjoint_fields_not_reported :
    reaches (similarity id (fun _ ↦ false) (sampleCase "tc-1" "amount")
        (sampleCase "tc-2" "date")) 1 = true ∧
      detectDuplicateTestCases id (fun _ ↦ false)
        [sampleCase "tc-1" "amount", sampleCase "tc-2" "date"] 1 = .ok [] := by
  decide +kernel

end

end TestIntelligence.CoreEngine.Duplicates
