import TestIntelligence.Js.Sorting
import TestIntelligence.Security.ContentHash
import TestIntelligence.Votes.Plurality

/-!
# Voting on samples of generated test cases

The samples of a job are grouped by target.  The first sample that has the target supplies the
base of the merged case, and each field of the base is put to the vote of all samples; a sample
without the target, or without the step, votes with an absent value.
-/

namespace TestIntelligence.Quality

open Js Security Votes

structure GeneratedTestCaseStep where
  index : ℕ
  action : JsString
  data : Option JsString
  expected : Option JsString
  fieldLifecycleTransitionId : Option JsString
  deriving DecidableEq

structure FigmaTraceRef where
  screenId : JsString
  deriving DecidableEq

structure QualitySignals where
  coveredFieldIds : List JsString
  coveredActionIds : List JsString
  coveredValidationIds : List JsString
  coveredNavigationIds : List JsString
  confidence : JsNumber

inductive ReviewState where
  | draft
  | autoApproved
  | needsReview
  | rejected
  deriving DecidableEq

/-- The votes are on texts: any text may stand for a type, a technique or a category. -/
structure GeneratedTestCase where
  id : JsString
  type : JsString
  technique : JsString
  riskCategory : JsString
  steps : List GeneratedTestCaseStep
  figmaTraceRefs : List FigmaTraceRef
  openQuestions : List JsString
  qualitySignals : QualitySignals
  reviewState : ReviewState

structure GeneratedTestCaseList where
  schemaVersion : JsString
  jobId : JsString
  testCases : List GeneratedTestCase

structure IndexedCase where
  sampleIndex : ℕ
  testCase : GeneratedTestCase

inductive ConsensusStrength where
  | strongConsensus
  | weakConsensus
  deriving DecidableEq

inductive DisagreementRoute where
  | crossFamilyArbitration
  | humanReview

def DisagreementRoute.text : DisagreementRoute → JsString
  | .crossFamilyArbitration => js "cross_family_arbitration"
  | .humanReview => js "human_review"

inductive VoteField where
  | type
  | technique
  | riskCategory
  | stepAction
  | stepExpected

def VoteField.text : VoteField → JsString
  | .type => js "type"
  | .technique => js "technique"
  | .riskCategory => js "riskCategory"
  | .stepAction => js "step_action"
  | .stepExpected => js "step_expected"

structure VoteScalarResult where
  winner : Option JsString
  majorityCount : ℕ
  agreementRate : JsNumber
  confidenceInterval95 : JsNumber × JsNumber
  bootstrapSampleSize : ℕ
  consensusStrength : ConsensusStrength

structure FieldVote where
  field : VoteField
  stepIndex : Option ℕ
  agreement : JsNumber
  agreementRate : JsNumber
  confidenceInterval95 : JsNumber × JsNumber
  bootstrapSampleSize : ℕ
  consensusStrength : ConsensusStrength
  winner : Option JsString
  majorityCount : ℕ
  majorityValue : Option JsString

structure TargetReportEntry where
  targetKey : JsString
  selectedTestCaseId : JsString
  samplePresenceCount : ℕ
  agreement : JsNumber
  consensusStrength : ConsensusStrength
  disagreement : Bool
  disagreementRoute : Option DisagreementRoute
  arbitrationTriggered : Option Bool
  votes : List FieldVote

structure SelfConsistencyReport where
  schemaVersion : JsString
  contractVersion : JsString
  generatedAt : JsString
  jobId : JsString
  sampleCount : ℕ
  selfConsistencyAgreement : JsNumber
  targets : List TargetReportEntry

structure VoteInput where
  jobId : JsString
  generatedAt : JsString
  lists : List GeneratedTestCaseList
  disagreementRoute : Option DisagreementRoute
  arbitrationTriggered : Option Bool

structure VoteResult where
  merged : GeneratedTestCaseList
  report : SelfConsistencyReport

/-- The rounded figures of the report: `majorityCount / sampleCount`, the Wilson interval and the
mean, each to six places. -/
structure Figures where
  agreementRate : ℕ → ℕ → JsNumber
  wilsonInterval95 : ℕ → ℕ → JsNumber × JsNumber
  meanAgreement : List JsNumber → JsNumber

/-! ## Texts and numbers -/

/-- `value.replace(/\s+/gu, " ")` -/
def collapseWhiteSpace (s : JsString) : JsString :=
  match s with
  | [] => []
  | u :: rest =>
      if isWhiteSpace u then 0x20 :: collapseWhiteSpace (rest.dropWhile isWhiteSpace)
      else u :: collapseWhiteSpace rest
termination_by s.length
decreasing_by
  · exact Nat.lt_succ_of_le (List.dropWhile_sublist _).length_le
  · exact Nat.lt_succ_self _

def canonicalTrim (value : JsString) : JsString := collapseWhiteSpace (trim value)

/-- `Math.min(x, y)` -/
def minNumber : JsNumber → JsNumber → JsNumber
  | .nan, _ | _, .nan => .nan
  | x, .negZero => if x.lt .negZero then x else .negZero
  | x, y => if y.lt x then y else x

def majorityThreshold (sampleCount : ℕ) : ℕ := sampleCount / 2 + 1

/-! ## One vote -/

def undefinedKey : JsString := js "__undefined__"

def voteKey (value : Option JsString) : JsString := value.getD undefinedKey

section

variable (localeCompare : JsString → JsString → ℤ) (figures : Figures)

def prefersValue (candidate winner : Option JsString) : Bool :=
  localeCompare (candidate.getD []) (winner.getD []) < 0

def voteScalar (values : List (Option JsString)) (sampleCount : ℕ) : VoteScalarResult :=
  let winner := winnerOf voteKey (prefersValue localeCompare) values
  let majorityCount := (winner.map Candidate.count).getD 0
  let confidenceInterval95 := figures.wilsonInterval95 majorityCount sampleCount
  { winner := winner.bind Candidate.value
    majorityCount := majorityCount
    agreementRate := if sampleCount = 0 then 0 else figures.agreementRate majorityCount sampleCount
    confidenceInterval95 := confidenceInterval95
    bootstrapSampleSize := sampleCount
    consensusStrength :=
      if sampleCount = 3 ∧ majorityThreshold sampleCount ≤ majorityCount ∧
          majorityCount < sampleCount ∧ confidenceInterval95.1.lt (JsNumber.ofRat (3 / 5)) = true
      then .weakConsensus else .strongConsensus }

def fieldVote (field : VoteField) (stepIndex : Option ℕ) (vote : VoteScalarResult) : FieldVote where
  field := field
  stepIndex := stepIndex
  agreement := vote.agreementRate
  agreementRate := vote.agreementRate
  confidenceInterval95 := vote.confidenceInterval95
  bootstrapSampleSize := vote.bootstrapSampleSize
  consensusStrength := vote.consensusStrength
  winner := vote.winner
  majorityCount := vote.majorityCount
  majorityValue := vote.winner

/-- The value of the base, unless the winner of a majority replaces it. -/
def applyVote (threshold : ℕ) (vote : VoteScalarResult) (own : JsString) : JsString :=
  if threshold ≤ vote.majorityCount then vote.winner.getD own else own

/-! ## Targets -/

def uniqueSorted (values : List JsString) : List JsString := sortBy localeCompare (setOf values)

def textArray (values : List JsString) : Json := .arr (values.map .str)

def deriveTargetKey (testCase : GeneratedTestCase) : JsString :=
  canonicalJson (.obj [
    (js "screenIds", textArray (uniqueSorted localeCompare
      (testCase.figmaTraceRefs.map FigmaTraceRef.screenId))),
    (js "coveredFieldIds", textArray (uniqueSorted localeCompare
      testCase.qualitySignals.coveredFieldIds)),
    (js "coveredActionIds", textArray (uniqueSorted localeCompare
      testCase.qualitySignals.coveredActionIds)),
    (js "coveredValidationIds", textArray (uniqueSorted localeCompare
      testCase.qualitySignals.coveredValidationIds)),
    (js "coveredNavigationIds", textArray (uniqueSorted localeCompare
      testCase.qualitySignals.coveredNavigationIds))])

abbrev TargetMap := List (JsString × List IndexedCase)

structure Collected where
  seenInSample : List JsString
  targetMap : TargetMap

def collectCase (sampleIndex : ℕ) (collected : Collected) (testCase : GeneratedTestCase) :
    Collected :=
  let targetKey := deriveTargetKey localeCompare testCase
  if targetKey ∈ collected.seenInSample then collected
  else
    let entry : IndexedCase := ⟨sampleIndex, testCase⟩
    { seenInSample := setAdd collected.seenInSample targetKey
      targetMap := match mapGet collected.targetMap targetKey with
        | none => mapSet collected.targetMap targetKey [entry]
        | some group => mapSet collected.targetMap targetKey (group ++ [entry]) }

def orderedById (testCases : List GeneratedTestCase) : List GeneratedTestCase :=
  sortBy (fun left right ↦ localeCompare left.id right.id) testCases

def jobIdMismatch (input : VoteInput) (sampleIndex : ℕ) (list : GeneratedTestCaseList) : JsString :=
  js "voteGeneratedTestCaseSamples: sample[" ++ numberText (JsNumber.ofRat sampleIndex) ++
    js "] jobId \"" ++ list.jobId ++ js "\" does not match \"" ++ input.jobId ++ js "\""

def collectSample (input : VoteInput) (targetMap : TargetMap)
    (sample : GeneratedTestCaseList × ℕ) : Except JsString TargetMap :=
  if sample.1.jobId ≠ input.jobId then .error (jobIdMismatch input sample.2 sample.1)
  else .ok ((orderedById localeCompare sample.1.testCases).foldl
    (collectCase localeCompare sample.2) ⟨[], targetMap⟩).targetMap

def stableCaseSort (left right : IndexedCase) : ℤ :=
  if left.sampleIndex ≠ right.sampleIndex then (left.sampleIndex : ℤ) - right.sampleIndex
  else localeCompare left.testCase.id right.testCase.id

/-! ## Steps -/

structure Draft where
  steps : List GeneratedTestCaseStep
  votes : List FieldVote

def applyAction (threshold : ℕ) (vote : VoteScalarResult) (stepIndex : ℕ)
    (steps : List GeneratedTestCaseStep) : List GeneratedTestCaseStep :=
  if threshold ≤ vote.majorityCount then
    match vote.winner with
    | none => steps
    | some action =>
        if stepIndex < steps.length then steps.modify stepIndex fun step ↦ { step with action }
        else steps ++ [⟨stepIndex + 1, action, none, none, none⟩]
  else steps

def applyExpected (threshold : ℕ) (vote : VoteScalarResult) (stepIndex : ℕ)
    (steps : List GeneratedTestCaseStep) : List GeneratedTestCaseStep :=
  if threshold ≤ vote.majorityCount then
    match vote.winner with
    | none => steps
    | some expected => steps.modify stepIndex fun step ↦ { step with expected := some expected }
  else steps

def actionAt (stepIndex : ℕ) (testCase : GeneratedTestCase) : Option JsString :=
  testCase.steps[stepIndex]?.map fun step ↦ canonicalTrim step.action

def expectedAt (stepIndex : ℕ) (testCase : GeneratedTestCase) : Option JsString :=
  (testCase.steps[stepIndex]?.bind GeneratedTestCaseStep.expected).map canonicalTrim

/-- `Array.from({ length: sampleCount }, (_, index) => …sampleByIndex.get(index)…)` -/
def column (sampleByIndex : List (ℕ × GeneratedTestCase)) (sampleCount : ℕ)
    (field : GeneratedTestCase → Option JsString) : List (Option JsString) :=
  (List.range sampleCount).map fun index ↦ (mapGet sampleByIndex index).bind field

def voteStep (sampleByIndex : List (ℕ × GeneratedTestCase)) (sampleCount : ℕ) (draft : Draft)
    (stepIndex : ℕ) : Draft :=
  let threshold := majorityThreshold sampleCount
  let actionVote := voteScalar localeCompare figures
    (column sampleByIndex sampleCount (actionAt stepIndex)) sampleCount
  let expectedVote := voteScalar localeCompare figures
    (column sampleByIndex sampleCount (expectedAt stepIndex)) sampleCount
  { steps := applyExpected threshold expectedVote stepIndex
      (applyAction threshold actionVote stepIndex draft.steps)
    votes := draft.votes ++ [fieldVote .stepAction (some stepIndex) actionVote,
      fieldVote .stepExpected (some stepIndex) expectedVote] }

def renumber (steps : List GeneratedTestCaseStep) : List GeneratedTestCaseStep :=
  steps.zipIdx.map fun p ↦ { p.1 with index := p.2 + 1 }

/-! ## The merge -/

def disputedText (vote : FieldVote) : JsString :=
  match vote.stepIndex with
  | none => vote.field.text
  | some stepIndex =>
      vote.field.text ++ js "[" ++ numberText (JsNumber.ofRat stepIndex) ++ js "]"

def buildDisagreementMarker (targetKey : JsString) (votes : List FieldVote)
    (route : DisagreementRoute) : JsString :=
  js "self_consistency_disagreement: route=" ++ route.text ++ js "; target=" ++ targetKey ++
    js "; fields=" ++
    join (js ", ") ((votes.filter fun vote ↦ decide (vote.majorityCount < 2)).map disputedText)

/-- Three votes on the whole case, and two for each step. -/
def draftCase (sampleByIndex : List (ℕ × GeneratedTestCase)) (sampleCount maxStepCount : ℕ)
    (base : GeneratedTestCase) : GeneratedTestCase × List FieldVote :=
  let threshold := majorityThreshold sampleCount
  let vote := fun field ↦
    voteScalar localeCompare figures (column sampleByIndex sampleCount field) sampleCount
  let typeVote := vote fun testCase ↦ some testCase.type
  let techniqueVote := vote fun testCase ↦ some testCase.technique
  let riskCategoryVote := vote fun testCase ↦ some testCase.riskCategory
  let draft := (List.range maxStepCount).foldl
    (voteStep localeCompare figures sampleByIndex sampleCount)
    ⟨base.steps, [fieldVote .type none typeVote, fieldVote .technique none techniqueVote,
      fieldVote .riskCategory none riskCategoryVote]⟩
  ({ base with
      type := applyVote threshold typeVote base.type
      technique := applyVote threshold techniqueVote base.technique
      riskCategory := applyVote threshold riskCategoryVote base.riskCategory
      steps := renumber draft.steps }, draft.votes)

/-- A disputed case is put up for review with a marker among its questions. -/
def flagCase (marker : JsString) (testCase : GeneratedTestCase) : GeneratedTestCase :=
  { testCase with
    reviewState := .needsReview
    openQuestions :=
      if marker ∈ testCase.openQuestions then testCase.openQuestions
      else testCase.openQuestions ++ [marker] }

def mergeTarget (input : VoteInput) (target : JsString × List IndexedCase) :
    Option (GeneratedTestCase × TargetReportEntry) :=
  let sampleCount := input.lists.length
  let route := input.disagreementRoute.getD .humanReview
  let orderedSamples := sortBy (stableCaseSort localeCompare) target.2
  let sampleByIndex := orderedSamples.foldl
    (fun samples sample ↦ mapSet samples sample.sampleIndex sample.testCase) []
  orderedSamples.head?.map fun first ↦
    let maxStepCount := (orderedSamples.map fun sample ↦ sample.testCase.steps.length).foldl max 0
    let (draft, votes) := draftCase localeCompare figures sampleByIndex sampleCount maxStepCount
      first.testCase
    let agreement := figures.meanAgreement (votes.map FieldVote.agreementRate)
    let disagreement := votes.any fun vote ↦
      decide (vote.majorityCount < majorityThreshold sampleCount)
    let flagged :=
      if disagreement then flagCase (buildDisagreementMarker target.1 votes route) draft else draft
    let merged := { flagged with
      qualitySignals := { flagged.qualitySignals with
        confidence := minNumber flagged.qualitySignals.confidence agreement } }
    (merged,
      { targetKey := target.1
        selectedTestCaseId := merged.id
        samplePresenceCount := orderedSamples.length
        agreement := agreement
        consensusStrength :=
          if votes.any fun vote ↦ decide (vote.consensusStrength = .weakConsensus)
          then .weakConsensus else .strongConsensus
        disagreement := disagreement
        disagreementRoute := if disagreement then some route else none
        arbitrationTriggered := if input.arbitrationTriggered = some true then some true else none
        votes := votes })

def voteGeneratedTestCaseSamples (input : VoteInput) : Except JsString VoteResult :=
  match input.lists with
  | [] => .error (js "voteGeneratedTestCaseSamples: lists must contain at least one sample")
  | list :: _ => do
      let targetMap ← input.lists.zipIdx.foldlM (collectSample localeCompare input) []
      let targets := sortBy (fun left right ↦ localeCompare left.1 right.1) targetMap
      let merges := targets.filterMap (mergeTarget localeCompare figures input)
      let targetReports := merges.map Prod.snd
      .ok {
        merged := {
          schemaVersion := list.schemaVersion
          jobId := input.jobId
          testCases := orderedById localeCompare (merges.map Prod.fst) }
        report := {
          schemaVersion := js "1.0.0"
          contractVersion := js "1.39.0"
          generatedAt := input.generatedAt
          jobId := input.jobId
          sampleCount := input.lists.length
          selfConsistencyAgreement :=
            if targetReports = [] then 1
            else figures.meanAgreement (targetReports.map TargetReportEntry.agreement)
          targets := targetReports } }

end

end TestIntelligence.Quality
