import TestIntelligence.CoreEngine.DuplicateDetection
import TestIntelligence.Js.Math
import TestIntelligence.Quality.CoverageAugmentation
import TestIntelligence.Security.Records

/-!
# Redundancy inside equivalence classes

Test cases of one class cover the same fields and actions by the same technique, with the same
risk and polarity.  Inside a class a case must differ from every case kept before it.
-/

namespace TestIntelligence.CoreEngine.EquivalenceClasses

open Js Security
open Duplicates (TestCaseType)
open Quality (TestCaseTechnique29119)
open Review (TestCaseRiskCategory)

/-! ## Test cases -/

inductive GeneratedTestCasePolarity
  | positive
  | negative
  | boundary
  | validation
  | navigation
  | accessibility
  deriving DecidableEq

inductive GeneratedTestCaseCategory
  | positivePath
  | negativePath
  | boundaryValue
  | validationRule
  | navigationFlow
  | accessibility
  deriving DecidableEq

def GeneratedTestCaseCategory.text : GeneratedTestCaseCategory → JsString
  | positivePath => js "positive_path"
  | negativePath => js "negative_path"
  | boundaryValue => js "boundary_value"
  | validationRule => js "validation_rule"
  | navigationFlow => js "navigation_flow"
  | accessibility => js "accessibility"

structure GeneratedTestCaseStep where
  index : JsNumber
  action : JsString
  fieldLifecycleTransitionId : Option JsString

structure GeneratedTestCaseFigmaTrace where
  screenId : JsString
  nodeId : Option JsString
  nodePath : Option JsString

structure GeneratedTestCase where
  id : JsString
  type : TestCaseType
  polarity : Option GeneratedTestCasePolarity
  category : Option GeneratedTestCaseCategory
  riskCategory : TestCaseRiskCategory
  technique : TestCaseTechnique29119
  steps : List GeneratedTestCaseStep
  figmaTraceRefs : List GeneratedTestCaseFigmaTrace
  assumptions : List JsString
  openQuestions : List JsString
  coveredFieldIds : List JsString
  coveredActionIds : List JsString

/-! ## Fingerprints -/

inductive TestCaseOraclePolarity
  | positive
  | negative
  | boundary
  | navigation
  | accessibility
  deriving DecidableEq

def TestCaseOraclePolarity.text : TestCaseOraclePolarity → JsString
  | positive => js "positive"
  | negative => js "negative"
  | boundary => js "boundary"
  | navigation => js "navigation"
  | accessibility => js "accessibility"

def deriveOraclePolarity (testCase : GeneratedTestCase) : TestCaseOraclePolarity :=
  match testCase.polarity with
  | some .positive => .positive
  | some .negative | some .validation => .negative
  | some .boundary => .boundary
  | some .navigation => .navigation
  | some .accessibility => .accessibility
  | none =>
      match testCase.type with
      | .negative | .validation => .negative
      | .boundary => .boundary
      | .navigation => .navigation
      | .accessibility => .accessibility
      | .functional | .regression | .exploratory => .positive

def sortedUnique (ids : List JsString) : List JsString := sortStrings (setOf ids)

structure EquivalenceClassFingerprint where
  coveredFieldIds : List JsString
  coveredActionIds : List JsString
  riskClass : TestCaseRiskCategory
  technique : TestCaseTechnique29119
  oraclePolarity : TestCaseOraclePolarity
  deriving DecidableEq

def buildEquivalenceClassFingerprint (testCase : GeneratedTestCase) :
    EquivalenceClassFingerprint where
  coveredFieldIds := sortedUnique testCase.coveredFieldIds
  coveredActionIds := sortedUnique testCase.coveredActionIds
  riskClass := testCase.riskCategory
  technique := testCase.technique
  oraclePolarity := deriveOraclePolarity testCase

def fingerprintFields (fingerprint : EquivalenceClassFingerprint) :
    List (JsString × Option Json) := [
  (js "coveredFieldIds", some (.arr (fingerprint.coveredFieldIds.map .str))),
  (js "coveredActionIds", some (.arr (fingerprint.coveredActionIds.map .str))),
  (js "riskClass", some (.str fingerprint.riskClass.text)),
  (js "technique", some (.str fingerprint.technique.text)),
  (js "oraclePolarity", some (.str fingerprint.oraclePolarity.text))]

def equivalenceClassKey (fingerprint : EquivalenceClassFingerprint) : JsString :=
  canonicalJson (.obj (presentMembers (fingerprintFields fingerprint)))

/-! ## Distinctness -/

inductive IntraClassDistinctnessReason
  | differentOracleCategory
  | differentActionSubset
  | differentStatePath
  deriving DecidableEq

def sameSet (left right : List JsString) : Bool :=
  left.length == right.length && right.all (· ∈ left)

def oracleCategory (testCase : GeneratedTestCase) : JsString :=
  match testCase.category with
  | some category => category.text
  | none =>
      match testCase.type with
      | .negative => js "negative_path"
      | .validation => js "validation_rule"
      | .boundary => js "boundary_value"
      | .navigation => js "navigation_flow"
      | .accessibility => js "accessibility"
      | .functional | .regression => js "positive_path"
      | .exploratory => js "exploratory:" ++ testCase.technique.text

/-- `a.index - b.index`, of which the sort sees the sign. -/
def compareIndices (a b : GeneratedTestCaseStep) : ℤ :=
  if a.index.lt b.index then -1 else if b.index.lt a.index then 1 else 0

def stepActionSequence (testCase : GeneratedTestCase) : List JsString :=
  (sortBy compareIndices testCase.steps).map fun step ↦ trim step.action

def tracePathSet (testCase : GeneratedTestCase) : List JsString :=
  sortedUnique (testCase.figmaTraceRefs.map fun trace ↦
    trace.screenId ++ js "::" ++ (trace.nodePath.or trace.nodeId).getD trace.screenId)

def lifecycleTransitionSet (testCase : GeneratedTestCase) : List JsString :=
  sortedUnique (testCase.steps.filterMap (·.fieldLifecycleTransitionId))

/-- The separator of the joined steps. -/
def stepSeparator : JsString := [0x241F]

def isAmbiguousBoundary (fingerprint : EquivalenceClassFingerprint)
    (candidate : GeneratedTestCase) : Bool :=
  (fingerprint.oraclePolarity = .boundary && fingerprint.technique = .boundaryValueAnalysis) ||
    candidate.assumptions.length > 0 || candidate.openQuestions.length > 0

def distinctnessReason (representative candidate : GeneratedTestCase) :
    Option IntraClassDistinctnessReason :=
  if oracleCategory representative ≠ oracleCategory candidate then some .differentOracleCategory
  else if !sameSet representative.coveredActionIds candidate.coveredActionIds then
    some .differentActionSubset
  else if !sameSet (tracePathSet representative) (tracePathSet candidate) then
    some .differentStatePath
  else if !sameSet (lifecycleTransitionSet representative) (lifecycleTransitionSet candidate) then
    some .differentStatePath
  else if join stepSeparator (stepActionSequence representative) ≠
      join stepSeparator (stepActionSequence candidate) then some .differentStatePath
  else none

/-! ## The sweep -/

inductive IntraClassBoundaryVerdict
  | keep
  | redundant
  deriving DecidableEq

/-- The representative, the candidate and the fingerprint of their class. -/
abbrev IntraClassBoundaryClassifier :=
  GeneratedTestCase → GeneratedTestCase → EquivalenceClassFingerprint → IntraClassBoundaryVerdict

inductive FindingSource
  | deterministic
  | deterministicAndClassifier
  deriving DecidableEq

/-- The reason of every finding is `no_distinct_coverage`. -/
structure IntraEquivalenceClassRedundancyFinding where
  equivalenceClassKey : JsString
  representativeTestCaseId : JsString
  redundantTestCaseId : JsString
  fingerprint : EquivalenceClassFingerprint
  source : FindingSource
  deriving DecidableEq

def caseKey (testCase : GeneratedTestCase) : JsString :=
  equivalenceClassKey (buildEquivalenceClassFingerprint testCase)

structure Bucket where
  fingerprint : EquivalenceClassFingerprint
  cases : List GeneratedTestCase

/-- One turn of the loop that fills the buckets. -/
def addToBuckets (buckets : List (JsString × Bucket)) (testCase : GeneratedTestCase) :
    List (JsString × Bucket) :=
  match mapGet buckets (caseKey testCase) with
  | none => mapSet buckets (caseKey testCase)
      ⟨buildEquivalenceClassFingerprint testCase, [testCase]⟩
  | some bucket => mapSet buckets (caseKey testCase)
      { bucket with cases := bucket.cases ++ [testCase] }

structure SweepState where
  kept : List GeneratedTestCase
  findings : List IntraEquivalenceClassRedundancyFinding

section

variable (boundaryClassifier : Option IntraClassBoundaryClassifier)

/-- One turn of the loop over the candidates of a bucket. -/
def sweepCandidate (key : JsString) (fingerprint : EquivalenceClassFingerprint)
    (representative : GeneratedTestCase) (state : SweepState) (candidate : GeneratedTestCase) :
    SweepState :=
  if state.kept.any fun prior ↦ distinctnessReason prior candidate = none then
    let consulted := boundaryClassifier.filter fun _ ↦ isAmbiguousBoundary fingerprint candidate
    if consulted.any fun classify ↦ classify representative candidate fingerprint = .keep then
      { state with kept := state.kept ++ [candidate] }
    else
      { state with findings := state.findings ++
          [{ equivalenceClassKey := key
             representativeTestCaseId := representative.id
             redundantTestCaseId := candidate.id
             fingerprint := fingerprint
             source := if consulted.isSome then .deterministicAndClassifier
               else .deterministic }] }
  else { state with kept := state.kept ++ [candidate] }

def sweepBucket (entry : JsString × Bucket) : List IntraEquivalenceClassRedundancyFinding :=
  match entry.2.cases with
  | [] => []
  | first :: rest =>
      (rest.foldl (sweepCandidate boundaryClassifier entry.1 entry.2.fingerprint first)
        ⟨[first], []⟩).findings

def compareFindings (a b : IntraEquivalenceClassRedundancyFinding) : ℤ :=
  if a.equivalenceClassKey ≠ b.equivalenceClassKey then
    if a.equivalenceClassKey < b.equivalenceClassKey then -1 else 1
  else if a.representativeTestCaseId ≠ b.representativeTestCaseId then
    if a.representativeTestCaseId < b.representativeTestCaseId then -1 else 1
  else if a.redundantTestCaseId < b.redundantTestCaseId then -1 else 1

structure IntraClassRedundancyOutcome where
  findings : List IntraEquivalenceClassRedundancyFinding
  totalCases : ℕ
  classCount : ℕ
  redundantCount : ℕ
  redundancyRatio : JsNumber
  deriving DecidableEq

def roundTo (value : JsNumber) (digits : ℕ) : JsNumber :=
  (value.mul (.ofRat (10 ^ digits))).round.div (.ofRat (10 ^ digits))

def bucketsOf (testCases : List GeneratedTestCase) : List (JsString × Bucket) :=
  (sortBy (fun a b ↦ codeUnitCompare a.id b.id) testCases).foldl addToBuckets []

def detectIntraClassRedundancy (testCases : List GeneratedTestCase) :
    IntraClassRedundancyOutcome :=
  let buckets := bucketsOf testCases
  let findings := sortBy compareFindings (buckets.flatMap (sweepBucket boundaryClassifier))
  { findings := findings
    totalCases := testCases.length
    classCount := buckets.length
    redundantCount := findings.length
    redundancyRatio :=
      if testCases.length = 0 then 0
      else roundTo (JsNumber.div (.ofRat findings.length) (.ofRat testCases.length)) 6 }

end

end TestIntelligence.CoreEngine.EquivalenceClasses
