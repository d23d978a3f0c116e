import TestIntelligence.Js.Outcome
import TestIntelligence.Lists.FirstOccurrences
import TestIntelligence.Security.Records

/-!
# The parallel-pass case merger

`mergeGeneratedTestCaseListsWithProvenance` over two lists of generated test cases.  The
members of a test case, of a trace reference and of the quality signals that the merger
copies without reading them are of an arbitrary type.
-/

namespace TestIntelligence.AgenticHarness.CaseMerger

open Js Security Lists

/-! ## The lists -/

structure FigmaTraceRef (R : Type) where
  screenId : JsString
  rest : R

structure QualitySignals (R : Type) where
  coveredFieldIds : List JsString
  coveredActionIds : List JsString
  coveredValidationIds : List JsString
  coveredNavigationIds : List JsString
  rest : R
  deriving DecidableEq

structure GeneratedTestCase (R : Type) where
  id : JsString
  technique : JsString
  figmaTraceRefs : List (FigmaTraceRef R)
  qualitySignals : QualitySignals R
  rest : R

structure GeneratedTestCaseList (R : Type) where
  schemaVersion : JsString
  jobId : JsString
  testCases : List (GeneratedTestCase R)

structure RepairInstruction where
  testCaseId : JsString

/-! ## Signatures -/

/-- Sentinel screen id used when a test case carries no `figmaTraceRefs`. -/
def noScreenSentinel : JsString := js "__no_screen__"

def sortedUnique (values : List JsString) : List JsString := sortStrings (setOf values)

section

variable {R : Type}

def deriveCanonicalScreenId (testCase : GeneratedTestCase R) : JsString :=
  (sortedUnique (testCase.figmaTraceRefs.map (·.screenId))).head?.getD noScreenSentinel

def signatureFields (testCase : GeneratedTestCase R) : List (JsString × Option Json) := [
  (js "screenId", some (.str (deriveCanonicalScreenId testCase))),
  (js "technique", some (.str testCase.technique)),
  (js "coveredFieldIds",
    some (.arr ((sortedUnique testCase.qualitySignals.coveredFieldIds).map .str))),
  (js "coveredActionIds",
    some (.arr ((sortedUnique testCase.qualitySignals.coveredActionIds).map .str)))]

def buildCaseMergerSignature (testCase : GeneratedTestCase R) : JsString :=
  canonicalJson (.obj (presentMembers (signatureFields testCase)))

structure IndexedTestCase (R : Type) where
  index : ℕ
  testCase : GeneratedTestCase R
  signature : JsString

def indexed (testCase : GeneratedTestCase R) (index : ℕ) : IndexedTestCase R :=
  ⟨index, testCase, buildCaseMergerSignature testCase⟩

structure SignatureIndex (R : Type) where
  bySignature : List (JsString × IndexedTestCase R)
  ordered : List (IndexedTestCase R)

/-- One turn of the loop of `indexBySignature`. -/
def SignatureIndex.add (index : SignatureIndex R) (entry : IndexedTestCase R) :
    SignatureIndex R where
  bySignature :=
    if (mapGet index.bySignature entry.signature).isSome then index.bySignature
    else mapSet index.bySignature entry.signature entry
  ordered := index.ordered ++ [entry]

def indexBySignature (list : GeneratedTestCaseList R) : SignatureIndex R :=
  (list.testCases.zipIdx.map fun p ↦ indexed p.1 p.2).foldl SignatureIndex.add ⟨[], []⟩

def collectRepairTargets (instructions : Option (List RepairInstruction)) : List JsString :=
  match instructions with
  | none => []
  | some instructions =>
      instructions.foldl (fun ids instruction ↦
        if instruction.testCaseId.length = 0 then ids else setAdd ids instruction.testCaseId) []

/-! ## Conflicts -/

structure MergedSignals (R : Type) where
  signals : QualitySignals R
  coverageGrew : Bool

def mergeQualitySignalCoverage (primary secondary : QualitySignals R) : MergedSignals R :=
  let mergedFields := sortedUnique (primary.coveredFieldIds ++ secondary.coveredFieldIds)
  let mergedActions := sortedUnique (primary.coveredActionIds ++ secondary.coveredActionIds)
  let mergedValidations :=
    sortedUnique (primary.coveredValidationIds ++ secondary.coveredValidationIds)
  let mergedNavigations :=
    sortedUnique (primary.coveredNavigationIds ++ secondary.coveredNavigationIds)
  { signals := ⟨mergedFields, mergedActions, mergedValidations, mergedNavigations, primary.rest⟩
    coverageGrew := decide (mergedFields.length > primary.coveredFieldIds.length) ||
      decide (mergedActions.length > primary.coveredActionIds.length) ||
      decide (mergedValidations.length > primary.coveredValidationIds.length) ||
      decide (mergedNavigations.length > primary.coveredNavigationIds.length) }

inductive CaseMergerProvenance
  | runA
  | runB
  | both
  deriving DecidableEq

inductive CaseMergerConflictResolution
  | noConflict
  | preferUnrepaired
  | positiveBiasRunA
  deriving DecidableEq

structure ConflictDecision (R : Type) where
  winner : IndexedTestCase R
  loser : IndexedTestCase R
  resolution : CaseMergerConflictResolution

def decideConflict (runA runB : IndexedTestCase R) (repairsA repairsB : List JsString) :
    ConflictDecision R :=
  let aHasRepair := decide (runA.testCase.id ∈ repairsA)
  let bHasRepair := decide (runB.testCase.id ∈ repairsB)
  if aHasRepair && !bHasRepair then ⟨runB, runA, .preferUnrepaired⟩
  else if bHasRepair && !aHasRepair then ⟨runA, runB, .preferUnrepaired⟩
  else ⟨runA, runB, .positiveBiasRunA⟩

/-! ## The merge -/

structure CaseMergerReportEntry where
  testCaseId : JsString
  provenance : CaseMergerProvenance
  signature : JsString
  technique : JsString
  screenId : JsString
  coveredFieldIds : List JsString
  coveredActionIds : List JsString
  conflictResolution : CaseMergerConflictResolution
  droppedTestCaseId : Option JsString
  qualitySignalsCoverageMerged : Bool
  deriving DecidableEq

def buildEntry (winner : IndexedTestCase R) (provenance : CaseMergerProvenance)
    (resolution : CaseMergerConflictResolution) (droppedTestCaseId : Option JsString)
    (qualitySignalsCoverageMerged : Bool) (qualitySignalsForReport : QualitySignals R) :
    CaseMergerReportEntry where
  testCaseId := winner.testCase.id
  provenance := provenance
  signature := winner.signature
  technique := winner.testCase.technique
  screenId := deriveCanonicalScreenId winner.testCase
  coveredFieldIds := sortedUnique qualitySignalsForReport.coveredFieldIds
  coveredActionIds := sortedUnique qualitySignalsForReport.coveredActionIds
  conflictResolution := resolution
  droppedTestCaseId := droppedTestCaseId
  qualitySignalsCoverageMerged := qualitySignalsCoverageMerged

/-- What one turn of a loop pushes. -/
structure Outcome (R : Type) where
  testCase : GeneratedTestCase R
  entry : CaseMergerReportEntry

/-- A case without a counterpart in the other pass. -/
def keepCase (provenance : CaseMergerProvenance) (entry : IndexedTestCase R) : Outcome R where
  testCase := entry.testCase
  entry := buildEntry entry provenance .noConflict none false entry.testCase.qualitySignals

/-- The winner with the coverage of its counterpart, which is the loser. -/
def mergePair (decision : ConflictDecision R) : Outcome R :=
  let mergedSignals := mergeQualitySignalCoverage decision.winner.testCase.qualitySignals
    decision.loser.testCase.qualitySignals
  { testCase := { decision.winner.testCase with qualitySignals := mergedSignals.signals }
    entry := buildEntry decision.winner .both decision.resolution
      (some decision.loser.testCase.id) mergedSignals.coverageGrew mergedSignals.signals }

structure MergeState (R : Type) where
  mergedCases : List (GeneratedTestCase R)
  entries : List CaseMergerReportEntry
  consumedFromB : List JsString
  conflictsResolvedByRepair : ℕ
  conflictsResolvedByPositiveBias : ℕ

def MergeState.push (state : MergeState R) (outcome : Outcome R) : MergeState R :=
  { state with
    mergedCases := state.mergedCases ++ [outcome.testCase]
    entries := state.entries ++ [outcome.entry] }

/-- The first entry of its signature. -/
def SignatureIndex.leads (index : SignatureIndex R) (entry : IndexedTestCase R) : Bool :=
  (mapGet index.bySignature entry.signature).map (·.index) = some entry.index

/-- The counters and the consumed signatures when a case meets its counterpart. -/
def MergeState.resolve (state : MergeState R) (matchB : IndexedTestCase R)
    (resolution : CaseMergerConflictResolution) : MergeState R :=
  let state := { state with consumedFromB := setAdd state.consumedFromB matchB.signature }
  if resolution = .preferUnrepaired then
    { state with conflictsResolvedByRepair := state.conflictsResolvedByRepair + 1 }
  else
    { state with
      conflictsResolvedByPositiveBias := state.conflictsResolvedByPositiveBias + 1 }

/-- One turn of the loop over pass A. -/
def visitA (indexedA indexedB : SignatureIndex R) (repairsA repairsB : List JsString)
    (state : MergeState R) (entryA : IndexedTestCase R) : MergeState R :=
  if !indexedA.leads entryA then state
  else
    match mapGet indexedB.bySignature entryA.signature with
    | none => state.push (keepCase .runA entryA)
    | some matchB =>
        let decision := decideConflict entryA matchB repairsA repairsB
        (state.resolve matchB decision.resolution).push (mergePair decision)

/-- One turn of the loop over pass B. -/
def visitB (indexedA indexedB : SignatureIndex R) (state : MergeState R)
    (entryB : IndexedTestCase R) : MergeState R :=
  if !indexedB.leads entryB then state
  else if entryB.signature ∈ state.consumedFromB then state
  else if (mapGet indexedA.bySignature entryB.signature).isSome then state
  else state.push (keepCase .runB entryB)

structure CaseMergerRepairContext where
  runA : Option (List RepairInstruction)
  runB : Option (List RepairInstruction)

structure MergeInput (R : Type) where
  runA : GeneratedTestCaseList R
  runB : GeneratedTestCaseList R
  generatedAt : JsString
  repairs : Option CaseMergerRepairContext

structure CaseMergerTotals where
  runACount : ℕ
  runBCount : ℕ
  mergedCount : ℕ
  onlyInRunA : ℕ
  onlyInRunB : ℕ
  inBoth : ℕ
  conflictsResolvedByRepair : ℕ
  conflictsResolvedByPositiveBias : ℕ
  deriving DecidableEq

structure CaseMergerReport where
  schemaVersion : JsString
  contractVersion : JsString
  jobId : JsString
  generatedAt : JsString
  totals : CaseMergerTotals
  entries : List CaseMergerReportEntry

structure MergeResult (R : Type) where
  merged : GeneratedTestCaseList R
  report : CaseMergerReport

inductive MergeError
  | rangeError (message : JsString)
  | typeError (message : JsString)
  deriving DecidableEq

def caseMergerReportSchemaVersion : JsString := js "1.0.0"

def testIntelligenceContractVersion : JsString := js "1.39.0"

def MergeInput.repairsA (input : MergeInput R) : List JsString :=
  collectRepairTargets (input.repairs.bind (·.runA))

def MergeInput.repairsB (input : MergeInput R) : List JsString :=
  collectRepairTargets (input.repairs.bind (·.runB))

/-- The state behind both loops. -/
def MergeInput.visited (input : MergeInput R) : MergeState R :=
  let indexedA := indexBySignature input.runA
  let indexedB := indexBySignature input.runB
  let afterA := indexedA.ordered.foldl (visitA indexedA indexedB input.repairsA input.repairsB)
    ⟨[], [], [], 0, 0⟩
  indexedB.ordered.foldl (visitB indexedA indexedB) afterA

def countProvenance (entries : List CaseMergerReportEntry) (provenance : CaseMergerProvenance) :
    ℕ :=
  (entries.filter fun entry ↦ entry.provenance = provenance).length

def mergeGeneratedTestCaseListsWithProvenance (input : MergeInput R) :
    Except MergeError (MergeResult R) :=
  if input.runA.jobId ≠ input.runB.jobId then
    .error (.rangeError
      (js "mergeGeneratedTestCaseListsWithProvenance: lists must share the same jobId"))
  else if input.generatedAt.length = 0 then
    .error (.typeError
      (js "mergeGeneratedTestCaseListsWithProvenance: generatedAt must be a non-empty string"))
  else
    let state := input.visited
    let mergedCases := sortOn (·.id) state.mergedCases
    let entries := sortOn (·.testCaseId) state.entries
    let totals : CaseMergerTotals :=
      { runACount := input.runA.testCases.length
        runBCount := input.runB.testCases.length
        mergedCount := mergedCases.length
        onlyInRunA := countProvenance entries .runA
        onlyInRunB := countProvenance entries .runB
        inBoth := countProvenance entries .both
        conflictsResolvedByRepair := state.conflictsResolvedByRepair
        conflictsResolvedByPositiveBias := state.conflictsResolvedByPositiveBias }
    .ok
      { merged := ⟨input.runA.schemaVersion, input.runA.jobId, mergedCases⟩
        report := ⟨caseMergerReportSchemaVersion, testIntelligenceContractVersion,
          input.runA.jobId, input.generatedAt, totals, entries⟩ }

/-- The entry point of the callers that do not persist the report. -/
def mergeGeneratedTestCaseLists (runA runB : GeneratedTestCaseList R) :
    Except MergeError (GeneratedTestCaseList R) := do
  let result ← mergeGeneratedTestCaseListsWithProvenance
    { runA, runB, generatedAt := js "1970-01-01T00:00:00.000Z", repairs := none }
  return result.merged

end

end TestIntelligence.AgenticHarness.CaseMerger
