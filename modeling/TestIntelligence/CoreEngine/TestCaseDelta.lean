import TestIntelligence.CoreEngine.DuplicateDetection
import TestIntelligence.CoreEngine.IntentDelta

/-!
# The delta of two generations of test cases

`classifyTestCaseDelta` gives every test case of the prior and the current generation a row
with a verdict, from the fingerprints of the case and from what the intent delta and the visual
records say of the screens it traces to.
-/

namespace TestIntelligence.CoreEngine.TestCaseDelta

open Js Security Duplicates IntentDelta

/-! ## Reports -/

inductive VisualSidecarValidationOutcome
  | ok
  | schemaInvalid
  | lowConfidence
  | fallbackUsed
  | possiblePii
  | promptInjectionLikeText
  | conflictsWithFigmaMetadata
  | primaryUnavailable
  deriving DecidableEq

structure VisualSidecarValidationRecord where
  screenId : JsString
  outcomes : List VisualSidecarValidationOutcome
  meanConfidence : JsNumber

inductive TestCaseDeltaVerdict
  | new
  | unchanged
  | changed
  | obsolete
  | requiresReview
  deriving DecidableEq

inductive TestCaseDeltaReason
  | absentInPrior
  | absentInCurrent
  | fingerprintChanged
  | traceScreenChanged
  | traceScreenRemoved
  | visualAmbiguityIncreased
  | visualConfidenceDropped
  | reconciliationConflict
  deriving DecidableEq

def TestCaseDeltaReason.text : TestCaseDeltaReason → JsString
  | .absentInPrior => js "absent_in_prior"
  | .absentInCurrent => js "absent_in_current"
  | .fingerprintChanged => js "fingerprint_changed"
  | .traceScreenChanged => js "trace_screen_changed"
  | .traceScreenRemoved => js "trace_screen_removed"
  | .visualAmbiguityIncreased => js "visual_ambiguity_increased"
  | .visualConfidenceDropped => js "visual_confidence_dropped"
  | .reconciliationConflict => js "reconciliation_conflict"

structure TestCaseDeltaRow where
  testCaseId : JsString
  verdict : TestCaseDeltaVerdict
  reasons : List TestCaseDeltaReason
  affectedScreenIds : List JsString
  priorFingerprintHash : Option JsString
  currentFingerprintHash : Option JsString
  deriving DecidableEq

structure TestCaseDeltaTotals where
  new : ℕ
  unchanged : ℕ
  changed : ℕ
  obsolete : ℕ
  requiresReview : ℕ
  deriving DecidableEq

structure TestCaseDeltaReport where
  jobId : JsString
  generatedAt : JsString
  rows : List TestCaseDeltaRow
  totals : TestCaseDeltaTotals
  deriving DecidableEq

structure ClassifyTestCaseDeltaInput where
  jobId : JsString
  generatedAt : JsString
  prior : List GeneratedTestCase
  current : List GeneratedTestCase
  currentIntent : BusinessTestIntentIr
  intentDelta : Option IntentDeltaReport
  visual : Option (List VisualSidecarValidationRecord)
  visualConfidenceThreshold : Option JsNumber

/-- 0.7 -/
def testCaseDeltaDefaultVisualConfidenceFloor : JsNumber := .ofRat (7 / 10)

/-! ## Screens -/

def entriesOf (delta : Option IntentDeltaReport) : List IntentDeltaEntry :=
  delta.elim [] (·.entries)

def collectChangedScreenIds (delta : Option IntentDeltaReport) : List JsString :=
  setOf ((entriesOf delta).filterMap fun e ↦
    if e.changeType = .added then none
    else if e.changeType = .removed then none
    else e.screenId)

def collectRemovedScreenIds (delta : Option IntentDeltaReport) : List JsString :=
  setOf ((entriesOf delta).filterMap fun e ↦
    if e.kind = .screen ∧ e.changeType = .removed then some e.elementId else none)

def collectAmbiguityIncreasedScreenIds (delta : Option IntentDeltaReport) : List JsString :=
  setOf ((entriesOf delta).filterMap fun e ↦
    if e.changeType = .ambiguityIncreased then e.screenId else none)

structure ScreenVisual where
  meanConfidence : JsNumber
  conflict : Bool

def visualByScreen (visual : Option (List VisualSidecarValidationRecord)) :
    List (JsString × ScreenVisual) :=
  (visual.getD []).foldl (fun m r ↦
    mapSet m r.screenId ⟨r.meanConfidence, r.outcomes.contains .conflictsWithFigmaMetadata⟩) []

/-! ## One test case -/

/-- What is known of the screens. -/
structure ScreenIndex where
  currentScreenIds : List JsString
  changedScreenIds : List JsString
  removedScreenIds : List JsString
  ambiguityIncreasedScreenIds : List JsString
  visualByScreen : List (JsString × ScreenVisual)
  visualFloor : JsNumber

/-- What the visual signals of one screen add to the reasons. -/
def visualReasons (index : ScreenIndex) (screenId : JsString) : List TestCaseDeltaReason :=
  (match mapGet index.visualByScreen screenId with
    | none => []
    | some visual =>
        (if visual.meanConfidence.lt index.visualFloor then [.visualConfidenceDropped] else []) ++
          if visual.conflict then [.reconciliationConflict] else []) ++
    if screenId ∈ index.ambiguityIncreasedScreenIds then [.visualAmbiguityIncreased] else []

/-- The verdict and the reasons before the visual signals. -/
def compareCases (index : ScreenIndex) (affectedScreenIds : List JsString)
    (priorFingerprintHash currentFingerprintHash : Option JsString) :
    TestCaseDeltaVerdict × List TestCaseDeltaReason :=
  match priorFingerprintHash, currentFingerprintHash with
  | some _, none =>
      let everyTraceMissing := affectedScreenIds.all (!index.currentScreenIds.contains ·)
      if 0 < affectedScreenIds.length ∧ everyTraceMissing then (.obsolete, [.traceScreenRemoved])
      else (.obsolete, [.absentInCurrent])
  | none, some _ => (.new, [.absentInPrior])
  | some priorHash, some currentHash =>
      let fingerprintChanged := priorHash ≠ currentHash
      let traceChanged := affectedScreenIds.any index.changedScreenIds.contains
      let traceRemoved := affectedScreenIds.any index.removedScreenIds.contains
      (if fingerprintChanged ∨ traceChanged ∨ traceRemoved then .changed else .unchanged,
        (if traceRemoved then [.traceScreenRemoved] else []) ++
          (if fingerprintChanged then [.fingerprintChanged] else []) ++
          if traceChanged then [.traceScreenChanged] else [])
  | none, none => (.unchanged, [])

section

variable (sha256 : JsString → JsString) (toLowerCase : JsString → JsString)
  (isPunctuationOrSymbol : JsString → Bool)

def fingerprintHash (testCase : GeneratedTestCase) : JsString :=
  sha256Hex sha256 (.arr ((sortStrings
    (buildTestCaseFingerprint toLowerCase isPunctuationOrSymbol testCase)).map .str))

def traceScreenIds (traceCase : Option GeneratedTestCase) : List JsString :=
  traceCase.elim [] fun traceCase ↦ sortStrings (setOf traceCase.figmaTraceRefs)

def classifyOne (index : ScreenIndex) (id : JsString)
    (priorCase currentCase : Option GeneratedTestCase) : TestCaseDeltaRow :=
  let affectedScreenIds := traceScreenIds (currentCase.or priorCase)
  let hash := fingerprintHash sha256 toLowerCase isPunctuationOrSymbol
  let (verdict, reasons) :=
    compareCases index affectedScreenIds (priorCase.map hash) (currentCase.map hash)
  let signs := affectedScreenIds.flatMap (visualReasons index)
  let escalate := !signs.isEmpty
  ⟨id, if escalate ∧ verdict ≠ .obsolete then .requiresReview else verdict,
    sortBy (fun a b ↦ codeUnitCompare a.text b.text) (setOf (reasons ++ signs)),
    affectedScreenIds, priorCase.map hash, currentCase.map hash⟩

/-! ## The report -/

def compareRows (a b : TestCaseDeltaRow) : ℤ :=
  if a.testCaseId < b.testCaseId then -1 else if b.testCaseId < a.testCaseId then 1 else 0

/-- `totals.… += 1` -/
def TestCaseDeltaTotals.count (totals : TestCaseDeltaTotals) :
    TestCaseDeltaVerdict → TestCaseDeltaTotals
  | .new => { totals with new := totals.new + 1 }
  | .unchanged => { totals with unchanged := totals.unchanged + 1 }
  | .changed => { totals with changed := totals.changed + 1 }
  | .obsolete => { totals with obsolete := totals.obsolete + 1 }
  | .requiresReview => { totals with requiresReview := totals.requiresReview + 1 }

def computeTotals (rows : List TestCaseDeltaRow) : TestCaseDeltaTotals :=
  rows.foldl (fun totals r ↦ totals.count r.verdict) ⟨0, 0, 0, 0, 0⟩

def screenIndex (input : ClassifyTestCaseDeltaInput) (visualFloor : JsNumber) : ScreenIndex where
  currentScreenIds := setOf (input.currentIntent.screens.map (·.screenId))
  changedScreenIds := collectChangedScreenIds input.intentDelta
  removedScreenIds := collectRemovedScreenIds input.intentDelta
  ambiguityIncreasedScreenIds := collectAmbiguityIncreasedScreenIds input.intentDelta
  visualByScreen := visualByScreen input.visual
  visualFloor := visualFloor

/-- The rows in the order in which they are pushed. -/
def classifyAll (index : ScreenIndex) (prior current : List GeneratedTestCase) :
    List TestCaseDeltaRow :=
  let priorMap := mapById (·.id) prior
  let currentMap := mapById (·.id) current
  let classify := classifyOne sha256 toLowerCase isPunctuationOrSymbol index
  currentMap.map (fun (id, currentCase) ↦ classify id (mapGet priorMap id) (some currentCase)) ++
    priorMap.filterMap fun (id, priorCase) ↦
      if id ∈ currentMap.map Prod.fst then none else some (classify id (some priorCase) none)

/-- The error is the message of a `RangeError`. -/
def classifyTestCaseDelta (input : ClassifyTestCaseDeltaInput) :
    Except JsString TestCaseDeltaReport :=
  let visualFloor :=
    input.visualConfidenceThreshold.getD testCaseDeltaDefaultVisualConfidenceFloor
  if visualFloor.lt 0 || JsNumber.lt 1 visualFloor then
    .error (js "classifyTestCaseDelta: visualConfidenceThreshold must be in [0, 1]")
  else
    let rows := sortBy compareRows (classifyAll sha256 toLowerCase isPunctuationOrSymbol
      (screenIndex input visualFloor) input.prior input.current)
    .ok ⟨input.jobId, input.generatedAt, rows, computeTotals rows⟩

end

end TestIntelligence.CoreEngine.TestCaseDelta
