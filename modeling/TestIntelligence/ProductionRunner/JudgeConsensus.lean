import TestIntelligence.Js.Patterns
import TestIntelligence.Js.Sorting
import TestIntelligence.Lists.FirstOccurrences

/-!
# The consensus of the judges

How `buildJudgeConsensus` reaches its verdict: the panel is normalized, a judge with
veto power decides alone, and otherwise the votes are counted and weighed.  The findings and
the repair instructions of the panel are kept once and sorted.  Weights are exact rationals.
`String.prototype.localeCompare` is a parameter.
-/

namespace TestIntelligence.ProductionRunner.JudgeConsensus

open Js Lists

inductive ConsensusVerdictLabel
  | accept
  | repair
  | reject
  deriving DecidableEq, Repr

def toSeverityRank : ConsensusVerdictLabel → ℕ
  | .reject => 2
  | .repair => 1
  | .accept => 0

inductive FindingCategory
  | schemaClass
  | crossModalMismatch
  | irAllowlistViolation
  | hallucination
  | a11yGap
  | coverageGap
  | other
  deriving DecidableEq, Repr

def FindingCategory.text : FindingCategory → JsString
  | .schemaClass => js "schema_class"
  | .crossModalMismatch => js "cross_modal_mismatch"
  | .irAllowlistViolation => js "ir_allowlist_violation"
  | .hallucination => js "hallucination"
  | .a11yGap => js "a11y_gap"
  | .coverageGap => js "coverage_gap"
  | .other => js "other"

inductive JudgeFindingScope
  | job
  | testCase
  deriving DecidableEq

def JudgeFindingScope.text : JudgeFindingScope → JsString
  | .job => js "job"
  | .testCase => js "test_case"

inductive LogicJudgeFindingSeverity
  | warning
  | error
  deriving DecidableEq

def LogicJudgeFindingSeverity.text : LogicJudgeFindingSeverity → JsString
  | .warning => js "warning"
  | .error => js "error"

structure JudgeConsensusFinding where
  scope : Option JudgeFindingScope
  testCaseId : JsString
  code : JsString
  message : JsString
  severity : Option LogicJudgeFindingSeverity
  category : FindingCategory
  deriving DecidableEq

structure RepairInstruction where
  testCaseId : JsString
  path : JsString
  instruction : JsString
  instructionTruncated : Option Bool
  kind : Option JsString
  message : Option JsString
  deriving DecidableEq

structure JudgeConsensusPanelEntry where
  judgeId : JsString
  verdict : ConsensusVerdictLabel
  weight : ℚ
  confidence : Option JsNumber
  findings : List JudgeConsensusFinding
  repairInstructions : List RepairInstruction
  truncatedInstructionCount : Option JsNumber
  family : Option JsString
  region : Option JsString
  modelId : Option JsString
  promptVersion : Option JsString

/-! ## Normalization -/

inductive Failure
  | typeError (message : JsString)
  | rangeError (message : JsString)
  deriving DecidableEq

def normalizeWeight (weight : ℚ) : ℚ := if 0 < weight then weight else 1

def normalizeConfidence (confidence : Option JsNumber) : Option JsNumber :=
  confidence.filter fun x ↦ x.isFinite && JsNumber.le 0 x && x.le 1

def normalizeJudgeVerdict (entry : JudgeConsensusPanelEntry) : JudgeConsensusPanelEntry :=
  if (entry.judgeId = js "a11y_judge" ∨ entry.judgeId = js "coverage_judge") ∧
      entry.verdict = .reject then
    { entry with verdict := .repair }
  else entry

def judgeModelFamilies : List JsString :=
  ["anthropic", "azure-openai", "google", "in-house", "mistral", "openai"].map js

def judgeModelRegions : List JsString := ["eu", "global", "us"].map js

/-- The start of the messages of a panel entry. -/
def entryMessage (judgeId : JsString) (rest : JsString) : JsString :=
  js "judge-consensus: panel entry \"" ++ judgeId ++ js "\" has " ++ rest

def checkKnown (known : List JsString) (judgeId : JsString) (field : String) :
    Option JsString → Except Failure Unit
  | none => .ok ()
  | some value =>
      if known.contains value then .ok ()
      else .error (.rangeError (entryMessage judgeId
        (js "unknown " ++ js field ++ js " \"" ++ value ++ js "\"")))

def assertOptionalNonEmptyString (judgeId : JsString) (field : String) :
    Option JsString → Except Failure Unit
  | some [] => .error (.typeError (entryMessage judgeId
      (js "invalid " ++ js field ++ js " (must be a non-empty string when present)")))
  | _ => .ok ()

/-- The checks that may refuse an entry, in their order. -/
def checkPanelEntry (entry : JudgeConsensusPanelEntry) : Except Failure Unit := do
  checkKnown judgeModelFamilies entry.judgeId "family" entry.family
  checkKnown judgeModelRegions entry.judgeId "region" entry.region
  assertOptionalNonEmptyString entry.judgeId "modelId" entry.modelId
  assertOptionalNonEmptyString entry.judgeId "promptVersion" entry.promptVersion

/-- "$job" -/
def jobLevelTestCaseId : JsString := js "$job"

def inferFindingScope (testCaseId : JsString) : JudgeFindingScope :=
  if testCaseId = jobLevelTestCaseId then .job else .testCase

def normalizeConsensusFinding (finding : JudgeConsensusFinding) : JudgeConsensusFinding :=
  { finding with scope := some (finding.scope.getD (inferFindingScope finding.testCaseId)) }

def countTruncatedInstructions (repairInstructions : List RepairInstruction) : ℕ :=
  (repairInstructions.filter fun instruction ↦
    instruction.instructionTruncated = some true).length

/-- The entry that `normalizePanelEntry` returns. -/
def normalizedEntry (entry : JudgeConsensusPanelEntry) : JudgeConsensusPanelEntry :=
  let normalized := normalizeJudgeVerdict { entry with weight := normalizeWeight entry.weight }
  { normalized with
    confidence := normalizeConfidence normalized.confidence
    findings := normalized.findings.map normalizeConsensusFinding
    truncatedInstructionCount := some (normalized.truncatedInstructionCount.getD
      (.ofRat (countTruncatedInstructions normalized.repairInstructions))) }

def normalizePanelEntry (entry : JudgeConsensusPanelEntry) :
    Except Failure JudgeConsensusPanelEntry :=
  match checkPanelEntry entry with
  | .error failure => .error failure
  | .ok () => .ok (normalizedEntry entry)

/-! ## Veto power -/

def isSchemaClassFinding (entry : JudgeConsensusPanelEntry) : Bool :=
  entry.findings.any (fun finding ↦
    finding.category == .schemaClass || includes finding.code (js "schema")) ||
  entry.repairInstructions.any fun instruction ↦ instruction.kind == some (js "schema_violation")

def isCrossModalMismatchFinding (entry : JudgeConsensusPanelEntry) : Bool :=
  entry.findings.any fun finding ↦ finding.category == .crossModalMismatch

def isIrAllowlistViolationFinding (entry : JudgeConsensusPanelEntry) : Bool :=
  entry.findings.any fun finding ↦
    finding.category == .irAllowlistViolation || (js "invented_").isPrefixOf finding.code

def transientJudgeRefusalCodes : List JsString :=
  ["canceled", "gateway_unavailable", "rate_limited", "timeout"].map js

def isTransientInfrastructureReject (entry : JudgeConsensusPanelEntry) : Bool :=
  entry.verdict == .reject && entry.repairInstructions.isEmpty && !entry.findings.isEmpty &&
    entry.findings.all fun finding ↦ transientJudgeRefusalCodes.contains finding.code

/-- The veto that comes with the role of a judge, whatever its verdict. -/
def hasFindingVeto (entry : JudgeConsensusPanelEntry) : Bool :=
  if entry.judgeId = js "logic_judge" then isSchemaClassFinding entry
  else if entry.judgeId = js "faithfulness_judge" then isCrossModalMismatchFinding entry
  else if entry.judgeId = js "hallucination_judge" then isIrAllowlistViolationFinding entry
  else false

def hasVeto (entry : JudgeConsensusPanelEntry) : Bool :=
  (JsNumber.le (.ofRat (8 / 10)) (entry.confidence.getD 1) && entry.verdict == .reject &&
    !isTransientInfrastructureReject entry) || hasFindingVeto entry

section

variable (localeCompare : JsString → JsString → ℤ)

def selectHigherSeverity (left right : JudgeConsensusPanelEntry) : JudgeConsensusPanelEntry :=
  if toSeverityRank left.verdict ≠ toSeverityRank right.verdict then
    if toSeverityRank right.verdict < toSeverityRank left.verdict then left else right
  else if left.weight ≠ right.weight then
    if right.weight < left.weight then left else right
  else if localeCompare left.judgeId right.judgeId ≤ 0 then left else right

def selectVeto (panel : List JudgeConsensusPanelEntry) : Option JudgeConsensusPanelEntry :=
  (panel.filter hasVeto).foldl
    (fun selected entry ↦ some (selected.elim entry (selectHigherSeverity localeCompare · entry)))
    none

end

/-! ## The vote -/

structure Tally (β : Type) where
  accept : β
  repair : β
  reject : β

def Tally.get {β : Type} (t : Tally β) : ConsensusVerdictLabel → β
  | .accept => t.accept
  | .repair => t.repair
  | .reject => t.reject

def Tally.increase {β : Type} [Add β] (t : Tally β) (label : ConsensusVerdictLabel) (x : β) :
    Tally β :=
  match label with
  | .accept => { t with accept := t.accept + x }
  | .repair => { t with repair := t.repair + x }
  | .reject => { t with reject := t.reject + x }

/-- `Object.entries` -/
def Tally.entries {β : Type} (t : Tally β) : List (ConsensusVerdictLabel × β) :=
  [(.accept, t.accept), (.repair, t.repair), (.reject, t.reject)]

def Tally.most {β : Type} [Max β] (t : Tally β) : β := max (max t.accept t.repair) t.reject

def tally {β : Type} [Zero β] [Add β] (amount : JudgeConsensusPanelEntry → β)
    (panel : List JudgeConsensusPanelEntry) : Tally β :=
  panel.foldl (fun t entry ↦ t.increase entry.verdict (amount entry)) ⟨0, 0, 0⟩

inductive AgreementShape
  | unanimous
  | majority
  | split
  | vetoed
  deriving DecidableEq, Repr

def classifyAgreementShape (panel : List JudgeConsensusPanelEntry)
    (vetoCandidate : Option JudgeConsensusPanelEntry) : AgreementShape :=
  if vetoCandidate.isSome then .vetoed
  else
    let counts : Tally ℕ := tally (fun _ ↦ 1) panel
    if (counts.entries.filter fun p ↦ 0 < p.2).length = 1 then .unanimous
    else if (counts.entries.filter fun p ↦ p.2 = counts.most).length = 1 then .majority
    else .split

def resolveVotingVerdict (panel : List JudgeConsensusPanelEntry) (agreementShape : AgreementShape)
    (vetoCandidate : Option JudgeConsensusPanelEntry) : ConsensusVerdictLabel :=
  let totals : Tally ℚ := tally (·.weight) panel
  match agreementShape with
  | .vetoed => vetoCandidate.elim .repair (·.verdict)
  | .unanimous =>
      if 0 < totals.accept then .accept else if 0 < totals.repair then .repair else .reject
  | .majority =>
      let tied := (totals.entries.filter fun p ↦ p.2 = totals.most).map Prod.fst
      let majorityVerdict := tied.headD .accept
      if majorityVerdict = .accept ∧ 0 < totals.repair ∧ totals.reject = 0 then .repair
      else majorityVerdict
  | .split => .repair

/-! ## Findings and repair instructions -/

def truncateWithEllipsis (value : JsString) (maxLength : ℕ) : JsString × Bool :=
  if value.length ≤ maxLength then (value, false)
  else (value.take (maxLength - 3) ++ js "...", true)

def truncateMessage (value : JsString) : JsString := (truncateWithEllipsis value 240).1

def truncatePath (value : JsString) : JsString := (truncateWithEllipsis value 160).1

def truncateInstruction (value : JsString) : JsString × Bool := truncateWithEllipsis value 240

def normalizedInstruction (instruction : RepairInstruction) : RepairInstruction where
  testCaseId := instruction.testCaseId
  path := truncatePath instruction.path
  instruction := (truncateInstruction instruction.instruction).1
  instructionTruncated :=
    if instruction.instructionTruncated = some true ∨
        (truncateInstruction instruction.instruction).2 then some true
    else none
  kind := instruction.kind
  message := instruction.message.map truncateMessage

/-- The texts of an instruction by which it is compared and told apart. -/
def instructionTexts (instruction : RepairInstruction) : List JsString :=
  [instruction.kind.getD [], instruction.message.getD [], instruction.testCaseId,
    instruction.path, instruction.instruction]

def normalizedFinding (finding : JudgeConsensusFinding) : JudgeConsensusFinding :=
  { normalizeConsensusFinding finding with message := truncateMessage finding.message }

def findingScope (finding : JudgeConsensusFinding) : JudgeFindingScope :=
  finding.scope.getD (inferFindingScope finding.testCaseId)

def findingTexts (finding : JudgeConsensusFinding) : List JsString :=
  [(findingScope finding).text, finding.testCaseId, finding.category.text, finding.code,
    finding.severity.elim [] (·.text), finding.message]

/-- `[...].join("\0")` -/
def dedupeKey (texts : List JsString) : JsString := join [0x0] texts

section

variable (localeCompare : JsString → JsString → ℤ)

/-- `a.localeCompare(b) || …` over two lists of texts. -/
def compareTexts : List JsString → List JsString → ℤ
  | s :: ss, t :: ts => if localeCompare s t ≠ 0 then localeCompare s t else compareTexts ss ts
  | _, _ => 0

def compareInstruction (left right : RepairInstruction) : ℤ :=
  compareTexts localeCompare (instructionTexts left) (instructionTexts right)

def compareFinding (left right : JudgeConsensusFinding) : ℤ :=
  compareTexts localeCompare (findingTexts left) (findingTexts right)

def dedupeRepairInstructions (panel : List JudgeConsensusPanelEntry) : List RepairInstruction :=
  sortBy (compareInstruction localeCompare)
    (firstsBy (fun instruction ↦ dedupeKey (instructionTexts instruction))
      (panel.flatMap fun entry ↦ entry.repairInstructions.map normalizedInstruction))

def dedupeFindings (panel : List JudgeConsensusPanelEntry) : List JudgeConsensusFinding :=
  sortBy (compareFinding localeCompare)
    (firstsBy (fun finding ↦ dedupeKey (findingTexts finding))
      (panel.flatMap fun entry ↦ entry.findings.map normalizedFinding))

end

/-! ## The consensus -/

/-- What the state of the repair goes by. -/
structure JudgeConsensusRepairHistory where
  attempted : Option Bool
  repairIterationCount : Option JsNumber

inductive RepairState
  | none
  | repairRequired
  | repaired
  deriving DecidableEq

structure BuildJudgeConsensusInput where
  jobId : JsString
  panel : List JudgeConsensusPanelEntry
  repairHistory : Option JudgeConsensusRepairHistory

structure JudgeConsensusVeto where
  judgeId : JsString
  verdict : ConsensusVerdictLabel
  findingCodes : List JsString

structure JudgeConsensusVerdict where
  jobId : JsString
  verdict : ConsensusVerdictLabel
  agreementShape : AgreementShape
  repairState : RepairState
  activeFindings : List JudgeConsensusFinding
  repairInstructions : List RepairInstruction
  truncatedInstructionCount : ℕ
  vetoBy : Option JudgeConsensusVeto
  panel : List JudgeConsensusPanelEntry

def isRepairAttempted (repairHistory : Option JudgeConsensusRepairHistory) : Bool :=
  let repairIterationCount := JsNumber.max ((repairHistory.bind (·.repairIterationCount)).getD 0) 0
  repairHistory.bind (·.attempted) == some true || JsNumber.lt 0 repairIterationCount

def repairStateOf (attempted : Bool) (verdict : ConsensusVerdictLabel) : RepairState :=
  if attempted && verdict = .accept then .repaired
  else if verdict = .repair then .repairRequired
  else .none

variable (localeCompare : JsString → JsString → ℤ)

/-- The artifact for a normalized panel. -/
def consensusOf (jobId : JsString) (repairHistory : Option JudgeConsensusRepairHistory)
    (panel : List JudgeConsensusPanelEntry) : JudgeConsensusVerdict :=
  let activeFindings := dedupeFindings localeCompare panel
  let repairInstructions := dedupeRepairInstructions localeCompare panel
  let vetoCandidate := selectVeto localeCompare panel
  let agreementShape := classifyAgreementShape panel vetoCandidate
  let verdict := resolveVotingVerdict panel agreementShape vetoCandidate
  { jobId
    verdict
    agreementShape
    repairState := repairStateOf (isRepairAttempted repairHistory) verdict
    activeFindings
    repairInstructions
    truncatedInstructionCount := countTruncatedInstructions repairInstructions
    vetoBy := vetoCandidate.map fun entry ↦
      ⟨entry.judgeId, entry.verdict, entry.findings.map (·.code)⟩
    panel }

def buildJudgeConsensus (input : BuildJudgeConsensusInput) :
    Except Failure JudgeConsensusVerdict :=
  if trim input.jobId = [] then
    .error (.typeError (js "buildJudgeConsensus: jobId must be non-empty"))
  else
    match input.panel.mapM normalizePanelEntry with
    | .error failure => .error failure
    | .ok panel =>
        if panel = [] then
          .error (.rangeError
            (js "buildJudgeConsensus: panel must contain at least one judge"))
        else .ok (consensusOf localeCompare input.jobId input.repairHistory panel)

end TestIntelligence.ProductionRunner.JudgeConsensus
