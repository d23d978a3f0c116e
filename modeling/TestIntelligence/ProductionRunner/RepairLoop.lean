import TestIntelligence.Js.Sorting
import TestIntelligence.ProductionRunner.JudgeConsensus
import TestIntelligence.Security.ContentHash

/-!
# The repair loop

`runRepairLoop` regenerates a list of test cases and has it judged again until the
judges accept or reject it, a budget or the number of iterations runs out, or two
iterations in a row end alike.  The callbacks, the writing of artifacts, sha256 and
`String.prototype.localeCompare` are parameters; a callback is called at most once in
an iteration.
-/

namespace TestIntelligence.ProductionRunner.RepairLoop

open Js Security JudgeConsensus

/-! ## Lists and verdicts -/

structure GeneratedTestCaseList where
  json : Json

def GeneratedTestCaseList.testCaseCount (list : GeneratedTestCaseList) : ℕ :=
  match list.json with
  | .obj members =>
      match mapGet members (js "testCases") with
      | some (.arr cases) => cases.length
      | _ => 0
  | _ => 0

def GeneratedTestCaseList.canonical (list : GeneratedTestCaseList) : JsString :=
  canonicalJson list.json

structure RepairInstruction where
  testCaseId : JsString
  path : JsString
  instruction : JsString
  instructionTruncated : Bool
  kind : Option JsString
  message : Option JsString

/-- The findings are their codes. -/
structure JudgeVerdict where
  verdict : ConsensusVerdictLabel
  findingCodes : List JsString
  repairInstructions : List RepairInstruction

structure HallucinationFinding where
  testCaseId : JsString
  stepIndex : Option JsNumber
  message : JsString

structure VisualMismatch where
  testCaseId : JsString
  stepIndex : Option JsNumber
  expectedLabel : JsString
  visibleLabel : JsString
  message : JsString

structure FaithfulnessVerdict where
  verdict : ConsensusVerdictLabel
  hallucinations : List HallucinationFinding
  mismatches : List VisualMismatch

/-! ## Repair instructions -/

def truncateWithEllipsis (value : JsString) (maxLength : ℕ) : JsString × Bool :=
  if value.length ≤ maxLength then (value, false)
  else (value.take (maxLength - 3) ++ js "...", true)

def truncatePath (value : JsString) : JsString := (truncateWithEllipsis value 160).1

def truncateMessage (value : JsString) : JsString := (truncateWithEllipsis value 240).1

def truncateInstruction (value : JsString) : JsString × Bool := truncateWithEllipsis value 240

def clipped (ri : RepairInstruction) : RepairInstruction :=
  let instruction := truncateInstruction ri.instruction
  { ri with
    path := truncatePath ri.path
    instruction := instruction.1
    instructionTruncated := ri.instructionTruncated || instruction.2
    message := ri.message.map truncateMessage }

/-- An instruction that is made from a finding of the faithfulness judge. -/
def synthesized (testCaseId path text : JsString) : RepairInstruction :=
  clipped ⟨testCaseId, path, text, false, none, none⟩

def stepPath (stepIndex : Option JsNumber) (suffix : String) (otherwise : String) : JsString :=
  stepIndex.elim (js otherwise) fun i ↦ js "steps[" ++ numberText i ++ js "]" ++ js suffix

def hallucinationInstruction (finding : HallucinationFinding) : RepairInstruction :=
  synthesized finding.testCaseId (stepPath finding.stepIndex "" "$case")
    (js "Faithfulness hallucination: " ++ finding.message)

def mismatchInstruction (mismatch : VisualMismatch) : RepairInstruction :=
  synthesized mismatch.testCaseId (stepPath mismatch.stepIndex ".expected" "expectedResults")
    (js "Faithfulness mismatch (expected=\"" ++ mismatch.expectedLabel ++ js "\", visible=\"" ++
      mismatch.visibleLabel ++ js "\"): " ++ mismatch.message)

/-- The parts by which instructions are compared. -/
def instructionParts (ri : RepairInstruction) : List JsString :=
  [ri.kind.getD [], ri.message.getD [], ri.testCaseId, ri.path, ri.instruction]

/-- `join("\0")` of the parts. -/
def instructionKey (ri : RepairInstruction) : JsString := join [0] (instructionParts ri)

def dedupInstructions (instructions : List RepairInstruction) : List RepairInstruction :=
  (instructions.foldl (fun (m : List (JsString × RepairInstruction)) ri ↦
    if (mapGet m (instructionKey ri)).isSome then m else mapSet m (instructionKey ri) ri)
      []).map Prod.snd

section

variable (localeCompare : JsString → JsString → ℤ)

def compareParts : List JsString → List JsString → ℤ
  | s :: rest, t :: rest' =>
      if localeCompare s t ≠ 0 then localeCompare s t else compareParts rest rest'
  | _, _ => 0

def consolidateRepairInstructions (logic : JudgeVerdict)
    (faithfulness : Option FaithfulnessVerdict) : List RepairInstruction × ℕ :=
  let collected := logic.repairInstructions.map clipped ++ faithfulness.elim [] fun verdict ↦
    verdict.hallucinations.map hallucinationInstruction ++
      verdict.mismatches.map mismatchInstruction
  let repairInstructions := sortBy
    (fun a b ↦ compareParts localeCompare (instructionParts a) (instructionParts b))
    (dedupInstructions collected)
  (repairInstructions, (repairInstructions.filter (·.instructionTruncated)).length)

end

/-! ## Inputs and results -/

/-- What a callback throws: an `Error` or another value. -/
inductive Thrown
  | error (message : JsString)
  | value (text : JsString)

structure RegenerateInput where
  previousList : GeneratedTestCaseList
  repairInstructions : List RepairInstruction
  truncatedInstructionCount : ℕ
  iteration : ℕ

structure RegenerateResult where
  list : GeneratedTestCaseList
  inputTokens : JsNumber
  outputTokens : JsNumber

structure JudgeRunnerInput where
  list : GeneratedTestCaseList
  iteration : ℕ

structure JudgeResult (ν : Type) where
  verdict : ν
  inputTokens : JsNumber
  outputTokens : JsNumber

structure RepairLoopBudgetGuard where
  initialGeneratorOutputTokens : Option JsNumber
  maxGeneratorOutputTokens : Option JsNumber
  expectedNextOutputTokens : Option JsNumber
  initialGeneratorAttempts : Option JsNumber
  maxGeneratorAttempts : Option JsNumber

inductive RepairLoopOutcome
  | accepted
  | rejected
  | needsReview
  | convergenceStalled
  | budgetExhausted
  deriving DecidableEq

/-- No faithfulness verdict stands for `"skipped"`. -/
structure RepairLoopIterationRecord where
  iteration : ℕ
  logicVerdict : ConsensusVerdictLabel
  faithfulnessVerdict : Option ConsensusVerdictLabel
  inputTokens : JsNumber
  outputTokens : JsNumber
  generatedCaseCount : ℕ
  outputHash : JsString
  verdictSignature : JsString

structure RepairLoopResult where
  outcome : RepairLoopOutcome
  finalList : GeneratedTestCaseList
  finalLogicVerdict : JudgeVerdict
  finalFaithfulnessVerdict : Option FaithfulnessVerdict
  iterations : List RepairLoopIterationRecord
  repairIterationCount : ℕ
  maxRepairIterations : ℕ

/-- `writeArtifact` writes the named file of the run directory. -/
structure RunRepairLoopInput where
  jobId : JsString
  runDir : JsString
  initialList : GeneratedTestCaseList
  initialLogicVerdict : JudgeVerdict
  initialFaithfulnessVerdict : Option FaithfulnessVerdict
  maxRepairIterations : Option JsNumber
  regenerate : RegenerateInput → Except Thrown RegenerateResult
  runLogicJudge : JudgeRunnerInput → Except Thrown (JudgeResult JudgeVerdict)
  runFaithfulnessJudge :
    Option (JudgeRunnerInput → Except Thrown (JudgeResult FaithfulnessVerdict))
  softFailOnIterationError : Bool
  onIterationComplete : RepairLoopIterationRecord → Except Thrown Unit
  budget : Option RepairLoopBudgetGuard
  writeArtifact : JsString → Except Thrown Unit

def judgePanelAccepted (logic : JudgeVerdict) (faithfulness : Option FaithfulnessVerdict) : Bool :=
  logic.verdict == .accept && faithfulness.all (·.verdict == .accept)

def judgePanelRejected (logic : JudgeVerdict) (faithfulness : Option FaithfulnessVerdict) : Bool :=
  logic.verdict == .reject || faithfulness.any (·.verdict == .reject)

def repairLoopDefaultMaxIterations : JsNumber := 3

def repairLoopMaxIterationsHardCap : ℕ := 5

def resolveMaxRepairIterations (requested : Option JsNumber) : Except Thrown ℕ :=
  let value := requested.getD repairLoopDefaultMaxIterations
  if !value.isInteger || value.lt 0 then
    .error (.error (js "runRepairLoop: maxRepairIterations must be a non-negative integer; got " ++
      numberText value))
  else .ok (min ⌊value.toRat⌋.toNat repairLoopMaxIterationsHardCap)

/-! ## The budget -/

/-- `Math.floor` of a finite number. -/
def floorNumber (x : JsNumber) : JsNumber := .ofRat ⌊x.toRat⌋

def sanitizeGuardCount (value : Option JsNumber) : JsNumber :=
  match value with
  | some x => if x.isFinite && JsNumber.le 0 x then floorNumber x else 0
  | none => 0

def expectedNextOutputTokens (guard : Option RepairLoopBudgetGuard) : JsNumber :=
  let positive (x : Option JsNumber) := x.filter fun x ↦ x.isFinite && JsNumber.lt 0 x
  match positive (guard.bind (·.expectedNextOutputTokens)) with
  | some x => floorNumber x
  | none =>
      match positive (guard.bind (·.maxGeneratorOutputTokens)) with
      | some x => JsNumber.max 1 (floorNumber (x.div 2))
      | none => 4096

inductive BudgetTrigger
  | maxGeneratorOutputTokens
  | maxGeneratorAttempts

structure LoopState where
  currentList : GeneratedTestCaseList
  currentLogic : JudgeVerdict
  currentFaith : Option FaithfulnessVerdict
  cumulativeGeneratorOutputTokens : JsNumber
  cumulativeGeneratorAttempts : JsNumber
  iterations : List RepairLoopIterationRecord

def projectedBudgetTrigger (guard : Option RepairLoopBudgetGuard) (s : LoopState) :
    Option BudgetTrigger :=
  match guard with
  | none => none
  | some limits =>
      if limits.maxGeneratorAttempts.any (·.lt (s.cumulativeGeneratorAttempts.add 1)) then
        some .maxGeneratorAttempts
      else if limits.maxGeneratorOutputTokens.any
          (·.lt (s.cumulativeGeneratorOutputTokens.add (expectedNextOutputTokens guard))) then
        some .maxGeneratorOutputTokens
      else none

/-! ## An iteration -/

section

variable (sha256 : JsString → JsString) (localeCompare : JsString → JsString → ℤ)

def computeVerdictSignature (logic : JudgeVerdict) : JsString :=
  let texts (values : List JsString) : Json := .arr ((sortStrings values).map .str)
  let label : JsString := match logic.verdict with
    | .accept => js "accept"
    | .repair => js "repair"
    | .reject => js "reject"
  sha256 (canonicalJson (.obj [(js "verdict", .str label),
    (js "findingCodes", texts logic.findingCodes),
    (js "repairInstructionKinds", texts (logic.repairInstructions.map (·.kind.getD [])))]))

def iterationRecord (iteration : ℕ) (list : GeneratedTestCaseList) (logic : JudgeVerdict)
    (faithfulness : Option FaithfulnessVerdict) (inputTokens outputTokens : JsNumber) :
    RepairLoopIterationRecord where
  iteration
  logicVerdict := logic.verdict
  faithfulnessVerdict := faithfulness.map (·.verdict)
  inputTokens
  outputTokens
  generatedCaseCount := list.testCaseCount
  outputHash := sha256 list.canonical
  verdictSignature := computeVerdictSignature sha256 logic

variable (input : RunRepairLoopInput) (max : ℕ)

def LoopState.result (s : LoopState) (outcome : RepairLoopOutcome) (repairIterationCount : ℕ) :
    RepairLoopResult :=
  ⟨outcome, s.currentList, s.currentLogic, s.currentFaith, s.iterations, repairIterationCount, max⟩

inductive Iteration
  | more (s : LoopState)
  | finish (result : RepairLoopResult)

def softFailIfEnabled (s : LoopState) (iteration : ℕ) (thrown : Thrown) (step : String) :
    Except Thrown Iteration :=
  if input.softFailOnIterationError then
    .ok (.finish (s.result max .needsReview (iteration - 1)))
  else
    match thrown with
    | .error message => .error (.error message)
    | .value text => .error (.error (js step ++ js " iteration " ++
        numberText (.ofRat iteration) ++ js ": " ++ text))

def artifactName (role : String) (iteration : ℕ) : JsString :=
  js "agent-role-runs/" ++ js role ++ numberText (.ofRat iteration) ++ js ".json"

/-- What the generator is asked for. -/
def regenerateInput (s : LoopState) (iteration : ℕ) : RegenerateInput :=
  let plan := consolidateRepairInstructions localeCompare s.currentLogic s.currentFaith
  ⟨s.currentList, plan.1, plan.2, iteration⟩

/-- The first half of an iteration: a new list, or the end of the loop. -/
def regenerated (k : ℕ) (s : LoopState) : Except Thrown (RegenerateResult ⊕ Iteration) :=
  match projectedBudgetTrigger input.budget s with
  | some _ => do
      input.writeArtifact (js "repair-loop-budget-trace.json")
      return .inr (.finish (s.result max .budgetExhausted (s.iterations.length - 1)))
  | none => do
      input.writeArtifact (artifactName "repair_planner_iter_" k)
      match input.regenerate (regenerateInput localeCompare s k) with
      | .error thrown => .inr <$> softFailIfEnabled input max s k thrown "regenerate"
      | .ok regen => do
          input.writeArtifact (artifactName "test_generation_repair_iter_" k)
          return .inl regen

/-- The state with the new list, which the judges have not seen. -/
def LoopState.withList (s : LoopState) (regen : RegenerateResult) : LoopState :=
  { s with
    currentList := regen.list
    cumulativeGeneratorOutputTokens :=
      s.cumulativeGeneratorOutputTokens.add (sanitizeGuardCount (some regen.outputTokens))
    cumulativeGeneratorAttempts := s.cumulativeGeneratorAttempts.add 1 }

/-- The faithfulness judge is run when the logic judge accepts. -/
def judgeFaithfulness (k : ℕ) (list : GeneratedTestCaseList) (logic : JudgeVerdict) :
    Except Thrown (Option (JudgeResult FaithfulnessVerdict)) :=
  match input.runFaithfulnessJudge with
  | some runFaithfulnessJudge =>
      if logic.verdict = .accept then some <$> runFaithfulnessJudge ⟨list, k⟩ else .ok none
  | none => .ok none

/-- The end of an iteration whose judges have answered. -/
def concluded (k : ℕ) (s : LoopState) (record : RepairLoopIterationRecord) :
    Except Thrown Iteration := do
  let s := { s with iterations := s.iterations ++ [record] }
  input.onIterationComplete record
  if judgePanelAccepted s.currentLogic s.currentFaith then
    return .finish (s.result max .accepted k)
  else if judgePanelRejected s.currentLogic s.currentFaith then
    return .finish (s.result max .rejected k)
  else if (s.iterations.dropLast.getLast?.map (·.verdictSignature)) =
      some record.verdictSignature then
    input.writeArtifact (js "repair-loop-trace.json")
    return .finish (s.result max .convergenceStalled k)
  else return .more s

/-- The second half of an iteration. -/
def judged (k : ℕ) (s : LoopState) (regen : RegenerateResult) : Except Thrown Iteration :=
  let s := s.withList regen
  match input.runLogicJudge ⟨s.currentList, k⟩ with
  | .error thrown => softFailIfEnabled input max s k thrown "logic judge"
  | .ok logicResult =>
      let s := { s with currentLogic := logicResult.verdict }
      match judgeFaithfulness input k s.currentList s.currentLogic with
      | .error thrown => softFailIfEnabled input max s k thrown "faithfulness judge"
      | .ok faithResult =>
          let s := { s with currentFaith := faithResult.map (·.verdict) }
          concluded input max k s (iterationRecord sha256 k s.currentList s.currentLogic
            s.currentFaith
            ((regen.inputTokens.add logicResult.inputTokens).add
              (faithResult.elim 0 (·.inputTokens)))
            ((regen.outputTokens.add logicResult.outputTokens).add
              (faithResult.elim 0 (·.outputTokens))))

def iteration (k : ℕ) (s : LoopState) : Except Thrown Iteration :=
  match regenerated localeCompare input max k s with
  | .error thrown => .error thrown
  | .ok (.inr done) => .ok done
  | .ok (.inl regen) => judged sha256 input max k s regen

/-! ## The loop -/

/-- The iterations from `k` on, of which `remaining` are left. -/
def repairFrom : (remaining k : ℕ) → LoopState → Except Thrown RepairLoopResult
  | 0, _, s => .ok (s.result max .needsReview max)
  | remaining + 1, k, s =>
      match iteration sha256 localeCompare input max k s with
      | .error thrown => .error thrown
      | .ok (.finish result) => .ok result
      | .ok (.more s') => repairFrom remaining (k + 1) s'

end

section

variable (sha256 : JsString → JsString) (localeCompare : JsString → JsString → ℤ)
  (input : RunRepairLoopInput)

def initialState : LoopState where
  currentList := input.initialList
  currentLogic := input.initialLogicVerdict
  currentFaith := input.initialFaithfulnessVerdict
  cumulativeGeneratorOutputTokens :=
    sanitizeGuardCount (input.budget.bind (·.initialGeneratorOutputTokens))
  cumulativeGeneratorAttempts :=
    sanitizeGuardCount (input.budget.bind (·.initialGeneratorAttempts))
  iterations := [iterationRecord sha256 0 input.initialList input.initialLogicVerdict
    input.initialFaithfulnessVerdict 0 0]

/-- What comes before the loop: the number of iterations it may take. -/
def prepare : Except Thrown ℕ := do
  if trim input.jobId = [] then
    throw (.error (js "runRepairLoop: jobId must be non-empty"))
  if trim input.runDir = [] then
    throw (.error (js "runRepairLoop: runDir must be non-empty"))
  let max ← resolveMaxRepairIterations input.maxRepairIterations
  input.onIterationComplete (iterationRecord sha256 0 input.initialList input.initialLogicVerdict
    input.initialFaithfulnessVerdict 0 0)
  return max

def runRepairLoop : Except Thrown RepairLoopResult :=
  match prepare sha256 input with
  | .error thrown => .error thrown
  | .ok max =>
      let s := initialState sha256 input
      if judgePanelAccepted input.initialLogicVerdict input.initialFaithfulnessVerdict then
        .ok (s.result max .accepted 0)
      else repairFrom sha256 localeCompare input max max 1 s

end

end TestIntelligence.ProductionRunner.RepairLoop
