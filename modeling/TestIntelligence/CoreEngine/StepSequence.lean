import TestIntelligence.CoreEngine.WorkflowStateMachine
import TestIntelligence.Js.NumberText

/-!
# Validation of step sequences

A test case claims, step by step, the transitions it exercises.  The validator
checks the step indices, walks the claimed transitions through the machine,
bridges the gaps by the shortest path and reports what does not close.
-/

namespace TestIntelligence.CoreEngine

open TestIntelligence.Js TestIntelligence.Search

structure WorkflowStateMachineStepClaim where
  stepIndex : JsNumber
  transitionId : JsString
  deriving DecidableEq

inductive WorkflowStateMachineSeverity where
  | error
  | warning
  deriving DecidableEq

inductive WorkflowStateMachineIssueCode where
  | transitionUnknown
  | stepIndicesOutOfOrder
  | duplicateStepIndex
  | firstStepNotFromEntry
  | consecutiveStatesUnreachable
  | missingIntermediateStep
  | lastStateNotTerminal
  deriving DecidableEq

def WorkflowStateMachineIssueCode.text : WorkflowStateMachineIssueCode → JsString
  | .transitionUnknown => js "transition_unknown"
  | .stepIndicesOutOfOrder => js "step_indices_out_of_order"
  | .duplicateStepIndex => js "duplicate_step_index"
  | .firstStepNotFromEntry => js "first_step_not_from_entry"
  | .consecutiveStatesUnreachable => js "consecutive_states_unreachable"
  | .missingIntermediateStep => js "missing_intermediate_step"
  | .lastStateNotTerminal => js "last_state_not_terminal"

structure WorkflowStateMachineIssue where
  code : WorkflowStateMachineIssueCode
  severity : WorkflowStateMachineSeverity
  testCaseId : JsString
  stateMachineId : JsString
  stepIndex : Option JsNumber
  statePath : List JsString
  transitionPath : List JsString
  message : JsString
  deriving DecidableEq

structure WorkflowStateMachineCaseRow where
  testCaseId : JsString
  stateMachineId : JsString
  unmatched : Bool
  clean : Bool
  blocked : Bool
  issues : List WorkflowStateMachineIssue
  transitionIdsExercised : List JsString
  statePath : List JsString

/-- The argument of `validateStepSequenceAgainstStateMachine`. -/
structure StepSequenceInput where
  index : WorkflowStateMachineIndex
  testCaseId : JsString
  steps : List WorkflowStateMachineStepClaim
  requireTerminalExit : Option Bool

namespace StepSequenceInput

variable (input : StepSequenceInput)

def stateMachineId : JsString := input.index.stateMachine.id

def requiresTerminal : Bool := input.requireTerminalExit = some true

/-! ## Step indices -/

def duplicateIssue (step : WorkflowStateMachineStepClaim) : WorkflowStateMachineIssue where
  code := .duplicateStepIndex
  severity := .error
  testCaseId := input.testCaseId
  stateMachineId := input.stateMachineId
  stepIndex := some step.stepIndex
  statePath := []
  transitionPath := []
  message := js "Test case \"" ++ input.testCaseId ++ js "\" declares duplicate step index " ++
    numberText step.stepIndex ++ js "."

def outOfOrderIssue (step : WorkflowStateMachineStepClaim) (lastStepIndex : JsNumber) :
    WorkflowStateMachineIssue where
  code := .stepIndicesOutOfOrder
  severity := .error
  testCaseId := input.testCaseId
  stateMachineId := input.stateMachineId
  stepIndex := some step.stepIndex
  statePath := []
  transitionPath := []
  message := js "Test case \"" ++ input.testCaseId ++
    js "\" step indices are not strictly increasing (step " ++ numberText step.stepIndex ++
    js " after step " ++ numberText lastStepIndex ++ js ")."

/-- The loop over the step indices.  A `Set` does not tell the zeros apart; `orderingClean`
stays true exactly when no issue is reported. -/
def checkOrder : List WorkflowStateMachineStepClaim → List JsNumber → JsNumber →
    List WorkflowStateMachineIssue
  | [], _, _ => []
  | step :: steps, seenIndices, lastStepIndex =>
      (if step.stepIndex.unsigned ∈ seenIndices then [input.duplicateIssue step]
        else if step.stepIndex.le lastStepIndex then [input.outOfOrderIssue step lastStepIndex]
        else []) ++
        checkOrder steps (setAdd seenIndices step.stepIndex.unsigned) step.stepIndex

/-! ## The walk -/

def unknownIssue (step : WorkflowStateMachineStepClaim) : WorkflowStateMachineIssue where
  code := .transitionUnknown
  severity := .error
  testCaseId := input.testCaseId
  stateMachineId := input.stateMachineId
  stepIndex := some step.stepIndex
  statePath := []
  transitionPath := [step.transitionId]
  message := js "Test case \"" ++ input.testCaseId ++ js "\" step " ++ numberText step.stepIndex ++
    js " references unknown transition \"" ++ step.transitionId ++ js "\" on state machine \"" ++
    input.stateMachineId ++ js "\"."

def entryIssues (step : WorkflowStateMachineStepClaim)
    (transition : WorkflowStateMachineTransition) : List WorkflowStateMachineIssue :=
  if (mapGet input.index.statesById transition.fromState).bind (·.entry) = some true then []
  else [{
    code := .firstStepNotFromEntry
    severity := .error
    testCaseId := input.testCaseId
    stateMachineId := input.stateMachineId
    stepIndex := some step.stepIndex
    statePath := [transition.fromState]
    transitionPath := [transition.transitionId]
    message := js "Test case \"" ++ input.testCaseId ++
      js "\" first step starts at non-entry state \"" ++ transition.fromState ++ js "\"." }]

def gapIssues (step : WorkflowStateMachineStepClaim) (cursorState : JsString)
    (transition : WorkflowStateMachineTransition) : List WorkflowStateMachineIssue :=
  if cursorState = transition.fromState then []
  else
    match findShortestTransitionPath input.index cursorState transition.fromState with
    | .none => [{
        code := .consecutiveStatesUnreachable
        severity := .error
        testCaseId := input.testCaseId
        stateMachineId := input.stateMachineId
        stepIndex := some step.stepIndex
        statePath := [cursorState, transition.fromState]
        transitionPath := []
        message := js "Test case \"" ++ input.testCaseId ++ js "\" step " ++
          numberText step.stepIndex ++
          js " cannot be reached from the prior step's post-state. Concrete failing path: " ++
          cursorState ++ js " ↛ " ++ transition.fromState ++ js "." }]
    | .path transitionIds => [{
        code := .missingIntermediateStep
        severity := .warning
        testCaseId := input.testCaseId
        stateMachineId := input.stateMachineId
        stepIndex := some step.stepIndex
        statePath := [cursorState, transition.fromState]
        transitionPath := transitionIds
        message := js "Test case \"" ++ input.testCaseId ++ js "\" step " ++
          numberText step.stepIndex ++ js " is reachable from the prior step's post-state but " ++
          numberText (.ofRat transitionIds.length) ++
          js " intermediate transition(s) are missing: " ++ join (js " → ") transitionIds ++
          js "." }]
    | .same => []

/-- The variables of the walk. -/
structure Walker where
  issues : List WorkflowStateMachineIssue
  transitionIdsExercised : List JsString
  statePath : List JsString
  cursorState : Option JsString
  firstStepHandled : Bool

def Walker.start : Walker := ⟨[], [], [], none, false⟩

/-- The part of the loop body between the lookup and the last three statements. -/
def approach (w : Walker) (step : WorkflowStateMachineStepClaim)
    (transition : WorkflowStateMachineTransition) : Walker :=
  if w.firstStepHandled = false then
    { w with
      firstStepHandled := true
      issues := w.issues ++ input.entryIssues step transition
      statePath := w.statePath ++ [transition.fromState] }
  else
    match w.cursorState with
    | none => w
    | some cursorState =>
        { w with issues := w.issues ++ input.gapIssues step cursorState transition }

def walkStep (w : Walker) (step : WorkflowStateMachineStepClaim) : Walker :=
  match mapGet input.index.transitionsById step.transitionId with
  | none =>
      { w with
        issues := w.issues ++ [input.unknownIssue step]
        cursorState := none
        firstStepHandled := true }
  | some transition =>
      let w' := input.approach w step transition
      { w' with
        transitionIdsExercised := w'.transitionIdsExercised ++ [transition.transitionId]
        statePath := w'.statePath ++ [transition.toState]
        cursorState := some transition.toState }

def terminalIssues (w : Walker) (finalStepIndex : Option JsNumber) :
    List WorkflowStateMachineIssue :=
  match w.cursorState with
  | none => []
  | some cursorState =>
      if input.requiresTerminal = true ∧
          (mapGet input.index.statesById cursorState).bind (·.terminal) ≠ some true then [{
        code := .lastStateNotTerminal
        severity := .error
        testCaseId := input.testCaseId
        stateMachineId := input.stateMachineId
        stepIndex := finalStepIndex
        statePath := [cursorState]
        transitionPath := []
        message := js "Test case \"" ++ input.testCaseId ++
          js "\" requires a terminal final state but ended at non-terminal state \"" ++
          cursorState ++ js "\"." }]
      else []

/-- `[...steps].sort` by the difference of the indices; `NaN` counts as no difference. -/
def orderedSteps (steps : List WorkflowStateMachineStepClaim) :
    List WorkflowStateMachineStepClaim :=
  steps.insertionSort fun left right ↦ JsNumber.lt 0 (left.stepIndex.sub right.stepIndex) = false

def walk : Walker := (orderedSteps input.steps).foldl input.walkStep Walker.start

end StepSequenceInput

/-! ## The report -/

section Model

variable (localeCompare : JsString → JsString → ℤ)

/-- The comparator of the final sort does not put `right` first. -/
def issueOrder (left right : WorkflowStateMachineIssue) : Bool :=
  let leftIndex := left.stepIndex.getD (.ofRat (-1))
  let rightIndex := right.stepIndex.getD (.ofRat (-1))
  if leftIndex.strictEq rightIndex = false then !JsNumber.lt 0 (leftIndex.sub rightIndex)
  else decide (localeCompare left.code.text right.code.text ≤ 0)

def validateStepSequenceAgainstStateMachine (input : StepSequenceInput) :
    WorkflowStateMachineCaseRow :=
  let orderIssues := input.checkOrder input.steps [] 0
  let w := if orderIssues = [] ∧ 0 < input.steps.length then input.walk
    else StepSequenceInput.Walker.start
  let finalStepIndex := (StepSequenceInput.orderedSteps input.steps).getLast?.map (·.stepIndex)
  let issues := (orderIssues ++ w.issues ++ input.terminalIssues w finalStepIndex).insertionSort
    fun left right ↦ issueOrder localeCompare left right = true
  { testCaseId := input.testCaseId
    stateMachineId := input.stateMachineId
    unmatched := false
    clean := issues.length = 0
    blocked := issues.any (·.severity = .error)
    issues := issues
    transitionIdsExercised := w.transitionIdsExercised
    statePath := w.statePath }

end Model

end TestIntelligence.CoreEngine
