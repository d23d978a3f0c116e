import TestIntelligence.Js.Collections
import TestIntelligence.Js.Math
import TestIntelligence.Js.Outcome
import TestIntelligence.Js.Patterns

/-!
# A step of the agent harness

`runAgentHarnessStep` attempts a step until an attempt is accepted or ends with a terminal
error, or the attempts are used up.  The attempts are a function of their number; writing the
artifact is a parameter.
-/

namespace TestIntelligence.AgenticHarness.HarnessStep

open Js

/-! ## Outcomes and error classes -/

inductive AgentHarnessOutcome
  | accepted
  | blocked
  | failedPermanent
  | failedRetryable
  | needsReview
  deriving DecidableEq

inductive AgentHarnessMappedJobStatus
  | completed
  | partialJob
  | failed
  deriving DecidableEq

def mapAgentHarnessOutcomeToJobStatus : AgentHarnessOutcome → AgentHarnessMappedJobStatus
  | .accepted => .completed
  | .blocked => .partialJob
  | .failedPermanent => .failed
  | .failedRetryable => .failed
  | .needsReview => .partialJob

inductive AgentHarnessErrorClass
  | budgetExhausted
  | convergenceStalled
  | gatewayError
  | internalError
  | iterationExhausted
  | judgeRejection
  | none
  | policyRefusal
  | schemaValidation
  | timeout
  deriving DecidableEq

def agentHarnessErrorClasses : List (JsString × AgentHarnessErrorClass) := [
  (js "budget_exhausted", .budgetExhausted),
  (js "convergence_stalled", .convergenceStalled),
  (js "gateway_error", .gatewayError),
  (js "internal_error", .internalError),
  (js "iteration_exhausted", .iterationExhausted),
  (js "judge_rejection", .judgeRejection),
  (js "none", .none),
  (js "policy_refusal", .policyRefusal),
  (js "schema_validation", .schemaValidation),
  (js "timeout", .timeout)]

inductive AgentHarnessTestDepth
  | standard
  | exhaustive
  deriving DecidableEq

def defaultRepairIterations : ℕ := 2

def exhaustiveRepairIterations : ℕ := 3

def resolveMaxRepairIterations : AgentHarnessTestDepth → ℕ
  | .exhaustive => exhaustiveRepairIterations
  | .standard => defaultRepairIterations

/-! ## Roles -/

structure AgentRoleProfile where
  role : JsString
  maxAttempts : JsNumber

/-- The roles with their registered profiles. -/
def agentRoleProfileRegistry : List (JsString × AgentRoleProfile) :=
  [("action_topology", 1), ("adversarial_critic", 2), ("adversarial_gap_finder", 2),
    ("final_verifier", 1), ("generator", 2), ("human_review", 1), ("logic_judge", 2),
    ("repair_planner", 3), ("semantic_judge", 2), ("visual_sidecar", 1)].map
      fun p : String × ℕ ↦ (js p.1, ⟨js p.1, .ofRat p.2⟩)

/-! ## Attempts -/

inductive ErrorKind
  | none
  | retryable
  | permanent
  | policyBlock
  deriving DecidableEq

structure AgentHarnessAttemptResult where
  inputHash : JsString
  promptHash : JsString
  schemaHash : JsString
  cacheKeyDigest : JsString
  cacheablePrefixHash : JsString
  judgeAccepted : Bool
  errorKind : ErrorKind
  errorClass : Option JsString
  inputTokens : Option JsNumber
  outputTokens : Option JsNumber
  latencyMs : Option JsNumber

structure AgentHarnessStepAttemptRecord where
  attempt : ℕ
  roleRunId : JsString
  inputHash : JsString
  promptHash : JsString
  schemaHash : JsString
  cacheKeyDigest : JsString
  cacheablePrefixHash : JsString
  judgeAccepted : Bool
  errorClass : AgentHarnessErrorClass
  inputTokens : JsNumber
  outputTokens : JsNumber
  latencyMs : JsNumber

/-- What the step throws: an error of its own or what a callback throws. -/
inductive StepError (ε : Type)
  | typeError (message : JsString)
  | rangeError (message : JsString)
  | thrown (error : ε)

section

variable {ε : Type}

def stepMessage (rest : JsString) : JsString := js "runAgentHarnessStep: " ++ rest

def attemptHashes (result : AgentHarnessAttemptResult) : List (JsString × JsString) := [
  (js "inputHash", result.inputHash),
  (js "promptHash", result.promptHash),
  (js "schemaHash", result.schemaHash),
  (js "cacheKeyDigest", result.cacheKeyDigest),
  (js "cacheablePrefixHash", result.cacheablePrefixHash)]

def validateAttemptHashes (result : AgentHarnessAttemptResult) (attempt : ℕ) :
    Except (StepError ε) Unit :=
  (attemptHashes result).forM fun hash ↦
    if isHexOfLength 64 hash.2 then .ok ()
    else .error (.typeError (stepMessage (js "attempt " ++ numberText (.ofRat attempt) ++ js " " ++
      hash.1 ++ js " must be a 64-char lowercase hex digest")))

def defaultErrorClassFor (errorKind : ErrorKind) (judgeAccepted : Bool) :
    AgentHarnessErrorClass :=
  match errorKind with
  | .none => if judgeAccepted then .none else .judgeRejection
  | .retryable => .gatewayError
  | .permanent => .schemaValidation
  | .policyBlock => .policyRefusal

def errorClassOf (result : AgentHarnessAttemptResult) : AgentHarnessErrorClass :=
  (result.errorClass.bind (mapGet agentHarnessErrorClasses)).getD
    (defaultErrorClassFor result.errorKind result.judgeAccepted)

def figure (value : Option JsNumber) : JsNumber := JsNumber.max 0 (value.getD 0).trunc

/-! ## The step -/

structure RunAgentHarnessStepInput (ε : Type) where
  runDir : JsString
  jobId : JsString
  role : JsString
  roleStepId : JsString
  testDepth : Option AgentHarnessTestDepth
  profile : Option AgentRoleProfile
  executeAttempt : ℕ → JsString → Except ε AgentHarnessAttemptResult

structure LoopState where
  attempts : List AgentHarnessStepAttemptRecord
  totalInputTokens : JsNumber
  totalOutputTokens : JsNumber
  totalLatencyMs : JsNumber
  outcome : Option AgentHarnessOutcome
  outcomeErrorClass : Option AgentHarnessErrorClass
  lastRetryableError : Option AgentHarnessErrorClass
  sawJudgeRejection : Bool

structure AgentHarnessStepCostRollup where
  inputTokens : JsNumber
  outputTokens : JsNumber
  totalLatencyMs : JsNumber

structure AgentHarnessStepArtifact where
  jobId : JsString
  roleStepId : JsString
  role : JsString
  outcome : AgentHarnessOutcome
  errorClass : AgentHarnessErrorClass
  mappedJobStatus : AgentHarnessMappedJobStatus
  testDepth : AgentHarnessTestDepth
  maxAttemptsAllowed : JsNumber
  attemptsConsumed : ℕ
  attempts : List AgentHarnessStepAttemptRecord
  costsRollup : AgentHarnessStepCostRollup

structure RunAgentHarnessStepResult where
  outcome : AgentHarnessOutcome
  mappedJobStatus : AgentHarnessMappedJobStatus
  artifact : AgentHarnessStepArtifact
  artifactPath : JsString

variable (input : RunAgentHarnessStepInput ε)

def RunAgentHarnessStepInput.depth : AgentHarnessTestDepth := input.testDepth.getD .standard

def RunAgentHarnessStepInput.roleRunId (attempt : ℕ) : JsString :=
  input.roleStepId ++ js "-a" ++ numberText (.ofRat attempt)

def attemptRecord (attempt : ℕ) (result : AgentHarnessAttemptResult) :
    AgentHarnessStepAttemptRecord where
  attempt
  roleRunId := input.roleRunId attempt
  inputHash := result.inputHash
  promptHash := result.promptHash
  schemaHash := result.schemaHash
  cacheKeyDigest := result.cacheKeyDigest
  cacheablePrefixHash := result.cacheablePrefixHash
  judgeAccepted := result.judgeAccepted
  errorClass := errorClassOf result
  inputTokens := figure result.inputTokens
  outputTokens := figure result.outputTokens
  latencyMs := figure result.latencyMs

/-- The state with the record of an attempt. -/
def LoopState.record (s : LoopState) (record : AgentHarnessStepAttemptRecord) : LoopState :=
  { s with
    attempts := s.attempts ++ [record]
    totalInputTokens := s.totalInputTokens.add record.inputTokens
    totalOutputTokens := s.totalOutputTokens.add record.outputTokens
    totalLatencyMs := s.totalLatencyMs.add record.latencyMs }

/-- How a turn of the loop ends. -/
inductive Turn
  | stop (s : LoopState)
  | next (s : LoopState)

/-- What follows from the result of an attempt that has been recorded. -/
def LoopState.conclude (s : LoopState) (result : AgentHarnessAttemptResult) : Turn :=
  let errorClass := errorClassOf result
  if result.judgeAccepted && result.errorKind = .none then
    .stop { s with outcome := some .accepted, outcomeErrorClass := some .none }
  else if result.errorKind = .policyBlock then
    .stop { s with outcome := some .blocked, outcomeErrorClass := some errorClass }
  else if result.errorKind = .permanent then
    .stop { s with outcome := some .failedPermanent, outcomeErrorClass := some errorClass }
  else if result.errorKind = .retryable then
    .next { s with lastRetryableError := some errorClass }
  else .next { s with sawJudgeRejection := true }

/-- One turn of the loop. -/
def runAttempt (attempt : ℕ) (s : LoopState) : Except (StepError ε) Turn := do
  match input.executeAttempt attempt (input.roleRunId attempt) with
  | .error error => .error (.thrown error)
  | .ok result =>
      validateAttemptHashes result attempt
      return (s.record (attemptRecord input attempt result)).conclude result

/-- The loop from an attempt on, with the numbers of the attempts it makes.  `turns` bounds
the attempts, as the cap does. -/
def attemptLoop (maxAttemptsAllowed : JsNumber) :
    (turns attempt : ℕ) → LoopState → List ℕ × Except (StepError ε) LoopState
  | 0, _, s => ([], .ok s)
  | turns + 1, attempt, s =>
      if (JsNumber.ofRat attempt).le maxAttemptsAllowed then
        match runAttempt input attempt s with
        | .error error => ([attempt], .error error)
        | .ok (.stop s) => ([attempt], .ok s)
        | .ok (.next s) =>
            let rest := attemptLoop maxAttemptsAllowed turns (attempt + 1) s
            (attempt :: rest.1, rest.2)
      else ([], .ok s)

def checkInput : Except (StepError ε) AgentRoleProfile :=
  if trim input.runDir = [] then
    .error (.typeError (stepMessage (js "runDir must be non-empty")))
  else if trim input.jobId = [] then
    .error (.typeError (stepMessage (js "jobId must be non-empty")))
  else if trim input.roleStepId = [] then
    .error (.typeError (stepMessage (js "roleStepId must be non-empty")))
  else
    match mapGet agentRoleProfileRegistry input.role with
    | none =>
        .error (.rangeError (stepMessage (js "unknown role \"" ++ input.role ++ js "\"")))
    | some registered =>
        let profile := input.profile.getD registered
        if profile.role ≠ input.role then
          .error (.rangeError (stepMessage (js "profile.role \"" ++ profile.role ++
            js "\" does not match input.role \"" ++ input.role ++ js "\"")))
        else .ok profile

def RunAgentHarnessStepInput.attemptCap (profile : AgentRoleProfile) : JsNumber :=
  JsNumber.min profile.maxAttempts (.ofRat (1 + resolveMaxRepairIterations input.depth : ℕ))

def LoopState.initial : LoopState where
  attempts := []
  totalInputTokens := 0
  totalOutputTokens := 0
  totalLatencyMs := 0
  outcome := none
  outcomeErrorClass := none
  lastRetryableError := none
  sawJudgeRejection := false

/-- The outcome when the attempts are used up. -/
def LoopState.concluded (s : LoopState) : AgentHarnessOutcome × AgentHarnessErrorClass :=
  match s.outcome with
  | some outcome => (outcome, s.outcomeErrorClass.getD .none)
  | none =>
      match s.lastRetryableError, s.sawJudgeRejection with
      | some error, false => (.failedRetryable, error)
      | _, _ => (.needsReview, .iterationExhausted)

def stepArtifact (maxAttemptsAllowed : JsNumber) (s : LoopState) : AgentHarnessStepArtifact where
  jobId := input.jobId
  roleStepId := input.roleStepId
  role := input.role
  outcome := s.concluded.1
  errorClass := s.concluded.2
  mappedJobStatus := mapAgentHarnessOutcomeToJobStatus s.concluded.1
  testDepth := input.depth
  maxAttemptsAllowed
  attemptsConsumed := s.attempts.length
  attempts := s.attempts
  costsRollup := ⟨s.totalInputTokens, s.totalOutputTokens, s.totalLatencyMs⟩

/-- The numbers of the attempts made and the result. -/
def runAgentHarnessStep
    (persistStepArtifact : JsString → AgentHarnessStepArtifact → Except ε JsString) :
    List ℕ × Except (StepError ε) RunAgentHarnessStepResult :=
  match checkInput input with
  | .error error => ([], .error error)
  | .ok profile =>
      let maxAttemptsAllowed := input.attemptCap profile
      let run := attemptLoop input maxAttemptsAllowed (1 + resolveMaxRepairIterations input.depth) 1
        .initial
      (run.1, do
        let s ← run.2
        let artifact := stepArtifact input maxAttemptsAllowed s
        match persistStepArtifact input.runDir artifact with
        | .error error => .error (.thrown error)
        | .ok artifactPath =>
            return ⟨artifact.outcome, artifact.mappedJobStatus, artifact, artifactPath⟩)

end

end TestIntelligence.AgenticHarness.HarnessStep
