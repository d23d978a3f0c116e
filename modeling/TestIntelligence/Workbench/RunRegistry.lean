import TestIntelligence.Js.Collections
import TestIntelligence.Js.Text
import TestIntelligence.Systems.Runs
import Mathlib.Logic.Function.Basic

/-!
# The run registry of the Workbench

`startWorkbenchRun` admits a run, and `executeRun` performs it while events of the runner
arrive.  What `executeRun` awaits is a point where other actions may come in between.  The
mirror of the records in the durable storage and the configuration of a run are left out.
-/

namespace TestIntelligence.Workbench

open Js Systems

/-! ## Records -/

inductive RunStatus
  | idle
  | queued
  | running
  | judging
  | policyGate
  | sealed
  | clean
  | blocked
  | blockedFailure
  | failed
  | degraded
  deriving DecidableEq

def isTerminal (status : RunStatus) : Bool :=
  status = .idle || status = .sealed || status = .clean || status = .blocked ||
    status = .blockedFailure || status = .failed

inductive StageName
  | generator
  | judge
  | visualSidecar
  | policyGate
  deriving DecidableEq

inductive StageOutcome
  | pending
  | clean
  | blocked
  | failed
  deriving DecidableEq

structure StageData where
  attempts : ℕ
  successes : ℕ
  failures : ℕ
  outcome : StageOutcome
  deriving DecidableEq

abbrev Stages := StageName → StageData

inductive ArtifactStatus
  | pending
  | ok
  | blocked
  | fail
  deriving DecidableEq

structure Artifact where
  name : JsString
  size : JsString
  status : ArtifactStatus
  path : Option JsString
  downloadHref : Option JsString
  customerFacing : Bool

structure CustomerOutputFile where
  name : JsString
  path : JsString
  size : JsString
  downloadHref : JsString
  combined : Bool

structure RunState where
  status : RunStatus
  jobId : JsString
  generatedAt : JsString
  stages : Stages
  artifacts : List Artifact
  artifactDir : JsString
  outputRoot : JsString
  customerMarkdown : List CustomerOutputFile
  customerPdf : List CustomerOutputFile
  customerTxt : List CustomerOutputFile
  errorMessage : Option JsString

structure PreparedWorkbenchRun where
  jobId : JsString
  generatedAt : JsString
  artifactDir : JsString
  outputRoot : JsString

structure WorkbenchRunStore where
  activeJobId : Option JsString
  jobs : List (JsString × RunState)

/-! ## Transitions of a record -/

def emptyStages : Stages := fun _ ↦ ⟨0, 0, 0, .pending⟩

def defaultArtifactNames : List JsString :=
  ["coverage-plan.json", "coverage-report.json", "policy-report.json", "validation-report.json",
    "run-quality.json", "visual-sidecar-result.json", "production-runner-evidence-seal.json",
    "genealogy.json", "workflow-topology.json", "compliance-annotations.json"].map js

def pendingArtifacts : List Artifact :=
  defaultArtifactNames.map fun name ↦ ⟨name, js "-", .pending, none, none, false⟩

def createQueuedRun (prepared : PreparedWorkbenchRun) : RunState where
  status := .queued
  jobId := prepared.jobId
  generatedAt := prepared.generatedAt
  stages := emptyStages
  artifacts := pendingArtifacts
  artifactDir := prepared.artifactDir
  outputRoot := prepared.outputRoot
  customerMarkdown := []
  customerPdf := []
  customerTxt := []
  errorMessage := none

def setStage (stages : Stages) (stage : StageName) (next : StageData) : Stages :=
  Function.update stages stage next

def updateStage (status : RunStatus) (stage : StageName) (outcome : StageOutcome)
    (state : RunState) : RunState :=
  let current := state.stages stage
  { state with
    status := status
    stages := setStage state.stages stage
      { attempts := max current.attempts 1
        successes := if outcome = .clean then max current.successes 1 else 0
        failures := if outcome = .blocked ∨ outcome = .failed then max current.failures 1
          else current.failures
        outcome := outcome } }

/-- A policy decision carries whether it blocks. -/
inductive ProductionRunnerEvent
  | intentDerivationStarted
  | intentDerivationComplete
  | visualSidecarStarted
  | visualSidecarSkipped
  | visualSidecarComplete
  | promptCompiled
  | llmGatewayRequest
  | llmGatewayResponse
  | validationStarted
  | validationComplete
  | policyDecision (blocked : Bool)
  | exportStarted
  | exportComplete
  | evidenceSealed
  | finopsRecorded
  | cacheBreak
  | replayCacheHit
  | cancelled
  | repairLoopIteration
  deriving DecidableEq

/-- What an event writes; some write nothing. -/
def eventUpdate : ProductionRunnerEvent → Option (RunStatus × StageName × StageOutcome)
  | .intentDerivationStarted => some (.running, .generator, .pending)
  | .intentDerivationComplete => some (.running, .generator, .clean)
  | .visualSidecarStarted => some (.running, .visualSidecar, .pending)
  | .visualSidecarComplete | .visualSidecarSkipped => some (.running, .visualSidecar, .clean)
  | .promptCompiled | .llmGatewayRequest | .llmGatewayResponse | .validationStarted =>
      some (.judging, .judge, .pending)
  | .validationComplete => some (.judging, .judge, .clean)
  | .policyDecision blocked => some (.policyGate, .policyGate, if blocked then .blocked else .clean)
  | .exportStarted | .exportComplete | .evidenceSealed | .finopsRecorded | .cacheBreak
  | .replayCacheHit | .repairLoopIteration => none
  | .cancelled => some (.failed, .generator, .failed)

def handleRunnerEvent (event : ProductionRunnerEvent) (state : RunState) : RunState :=
  match eventUpdate event with
  | some (status, stage, outcome) => updateStage status stage outcome state
  | none => state

/-- What `finishWithArtifacts` found when its awaits are over. -/
structure FinishedArtifacts where
  artifacts : List Artifact
  customerMarkdown : List CustomerOutputFile
  customerPdf : List CustomerOutputFile
  customerTxt : List CustomerOutputFile

def finalStages (blocked : Bool) (stages : Stages) : Stages := fun stage ↦
  if stage = .policyGate then
    if blocked then ⟨1, 0, 1, .blocked⟩ else ⟨1, 1, 0, .clean⟩
  else if (stages stage).outcome = .pending then ⟨1, 1, 0, .clean⟩
  else stages stage

def finishWithArtifacts (blocked : Bool) (found : FinishedArtifacts) (state : RunState) :
    RunState :=
  { state with
    status := if blocked then .blocked else .sealed
    stages := finalStages blocked state.stages
    artifacts := found.artifacts
    customerMarkdown := found.customerMarkdown
    customerPdf := found.customerPdf
    customerTxt := found.customerTxt }

def stageOrder : List StageName := [.generator, .judge, .visualSidecar, .policyGate]

/-- The message is sanitized. -/
def failRun (message : JsString) (state : RunState) : RunState :=
  let stage := (stageOrder.find? fun name ↦ (state.stages name).outcome = .pending).getD .generator
  let current := state.stages stage
  { state with
    status := .failed
    errorMessage := some message
    stages := setStage state.stages stage
      { attempts := max current.attempts 1
        successes := 0
        failures := max current.failures 1
        outcome := .failed }
    artifacts := state.artifacts.map fun artifact ↦
      { artifact with status := if artifact.status = .pending then .fail else artifact.status } }

/-! ## The store -/

inductive RegistryError
  | runAlreadyActive
  | runJobIdExists
  deriving DecidableEq

def updateRecord (store : WorkbenchRunStore) (jobId : JsString) (updater : RunState → RunState) :
    WorkbenchRunStore :=
  match mapGet store.jobs jobId with
  | none => store
  | some state => { store with jobs := mapSet store.jobs jobId (updater state) }

/-- The first guard of `startWorkbenchRun`. -/
def isActive (store : WorkbenchRunStore) : Bool :=
  match store.activeJobId with
  | none => false
  | some jobId => (mapGet store.jobs jobId).any fun state ↦ !isTerminal state.status

/-- An active job that is terminal is let go before the second guard. -/
def startWorkbenchRun (store : WorkbenchRunStore) (prepared : PreparedWorkbenchRun) :
    WorkbenchRunStore × Except RegistryError RunState :=
  if isActive store then (store, .error .runAlreadyActive)
  else if (mapGet store.jobs prepared.jobId).isSome then
    ({ store with activeJobId := none }, .error .runJobIdExists)
  else
    ({ activeJobId := some prepared.jobId
       jobs := mapSet store.jobs prepared.jobId (createQueuedRun prepared) },
      .ok (createQueuedRun prepared))

/-- The `finally` of `executeRun`. -/
def releaseActive (store : WorkbenchRunStore) (jobId : JsString) : WorkbenchRunStore :=
  if store.activeJobId = some jobId then { store with activeJobId := none } else store

/-! ## The registry with the runs it started -/

/-- Where a started run stands in `executeRun`: before the update of `finishWithArtifacts`,
after it, or outside. -/
inductive Execution
  | executing
  | finished
  | left
  deriving DecidableEq

structure Registry where
  store : WorkbenchRunStore
  executions : JsString → Option Execution

inductive RegistryAction
  | start (prepared : PreparedWorkbenchRun)
  | event (jobId : JsString) (event : ProductionRunnerEvent)
  | finish (jobId : JsString) (blocked : Bool) (found : FinishedArtifacts)
  | fail (jobId : JsString) (message : JsString)
  | leave (jobId : JsString)

/-- Events come from any run that was started, whether or not it is over; an action that
cannot happen changes nothing. -/
def Registry.step (r : Registry) : RegistryAction → Registry
  | .start prepared =>
      match startWorkbenchRun r.store prepared with
      | (store, .error _) => { r with store := store }
      | (store, .ok _) =>
          ⟨store, Function.update r.executions prepared.jobId (some .executing)⟩
  | .event jobId event =>
      if r.executions jobId = none then r
      else { r with store := updateRecord r.store jobId (handleRunnerEvent event) }
  | .finish jobId blocked found =>
      if r.executions jobId = some .executing then
        ⟨updateRecord r.store jobId (finishWithArtifacts blocked found),
          Function.update r.executions jobId (some .finished)⟩
      else r
  | .fail jobId message =>
      if r.executions jobId = some .executing then
        ⟨releaseActive (updateRecord r.store jobId (failRun message)) jobId,
          Function.update r.executions jobId (some .left)⟩
      else r
  | .leave jobId =>
      if r.executions jobId = some .finished then
        ⟨releaseActive r.store jobId, Function.update r.executions jobId (some .left)⟩
      else r

/-- The process has just been started: earlier runs are known, none is executing. -/
def Registry.restarted (jobs : List (JsString × RunState)) : Registry :=
  ⟨⟨none, jobs⟩, fun _ ↦ none⟩

/-- The run has not yet left `executeRun`. -/
def Registry.Inside (r : Registry) (jobId : JsString) : Prop :=
  r.executions jobId = some .executing ∨ r.executions jobId = some .finished

def Registry.statusOf (r : Registry) (jobId : JsString) : Option RunStatus :=
  (mapGet r.store.jobs jobId).map (·.status)

end TestIntelligence.Workbench
