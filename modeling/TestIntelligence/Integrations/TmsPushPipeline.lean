import TestIntelligence.Js.Sorting
import TestIntelligence.ProductionRunner.QcMappingPreview
import TestIntelligence.Systems.Calls

/-!
# The push to a test management system

`runTmsPushPipeline` over an adapter.  Every call of the adapter acts on a state, which stands
for the system behind it, and returns or throws; what it throws is the text of the error.
-/

namespace TestIntelligence.Integrations

open Js ProductionRunner Systems

/-! ## The adapter -/

structure TmsConnectInput where
  endpointAlias : JsString
  projectId : JsString
  tenantId : JsString

/-- The internal state of a session is that of the system behind the adapter. -/
structure TmsAdapterSession where
  endpointAlias : JsString
  projectId : JsString
  tenantId : JsString
  principalId : JsString
  deriving DecidableEq

inductive TmsValidateProjectResult
  | valid (resolvedProjectId : JsString)
  | invalid (code message : JsString)

/-- The payload is the adapter's own. -/
structure TmsMappedCase (π : Type) where
  testCaseId : JsString
  idempotencyKey : JsString
  payload : π

inductive TmsPushVerdict
  | pushed
  | skippedDup
  | failed
  deriving DecidableEq

structure TmsPushAttemptResult where
  testCaseId : JsString
  idempotencyKey : JsString
  verdict : TmsPushVerdict
  tmsTestCaseId : JsString
  tmsErrorCode : JsString
  tmsErrorMessage : JsString
  attemptCount : ℕ
  deriving DecidableEq

structure TmsAdapter (σ π : Type) where
  adapterId : JsString
  version : JsString
  connect : TmsConnectInput → Call JsString σ TmsAdapterSession
  validateProject : TmsAdapterSession → Call JsString σ TmsValidateProjectResult
  mapTestCase : TmsAdapterSession → JsString → QcMappingPreviewEntry →
    Call JsString σ (TmsMappedCase π)
  pushTestCaseBatch : TmsAdapterSession → Bool → List (TmsMappedCase π) →
    Call JsString σ (List TmsPushAttemptResult)
  disconnect : TmsAdapterSession → Call JsString σ Unit

/-! ## Input and report -/

/-- What reading `qc-mapping-preview.json` gives. -/
inductive MappingPreviewFile
  | missing
  | unreadable
  | artifact (entries : List QcMappingPreviewEntry)

/-- Credentials are those of the adapter. -/
structure RunTmsPushPipelineInput extends TmsConnectInput where
  preview : MappingPreviewFile
  runId : JsString
  /-- The readings of the clock -/
  now : ℕ → JsString
  dryRun : Bool
  batchSize : Option ℤ

structure TmsPushReportEntry extends TmsPushAttemptResult where
  recordedAt : JsString
  deriving DecidableEq

structure TmsPushReportArtifact where
  adapterId : JsString
  adapterVersion : JsString
  tmsEndpointAlias : JsString
  tmsProjectId : JsString
  runId : JsString
  tenantId : JsString
  generatedAt : JsString
  refused : Bool
  refusalCodes : List JsString
  dryRun : Bool
  entries : List TmsPushReportEntry
  pushedCount : ℕ
  skippedDuplicateCount : ℕ
  failedCount : ℕ

/-! ## Batches -/

/-- The loop of `chunkBatches` from an index on, in at most `n` turns. -/
def batchesFrom {α : Type} (items : List α) (size : ℕ) : ℕ → ℕ → List (List α)
  | 0, _ => []
  | n + 1, i =>
      if i < items.length then (items.drop i).take size :: batchesFrom items size n (i + size)
      else []

def chunkBatches {α : Type} (items : List α) (size : ℤ) : Except JsString (List (List α)) :=
  if size ≤ 0 then .error (js "chunkBatches: size must be a positive integer")
  else .ok (batchesFrom items size.toNat items.length 0)

theorem flatten_batchesFrom {α : Type} (items : List α) {size : ℕ} (hsize : 0 < size) {n i : ℕ}
    (hn : items.length ≤ n + i) : (batchesFrom items size n i).flatten = items.drop i := by
  induction n generalizing i with
  | zero =>
      rw [batchesFrom, List.drop_of_length_le (by omega)]
      rfl
  | succ n ih =>
      rw [batchesFrom]
      split
      · rw [List.flatten_cons, ih (by omega), ← List.drop_drop, List.take_append_drop]
      · next hi => rw [List.drop_of_length_le (by omega), List.flatten_nil]

theorem flatten_chunkBatches {α : Type} {items : List α} {size : ℤ} {batches : List (List α)}
    (h : chunkBatches items size = .ok batches) : batches.flatten = items := by
  unfold chunkBatches at h
  split at h
  · cases h
  · next hsize =>
    rw [← Except.ok.inj h, flatten_batchesFrom items (by omega) (by omega), List.drop_zero]

/-! ## The pipeline -/

def MappingPreviewFile.entries : MappingPreviewFile → List QcMappingPreviewEntry
  | .artifact entries => entries
  | _ => []

def MappingPreviewFile.refusalCodes : MappingPreviewFile → List JsString
  | .missing => [js "mapping_preview_missing"]
  | .unreadable => [js "mapping_preview_unreadable"]
  | .artifact entries => if entries = [] then [js "no_mapped_test_cases"] else []

def countVerdict (verdict : TmsPushVerdict) (entries : List TmsPushReportEntry) : ℕ :=
  entries.countP (·.verdict = verdict)

section

variable (localeCompare : JsString → JsString → ℤ) (sanitizeTmsErrorDetail : JsString → JsString)

def toFailureAttempt (adapterId : JsString) (err : JsString) (entry : QcMappingPreviewEntry) :
    TmsPushAttemptResult where
  testCaseId := entry.testCaseId
  idempotencyKey := []
  verdict := .failed
  tmsTestCaseId := []
  tmsErrorCode := adapterId ++ js "_pipeline_refused"
  tmsErrorMessage := sanitizeTmsErrorDetail err
  attemptCount := 0

def toReportEntry (attempt : TmsPushAttemptResult) (recordedAt : JsString) :
    TmsPushReportEntry := { attempt with recordedAt }

variable {σ π : Type} (adapter : TmsAdapter σ π) (input : RunTmsPushPipelineInput)

/-- The batches of mapped cases: refusal codes and attempts. -/
def pushBatches (session : TmsAdapterSession) (mapped : List (TmsMappedCase π)) :
    Call JsString σ (List JsString × List TmsPushAttemptResult) :=
  match chunkBatches mapped (input.batchSize.getD 50) with
  | .error err => throw err
  | .ok batches => do
      let results ← batches.mapM (adapter.pushTestCaseBatch session input.dryRun)
      pure ([], results.flatten)

/-- The steps between `connect` and `disconnect`. -/
def pushInSession (session : TmsAdapterSession) (entries : List QcMappingPreviewEntry) :
    Call JsString σ (List JsString × List TmsPushAttemptResult) := do
  match ← adapter.validateProject session with
  | .invalid code message =>
      pure ([js "project_validation_failed"],
        entries.map (toFailureAttempt sanitizeTmsErrorDetail adapter.adapterId
          (code ++ js ": " ++ message)))
  | .valid _ =>
      let mapped ← entries.mapM (adapter.mapTestCase session input.runId)
      pushBatches adapter input session mapped

def pushEntries (entries : List QcMappingPreviewEntry) :
    Call JsString σ (List JsString × List TmsPushAttemptResult) := do
  match ← (adapter.connect input.toTmsConnectInput).attempt with
  | .error err =>
      pure ([js "connect_failed"],
        entries.map (toFailureAttempt sanitizeTmsErrorDetail adapter.adapterId err))
  | .ok session =>
      let outcome ← pushInSession sanitizeTmsErrorDetail adapter input session entries
      let _ ← (adapter.disconnect session).attempt
      pure outcome

def reportEntries (entries : List QcMappingPreviewEntry) (refusalCodes : List JsString)
    (attemptResults : List TmsPushAttemptResult) : List TmsPushReportEntry :=
  let attempts :=
    if refusalCodes ≠ [] ∧ attemptResults = [] then
      entries.map (toFailureAttempt sanitizeTmsErrorDetail adapter.adapterId
        (js "refused before push"))
    else attemptResults
  sortBy (fun a b ↦ localeCompare a.testCaseId b.testCaseId)
    (attempts.mapIdx fun i attempt ↦ toReportEntry attempt (input.now i))

def buildReport (entries : List QcMappingPreviewEntry) (refusalCodes : List JsString)
    (attemptResults : List TmsPushAttemptResult) : TmsPushReportArtifact :=
  let entries := reportEntries localeCompare sanitizeTmsErrorDetail adapter input entries
    refusalCodes attemptResults
  { adapterId := adapter.adapterId
    adapterVersion := adapter.version
    tmsEndpointAlias := input.endpointAlias
    tmsProjectId := input.projectId
    runId := input.runId
    tenantId := input.tenantId
    generatedAt := input.now entries.length
    refused := refusalCodes ≠ []
    refusalCodes := sortStrings refusalCodes
    dryRun := input.dryRun
    entries := entries
    pushedCount := countVerdict .pushed entries
    skippedDuplicateCount := countVerdict .skippedDup entries
    failedCount := countVerdict .failed entries }

/-- The report that is persisted. -/
def runTmsPushPipeline : Call JsString σ TmsPushReportArtifact := do
  let entries := sortBy (fun a b ↦ localeCompare a.testCaseId b.testCaseId) input.preview.entries
  let outcome ←
    if input.preview.refusalCodes = [] then
      pushEntries sanitizeTmsErrorDetail adapter input entries
    else pure (input.preview.refusalCodes, [])
  pure (buildReport localeCompare sanitizeTmsErrorDetail adapter input entries outcome.1 outcome.2)

end

end TestIntelligence.Integrations
