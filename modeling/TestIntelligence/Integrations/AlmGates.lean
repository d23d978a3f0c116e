import TestIntelligence.Integrations.AlmTransfer

/-!
# The gates of the ALM transfer

What `collectGateRefusals` reads besides the entries, and the sink of review events.  The
verdict of `validateQcMappingProfile` is part of the profile; identifiers of reports, audit
metadata other than the principal, and what is written to disk are left out.
-/

namespace TestIntelligence.Integrations

open Js Review ProductionRunner

/-! ## Input -/

structure QcMappingProfile where
  id : JsString
  version : JsString
  provider : JsString
  targetFolderPath : JsString
  /-- The verdict of `validateQcMappingProfile` -/
  valid : Bool

structure DryRunPlannedEntityPayload where
  testCaseId : JsString
  externalIdCandidate : JsString
  targetFolderPath : JsString
  designStepCount : ℕ

structure DryRunReportArtifact where
  reportId : JsString
  jobId : JsString
  mode : JsString
  adapterProvider : JsString
  profileId : JsString
  profileVersion : JsString
  refused : Bool
  folderResolution : FolderResolution
  incompleteCases : ℕ
  plannedPayloads : List DryRunPlannedEntityPayload

structure VisualSidecarValidationRecord where
  screenId : JsString
  deployment : JsString
  outcomes : List JsString
  meanConfidence : JsNumber

structure VisualSidecarValidationReport where
  jobId : JsString
  blocked : Bool
  records : List VisualSidecarValidationRecord

structure TransferPrincipal where
  principalId : JsString
  bearerToken : JsString

structure RunOpenTextAlmApiTransferInput where
  jobId : JsString
  profile : QcMappingProfile
  previewProfileId : JsString
  previewProfileVersion : JsString
  preview : List QcMappingPreviewEntry
  dryRun : Option DryRunReportArtifact
  reviewSnapshot : ReviewGateSnapshot
  visual : Option VisualSidecarValidationReport
  featureEnabled : Bool
  allowApiTransfer : Bool
  configuredBearerToken : Option JsString
  transferPrincipals : List TransferPrincipal
  callerBearerToken : Option JsString
  folderResolver : Option (JsString → Except ClientError FolderResolution)
  /-- The readings of the clock, one for each entry -/
  now : ℕ → JsString

/-! ## Tokens -/

structure AuthOutcome where
  bearerTokenAccepted : Bool
  authPrincipalId : JsString
  bearerTokenMissing : Bool

def normalizeToken (token : Option JsString) : Option JsString :=
  token.bind fun token ↦ if trim token = [] then none else some (trim token)

def tokenCandidates (configuredBearerToken : Option JsString)
    (principals : List TransferPrincipal) : List (JsString × JsString) :=
  principals.filterMap (fun principal ↦
    (normalizeToken (some principal.bearerToken)).bind fun token ↦
      if trim principal.principalId = [] then none
      else some (trim principal.principalId, token)) ++
  ((normalizeToken configuredBearerToken).map
    (js "transfer-principal:default", ·)).toList

section

variable (sha256 : Bytes → JsString) (localeCompare : JsString → JsString → ℤ)

def tokensMatchTimingSafe (expected candidate : JsString) : Bool :=
  sha256 (utf8Encode expected) = sha256 (utf8Encode candidate)

def evaluateAuthGate (configuredBearerToken : Option JsString)
    (principals : List TransferPrincipal) (callerBearerToken : Option JsString) : AuthOutcome :=
  let candidates := tokenCandidates configuredBearerToken principals
  if candidates = [] then ⟨false, js "transfer-principal:unconfigured", true⟩
  else
    match normalizeToken callerBearerToken with
    | none => ⟨false, js "transfer-principal:anonymous", false⟩
    | some received =>
        match candidates.find? fun candidate ↦
            tokensMatchTimingSafe sha256 candidate.2 received with
        | some candidate => ⟨true, candidate.1, false⟩
        | none => ⟨false, js "transfer-principal:anonymous", false⟩

/-! ## Folders and the dry run -/

def isFolderUnit (u : CodeUnit) : Bool :=
  isAlphanumeric u || u == 0x2E || u == 0x5F || u == 0x2D

/-- `[A-Za-z0-9._-][A-Za-z0-9._ -]*` -/
def isFolderSegment : JsString → Bool
  | [] => false
  | u :: rest => isFolderUnit u && rest.all fun v ↦ isFolderUnit v || v == 0x20

/-- `FOLDER_PATH_REGEX`, and no segment of dots only -/
def isValidFolderPath (path : JsString) : Bool :=
  match split 0x2F path with
  | [] :: subject :: segments =>
      decide (subject = js "Subject") && !segments.isEmpty && segments.all isFolderSegment &&
        segments.all fun segment ↦ segment ≠ js "." && segment ≠ js ".."
  | _ => false

def isFolderPathUnderRoot (path root : JsString) : Bool :=
  path = root || (root ++ js "/").isPrefixOf path

def payloadMatches (plannedById : List (JsString × DryRunPlannedEntityPayload))
    (entry : QcMappingPreviewEntry) : Bool :=
  match mapGet plannedById entry.testCaseId with
  | none => false
  | some planned =>
      planned.externalIdCandidate = entry.externalIdCandidate &&
        planned.targetFolderPath = entry.targetFolderPath &&
        planned.designStepCount = entry.designSteps.length

def dryRunPayloadsMatchPreview (dryRun : DryRunReportArtifact)
    (preview : List QcMappingPreviewEntry) : Bool :=
  let plannedById := dryRun.plannedPayloads.foldl
    (fun index payload ↦ mapSet index payload.testCaseId payload) []
  dryRun.plannedPayloads.length = preview.length && preview.all (payloadMatches plannedById)

/-! ## Visual evidence -/

def provenanceLine (record : VisualSidecarValidationRecord) : JsString :=
  record.screenId ++ js "|" ++ record.deployment ++ js "|" ++
    join (js ",") (sortStrings record.outcomes) ++ js "|" ++
    QcCsv.toFixed 6 record.meanConfidence

def visualEvidenceHashForEntry (entry : QcMappingPreviewEntry)
    (visual : VisualSidecarValidationReport) : Option JsString :=
  let matching := sortBy (fun a b ↦ localeCompare a.screenId b.screenId)
    (visual.records.filter fun record ↦
      entry.sourceTraceRefs.any (·.screenId = record.screenId))
  if matching = [] then none
  else some (sha256 (utf8Encode (Security.canonicalJson (.str
    (join [0x0A] (matching.map provenanceLine))))))

/-- The turn of an entry in the loop over visual evidence. -/
def visualEvidenceMissing (visual : VisualSidecarValidationReport)
    (entry : QcMappingPreviewEntry) : Bool :=
  match entry.visualProvenance with
  | none => false
  | some provenance =>
      if entry.sourceTraceRefs = [] then true
      else
        entry.sourceTraceRefs.all (fun ref ↦ visual.records.all (·.screenId ≠ ref.screenId)) ||
          visualEvidenceHashForEntry sha256 localeCompare entry visual ≠
            some provenance.evidenceHash

/-! ## Refusals -/

def refuseIf (fires : Bool) (code : JsString) : List JsString := if fires then [code] else []

variable (input : RunOpenTextAlmApiTransferInput)

def authGate : AuthOutcome :=
  evaluateAuthGate sha256 input.configuredBearerToken input.transferPrincipals
    input.callerBearerToken

def adapterProvider : JsString := js "opentext_alm"

def profileRefusals : List JsString :=
  refuseIf (!input.profile.valid) (js "mapping_profile_invalid") ++
  refuseIf (input.profile.provider ≠ adapterProvider) (js "provider_mismatch") ++
  refuseIf (!isValidFolderPath input.profile.targetFolderPath) (js "folder_resolution_failed") ++
  refuseIf (input.preview.any fun entry ↦ !isValidFolderPath entry.targetFolderPath ||
    !isFolderPathUnderRoot entry.targetFolderPath input.profile.targetFolderPath)
    (js "folder_resolution_failed")

def dryRunRefusals : List JsString :=
  match input.dryRun with
  | none => [js "dry_run_missing"]
  | some dryRun =>
      refuseIf (dryRun.jobId ≠ input.jobId || dryRun.mode ≠ js "dry_run" ||
        dryRun.adapterProvider ≠ adapterProvider ||
        input.previewProfileId ≠ input.profile.id ||
        input.previewProfileVersion ≠ input.profile.version ||
        dryRun.profileId ≠ input.profile.id || dryRun.profileVersion ≠ input.profile.version)
        (js "dry_run_missing") ++
      refuseIf dryRun.refused (js "dry_run_refused") ++
      refuseIf (dryRun.folderResolution ≠ .resolved && dryRun.folderResolution ≠ .simulated)
        (js "dry_run_refused") ++
      refuseIf (0 < dryRun.incompleteCases) (js "dry_run_refused") ++
      refuseIf (!dryRunPayloadsMatchPreview dryRun input.preview) (js "dry_run_refused")

def visualRefusals : List JsString :=
  match input.visual with
  | none =>
      refuseIf (input.preview.any (·.visualProvenance.isSome))
        (js "visual_sidecar_evidence_missing")
  | some visual =>
      let snapshotIndex := buildSnapshotIndex input.reviewSnapshot
      refuseIf visual.blocked (js "visual_sidecar_blocked") ++
      refuseIf (visual.jobId ≠ input.jobId || input.preview.any fun entry ↦
        (mapGet snapshotIndex entry.testCaseId).any (isTransferableState ·.state) &&
          visualEvidenceMissing sha256 localeCompare visual entry)
        (js "visual_sidecar_evidence_missing")

/-- What the gates refuse that do not look at review states. -/
def otherRefusals : List JsString :=
  let auth := authGate sha256 input
  refuseIf (!input.featureEnabled) (js "feature_disabled") ++
  refuseIf (!input.allowApiTransfer) (js "admin_gate_disabled") ++
  refuseIf (auth.bearerTokenMissing || !auth.bearerTokenAccepted) (js "bearer_token_missing") ++
  profileRefusals input ++ dryRunRefusals input ++ visualRefusals sha256 localeCompare input

def RunOpenTextAlmApiTransferInput.toTransferInput
    (reviewEventSink : Option (TransferEntityRecord → Bool)) : TransferInput where
  jobId := input.jobId
  profileId := input.profile.id
  profileVersion := input.profile.version
  preview := input.preview
  reviewSnapshot := input.reviewSnapshot
  otherRefusals := otherRefusals sha256 localeCompare input
  folderResolver := input.folderResolver
  now := input.now
  reviewEventSink := reviewEventSink

/-! ## The sink of review events -/

structure TransferredEvent where
  jobId : JsString
  testCaseId : JsString
  actor : JsString
  atTime : JsString
  qcEntityId : JsString
  externalIdCandidate : JsString
  deriving DecidableEq

/-- Whether the event was appended; the sink acts on a state of its own. -/
abbrev TransferReviewEventSink (τ : Type) := TransferredEvent → τ → τ × Bool

def transferredEvent (record : TransferEntityRecord) : TransferredEvent where
  jobId := input.jobId
  testCaseId := record.testCaseId
  actor := (authGate sha256 input).authPrincipalId
  atTime := record.recordedAt
  qcEntityId := record.qcEntityId
  externalIdCandidate := record.externalIdCandidate

def sinkFailed (record : TransferEntityRecord) : TransferEntityRecord :=
  { record with failureDetail := some (record.failureDetail.getD (js "review_event_sink_failed")) }

/-- The loop over the records, where there is a sink. -/
def appendTransferred {τ : Type} (sink : TransferReviewEventSink τ) :
    List TransferEntityRecord → τ → τ × List TransferEntityRecord
  | [], t => (t, [])
  | record :: rest, t =>
      if record.outcome.isTransferred then
        let appended := sink (transferredEvent sha256 input record) t
        let others := appendTransferred sink rest appended.1
        (others.1, (if appended.2 then record else sinkFailed record) :: others.2)
      else
        let others := appendTransferred sink rest t
        (others.1, record :: others.2)

def reportOf (records : List TransferEntityRecord) (created : List QcCreatedEntity) :
    TransferReport :=
  let records := sortBy (fun a b ↦ localeCompare a.testCaseId b.testCaseId) records
  { refused := false
    refusalCodes := []
    records := records
    created := sortBy (fun a b ↦ localeCompare a.testCaseId b.testCaseId) created
    createdCount := records.countP (·.outcome = .created)
    skippedDuplicateCount := records.countP (·.outcome = .skippedDuplicate)
    failedCount := records.countP (·.outcome = .failed)
    refusedCount := records.countP (·.outcome = .refused) }

variable {σ τ : Type} (client : QcApiTransferClient σ) (sink : Option (TransferReviewEventSink τ))

/-- The records as the sink leaves them. -/
def noteReviewEvents (records : List TransferEntityRecord) (t : τ) :
    τ × List TransferEntityRecord :=
  match sink with
  | none => (t, records)
  | some sink => appendTransferred sha256 input sink records t

/-- The part after the target folders are resolved. -/
def RunOpenTextAlmApiTransferInput.transferAll
    (folderByPath : List (JsString × QcApiFolderHandle)) (eligible : List QcMappingPreviewEntry)
    (s : σ) (t : τ) : (σ × τ) × Except JsString TransferReport :=
  match transferEntries client (input.toTransferInput sha256 localeCompare none) folderByPath
      eligible 0 s with
  | (s', .error error) => ((s', t), .error error)
  | (s', .ok attempts) =>
      let noted := noteReviewEvents sha256 input sink (attempts.map (·.record)) t
      ((s', noted.1), .ok (reportOf localeCompare noted.2 (attempts.filterMap (·.created))))

/-- `runOpenTextAlmApiTransfer` with all gates and a sink. -/
def RunOpenTextAlmApiTransferInput.run (s : σ) (t : τ) :
    (σ × τ) × Except JsString TransferReport :=
  let transfer := input.toTransferInput sha256 localeCompare none
  if input.jobId = [] then
    ((s, t), .error (js "runOpenTextAlmApiTransfer: input.jobId is required."))
  else if collectGateRefusals transfer ≠ [] then
    ((s, t), .ok (refusedReport (collectGateRefusals transfer)))
  else
    let eligible := sortPreviewEntries localeCompare input.preview
      (buildSnapshotIndex input.reviewSnapshot)
    match resolveTargetFolders client sha256 transfer
        (sortedUnique (eligible.map (·.targetFolderPath))) [] s with
    | (s', none) => ((s', t), .ok (refusedReport [js "folder_resolution_failed"]))
    | (s', some folderByPath) =>
        input.transferAll sha256 localeCompare client sink folderByPath eligible s' t

end

end TestIntelligence.Integrations
