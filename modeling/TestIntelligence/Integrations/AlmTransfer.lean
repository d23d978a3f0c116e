import TestIntelligence.Js.Utf8
import TestIntelligence.ProductionRunner.QcMappingPreview
import TestIntelligence.ProductionRunner.ReviewStore

/-!
# Transfer to the API of OpenText ALM

`runOpenTextAlmApiTransfer` over a client.  What the gates other than the one over the
entries refuse is part of the input, and neither reports nor the traceability matrix are
written.  A client acts on a state, which stands for the tenant behind it.
-/

namespace TestIntelligence.Integrations

open Js Review ProductionRunner

/-! ## The client -/

structure QcApiFolderHandle where
  qcFolderId : JsString
  resolvedPath : JsString
  deriving DecidableEq

structure QcApiDesignStepRequest where
  index : JsNumber
  action : JsString
  expected : JsString
  data : Option JsString
  deriving DecidableEq

/-- A count of steps is a natural number. -/
inductive QcApiLookupResult
  | missing
  | found (qcEntityId : JsString) (existingDesignStepCount : Option ℕ)

inductive TransferFailureClass
  | transportError
  | authFailed
  | permissionDenied
  | validationRejected
  | conflictUnresolved
  | rateLimited
  | serverError
  | unknown
  deriving DecidableEq

/-- What a call throws: the class of a `QcApiTransferError`, and the sanitized message. -/
structure ClientError where
  failureClass : Option TransferFailureClass
  detail : JsString

/-- The calls that a transfer makes; profile and token are fixed. -/
structure QcApiTransferClient (σ : Type) where
  resolveFolder : JsString → σ → σ × Except ClientError QcApiFolderHandle
  lookupByExternalId : QcApiFolderHandle → JsString → σ → σ × Except ClientError QcApiLookupResult
  createTestEntity : QcApiFolderHandle → QcMappingPreviewEntry → σ → σ × Except ClientError JsString
  createDesignStep : JsString → QcApiDesignStepRequest → σ → σ × Except ClientError Unit

/-! ## Input and result -/

inductive TransferEntityOutcome
  | created
  | skippedDuplicate
  | failed
  | refused
  deriving DecidableEq

structure TransferEntityRecord where
  testCaseId : JsString
  externalIdCandidate : JsString
  targetFolderPath : JsString
  outcome : TransferEntityOutcome
  qcEntityId : JsString
  designStepsCreated : ℕ
  recordedAt : JsString
  failureClass : Option TransferFailureClass
  failureDetail : Option JsString

structure QcCreatedEntity where
  testCaseId : JsString
  externalIdCandidate : JsString
  qcEntityId : JsString
  targetFolderPath : JsString
  createdAt : JsString
  designStepCount : ℕ
  preExisting : Bool

inductive FolderResolution
  | resolved
  | missing
  | simulated
  | invalidPath
  deriving DecidableEq

structure TransferInput where
  jobId : JsString
  profileId : JsString
  profileVersion : JsString
  preview : List QcMappingPreviewEntry
  reviewSnapshot : ReviewGateSnapshot
  /-- The codes of the gates over the rest of the input -/
  otherRefusals : List JsString
  folderResolver : Option (JsString → Except ClientError FolderResolution)
  /-- The readings of the clock, one for each entry -/
  now : ℕ → JsString
  /-- Whether the `transferred` event of a record could be appended -/
  reviewEventSink : Option (TransferEntityRecord → Bool)

structure TransferReport where
  refused : Bool
  refusalCodes : List JsString
  records : List TransferEntityRecord
  created : List QcCreatedEntity
  createdCount : ℕ
  skippedDuplicateCount : ℕ
  failedCount : ℕ
  refusedCount : ℕ

/-! ## Review snapshots -/

def sortedUnique (values : List JsString) : List JsString := sortStrings (setOf values)

def isTransferableState (state : ReviewState) : Bool := state = .exported || state = .transferred

def isFourEyesPending (entry : ReviewSnapshot) : Bool :=
  if !entry.fourEyesEnforced then false else !isApprovedState entry.state

def buildSnapshotIndex (snapshot : ReviewGateSnapshot) : List (JsString × ReviewSnapshot) :=
  snapshot.perTestCase.foldl (fun index entry ↦ mapSet index entry.testCaseId entry) []

/-! ## The gate over the entries -/

inductive EntryGate
  | inconsistent
  | policyBlocked
  | schemaInvalid
  | visualEvidenceMissing
  | fourEyesPending
  | approved
  | unapproved
  deriving DecidableEq

/-- One turn of the loop of `collectGateRefusals` over the entries. -/
def entryGate (snapshotIndex : List (JsString × ReviewSnapshot)) (entry : QcMappingPreviewEntry) :
    EntryGate :=
  match mapGet snapshotIndex entry.testCaseId with
  | none => .inconsistent
  | some snapshot =>
      if snapshot.policyDecision = .blocked then .policyBlocked
      else if !entry.exportable then .schemaInvalid
      else if entry.visualProvenance.any (!isHexOfLength 64 ·.evidenceHash) then
        .visualEvidenceMissing
      else if isFourEyesPending snapshot then .fourEyesPending
      else if isTransferableState snapshot.state then .approved
      else .unapproved

def gateCode : EntryGate → Option JsString
  | .inconsistent => some (js "review_state_inconsistent")
  | .policyBlocked => some (js "policy_blocked_cases_present")
  | .schemaInvalid => some (js "schema_invalid_cases_present")
  | .visualEvidenceMissing => some (js "visual_sidecar_evidence_missing")
  | .fourEyesPending => some (js "four_eyes_pending")
  | .approved => none
  | .unapproved => some (js "unapproved_test_cases_present")

/-- The codes that the entries add to those of the other gates. -/
def entryRefusals (snapshotIndex : List (JsString × ReviewSnapshot))
    (preview : List QcMappingPreviewEntry) : List JsString :=
  let gates := preview.map (entryGate snapshotIndex)
  let refusals := gates.filterMap gateCode
  if preview = [] then [js "no_mapped_test_cases"]
  else if gates.all (· = .visualEvidenceMissing) then js "no_approved_test_cases" :: refusals
  else refusals

def collectGateRefusals (input : TransferInput) : List JsString :=
  input.otherRefusals ++ entryRefusals (buildSnapshotIndex input.reviewSnapshot) input.preview

/-! ## Entries and steps in order -/

def isEligible (snapshotIndex : List (JsString × ReviewSnapshot)) (entry : QcMappingPreviewEntry) :
    Bool :=
  match mapGet snapshotIndex entry.testCaseId with
  | none => false
  | some snap =>
      isTransferableState snap.state && entry.exportable && snap.policyDecision ≠ .blocked &&
        !isFourEyesPending snap

def sortPreviewEntries (localeCompare : JsString → JsString → ℤ)
    (preview : List QcMappingPreviewEntry) (snapshotIndex : List (JsString × ReviewSnapshot)) :
    List QcMappingPreviewEntry :=
  sortBy (fun a b ↦
    if localeCompare a.targetFolderPath b.targetFolderPath = 0 then
      localeCompare a.testCaseId b.testCaseId
    else localeCompare a.targetFolderPath b.targetFolderPath)
    (preview.filter (isEligible snapshotIndex))

def stepRequest (step : QcCsv.GeneratedTestCaseStep) : QcApiDesignStepRequest where
  index := step.index
  action := step.action
  expected := step.expected.getD []
  data := step.data

def sortedDesignSteps (entry : QcMappingPreviewEntry) : List QcApiDesignStepRequest :=
  (entry.designSteps.insertionSort QcCsv.indexBefore).map stepRequest

/-! ## One entry -/

structure AttemptResult where
  record : TransferEntityRecord
  created : Option QcCreatedEntity

def newRecord (entry : QcMappingPreviewEntry) (outcome : TransferEntityOutcome)
    (qcEntityId : JsString) (designStepsCreated : ℕ) (recordedAt : JsString) :
    TransferEntityRecord where
  testCaseId := entry.testCaseId
  externalIdCandidate := entry.externalIdCandidate
  targetFolderPath := entry.targetFolderPath
  outcome := outcome
  qcEntityId := qcEntityId
  designStepsCreated := designStepsCreated
  recordedAt := recordedAt
  failureClass := none
  failureDetail := none

def failedAttempt (entry : QcMappingPreviewEntry) (qcEntityId : JsString) (designStepsCreated : ℕ)
    (recordedAt : JsString) (error : ClientError) : AttemptResult where
  record := { newRecord entry .failed qcEntityId designStepsCreated recordedAt with
    failureClass := some (error.failureClass.getD .unknown)
    failureDetail := some error.detail }
  created := none

def createdEntity (entry : QcMappingPreviewEntry) (qcEntityId recordedAt : JsString)
    (preExisting : Bool) : QcCreatedEntity where
  testCaseId := entry.testCaseId
  externalIdCandidate := entry.externalIdCandidate
  qcEntityId := qcEntityId
  targetFolderPath := entry.targetFolderPath
  createdAt := recordedAt
  designStepCount := entry.designSteps.length
  preExisting := preExisting

section

variable {σ : Type} (client : QcApiTransferClient σ)

/-- The loop over design steps, with the number of those it created and the error it ended with. -/
def createDesignSteps (qcEntityId : JsString) :
    List QcApiDesignStepRequest → ℕ → σ → σ × ℕ × Option ClientError
  | [], designStepsCreated, s => (s, designStepsCreated, none)
  | step :: rest, designStepsCreated, s =>
      match client.createDesignStep qcEntityId step s with
      | (s', .ok ()) => createDesignSteps qcEntityId rest (designStepsCreated + 1) s'
      | (s', .error error) => (s', designStepsCreated, some error)

/-- The steps that are still to be created, and the record of how that went. -/
def fillEntity (entry : QcMappingPreviewEntry) (qcEntityId recordedAt : JsString)
    (steps : List QcApiDesignStepRequest) (preExisting : Bool) (s : σ) : σ × AttemptResult :=
  match createDesignSteps client qcEntityId steps 0 s with
  | (s', designStepsCreated, some error) =>
      (s', failedAttempt entry qcEntityId designStepsCreated recordedAt error)
  | (s', designStepsCreated, none) =>
      (s', ⟨newRecord entry .created qcEntityId designStepsCreated recordedAt,
        some (createdEntity entry qcEntityId recordedAt preExisting)⟩)

def isPartialWrite (existingCount : Option ℕ) (expectedDesignStepCount : ℕ) : Bool :=
  existingCount.any (· < expectedDesignStepCount)

def attemptTransfer (folder : QcApiFolderHandle) (entry : QcMappingPreviewEntry)
    (recordedAt : JsString) (s : σ) : σ × AttemptResult :=
  match client.lookupByExternalId folder entry.externalIdCandidate s with
  | (s', .error error) => (s', failedAttempt entry [] 0 recordedAt error)
  | (s', .ok (.found qcEntityId existingCount)) =>
      if isPartialWrite existingCount entry.designSteps.length then
        fillEntity client entry qcEntityId recordedAt
          ((sortedDesignSteps entry).drop (existingCount.getD 0)) true s'
      else
        (s', ⟨newRecord entry .skippedDuplicate qcEntityId 0 recordedAt,
          some (createdEntity entry qcEntityId recordedAt true)⟩)
  | (s', .ok .missing) =>
      match client.createTestEntity folder entry s' with
      | (s'', .error error) => (s'', failedAttempt entry [] 0 recordedAt error)
      | (s'', .ok qcEntityId) =>
          fillEntity client entry qcEntityId recordedAt (sortedDesignSteps entry) false s''

/-! ## One run -/

def simulatedFolder (sha256 : Bytes → JsString) (input : TransferInput)
    (targetFolderPath : JsString) : QcApiFolderHandle where
  qcFolderId := js "simulated:" ++ (sha256 (utf8Encode (Security.canonicalJson (.str
    (input.profileId ++ js "|" ++ input.profileVersion ++ js "|" ++ targetFolderPath))))).take 16
  resolvedPath := targetFolderPath

/-- The handle of a folder, or `none` where resolving it throws. -/
def resolveTargetFolder (sha256 : Bytes → JsString) (input : TransferInput)
    (targetFolderPath : JsString) (s : σ) : σ × Option QcApiFolderHandle :=
  match input.folderResolver with
  | some resolver =>
      match resolver targetFolderPath with
      | .ok state =>
          if state = .resolved ∨ state = .simulated then
            (s, some (simulatedFolder sha256 input targetFolderPath))
          else (s, none)
      | .error _ => (s, none)
  | none =>
      match client.resolveFolder targetFolderPath s with
      | (s', .ok folder) => (s', some folder)
      | (s', .error _) => (s', none)

def resolveTargetFolders (sha256 : Bytes → JsString) (input : TransferInput) :
    List JsString → List (JsString × QcApiFolderHandle) → σ →
      σ × Option (List (JsString × QcApiFolderHandle))
  | [], folderByPath, s => (s, some folderByPath)
  | targetFolderPath :: rest, folderByPath, s =>
      match resolveTargetFolder client sha256 input targetFolderPath s with
      | (s', some folder) =>
          resolveTargetFolders sha256 input rest (mapSet folderByPath targetFolderPath folder) s'
      | (s', none) => (s', none)

/-- The loop over the eligible entries; it throws where a folder is missing. -/
def transferEntries (input : TransferInput) (folderByPath : List (JsString × QcApiFolderHandle)) :
    List QcMappingPreviewEntry → ℕ → σ → σ × Except JsString (List AttemptResult)
  | [], _, s => (s, .ok [])
  | entry :: rest, n, s =>
      match mapGet folderByPath entry.targetFolderPath with
      | none => (s, .error (js "runOpenTextAlmApiTransfer: missing resolved folder for " ++
          entry.targetFolderPath))
      | some folder =>
          let attempt := attemptTransfer client folder entry (input.now n) s
          let others := transferEntries input folderByPath rest (n + 1) attempt.1
          (others.1, others.2.map (attempt.2 :: ·))

def TransferEntityOutcome.isTransferred (outcome : TransferEntityOutcome) : Bool :=
  outcome = .created || outcome = .skippedDuplicate

/-- A record after the attempt to append its review event. -/
def noteReviewEvent (input : TransferInput) (record : TransferEntityRecord) :
    TransferEntityRecord :=
  match input.reviewEventSink with
  | none => record
  | some appended =>
      if record.outcome.isTransferred && !appended record then
        { record with
          failureDetail := some (record.failureDetail.getD (js "review_event_sink_failed")) }
      else record

def refusedReport (refusalCodes : List JsString) : TransferReport where
  refused := true
  refusalCodes := sortedUnique refusalCodes
  records := []
  created := []
  createdCount := 0
  skippedDuplicateCount := 0
  failedCount := 0
  refusedCount := 0

def transferReport (localeCompare : JsString → JsString → ℤ) (input : TransferInput)
    (attempts : List AttemptResult) : TransferReport :=
  let records := sortBy (fun a b ↦ localeCompare a.testCaseId b.testCaseId)
    (attempts.map fun attempt ↦ noteReviewEvent input attempt.record)
  { refused := false
    refusalCodes := []
    records := records
    created := sortBy (fun a b ↦ localeCompare a.testCaseId b.testCaseId)
      (attempts.filterMap (·.created))
    createdCount := records.countP (·.outcome = .created)
    skippedDuplicateCount := records.countP (·.outcome = .skippedDuplicate)
    failedCount := records.countP (·.outcome = .failed)
    refusedCount := records.countP (·.outcome = .refused) }

def runOpenTextAlmApiTransfer (sha256 : Bytes → JsString)
    (localeCompare : JsString → JsString → ℤ) (input : TransferInput) (s : σ) :
    σ × Except JsString TransferReport :=
  if input.jobId = [] then
    (s, .error (js "runOpenTextAlmApiTransfer: input.jobId is required."))
  else if collectGateRefusals input ≠ [] then
    (s, .ok (refusedReport (collectGateRefusals input)))
  else
    let snapshotIndex := buildSnapshotIndex input.reviewSnapshot
    let eligible := sortPreviewEntries localeCompare input.preview snapshotIndex
    match resolveTargetFolders client sha256 input
        (sortedUnique (eligible.map (·.targetFolderPath))) [] s with
    | (s', none) => (s', .ok (refusedReport [js "folder_resolution_failed"]))
    | (s', some folderByPath) =>
        let attempts := transferEntries client input folderByPath eligible 0 s'
        (attempts.1, attempts.2.map (transferReport localeCompare input))

end

end TestIntelligence.Integrations
