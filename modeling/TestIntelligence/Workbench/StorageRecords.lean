import TestIntelligence.Js.Number
import TestIntelligence.Js.Patterns
import TestIntelligence.Js.NumberText

/-!
# Records of the workbench storage

The records of the storage boundary, their content references, and the errors that its checks
throw.  A timestamp is the text that `toISOString` gives.
-/

namespace TestIntelligence.Workbench

open Js

/-! ## Errors -/

inductive WorkbenchStorageErrorCode
  | nestedTransaction
  | referentialIntegrity
  | contentRefInvalid
  | migrationSequenceInvalid
  | schemaVersionUnsupported
  deriving DecidableEq

structure WorkbenchStorageError where
  code : WorkbenchStorageErrorCode
  message : JsString
  deriving DecidableEq

/-! ## Content references -/

structure ContentRef where
  sha256 : JsString
  byteSize : JsNumber
  storageRef : JsString

/-- `Number.isSafeInteger` -/
def isSafeInteger (x : JsNumber) : Bool :=
  x.isInteger && decide (|x.toRat| ≤ 2 ^ 53 - 1)

def artifactStorageRef (sha256Hex : JsString) : Option JsString :=
  if !isHexOfLength 64 sha256Hex then none
  else some (sha256Hex.take 2 ++ js "/" ++ (sha256Hex.drop 2).take 2 ++ js "/" ++ sha256Hex ++
    js ".bin")

def assertCanonicalContentRef (ref : ContentRef) (fieldName : JsString) :
    Except WorkbenchStorageError Unit :=
  match artifactStorageRef ref.sha256 with
  | none => .error ⟨.contentRefInvalid,
      fieldName ++ js " must use a canonical lowercase SHA-256 content hash."⟩
  | some expectedStorageRef =>
      if !isSafeInteger ref.byteSize || ref.byteSize.lt 0 then
        .error ⟨.contentRefInvalid,
          fieldName ++ js " byteSize must be a non-negative safe integer."⟩
      else if ref.storageRef ≠ expectedStorageRef then
        .error ⟨.contentRefInvalid, fieldName ++
          js " storageRef must match the canonical content-addressed path for sha256."⟩
      else .ok ()

/-! ## Records -/

inductive WorkbenchRunStatus
  | idle
  | queued
  | running
  | judging
  | policyGate
  | sealed
  | clean
  | blocked
  | blockedFailure
  | failed
  | degraded
  deriving DecidableEq

inductive ArtifactKind
  | markdown
  | pdf
  | zip
  | json
  | image
  | other
  deriving DecidableEq

inductive ExportFormat
  | markdown
  | pdf
  | zip
  | json
  deriving DecidableEq

inductive TestCaseSource
  | generated
  deriving DecidableEq

inductive TestCaseLifecycleStatus
  | draft
  | reviewed
  | approved
  deriving DecidableEq

inductive TestCaseTraceLinkKind
  | run
  | snapshot
  | figmaNode
  | scopeBasket
  deriving DecidableEq

structure CreateSnapshotInput where
  tenantScope : JsString
  label : Option JsString
  source : JsString
  nodeCount : JsNumber
  pageCount : JsNumber
  frameCount : JsNumber
  lifecycleState : JsString
  payload : Option ContentRef

structure SnapshotMetadataRecord extends CreateSnapshotInput where
  id : JsString
  createdAt : JsString

structure CreateRunInput where
  tenantScope : JsString
  status : WorkbenchRunStatus
  snapshotId : Option JsString
  label : Option JsString
  artifactDir : Option JsString

structure RunMetadataRecord extends CreateRunInput where
  id : JsString
  createdAt : JsString
  updatedAt : JsString

structure CreateArtifactInput where
  runId : JsString
  tenantScope : JsString
  name : JsString
  kind : ArtifactKind
  content : ContentRef
  customerFacing : Bool

structure ArtifactMetadataRecord extends CreateArtifactInput where
  id : JsString
  createdAt : JsString

structure ScopeSelection where
  nodeIds : List JsString
  pageIds : List JsString
  frameIds : List JsString

structure CreateScopeBasketInput where
  tenantScope : JsString
  label : JsString
  snapshotId : Option JsString
  selection : ScopeSelection
  itemCount : JsNumber

structure ScopeBasketRecord extends CreateScopeBasketInput where
  id : JsString
  createdAt : JsString
  updatedAt : JsString

structure CreateGeneratedSeedInput where
  runId : JsString
  tenantScope : JsString
  status : JsString
  count : JsNumber
  content : ContentRef

structure GeneratedSeedMetadataRecord extends CreateGeneratedSeedInput where
  id : JsString
  createdAt : JsString

structure CreateExportInput where
  runId : JsString
  tenantScope : JsString
  format : ExportFormat
  status : JsString
  content : ContentRef

structure ExportMetadataRecord extends CreateExportInput where
  id : JsString
  createdAt : JsString

structure TestCaseStepRecord where
  action : JsString
  expected : JsString

structure TestCaseTraceTargetInput where
  targetKind : TestCaseTraceLinkKind
  targetId : JsString

structure TestCaseTraceLinkRecord where
  id : JsString
  testCaseVersionId : JsString
  tenantScope : JsString
  createdAt : JsString
  targetKind : TestCaseTraceLinkKind
  targetId : JsString

/-- The members that a version takes from its input. -/
structure TestCaseVersionContent where
  source : TestCaseSource
  title : JsString
  objective : JsString
  preconditions : List JsString
  steps : List TestCaseStepRecord
  testData : List JsString
  priority : JsString
  risk : JsString
  tags : List JsString
  status : JsString
  description : Option JsString
  content : ContentRef

structure InitialVersionInput extends TestCaseVersionContent where
  traceTargets : List TestCaseTraceTargetInput

structure TestCaseVersionRecord extends TestCaseVersionContent where
  id : JsString
  testCaseId : JsString
  tenantScope : JsString
  createdAt : JsString
  versionIndex : ℕ
  traceLinks : List TestCaseTraceLinkRecord

structure CreatePersistedTestCaseInput where
  tenantScope : JsString
  sourceRunId : JsString
  sourceGeneratedSeedId : JsString
  sourceTestCaseId : JsString
  status : TestCaseLifecycleStatus
  initialVersion : InitialVersionInput

structure TestCaseRecord where
  id : JsString
  tenantScope : JsString
  createdAt : JsString
  updatedAt : JsString
  sourceRunId : JsString
  sourceGeneratedSeedId : JsString
  sourceTestCaseId : JsString
  currentVersionId : JsString
  status : TestCaseLifecycleStatus

structure TestCaseSummary where
  id : JsString
  tenantScope : JsString
  createdAt : JsString
  updatedAt : JsString
  sourceRunId : JsString
  sourceGeneratedSeedId : JsString
  sourceTestCaseId : JsString
  currentVersionId : JsString
  status : TestCaseLifecycleStatus
  title : JsString
  priority : JsString
  risk : JsString
  tags : List JsString
  versionStatus : JsString
  snapshotIds : List JsString
  traceLinkKinds : List TestCaseTraceLinkKind

structure PersistedTestCaseDetail where
  testCase : TestCaseRecord
  currentVersion : TestCaseVersionRecord

end TestIntelligence.Workbench
