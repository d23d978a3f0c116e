import TestIntelligence.Systems.MapHeap
import TestIntelligence.Workbench.StorageRecords

/-!
# The repositories of the memory adapter

A call of a repository checks its input against the maps, draws identifiers and reads the clock,
and at last puts entries into the maps.  Here it is a function of the maps and of what is drawn,
with the entries that it puts in its effect.
-/

namespace TestIntelligence.Workbench

open Js Systems

/-- The fields of `MemoryState`. -/
inductive StoreKind
  | snapshots
  | runs
  | artifacts
  | scopeBaskets
  | generatedSeeds
  | exports
  | testCases
  | testCaseVersions
  | testCaseTraceLinks
  deriving DecidableEq

abbrev RecordOf : StoreKind → Type
  | .snapshots => SnapshotMetadataRecord
  | .runs => RunMetadataRecord
  | .artifacts => ArtifactMetadataRecord
  | .scopeBaskets => ScopeBasketRecord
  | .generatedSeeds => GeneratedSeedMetadataRecord
  | .exports => ExportMetadataRecord
  | .testCases => TestCaseRecord
  | .testCaseVersions => TestCaseVersionRecord
  | .testCaseTraceLinks => TestCaseTraceLinkRecord

def tenantScopeOf : {kind : StoreKind} → RecordOf kind → JsString
  | .snapshots => fun record ↦ record.tenantScope
  | .runs => fun record ↦ record.tenantScope
  | .artifacts => fun record ↦ record.tenantScope
  | .scopeBaskets => fun record ↦ record.tenantScope
  | .generatedSeeds => fun record ↦ record.tenantScope
  | .exports => fun record ↦ record.tenantScope
  | .testCases => fun record ↦ record.tenantScope
  | .testCaseVersions => fun record ↦ record.tenantScope
  | .testCaseTraceLinks => fun record ↦ record.tenantScope

abbrev MemoryMaps := (kind : StoreKind) → List (JsString × RecordOf kind)

abbrev StoredEntry := Entry StoreKind JsString RecordOf

/-- What a call of a repository returns. -/
inductive RepositoryReply
  | created (kind : StoreKind) (record : RecordOf kind)
  | found (kind : StoreKind) (record : Option (RecordOf kind))
  | records (kind : StoreKind) (records : List (RecordOf kind))
  | detail (detail : Option PersistedTestCaseDetail)
  | summaries (summaries : List TestCaseSummary)

/-- The reply of a call, the entries that it puts into the maps, and how many identifiers and
readings of the clock it used. -/
structure RepositoryEffect where
  reply : RepositoryReply
  entries : List StoredEntry
  issued : ℕ
  readings : ℕ

def RepositoryEffect.read (reply : RepositoryReply) : RepositoryEffect := ⟨reply, [], 0, 0⟩

/-! ## Reading -/

section

variable (maps : MemoryMaps)

def valuesOf (kind : StoreKind) : List (RecordOf kind) := (maps kind).map Prod.snd

/-- `get` -/
def getRecord (kind : StoreKind) (id tenantScope : JsString) : Option (RecordOf kind) :=
  (mapGet (maps kind) id).filter fun record ↦ tenantScopeOf record = tenantScope

def matchesTenant (recordScope : JsString) (filterScope : Option JsString) : Bool :=
  filterScope.elim true (recordScope = ·)

/-- `list` of a repository that filters by tenant. -/
def listOfTenant (kind : StoreKind) (tenantScope : Option JsString) : List (RecordOf kind) :=
  (valuesOf maps kind).filter fun record ↦ matchesTenant (tenantScopeOf record) tenantScope

/-- `list` of a repository that filters by run and tenant. -/
def listOfRun (kind : StoreKind) (runIdOf : RecordOf kind → JsString) (runId tenantScope : JsString) :
    List (RecordOf kind) :=
  (valuesOf maps kind).filter fun record ↦
    runIdOf record = runId && tenantScopeOf record = tenantScope

end

/-! ## Creating and updating -/

def createdEffect (kind : StoreKind) (id : JsString) (record : RecordOf kind) : RepositoryEffect :=
  ⟨.created kind record, [⟨kind, id, record⟩], 1, 1⟩

/-- An update of the record with an identifier, when it is there and of the tenant. -/
def updateStoredRecord (maps : MemoryMaps) (kind : StoreKind) (id tenantScope : JsString)
    (update : RecordOf kind → RecordOf kind) (readings : ℕ) : RepositoryEffect :=
  match mapGet (maps kind) id with
  | none => .read (.found kind none)
  | some existing =>
      if tenantScopeOf existing ≠ tenantScope then .read (.found kind none)
      else ⟨.found kind (some (update existing)), [⟨kind, id, update existing⟩], 0, readings⟩

def assertSameTenantRun (run : Option RunMetadataRecord) (tenantScope relationName : JsString) :
    Except WorkbenchStorageError Unit :=
  if (run.filter fun run ↦ run.tenantScope = tenantScope).isNone then
    .error ⟨.referentialIntegrity, relationName ++
      js " must reference an existing run in the same tenant scope."⟩
  else .ok ()

section

variable (fresh : ℕ → JsString) (timestamp : JsString) (maps : MemoryMaps)

def SnapshotRepository.create (input : CreateSnapshotInput) :
    Except WorkbenchStorageError RepositoryEffect := do
  if let some payload := input.payload then
    assertCanonicalContentRef payload (js "snapshot payload")
  return createdEffect .snapshots (fresh 0) { input with id := fresh 0, createdAt := timestamp }

def SnapshotRepository.findBySource (tenantScope source : JsString) :
    Option SnapshotMetadataRecord :=
  (valuesOf maps .snapshots).find? fun candidate ↦
    candidate.tenantScope = tenantScope && candidate.source = source

def SnapshotRepository.updateLifecycleState (id tenantScope lifecycleState : JsString) :
    RepositoryEffect :=
  updateStoredRecord maps .snapshots id tenantScope (fun existing ↦ { existing with lifecycleState }) 0

def RunRepository.create (input : CreateRunInput) : RepositoryEffect :=
  createdEffect .runs (fresh 0)
    { input with id := fresh 0, createdAt := timestamp, updatedAt := timestamp }

def RunRepository.updateStatus (id tenantScope : JsString) (status : WorkbenchRunStatus) :
    RepositoryEffect :=
  updateStoredRecord maps .runs id tenantScope
    (fun existing ↦ { existing with status, updatedAt := timestamp }) 1

def ArtifactRepository.create (input : CreateArtifactInput) :
    Except WorkbenchStorageError RepositoryEffect := do
  assertSameTenantRun (mapGet (maps .runs) input.runId) input.tenantScope (js "artifact runId")
  assertCanonicalContentRef input.content (js "artifact content")
  return createdEffect .artifacts (fresh 0) { input with id := fresh 0, createdAt := timestamp }

def ScopeBasketRepository.create (input : CreateScopeBasketInput) : RepositoryEffect :=
  createdEffect .scopeBaskets (fresh 0)
    { input with id := fresh 0, createdAt := timestamp, updatedAt := timestamp }

def ScopeBasketRepository.list (tenantScope snapshotId : Option JsString) :
    List ScopeBasketRecord :=
  (listOfTenant maps .scopeBaskets tenantScope).filter fun record ↦
    snapshotId.elim true fun snapshotId ↦ record.snapshotId = some snapshotId

structure ScopeBasketChanges where
  label : Option JsString
  selection : Option ScopeSelection

def applyScopeBasketChanges (existing : ScopeBasketRecord) (changes : ScopeBasketChanges) :
    ScopeBasketRecord :=
  let nextSelection := changes.selection.getD existing.selection
  { existing with
    label := changes.label.getD existing.label
    selection := nextSelection
    itemCount := JsNumber.ofRat
      (nextSelection.nodeIds.length + nextSelection.pageIds.length + nextSelection.frameIds.length)
    updatedAt := timestamp }

def ScopeBasketRepository.update (id tenantScope : JsString) (changes : ScopeBasketChanges) :
    RepositoryEffect :=
  updateStoredRecord maps .scopeBaskets id tenantScope
    (fun existing ↦ applyScopeBasketChanges timestamp existing changes) 1

def GeneratedSeedRepository.create (input : CreateGeneratedSeedInput) :
    Except WorkbenchStorageError RepositoryEffect := do
  assertSameTenantRun (mapGet (maps .runs) input.runId) input.tenantScope
    (js "generated seed runId")
  assertCanonicalContentRef input.content (js "generated seed content")
  return createdEffect .generatedSeeds (fresh 0)
    { input with id := fresh 0, createdAt := timestamp }

def ExportRepository.create (input : CreateExportInput) :
    Except WorkbenchStorageError RepositoryEffect := do
  assertSameTenantRun (mapGet (maps .runs) input.runId) input.tenantScope (js "export runId")
  assertCanonicalContentRef input.content (js "export content")
  return createdEffect .exports (fresh 0) { input with id := fresh 0, createdAt := timestamp }

/-! ## Test cases -/

def assertReferencedGeneratedSeed (input : CreatePersistedTestCaseInput) :
    Except WorkbenchStorageError Unit :=
  if ((mapGet (maps .generatedSeeds) input.sourceGeneratedSeedId).filter fun seed ↦
      seed.tenantScope = input.tenantScope && seed.runId = input.sourceRunId).isNone then
    .error ⟨.referentialIntegrity, js ("test case sourceGeneratedSeedId must reference an " ++
      "existing generated seed in the same tenant and run.")⟩
  else .ok ()

def assertTraceTargetsPresent (input : CreatePersistedTestCaseInput) :
    Except WorkbenchStorageError Unit :=
  if input.initialVersion.traceTargets = [] then
    .error ⟨.referentialIntegrity, js ("test case initialVersion.traceTargets must include at " ++
      "least one trace link.")⟩
  else .ok ()

def traceLinksOf (input : CreatePersistedTestCaseInput) : List TestCaseTraceLinkRecord :=
  input.initialVersion.traceTargets.zipIdx.map fun target ↦
    { id := fresh (2 + target.2)
      testCaseVersionId := fresh 1
      tenantScope := input.tenantScope
      createdAt := timestamp
      targetKind := target.1.targetKind
      targetId := target.1.targetId }

def versionOf (input : CreatePersistedTestCaseInput) : TestCaseVersionRecord :=
  { input.initialVersion with
    id := fresh 1
    testCaseId := fresh 0
    tenantScope := input.tenantScope
    createdAt := timestamp
    versionIndex := 1
    traceLinks := traceLinksOf fresh timestamp input }

def testCaseOf (input : CreatePersistedTestCaseInput) : TestCaseRecord where
  id := fresh 0
  tenantScope := input.tenantScope
  createdAt := timestamp
  updatedAt := timestamp
  sourceRunId := input.sourceRunId
  sourceGeneratedSeedId := input.sourceGeneratedSeedId
  sourceTestCaseId := input.sourceTestCaseId
  currentVersionId := fresh 1
  status := input.status

def linkEntry (link : TestCaseTraceLinkRecord) : StoredEntry := ⟨.testCaseTraceLinks, link.id, link⟩

def TestCaseRepository.create (input : CreatePersistedTestCaseInput) :
    Except WorkbenchStorageError RepositoryEffect := do
  assertCanonicalContentRef input.initialVersion.content (js "test case version content")
  assertSameTenantRun (mapGet (maps .runs) input.sourceRunId) input.tenantScope
    (js "test case sourceRunId")
  assertReferencedGeneratedSeed maps input
  assertTraceTargetsPresent input
  let testCase := testCaseOf fresh timestamp input
  let version := versionOf fresh timestamp input
  let traceLinks := traceLinksOf fresh timestamp input
  return ⟨.detail (some ⟨testCase, version⟩),
    ⟨.testCases, testCase.id, testCase⟩ :: ⟨.testCaseVersions, version.id, version⟩ ::
      traceLinks.map linkEntry, 2 + traceLinks.length, 1⟩

def TestCaseRepository.get (id tenantScope : JsString) : Option PersistedTestCaseDetail :=
  match getRecord maps .testCases id tenantScope with
  | none => none
  | some record =>
      (mapGet (maps .testCaseVersions) record.currentVersionId).map fun version ↦
        { testCase := record
          currentVersion := { version with
            traceLinks := (valuesOf maps .testCaseTraceLinks).filter fun link ↦
              link.testCaseVersionId = version.id } }

/-- `distinctOrdered` -/
def distinctOrdered {α : Type} [DecidableEq α] (values : List α) : List α := setOf values

def projectTestCaseSummary (record : TestCaseRecord) (version : TestCaseVersionRecord)
    (links : List TestCaseTraceLinkRecord) : TestCaseSummary where
  id := record.id
  tenantScope := record.tenantScope
  createdAt := record.createdAt
  updatedAt := record.updatedAt
  sourceRunId := record.sourceRunId
  sourceGeneratedSeedId := record.sourceGeneratedSeedId
  sourceTestCaseId := record.sourceTestCaseId
  currentVersionId := record.currentVersionId
  status := record.status
  title := version.title
  priority := version.priority
  risk := version.risk
  tags := distinctOrdered version.tags
  versionStatus := version.status
  snapshotIds := distinctOrdered ((links.filter (·.targetKind = .snapshot)).map (·.targetId))
  traceLinkKinds := distinctOrdered (links.map (·.targetKind))

def TestCaseRepository.list (tenantScope runId : Option JsString) : List TestCaseSummary :=
  (listOfTenant maps .testCases tenantScope).filterMap fun record ↦
    if runId.elim true (record.sourceRunId = ·) then
      (mapGet (maps .testCaseVersions) record.currentVersionId).map fun version ↦
        projectTestCaseSummary record version
          ((valuesOf maps .testCaseTraceLinks).filter fun link ↦
            link.testCaseVersionId = version.id && link.tenantScope = record.tenantScope)
    else none

def TestCaseRepository.findBySource (tenantScope sourceRunId sourceTestCaseId : JsString) :
    Option TestCaseRecord :=
  (valuesOf maps .testCases).find? fun candidate ↦
    candidate.tenantScope = tenantScope && candidate.sourceRunId = sourceRunId &&
      candidate.sourceTestCaseId = sourceTestCaseId

/-! ## Calls -/

inductive RepositoryCall
  | createSnapshot (input : CreateSnapshotInput)
  | findSnapshotBySource (tenantScope source : JsString)
  | updateLifecycleState (id tenantScope lifecycleState : JsString)
  | createRun (input : CreateRunInput)
  | updateStatus (id tenantScope : JsString) (status : WorkbenchRunStatus)
  | createArtifact (input : CreateArtifactInput)
  | createScopeBasket (input : CreateScopeBasketInput)
  | updateScopeBasket (id tenantScope : JsString) (changes : ScopeBasketChanges)
  | createGeneratedSeed (input : CreateGeneratedSeedInput)
  | createExport (input : CreateExportInput)
  | createTestCase (input : CreatePersistedTestCaseInput)
  | getSnapshot (id tenantScope : JsString)
  | getRun (id tenantScope : JsString)
  | getArtifact (id tenantScope : JsString)
  | getScopeBasket (id tenantScope : JsString)
  | getGeneratedSeed (id tenantScope : JsString)
  | getExport (id tenantScope : JsString)
  | getTestCase (id tenantScope : JsString)
  | listSnapshots (tenantScope : Option JsString)
  | listRuns (tenantScope : Option JsString)
  | listArtifacts (runId tenantScope : JsString)
  | listScopeBaskets (tenantScope snapshotId : Option JsString)
  | listGeneratedSeeds (runId tenantScope : JsString)
  | listExports (runId tenantScope : JsString)
  | listTestCases (tenantScope runId : Option JsString)
  | findTestCaseBySource (tenantScope sourceRunId sourceTestCaseId : JsString)

/-- What the call does, given the next identifiers, the clock and the maps. -/
def RepositoryCall.effect : RepositoryCall → Except WorkbenchStorageError RepositoryEffect
  | .createSnapshot input => SnapshotRepository.create fresh timestamp input
  | .findSnapshotBySource tenantScope source =>
      .ok (.read (.found .snapshots (SnapshotRepository.findBySource maps tenantScope source)))
  | .updateLifecycleState id tenantScope lifecycleState =>
      .ok (SnapshotRepository.updateLifecycleState maps id tenantScope lifecycleState)
  | .createRun input => .ok (RunRepository.create fresh timestamp input)
  | .updateStatus id tenantScope status =>
      .ok (RunRepository.updateStatus timestamp maps id tenantScope status)
  | .createArtifact input => ArtifactRepository.create fresh timestamp maps input
  | .createScopeBasket input => .ok (ScopeBasketRepository.create fresh timestamp input)
  | .updateScopeBasket id tenantScope changes =>
      .ok (ScopeBasketRepository.update timestamp maps id tenantScope changes)
  | .createGeneratedSeed input => GeneratedSeedRepository.create fresh timestamp maps input
  | .createExport input => ExportRepository.create fresh timestamp maps input
  | .createTestCase input => TestCaseRepository.create fresh timestamp maps input
  | .getSnapshot id tenantScope =>
      .ok (.read (.found .snapshots (getRecord maps .snapshots id tenantScope)))
  | .getRun id tenantScope => .ok (.read (.found .runs (getRecord maps .runs id tenantScope)))
  | .getArtifact id tenantScope =>
      .ok (.read (.found .artifacts (getRecord maps .artifacts id tenantScope)))
  | .getScopeBasket id tenantScope =>
      .ok (.read (.found .scopeBaskets (getRecord maps .scopeBaskets id tenantScope)))
  | .getGeneratedSeed id tenantScope =>
      .ok (.read (.found .generatedSeeds (getRecord maps .generatedSeeds id tenantScope)))
  | .getExport id tenantScope =>
      .ok (.read (.found .exports (getRecord maps .exports id tenantScope)))
  | .getTestCase id tenantScope =>
      .ok (.read (.detail (TestCaseRepository.get maps id tenantScope)))
  | .listSnapshots tenantScope =>
      .ok (.read (.records .snapshots (listOfTenant maps .snapshots tenantScope)))
  | .listRuns tenantScope => .ok (.read (.records .runs (listOfTenant maps .runs tenantScope)))
  | .listArtifacts runId tenantScope =>
      .ok (.read (.records .artifacts (listOfRun maps .artifacts (·.runId) runId tenantScope)))
  | .listScopeBaskets tenantScope snapshotId =>
      .ok (.read (.records .scopeBaskets
        (ScopeBasketRepository.list maps tenantScope snapshotId)))
  | .listGeneratedSeeds runId tenantScope =>
      .ok (.read (.records .generatedSeeds
        (listOfRun maps .generatedSeeds (·.runId) runId tenantScope)))
  | .listExports runId tenantScope =>
      .ok (.read (.records .exports (listOfRun maps .exports (·.runId) runId tenantScope)))
  | .listTestCases tenantScope runId =>
      .ok (.read (.summaries (TestCaseRepository.list maps tenantScope runId)))
  | .findTestCaseBySource tenantScope sourceRunId sourceTestCaseId =>
      .ok (.read (.found .testCases
        (TestCaseRepository.findBySource maps tenantScope sourceRunId sourceTestCaseId)))

end

end TestIntelligence.Workbench
