import TestIntelligence.Workbench.MemoryRepositories

/-!
# The memory adapter

The state object of the adapter refers to nine maps.  A transaction copies them, runs the work
on them in place, and makes the state refer to the copies when the work throws.
-/

namespace TestIntelligence.Workbench

open Js Systems

/-! ## Work -/

/-- What is thrown: an error of the storage, or whatever the work throws. -/
inductive Thrown
  | storage (error : WorkbenchStorageError)
  | work (message : JsString)

inductive LifecycleCall
  | migrateToLatest
  | getSchemaVersion
  | transaction
  | close

/-- What work may call: the repositories, which the handle and the adapter share, and the
lifecycle calls of both. -/
inductive WorkCall
  | repository (call : RepositoryCall)
  | handle (call : LifecycleCall)
  | adapter (call : LifecycleCall)

inductive WorkReply
  | repository (reply : RepositoryReply)
  | schemaVersion (version : JsNumber)
  | closed

/-- A work function: it returns, throws, or makes a call and goes on with what it returned or
threw. -/
inductive Work (ρ : Type)
  | finish (result : ρ)
  | fail (thrown : Thrown)
  | call (call : WorkCall) (next : Except Thrown WorkReply → Work ρ)

/-! ## Migrations -/

structure WorkbenchMigration where
  version : JsNumber
  description : JsString
  up : Work Unit

def validateMigration (index : ℕ) (migration : WorkbenchMigration) :
    Except WorkbenchStorageError Unit :=
  if !migration.version.isInteger then
    .error ⟨.migrationSequenceInvalid, js "Migration at index " ++ digitsText index ++
      js " has a non-integer version."⟩
  else if !migration.version.eqNat (index + 1) then
    .error ⟨.migrationSequenceInvalid,
      js "Migration versions must be contiguous from 1; expected " ++ digitsText (index + 1) ++
        js " at index " ++ digitsText index ++ js " but found " ++
          numberText migration.version ++ js "."⟩
  else .ok ()

def validateMigrationsFrom : ℕ → List WorkbenchMigration → Except WorkbenchStorageError Unit
  | _, [] => .ok ()
  | index, migration :: rest => do
      validateMigration index migration
      validateMigrationsFrom (index + 1) rest

def validateMigrationSequence (migrations : List WorkbenchMigration) :
    Except WorkbenchStorageError Unit := validateMigrationsFrom 0 migrations

def assertSchemaVersionSupported (currentVersion : JsNumber)
    (migrations : List WorkbenchMigration) : Except WorkbenchStorageError Unit := do
  validateMigrationSequence migrations
  if (JsNumber.ofRat migrations.length).lt currentVersion then
    throw ⟨.schemaVersionUnsupported, js "Stored Workbench schema version " ++
      numberText currentVersion ++ js " is newer than the latest supported version " ++
        digitsText migrations.length ++ js "."⟩

/-! ## The adapter -/

structure MemoryAdapter where
  heap : MapHeap StoreKind JsString RecordOf
  /-- The maps that the fields of the state object refer to. -/
  state : StoreKind → ℕ
  schemaVersion : JsNumber
  inTransaction : Bool
  /-- How many identifiers were drawn, and how often the clock was read. -/
  issued : ℕ
  readings : ℕ

namespace MemoryAdapter

def maps (s : MemoryAdapter) : MemoryMaps := s.heap.contents s.state

/-- `new MemoryWorkbenchStorageAdapter(migrations, initialSchemaVersion)` -/
def start (initialSchemaVersion : JsNumber) : MemoryAdapter where
  heap := ⟨fun _ _ ↦ [], 1⟩
  state := fun _ ↦ 0
  schemaVersion := initialSchemaVersion
  inTransaction := false
  issued := 0
  readings := 0

def close (s : MemoryAdapter) : MemoryAdapter := { s with heap := s.heap.clear s.state }

end MemoryAdapter

/-- The identifiers of `randomUUID` and the readings of the clock, in order. -/
structure StorageEnvironment where
  randomUUID : ℕ → JsString
  now : ℕ → JsString

def nestedTransaction (message : String) : Thrown := .storage ⟨.nestedTransaction, js message⟩

section

variable (env : StorageEnvironment) (migrations : List WorkbenchMigration)

def performRepositoryCall (s : MemoryAdapter) (call : RepositoryCall) :
    Except Thrown RepositoryReply × MemoryAdapter :=
  match call.effect (fun i ↦ env.randomUUID (s.issued + i)) (env.now s.readings) s.maps with
  | .error error => (.error (.storage error), s)
  | .ok effect => (.ok effect.reply, { s with
      heap := s.heap.putAll s.state effect.entries
      issued := s.issued + effect.issued
      readings := s.readings + effect.readings })

def pendingMigrations (s : MemoryAdapter) : List WorkbenchMigration :=
  migrations.filter fun migration ↦ s.schemaVersion.lt migration.version

/-- The lifecycle methods of the handle. -/
def performHandleCall (s : MemoryAdapter) : LifecycleCall → Except Thrown WorkReply × MemoryAdapter
  | .migrateToLatest => (.error (nestedTransaction
      "migrateToLatest() is not available inside a transaction."), s)
  | .getSchemaVersion => (.ok (.schemaVersion s.schemaVersion), s)
  | .transaction => (.error (nestedTransaction "Nested transactions are not supported."), s)
  | .close => (.error (nestedTransaction "close() is not available inside a transaction."), s)

/-- The lifecycle methods of the adapter, while a transaction is open. -/
def performNestedCall (s : MemoryAdapter) : LifecycleCall → Except Thrown WorkReply × MemoryAdapter
  | .migrateToLatest =>
      match assertSchemaVersionSupported s.schemaVersion migrations with
      | .error error => (.error (.storage error), s)
      | .ok () =>
          if pendingMigrations migrations s = [] then (.ok (.schemaVersion s.schemaVersion), s)
          else (.error (nestedTransaction "Nested transactions are not supported."), s)
  | .getSchemaVersion => (.ok (.schemaVersion s.schemaVersion), s)
  | .transaction => (.error (nestedTransaction "Nested transactions are not supported."), s)
  | .close => (.ok .closed, s.close)

def performWorkCall (s : MemoryAdapter) : WorkCall → Except Thrown WorkReply × MemoryAdapter
  | .repository call =>
      ((performRepositoryCall env s call).1.map .repository, (performRepositoryCall env s call).2)
  | .handle call => performHandleCall s call
  | .adapter call => performNestedCall migrations s call

def runWork {ρ : Type} : Work ρ → MemoryAdapter → Except Thrown ρ × MemoryAdapter
  | .finish result, s => (.ok result, s)
  | .fail thrown, s => (.error thrown, s)
  | .call call next, s =>
      runWork (next (performWorkCall env migrations s call).1)
        (performWorkCall env migrations s call).2

/-- The state in which the body of a transaction starts, and the copy of the state object. -/
def openTransaction (s : MemoryAdapter) : MemoryAdapter × (StoreKind → ℕ) :=
  ({ s with heap := (s.heap.copy s.state).1, inTransaction := true }, (s.heap.copy s.state).2)

def transaction {ρ : Type} (body : MemoryAdapter → Except Thrown ρ × MemoryAdapter)
    (s : MemoryAdapter) : Except Thrown ρ × MemoryAdapter :=
  if s.inTransaction then
    (.error (nestedTransaction "Nested transactions are not supported."), s)
  else
    let (opened, backup) := openTransaction s
    match body opened with
    | (.ok result, after) => (.ok result, { after with inTransaction := false })
    | (.error thrown, after) => (.error thrown, { after with
        state := backup
        schemaVersion := s.schemaVersion
        inTransaction := false })

def applyMigrations : List WorkbenchMigration → MemoryAdapter →
    Except Thrown Unit × MemoryAdapter
  | [], s => (.ok (), s)
  | migration :: rest, s =>
      match runWork env migrations migration.up s with
      | (.error thrown, after) => (.error thrown, after)
      | (.ok _, after) => applyMigrations rest { after with schemaVersion := migration.version }

def migrateToLatest (s : MemoryAdapter) : Except Thrown JsNumber × MemoryAdapter :=
  match assertSchemaVersionSupported s.schemaVersion migrations with
  | .error error => (.error (.storage error), s)
  | .ok () =>
      let pending := pendingMigrations migrations s
      if pending = [] then (.ok s.schemaVersion, s)
      else
        match transaction (applyMigrations env migrations pending) s with
        | (.error thrown, after) => (.error thrown, after)
        | (.ok _, after) => (.ok after.schemaVersion, after)

/-! ## Calls from outside -/

inductive AdapterCall (ρ : Type)
  | repository (call : RepositoryCall)
  | migrateToLatest
  | getSchemaVersion
  | transaction (work : Work ρ)
  | close

inductive AdapterReply (ρ : Type)
  | repository (reply : RepositoryReply)
  | schemaVersion (version : JsNumber)
  | result (result : ρ)
  | closed

def performCall {ρ : Type} (s : MemoryAdapter) :
    AdapterCall ρ → MemoryAdapter × Except Thrown (AdapterReply ρ)
  | .repository call =>
      ((performRepositoryCall env s call).2, (performRepositoryCall env s call).1.map .repository)
  | .migrateToLatest =>
      ((migrateToLatest env migrations s).2,
        (migrateToLatest env migrations s).1.map .schemaVersion)
  | .getSchemaVersion => (s, .ok (.schemaVersion s.schemaVersion))
  | .transaction work =>
      ((transaction (runWork env migrations work) s).2,
        (transaction (runWork env migrations work) s).1.map .result)
  | .close => (s.close, .ok .closed)

end

end TestIntelligence.Workbench
