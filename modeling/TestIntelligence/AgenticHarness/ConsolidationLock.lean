import TestIntelligence.AgenticHarness.CheckpointStore

/-!
# The lessons consolidation lock

The lock file, the log of lock events and the operations of
`lessons-consolidation-lock.ts` on one lessons directory, each performed as a
whole.  The hash function, the stored form of a time stamp and the facts about
the calling process are parameters.
-/

namespace TestIntelligence.AgenticHarness.ConsolidationLock

open Js Security
open Checkpoint (textOf numberOf optionalTextOf temporaryName natText isHex64 isNonEmptyString
  rootParentHash)

/-! ## The lock body -/

inductive LockState
  | held
  | released
  deriving DecidableEq, Repr

def LockState.text : LockState → JsString
  | .held => js "held"
  | .released => js "released"

def consolidationLockStates : List JsString := [LockState.held, .released].map LockState.text

def schemaVersion : JsString := js "1.0.0"

/-- One hour. -/
def holderTimeoutMs : JsNumber := 3600000

structure ConsolidationLockBody where
  schemaVersion : JsString
  state : JsString
  holderId : JsString
  holderPid : JsNumber
  holderHost : JsString
  acquiredAtMs : JsNumber
  deriving DecidableEq

def ConsolidationLockBody.fields (body : ConsolidationLockBody) :
    List (JsString × Option Json) :=
  [(js "schemaVersion", some (.str body.schemaVersion)),
    (js "state", some (.str body.state)),
    (js "holderId", some (.str body.holderId)),
    (js "holderPid", some (.num body.holderPid)),
    (js "holderHost", some (.str body.holderHost)),
    (js "acquiredAtMs", some (.num body.acquiredAtMs))]

/-- The text of the lock file. -/
def lockText (body : ConsolidationLockBody) : JsString :=
  canonicalJson (.obj (presentMembers body.fields))

def isPositiveInteger (x : JsNumber) : Bool := x.isInteger && JsNumber.le 1 x

def isNonNegativeFinite (x : JsNumber) : Bool := x.isFinite && !x.lt 0

/-- `malformed` stands for the errors of `JSON.parse` and of reading a property
of `null`, `timestamp` for those of `utimes`. -/
inductive LockError
  | thrown (message : JsString)
  | malformed
  | timestamp
  deriving DecidableEq

/-- The checks of `assertLockBody` in their order. -/
def lockBodyErrors (member : String → Option Json) (site : JsString) : List (Option JsString) :=
  let error (passes : Bool) (text : String) : Option JsString :=
    if passes then none else some (site ++ js ": " ++ js text)
  [error (isTextWith (· == schemaVersion) (member "schemaVersion"))
      "schemaVersion must equal \"1.0.0\"",
    error (isTextWith consolidationLockStates.contains (member "state"))
      "state must be one of [held, released]",
    error (isTextWith isNonEmptyString (member "holderId")) "holderId must be a non-empty string",
    error (isNumberWith isPositiveInteger (member "holderPid"))
      "holderPid must be a positive integer",
    error (isTextWith isNonEmptyString (member "holderHost"))
      "holderHost must be a non-empty string",
    error (isNumberWith isNonNegativeFinite (member "acquiredAtMs"))
      "acquiredAtMs must be a finite non-negative number"]

def assertLockBody (member : String → Option Json) (site : JsString) : Except LockError Unit :=
  match (lockBodyErrors member site).findSome? id with
  | none => .ok ()
  | some message => .error (.thrown message)

/-- The declared members of a checked object. -/
def lockBodyOf (member : String → Option Json) : ConsolidationLockBody where
  schemaVersion := (textOf (member "schemaVersion")).getD []
  state := (textOf (member "state")).getD []
  holderId := (textOf (member "holderId")).getD []
  holderPid := (numberOf (member "holderPid")).getD .nan
  holderHost := (textOf (member "holderHost")).getD []
  acquiredAtMs := (numberOf (member "acquiredAtMs")).getD .nan

/-- The part of `readLockBody` after `readFile`. -/
def parseLockBody (raw : JsString) : Except LockError ConsolidationLockBody :=
  match Json.parse raw with
  | none | some .null => .error .malformed
  | some parsed =>
      let member (key : String) : Option Json :=
        match parsed with
        | .obj members => mapGet members (js key)
        | _ => none
      match assertLockBody member (js "readLockBody") with
      | .error error => .error error
      | .ok () => .ok (lockBodyOf member)

structure LockFile where
  text : JsString
  mtimeMs : JsNumber
  deriving DecidableEq

def readLockBody (lock : Option LockFile) :
    Except LockError (Option (ConsolidationLockBody × JsNumber)) :=
  match lock with
  | none => .ok none
  | some file =>
      match parseLockBody file.text with
      | .error error => .error error
      | .ok body => .ok (some (body, file.mtimeMs))

/-! ## Lock events -/

inductive LockEventType
  | lockAcquired
  | lockReleased
  | lockRolledBack
  | lockTakeover
  deriving DecidableEq, Repr

def LockEventType.text : LockEventType → JsString
  | .lockAcquired => js "lock_acquired"
  | .lockReleased => js "lock_released"
  | .lockRolledBack => js "lock_rolled_back"
  | .lockTakeover => js "lock_takeover"

def consolidationLockEventTypes : List JsString :=
  [LockEventType.lockAcquired, .lockReleased, .lockRolledBack, .lockTakeover].map
    LockEventType.text

structure ConsolidationLockEvent where
  schemaVersion : JsString
  eventType : JsString
  holderId : JsString
  holderPid : JsNumber
  holderHost : JsString
  priorHolderId : Option JsString
  priorHolderPid : Option JsNumber
  priorHolderHost : Option JsString
  priorAcquiredAtMs : Option JsNumber
  occurredAtMs : JsNumber
  parentHash : JsString
  chainIndex : JsNumber
  deriving DecidableEq

def ConsolidationLockEvent.fields (event : ConsolidationLockEvent) :
    List (JsString × Option Json) :=
  [(js "schemaVersion", some (.str event.schemaVersion)),
    (js "eventType", some (.str event.eventType)),
    (js "holderId", some (.str event.holderId)),
    (js "holderPid", some (.num event.holderPid)),
    (js "holderHost", some (.str event.holderHost)),
    (js "priorHolderId", event.priorHolderId.map .str),
    (js "priorHolderPid", event.priorHolderPid.map .num),
    (js "priorHolderHost", event.priorHolderHost.map .str),
    (js "priorAcquiredAtMs", event.priorAcquiredAtMs.map .num),
    (js "occurredAtMs", some (.num event.occurredAtMs)),
    (js "parentHash", some (.str event.parentHash)),
    (js "chainIndex", some (.num event.chainIndex))]

def ConsolidationLockEvent.text (event : ConsolidationLockEvent) : JsString :=
  canonicalJson (.obj (presentMembers event.fields))

/-- The checks of `assertLockEvent` in their order. -/
def lockEventErrors (event : ConsolidationLockEvent) (site : JsString) : List (Option JsString) :=
  let error (passes : Bool) (text : String) : Option JsString :=
    if passes then none else some (site ++ js ": " ++ js text)
  let takeover := event.eventType == LockEventType.lockTakeover.text
  [error (event.schemaVersion == schemaVersion) "schemaVersion must equal \"1.0.0\"",
    error (consolidationLockEventTypes.contains event.eventType)
      "eventType must be one of [lock_acquired, lock_released, lock_rolled_back, lock_takeover]",
    error (isNonEmptyString event.holderId) "holderId must be a non-empty string",
    error (isPositiveInteger event.holderPid) "holderPid must be a positive integer",
    error (isNonEmptyString event.holderHost) "holderHost must be a non-empty string",
    error (isNonNegativeFinite event.occurredAtMs)
      "occurredAtMs must be a finite non-negative number",
    error (isHex64 event.parentHash) "parentHash must be a 64-char lowercase hex digest",
    error (event.chainIndex.isInteger && !event.chainIndex.lt 0)
      "chainIndex must be a non-negative integer",
    error (!event.chainIndex.strictEq 0 || event.parentHash == rootParentHash)
      "root event (chainIndex 0) must use the zero-hash sentinel as parentHash",
    error (!takeover || event.priorHolderId.any isNonEmptyString)
      "lock_takeover events must include priorHolderId",
    error (!takeover || event.priorHolderPid.all isPositiveInteger)
      "priorHolderPid must be a positive integer when present",
    error (!takeover || event.priorHolderHost.all isNonEmptyString)
      "priorHolderHost must be a non-empty string when present"]

def assertLockEvent (event : ConsolidationLockEvent) (site : JsString) : Except JsString Unit :=
  match (lockEventErrors event site).findSome? id with
  | none => .ok ()
  | some message => .error message

def eventFilename (chainIndex : JsNumber) : JsString :=
  padStartZero 8 (numberText chainIndex) ++ js ".json"

/-- The entries of `.lock-events`, or `none` where there is no such directory. -/
abbrev EventDirectory := Option (List (JsString × JsString))

def optionalNumberOf : Option Json → Option (Option JsNumber)
  | none => some none
  | some (.num x) => some (some x)
  | some _ => none

/-- The event in a parsed object whose members have the declared types; the code
casts without a check. -/
def lockEventOf (members : List (JsString × Json)) : Option ConsolidationLockEvent := do
  let member (key : String) : Option Json := mapGet members (js key)
  some {
    schemaVersion := ← textOf (member "schemaVersion")
    eventType := ← textOf (member "eventType")
    holderId := ← textOf (member "holderId")
    holderPid := ← numberOf (member "holderPid")
    holderHost := ← textOf (member "holderHost")
    priorHolderId := ← optionalTextOf (member "priorHolderId")
    priorHolderPid := ← optionalNumberOf (member "priorHolderPid")
    priorHolderHost := ← optionalTextOf (member "priorHolderHost")
    priorAcquiredAtMs := ← optionalNumberOf (member "priorAcquiredAtMs")
    occurredAtMs := ← numberOf (member "occurredAtMs")
    parentHash := ← textOf (member "parentHash")
    chainIndex := ← numberOf (member "chainIndex") }

def readLockEvent (name raw : JsString) : Except LockError ConsolidationLockEvent :=
  match Json.parse raw with
  | none => .error .malformed
  | some (.obj members) =>
      match lockEventOf members with
      | none => .error .malformed
      | some event => .ok event
  | some (.arr _) => .error .malformed
  | some _ => .error (.thrown (js "readEventChain: " ++ name ++ js " did not parse to an object"))

/-- `events.sort((a, b) => a.chainIndex - b.chainIndex)` -/
def sortByChainIndex (events : List ConsolidationLockEvent) : List ConsolidationLockEvent :=
  events.insertionSort fun a b ↦ a.chainIndex.toRat ≤ b.chainIndex.toRat

def readEventChain (directory : EventDirectory) : Except LockError (List ConsolidationLockEvent) :=
  match directory with
  | none => .ok []
  | some files =>
      let jsonFiles := sortStrings ((files.map Prod.fst).filter (endsWith · (js ".json")))
      match jsonFiles.mapM fun name ↦ readLockEvent name ((mapGet files name).getD []) with
      | .error error => .error error
      | .ok events => .ok (sortByChainIndex events)

inductive ChainBreakReason
  | chainIndexMismatch
  | duplicateChainIndex
  | missingRoot
  | parentHashMismatch
  | schemaInvalid
  deriving DecidableEq, Repr

structure ChainBreak where
  firstBreakIndex : JsNumber
  reason : ChainBreakReason
  detail : JsString
  deriving DecidableEq

inductive VerifyResult
  | ok (headOfChainHash : JsString) (chainLength : ℕ)
  | chainBreak (failure : ChainBreak)
  deriving DecidableEq

structure LockEventSeed where
  eventType : LockEventType
  holderId : JsString
  holderPid : JsNumber
  holderHost : JsString
  prior : Option ConsolidationLockBody
  occurredAtMs : JsNumber

section

variable (sha256 : JsString → JsString)

def computeEventHash (event : ConsolidationLockEvent) : JsString := sha256 event.text

/-- The object literal of `appendLockEvent`; a takeover seed takes its prior
fields from the displaced body. -/
def nextLockEvent (last : Option ConsolidationLockEvent) (seed : LockEventSeed) :
    ConsolidationLockEvent where
  schemaVersion := schemaVersion
  eventType := seed.eventType.text
  holderId := seed.holderId
  holderPid := seed.holderPid
  holderHost := seed.holderHost
  priorHolderId := seed.prior.map (·.holderId)
  priorHolderPid := seed.prior.map (·.holderPid)
  priorHolderHost := seed.prior.map (·.holderHost)
  priorAcquiredAtMs := seed.prior.map (·.acquiredAtMs)
  occurredAtMs := seed.occurredAtMs
  parentHash := last.elim rootParentHash (computeEventHash sha256)
  chainIndex := last.elim 0 (·.chainIndex.add 1)

/-- `mkdir`, the new event, `writeFile` to the temporary name and `rename`. -/
def appendLockEvent (pid uuid : JsString) (directory : EventDirectory) (seed : LockEventSeed) :
    Except LockError ConsolidationLockEvent × EventDirectory :=
  let files := directory.getD []
  match readEventChain (some files) with
  | .error error => (.error error, some files)
  | .ok previous =>
      let event := nextLockEvent sha256 previous.getLast? seed
      match assertLockEvent event (js "appendLockEvent") with
      | .error message => (.error (.thrown message), some files)
      | .ok () =>
          let name := eventFilename event.chainIndex
          let temporary := temporaryName name pid uuid
          let serialized := event.text ++ [0x0A]
          (.ok event,
            some (mapSet (mapDelete (mapSet files temporary serialized) temporary) name serialized))

/-- One turn of the loop of `verifyConsolidationLockEventChain`. -/
def verifyAt (seen : List JsNumber) (previousHash : JsString) (i : ℕ)
    (event : ConsolidationLockEvent) : Except ChainBreak JsString :=
  if event.chainIndex.unsigned ∈ seen then
    .error ⟨event.chainIndex, .duplicateChainIndex,
      js "chainIndex " ++ numberText event.chainIndex ++ js " appears more than once"⟩
  else if !event.chainIndex.eqNat i then
    .error ⟨.ofRat i, .chainIndexMismatch, js "expected chainIndex " ++ natText i ++
      js ", found " ++ numberText event.chainIndex⟩
  else
    match assertLockEvent event
        (js "verifyConsolidationLockEventChain[" ++ natText i ++ js "]") with
    | .error detail => .error ⟨.ofRat i, .schemaInvalid, detail⟩
    | .ok () =>
        if i = 0 ∧ event.parentHash ≠ rootParentHash then
          .error ⟨0, .missingRoot, js "root event must reference the zero-hash sentinel"⟩
        else if i ≠ 0 ∧ event.parentHash ≠ previousHash then
          .error ⟨.ofRat i, .parentHashMismatch, js "parentHash mismatch at chainIndex " ++
            natText i ++ js ": expected " ++ previousHash ++ js ", found " ++ event.parentHash⟩
        else .ok (computeEventHash sha256 event)

def verifyFrom (seen : List JsNumber) (previousHash : JsString) (i : ℕ) :
    List ConsolidationLockEvent → Except ChainBreak JsString
  | [] => .ok previousHash
  | event :: rest =>
      match verifyAt sha256 seen previousHash i event with
      | .error failure => .error failure
      | .ok hash => verifyFrom (setAdd seen event.chainIndex.unsigned) hash (i + 1) rest

def verifyConsolidationLockEventChain (events : List ConsolidationLockEvent) : VerifyResult :=
  if events.length = 0 then .ok rootParentHash 0
  else
    match verifyFrom sha256 [] rootParentHash 0 events with
    | .error failure => .chainBreak failure
    | .ok headOfChainHash => .ok headOfChainHash events.length

end

/-! ## Acquire, release and rollback -/

inductive KillOutcome
  | delivered
  | noSuchProcess
  | refused
  deriving DecidableEq, Repr

/-- What a call sees of its process: `process.pid`, `hostname()`,
`process.kill(pid, 0)`, the time stamp of a file written now and the random
identifier in the names of temporary files. -/
structure Process where
  pid : JsNumber
  hostname : JsString
  kill : JsNumber → KillOutcome
  clockMs : JsNumber
  randomUUID : JsString

def defaultIsHolderProcessAlive (process : Process) (holderPid : JsNumber) (holderHost : JsString) :
    Bool :=
  holderHost != process.hostname || process.kill holderPid != .noSuchProcess

structure TryAcquireInput where
  lessonsDir : JsString
  holderId : JsString
  nowMs : JsNumber
  isHolderProcessAlive : Option (JsNumber → JsString → Bool)
  holderPid : Option JsNumber
  holderHost : Option JsString

def acquireSite : JsString := js "tryAcquireConsolidationLock: "

/-- The two checks before the first await. -/
def validateAcquire (input : TryAcquireInput) : Except LockError Unit :=
  if input.lessonsDir = [] then
    .error (.thrown (acquireSite ++ js "lessonsDir must be a non-empty string"))
  else if input.holderId = [] then
    .error (.thrown (acquireSite ++ js "holderId must be a non-empty string"))
  else .ok ()

def TryAcquireInput.pid (input : TryAcquireInput) (process : Process) : JsNumber :=
  input.holderPid.getD process.pid

def TryAcquireInput.host (input : TryAcquireInput) (process : Process) : JsString :=
  input.holderHost.getD process.hostname

def heldBody (process : Process) (input : TryAcquireInput) : ConsolidationLockBody where
  schemaVersion := schemaVersion
  state := LockState.held.text
  holderId := input.holderId
  holderPid := input.pid process
  holderHost := input.host process
  acquiredAtMs := input.nowMs

def releasedBody (body : ConsolidationLockBody) : ConsolidationLockBody :=
  { body with state := LockState.released.text }

def isStale (process : Process) (input : TryAcquireInput) (body : ConsolidationLockBody) : Bool :=
  holderTimeoutMs.lt (input.nowMs.sub body.acquiredAtMs) ||
    !(input.isHolderProcessAlive.getD (defaultIsHolderProcessAlive process)) body.holderPid
      body.holderHost

structure Refusal where
  holderId : JsString
  holderPid : JsNumber
  holderHost : JsString
  holderAgeMs : JsNumber
  deriving DecidableEq

/-- The only refusal code is `lock_held_by_other`. -/
def refusal (input : TryAcquireInput) (body : ConsolidationLockBody) : Refusal where
  holderId := body.holderId
  holderPid := body.holderPid
  holderHost := body.holderHost
  holderAgeMs := input.nowMs.sub body.acquiredAtMs

structure Acquired where
  priorMtimeMs : JsNumber
  tookOver : Bool
  holderId : JsString
  holderPid : JsNumber
  holderHost : JsString
  acquiredAtMs : JsNumber
  takeoverEvent : Option ConsolidationLockEvent
  acquireEvent : ConsolidationLockEvent
  deriving DecidableEq

inductive AcquireResult
  | acquired (result : Acquired)
  | refused (result : Refusal)
  deriving DecidableEq

structure LessonsDir where
  lock : Option LockFile
  lockEvents : EventDirectory
  deriving DecidableEq

/-- A call that writes files: what it returns or throws, and the files after it. -/
abbrev Performed (α : Type) := Except LockError α × LessonsDir

/-- The statements after an await. -/
def Performed.andThen {α β : Type} (first : Performed α) (next : α → LessonsDir → Performed β) :
    Performed β :=
  match first with
  | (.error error, dir) => (.error error, dir)
  | (.ok value, dir) => next value dir

section

variable (sha256 : JsString → JsString) (utimes : JsNumber → Option JsNumber)

/-- `mtimeMs` of the file after `restoreMtime`, when `utimes` accepts the time in
seconds. -/
def restoredMtime (mtimeMs : JsNumber) : Option JsNumber := utimes (mtimeMs.div 1000)

/-- `writeLockBodyAtomic` and `restoreMtime`. -/
def rewriteLock (process : Process) (body : ConsolidationLockBody) (mtimeMs : JsNumber)
    (dir : LessonsDir) : Performed Unit :=
  match restoredMtime utimes mtimeMs with
  | none => (.error .timestamp, { dir with lock := some ⟨lockText body, process.clockMs⟩ })
  | some stored => (.ok (), { dir with lock := some ⟨lockText body, stored⟩ })

def logLockEvent (process : Process) (seed : LockEventSeed) (dir : LessonsDir) :
    Performed ConsolidationLockEvent :=
  let appended := appendLockEvent sha256 (numberText process.pid) process.randomUUID dir.lockEvents
    seed
  (appended.1, { dir with lockEvents := appended.2 })

def acquireSeed (process : Process) (input : TryAcquireInput) : LockEventSeed where
  eventType := .lockAcquired
  holderId := input.holderId
  holderPid := input.pid process
  holderHost := input.host process
  prior := none
  occurredAtMs := input.nowMs

def takeoverSeed (process : Process) (input : TryAcquireInput) (body : ConsolidationLockBody) :
    LockEventSeed :=
  { acquireSeed process input with eventType := .lockTakeover, prior := some body }

/-- The event of a takeover, when there was one. -/
def logTakeover (process : Process) (input : TryAcquireInput)
    (displaced : Option ConsolidationLockBody) (dir : LessonsDir) :
    Performed (Option ConsolidationLockEvent) :=
  match displaced with
  | none => (.ok none, dir)
  | some body =>
      (logLockEvent sha256 process (takeoverSeed process input body) dir).andThen
        fun event dir ↦ (.ok (some event), dir)

/-- The end of `tryAcquireConsolidationLock`, once the lock body is written. -/
def finishAcquire (process : Process) (input : TryAcquireInput) (priorMtimeMs : JsNumber)
    (displaced : Option ConsolidationLockBody) (dir : LessonsDir) : Performed AcquireResult :=
  (logTakeover sha256 process input displaced dir).andThen fun takeoverEvent dir ↦
    (logLockEvent sha256 process (acquireSeed process input) dir).andThen fun acquireEvent dir ↦
      (.ok (.acquired
        { priorMtimeMs := priorMtimeMs
          tookOver := displaced.isSome
          holderId := input.holderId
          holderPid := input.pid process
          holderHost := input.host process
          acquiredAtMs := input.nowMs
          takeoverEvent := takeoverEvent
          acquireEvent := acquireEvent }), dir)

/-- Without other callers the exclusive link of a first acquire succeeds. -/
def tryAcquireConsolidationLock (process : Process) (input : TryAcquireInput) (dir : LessonsDir) :
    Performed AcquireResult :=
  match validateAcquire input, readLockBody dir.lock with
  | .error error, _ => (.error error, dir)
  | .ok (), .error error => (.error error, dir)
  | .ok (), .ok none =>
      finishAcquire sha256 process input 0 none
        { dir with lock := some ⟨lockText (heldBody process input), process.clockMs⟩ }
  | .ok (), .ok (some (body, mtimeMs)) =>
      if body.state = LockState.released.text then
        (rewriteLock utimes process (heldBody process input) mtimeMs dir).andThen fun _ dir ↦
          finishAcquire sha256 process input mtimeMs none dir
      else if isStale process input body then
        (rewriteLock utimes process (heldBody process input) mtimeMs dir).andThen fun _ dir ↦
          finishAcquire sha256 process input mtimeMs (some body) dir
      else (.ok (.refused (refusal input body)), dir)

structure ReleaseInput where
  holderId : JsString
  nowMs : JsNumber
  deriving DecidableEq

structure RollbackInput where
  holderId : JsString
  priorMtimeMs : JsNumber
  nowMs : JsNumber
  deriving DecidableEq

/-- The common end of release and rollback: the body is marked as released, the
time stamp set and the event logged. -/
def markReleased (process : Process) (eventType : LockEventType) (body : ConsolidationLockBody)
    (mtimeMs occurredAtMs : JsNumber) (dir : LessonsDir) :
    Performed (Option ConsolidationLockEvent) :=
  (rewriteLock utimes process (releasedBody body) mtimeMs dir).andThen fun _ dir ↦
    (logLockEvent sha256 process ⟨eventType, body.holderId, body.holderPid, body.holderHost, none,
      occurredAtMs⟩ dir).andThen fun event dir ↦ (.ok (some event), dir)

/-- The event of a release, or `none` for `{ released: false }`. -/
def releaseConsolidationLock (process : Process) (input : ReleaseInput) (dir : LessonsDir) :
    Performed (Option ConsolidationLockEvent) :=
  match readLockBody dir.lock with
  | .error error => (.error error, dir)
  | .ok none => (.ok none, dir)
  | .ok (some (body, _)) =>
      if body.holderId ≠ input.holderId then (.ok none, dir)
      else if body.state ≠ LockState.held.text then (.ok none, dir)
      else markReleased sha256 utimes process .lockReleased body input.nowMs input.nowMs dir

/-- The event of a rollback, or `none` for `{ rolledBack: false }`.  The state of
the lock is not looked at. -/
def rollbackConsolidationLock (process : Process) (input : RollbackInput) (dir : LessonsDir) :
    Performed (Option ConsolidationLockEvent) :=
  match readLockBody dir.lock with
  | .error error => (.error error, dir)
  | .ok none => (.ok none, dir)
  | .ok (some (body, _)) =>
      if body.holderId ≠ input.holderId then (.ok none, dir)
      else markReleased sha256 utimes process .lockRolledBack body input.priorMtimeMs input.nowMs dir

end

end TestIntelligence.AgenticHarness.ConsolidationLock
