import TestIntelligence.AgenticHarness.ConsolidationEvents
import TestIntelligence.Systems.Runs

/-!
# The consolidation cursor and its audit trail

Calls that do not overlap.  The time stamp of the lock file is the consolidation
cursor: a release moves it, an acquire and a rollback restore it.  Rollback does
not ask whether the lock is still held, so the cursor stays at the last release
when a holder that already released the lock does not roll back over it.
-/

namespace TestIntelligence.AgenticHarness.ConsolidationLock

open Js Systems
open Checkpoint (isHex64 maxArrayLength)

/-! ## Sequences of calls -/

inductive Call
  | acquire (process : Process) (input : TryAcquireInput)
  | release (process : Process) (input : ReleaseInput)
  | rollback (process : Process) (input : RollbackInput)

/-- A call with what it returned or threw. -/
inductive Completed
  | acquire (input : TryAcquireInput) (result : Except LockError AcquireResult)
  | release (input : ReleaseInput) (result : Except LockError (Option ConsolidationLockEvent))
  | rollback (input : RollbackInput) (result : Except LockError (Option ConsolidationLockEvent))

/-- The directory, and the calls made so far with the latest first. -/
structure Session where
  dir : LessonsDir
  history : List Completed

def Session.start : Session := ⟨⟨none, none⟩, []⟩

/-- `priorMtimeMs` of the latest successful acquire with the holder id. -/
def latestPrior (history : List Completed) (holderId : JsString) : Option JsNumber :=
  history.findSome? fun
    | .acquire _ (.ok (.acquired result)) =>
        if result.holderId = holderId then some result.priorMtimeMs else none
    | _ => none

/-- `nowMs` of the latest successful release. -/
def latestRelease (history : List Completed) : Option JsNumber :=
  history.findSome? fun
    | .release input (.ok (some _)) => some input.nowMs
    | _ => none

/-- The events of a call: one for a release, a rollback or a plain acquire that
succeeds, two for a takeover. -/
def Completed.events : Completed → ℕ
  | .acquire _ (.ok (.acquired result)) => if result.tookOver then 2 else 1
  | .release _ (.ok (some _)) => 1
  | .rollback _ (.ok (some _)) => 1
  | _ => 0

def eventsOwed (history : List Completed) : ℕ := (history.map Completed.events).sum

/-- The caller holds the lock. -/
def Holds (dir : LessonsDir) (holderId : JsString) : Prop :=
  ∃ body mtimeMs, readLockBody dir.lock = .ok (some (body, mtimeMs)) ∧
    body.state = LockState.held.text ∧ body.holderId = holderId

/-- Each rollback passes the `priorMtimeMs` that its own acquire returned. -/
def OwnPrior (session : Session) : Call → Prop
  | .rollback _ input =>
      ∀ priorMtimeMs, latestPrior session.history input.holderId = some priorMtimeMs →
        input.priorMtimeMs = priorMtimeMs
  | _ => True

section

variable (sha256 : JsString → JsString) (utimes : JsNumber → Option JsNumber)

def step (session : Session) : Call → Session
  | .acquire process input =>
      let performed := tryAcquireConsolidationLock sha256 utimes process input session.dir
      ⟨performed.2, .acquire input performed.1 :: session.history⟩
  | .release process input =>
      let performed := releaseConsolidationLock sha256 utimes process input session.dir
      ⟨performed.2, .release input performed.1 :: session.history⟩
  | .rollback process input =>
      let performed := rollbackConsolidationLock sha256 utimes process input session.dir
      ⟨performed.2, .rollback input performed.1 :: session.history⟩

/-- A call by a caller that does not hold the lock and does not get it. -/
def ByNonHolder (session : Session) : Call → Prop
  | .acquire process input => ∃ refusal,
      (tryAcquireConsolidationLock sha256 utimes process input session.dir).1 =
        .ok (.refused refusal)
  | .release _ input => ¬ Holds session.dir input.holderId
  | .rollback _ input => ¬ Holds session.dir input.holderId

/-- A time that the file system reports back as it was set. -/
def Storable (mtimeMs : JsNumber) : Prop :=
  restoredMtime utimes mtimeMs = some mtimeMs.unsigned ∧
    restoredMtime utimes mtimeMs.unsigned = some mtimeMs.unsigned

/-- The holder releases at a valid time, and a rollback over a lock that was
released under its own holder id restores the time stamp that the file has. -/
def Sound (session : Session) : Call → Prop
  | .acquire _ _ => True
  | .release _ input => Holds session.dir input.holderId →
      isNonNegativeFinite input.nowMs = true ∧ Storable utimes input.nowMs
  | .rollback _ input => ∀ body mtimeMs, readLockBody session.dir.lock = .ok (some (body, mtimeMs)) →
      body.holderId = input.holderId → body.state = LockState.released.text →
        restoredMtime utimes input.priorMtimeMs = some mtimeMs

/-- The cursor is at the latest release, and the log verifies with the events
that the calls owe. -/
structure CursorAndChain (session : Session) : Prop where
  cursor : ∀ nowMs, latestRelease session.history = some nowMs →
    ∃ file, session.dir.lock = some file ∧ file.mtimeMs.strictEq nowMs = true
  chain : ∃ events headOfChainHash, readEventChain session.dir.lockEvents = .ok events ∧
    verifyConsolidationLockEventChain sha256 events = .ok headOfChainHash events.length ∧
      events.length = eventsOwed session.history

/-! ## What a call can do -/

/-- The lock file is the same and the log of `events` is longer by `n`. -/
structure Extends (dir dir' : LessonsDir) (events : List ConsolidationLockEvent) (n : ℕ) :
    Prop where
  lock : dir'.lock = dir.lock
  log : ∃ events', Log sha256 dir'.lockEvents events' ∧ events'.length = events.length + n

variable {sha256 utimes} {dir : LessonsDir} {events : List ConsolidationLockEvent}

theorem logLockEvent_cases (hsha : ∀ text, isHex64 (sha256 text) = true)
    (hlog : Log sha256 dir.lockEvents events) (hlength : events.length < maxArrayLength)
    (process : Process) {seed : LockEventSeed} (hprior : seed.PriorRead) :
    (seed.Valid ∧ ∃ event dir', logLockEvent sha256 process seed dir = (.ok event, dir') ∧
        dir'.lock = dir.lock ∧ Log sha256 dir'.lockEvents (events ++ [event.unsigned])) ∨
      (¬ seed.Valid ∧ ∃ error dir', logLockEvent sha256 process seed dir = (.error error, dir') ∧
        dir'.lock = dir.lock ∧ Log sha256 dir'.lockEvents events) := by
  unfold logLockEvent
  rcases hlog.append hsha hlength (numberText process.pid) process.randomUUID hprior with
    ⟨hseed, event, directory, heq, hnext⟩ | ⟨hseed, error, directory, heq, hnext⟩
  · refine .inl ⟨hseed, event, { dir with lockEvents := directory }, ?_, rfl, hnext⟩
    simp only [heq]
  · refine .inr ⟨hseed, error, { dir with lockEvents := directory }, ?_, rfl, hnext⟩
    simp only [heq]

theorem priorRead_acquireSeed (process : Process) (input : TryAcquireInput) :
    (acquireSeed process input).PriorRead := ⟨nofun, nofun⟩

theorem priorRead_takeoverSeed (process : Process) (input : TryAcquireInput)
    {body : ConsolidationLockBody} (hbody : body.Valid) :
    (takeoverSeed process input body).PriorRead := by
  refine ⟨fun found hfound ↦ ?_, fun _ ↦ rfl⟩
  obtain rfl : body = found := Option.some.inj hfound
  exact hbody

theorem valid_takeoverSeed_iff (process : Process) (input : TryAcquireInput)
    (body : ConsolidationLockBody) :
    (takeoverSeed process input body).Valid ↔ (acquireSeed process input).Valid :=
  ⟨fun h ↦ ⟨h.1, h.2, h.3, h.4⟩, fun h ↦ ⟨h.1, h.2, h.3, h.4⟩⟩

theorem valid_heldBody_iff {process : Process} {input : TryAcquireInput} :
    (heldBody process input).Valid ↔ (acquireSeed process input).Valid := by
  constructor
  · exact fun h ↦ ⟨h.holderId, h.holderPid, h.holderHost, h.acquiredAtMs⟩
  · refine fun h ↦ ⟨rfl, ?_, h.holderId, h.holderPid, h.holderHost, h.occurredAtMs⟩
    simp [heldBody, consolidationLockStates]

theorem finishAcquire_cases (hsha : ∀ text, isHex64 (sha256 text) = true)
    (hlog : Log sha256 dir.lockEvents events) (hlength : events.length + 1 < maxArrayLength)
    (process : Process) (input : TryAcquireInput) (priorMtimeMs : JsNumber)
    {displaced : Option ConsolidationLockBody} (hdisplaced : ∀ body ∈ displaced, body.Valid) :
    ((heldBody process input).Valid ∧ ∃ result dir',
        finishAcquire sha256 process input priorMtimeMs displaced dir =
          (.ok (.acquired result), dir') ∧
        Extends sha256 dir dir' events (if result.tookOver then 2 else 1) ∧
        result.priorMtimeMs = priorMtimeMs ∧ result.holderId = input.holderId) ∨
      (¬ (heldBody process input).Valid ∧ ∃ error dir',
        finishAcquire sha256 process input priorMtimeMs displaced dir = (.error error, dir') ∧
        Extends sha256 dir dir' events 0) := by
  rw [valid_heldBody_iff]
  unfold finishAcquire
  cases displaced with
  | none =>
      simp only [logTakeover, Performed.andThen]
      rcases logLockEvent_cases hsha hlog (by omega) process (priorRead_acquireSeed process input)
        with ⟨hseed, event, dir', heq, hlock, hnext⟩ | ⟨hseed, error, dir', heq, hlock, hnext⟩
      · refine .inl ⟨hseed, _, dir', by simp only [heq]; rfl, ⟨hlock, _, hnext, ?_⟩, rfl, rfl⟩
        simp
      · exact .inr ⟨hseed, error, dir', by simp only [heq], hlock, _, hnext, rfl⟩
  | some body =>
      simp only [logTakeover, Performed.andThen]
      rcases logLockEvent_cases hsha hlog (by omega) process
        (priorRead_takeoverSeed process input (hdisplaced body rfl)) with
        ⟨hseed, takeover, dir', heq, hlock, hnext⟩ | ⟨hseed, error, dir', heq, hlock, hnext⟩
      · rw [valid_takeoverSeed_iff] at hseed
        have hroom : (events ++ [takeover.unsigned]).length < maxArrayLength := by simpa using hlength
        rcases logLockEvent_cases hsha hnext hroom process (priorRead_acquireSeed process input)
          with ⟨-, event, dir'', heq', hlock', hnext'⟩ | ⟨hinvalid, -⟩
        · refine .inl ⟨hseed, _, dir'', by simp only [heq, heq']; rfl,
            ⟨hlock'.trans hlock, _, hnext', ?_⟩, rfl, rfl⟩
          simp
        · exact absurd hseed hinvalid
      · rw [valid_takeoverSeed_iff] at hseed
        exact .inr ⟨hseed, error, dir', by simp only [heq], hlock, _, hnext, rfl⟩

/-- The time stamp of the lock file that an acquire writes. -/
inductive Stamped (utimes : JsNumber → Option JsNumber) :
    Option LockFile → JsNumber → JsNumber → Prop
  | created (clockMs : JsNumber) : Stamped utimes none 0 clockMs
  | restored {file : LockFile} {mtimeMs : JsNumber}
      (h : restoredMtime utimes file.mtimeMs = some mtimeMs) :
      Stamped utimes (some file) file.mtimeMs mtimeMs

/-- How an acquire can end: nothing written, the lock acquired, the body written
but refused by the log, or the body written and its time stamp not restored. -/
inductive AcquireEnds (sha256 : JsString → JsString) (utimes : JsNumber → Option JsNumber)
    (dir : LessonsDir) (events : List ConsolidationLockEvent) (process : Process)
    (input : TryAcquireInput) : Performed AcquireResult → Prop
  | unchanged {result : Except LockError AcquireResult}
      (hresult : ∀ acquired, result ≠ .ok (.acquired acquired)) :
      AcquireEnds sha256 utimes dir events process input (result, dir)
  | acquired {acquired : Acquired} {mtimeMs : JsNumber} {dir' : LessonsDir}
      (hextends : Extends sha256
        { dir with lock := some ⟨lockText (heldBody process input), mtimeMs⟩ } dir' events
          (if acquired.tookOver then 2 else 1))
      (hholderId : acquired.holderId = input.holderId)
      (hstamped : Stamped utimes dir.lock acquired.priorMtimeMs mtimeMs) :
      AcquireEnds sha256 utimes dir events process input (.ok (.acquired acquired), dir')
  | invalid {error : LockError} {priorMtimeMs mtimeMs : JsNumber} {dir' : LessonsDir}
      (hextends : Extends sha256
        { dir with lock := some ⟨lockText (heldBody process input), mtimeMs⟩ } dir' events 0)
      (hinvalid : ¬ (heldBody process input).Valid)
      (hstamped : Stamped utimes dir.lock priorMtimeMs mtimeMs) :
      AcquireEnds sha256 utimes dir events process input (.error error, dir')
  | unstamped {file : LockFile} {mtimeMs : JsNumber} (hlock : dir.lock = some file)
      (hrestored : restoredMtime utimes file.mtimeMs = none) :
      AcquireEnds sha256 utimes dir events process input (.error .timestamp,
        { dir with lock := some ⟨lockText (heldBody process input), mtimeMs⟩ })

theorem finishAcquire_ends (hsha : ∀ text, isHex64 (sha256 text) = true)
    (hlog : Log sha256 dir.lockEvents events) (hlength : events.length + 1 < maxArrayLength)
    (process : Process) (input : TryAcquireInput) {priorMtimeMs mtimeMs : JsNumber}
    {displaced : Option ConsolidationLockBody} (hdisplaced : ∀ body ∈ displaced, body.Valid)
    (hstamped : Stamped utimes dir.lock priorMtimeMs mtimeMs) :
    AcquireEnds sha256 utimes dir events process input
      (finishAcquire sha256 process input priorMtimeMs displaced
        { dir with lock := some ⟨lockText (heldBody process input), mtimeMs⟩ }) := by
  have hlog' : Log sha256 ({ dir with
      lock := some ⟨lockText (heldBody process input), mtimeMs⟩ } : LessonsDir).lockEvents events :=
    hlog
  rcases finishAcquire_cases hsha hlog' hlength process input priorMtimeMs hdisplaced with
    ⟨-, result, dir', heq, hextends, rfl, hid⟩ | ⟨hinvalid, error, dir', heq, hextends⟩
  · rw [heq]
    exact .acquired hextends hid hstamped
  · rw [heq]
    exact .invalid hextends hinvalid hstamped

theorem rewriteLock_ends (hsha : ∀ text, isHex64 (sha256 text) = true)
    (hlog : Log sha256 dir.lockEvents events) (hlength : events.length + 1 < maxArrayLength)
    (process : Process) (input : TryAcquireInput) {file : LockFile} (hlock : dir.lock = some file)
    {displaced : Option ConsolidationLockBody} (hdisplaced : ∀ body ∈ displaced, body.Valid) :
    AcquireEnds sha256 utimes dir events process input
      ((rewriteLock utimes process (heldBody process input) file.mtimeMs dir).andThen
        fun _ dir ↦ finishAcquire sha256 process input file.mtimeMs displaced dir) := by
  rw [rewriteLock]
  cases hrestored : restoredMtime utimes file.mtimeMs with
  | none => exact .unstamped hlock hrestored
  | some stored =>
      apply finishAcquire_ends hsha hlog hlength process input hdisplaced
      rw [hlock]
      exact .restored hrestored

theorem tryAcquire_ends (hsha : ∀ text, isHex64 (sha256 text) = true)
    (hlog : Log sha256 dir.lockEvents events) (hlength : events.length + 1 < maxArrayLength)
    (process : Process) (input : TryAcquireInput) :
    AcquireEnds sha256 utimes dir events process input
      (tryAcquireConsolidationLock sha256 utimes process input dir) := by
  unfold tryAcquireConsolidationLock
  split
  · exact .unchanged (by simp)
  · exact .unchanged (by simp)
  · next hread =>
      apply finishAcquire_ends hsha hlog hlength process input (by simp)
      rw [readLockBody_eq_ok_none_iff.mp hread]
      exact .created process.clockMs
  · next body mtimeMs _ hread =>
      obtain ⟨file, hlock, hparse, rfl⟩ := readLockBody_eq_ok_some_iff.mp hread
      split
      · exact rewriteLock_ends hsha hlog hlength process input hlock (by simp)
      · split
        · apply rewriteLock_ends hsha hlog hlength process input hlock
          intro displaced hdisplaced
          obtain rfl := Option.some.inj hdisplaced
          exact valid_of_parseLockBody hparse
        · exact .unchanged (by simp)

/-- How marking the lock as released can end. -/
inductive MarkEnds (sha256 : JsString → JsString) (utimes : JsNumber → Option JsNumber)
    (dir : LessonsDir) (events : List ConsolidationLockEvent) (body : ConsolidationLockBody)
    (mtimeMs occurredAtMs : JsNumber) : Performed (Option ConsolidationLockEvent) → Prop
  | marked {stored : JsNumber} {event : ConsolidationLockEvent} {dir' : LessonsDir}
      (hrestored : restoredMtime utimes mtimeMs = some stored)
      (hextends : Extends sha256
        { dir with lock := some ⟨lockText (releasedBody body), stored⟩ } dir' events 1) :
      MarkEnds sha256 utimes dir events body mtimeMs occurredAtMs (.ok (some event), dir')
  | invalid {stored : JsNumber} {error : LockError} {dir' : LessonsDir}
      (hrestored : restoredMtime utimes mtimeMs = some stored)
      (hinvalid : isNonNegativeFinite occurredAtMs = false)
      (hextends : Extends sha256
        { dir with lock := some ⟨lockText (releasedBody body), stored⟩ } dir' events 0) :
      MarkEnds sha256 utimes dir events body mtimeMs occurredAtMs (.error error, dir')
  | unstamped {clockMs : JsNumber} (hrestored : restoredMtime utimes mtimeMs = none) :
      MarkEnds sha256 utimes dir events body mtimeMs occurredAtMs (.error .timestamp,
        { dir with lock := some ⟨lockText (releasedBody body), clockMs⟩ })

theorem markReleased_ends (hsha : ∀ text, isHex64 (sha256 text) = true)
    (hlog : Log sha256 dir.lockEvents events) (hlength : events.length + 1 < maxArrayLength)
    (process : Process) (eventType : LockEventType) (htype : eventType ≠ .lockTakeover)
    {body : ConsolidationLockBody} (hbody : body.Valid) (mtimeMs occurredAtMs : JsNumber) :
    MarkEnds sha256 utimes dir events body mtimeMs occurredAtMs
      (markReleased sha256 utimes process eventType body mtimeMs occurredAtMs dir) := by
  rw [markReleased, rewriteLock]
  cases hrestored : restoredMtime utimes mtimeMs with
  | none => exact .unstamped hrestored
  | some stored =>
      simp only [Performed.andThen]
      have hlog' : Log sha256 ({ dir with
          lock := some ⟨lockText (releasedBody body), stored⟩ } : LessonsDir).lockEvents events := hlog
      have hprior : (⟨eventType, body.holderId, body.holderPid, body.holderHost, none,
          occurredAtMs⟩ : LockEventSeed).PriorRead := ⟨nofun, fun h ↦ absurd h htype⟩
      rcases logLockEvent_cases hsha hlog' (by omega) process hprior with
        ⟨-, event, dir', heq, hlock, hnext⟩ | ⟨hseed, error, dir', heq, hlock, hnext⟩
      · simp only [heq]
        exact .marked hrestored ⟨hlock, _, hnext, by simp⟩
      · simp only [heq]
        refine .invalid hrestored ?_ ⟨hlock, _, hnext, rfl⟩
        by_contra hvalid
        exact hseed ⟨hbody.holderId, hbody.holderPid, hbody.holderHost, by simpa using hvalid⟩

/-! ## The invariant of a session -/

/-- The file is at the release of `nowMs`, and a holder was handed that time. -/
structure AtCursor (utimes : JsNumber → Option JsNumber) (session : Session) (nowMs : JsNumber) :
    Prop where
  valid : isNonNegativeFinite nowMs = true
  storable : restoredMtime utimes nowMs.unsigned = some nowMs.unsigned
  file : ∃ file, session.dir.lock = some file ∧ file.mtimeMs = nowMs.unsigned
  owner : ∀ body mtimeMs, readLockBody session.dir.lock = .ok (some (body, mtimeMs)) →
    body.state = LockState.held.text →
      latestPrior session.history body.holderId = some nowMs.unsigned

structure Inv (sha256 : JsString → JsString) (utimes : JsNumber → Option JsNumber)
    (session : Session) : Prop where
  log : ∃ events, Log sha256 session.dir.lockEvents events ∧
    events.length = eventsOwed session.history
  text : ∀ file, session.dir.lock = some file → ∃ body, file.text = lockText body
  cursor : ∀ nowMs, latestRelease session.history = some nowMs → AtCursor utimes session nowMs

theorem inv_start : Inv sha256 utimes .start where
  log := ⟨[], log_empty, rfl⟩
  text := nofun
  cursor := nofun

theorem AtCursor.mtimeMs_eq {session : Session} {nowMs : JsNumber}
    (h : AtCursor utimes session nowMs) {file : LockFile} (hlock : session.dir.lock = some file) :
    file.mtimeMs = nowMs.unsigned := by
  obtain ⟨found, hfound, hmtime⟩ := h.file
  rw [hlock] at hfound
  rw [Option.some.inj hfound]
  exact hmtime

theorem state_eq_of_read_lockText {body found : ConsolidationLockBody} {mtimeMs mtimeMs' : JsNumber}
    (h : readLockBody (some ⟨lockText body, mtimeMs⟩) = .ok (some (found, mtimeMs'))) :
    body.Valid ∧ found = body.unsigned := by
  obtain ⟨file, hfile, hparse, -⟩ := readLockBody_eq_ok_some_iff.mp h
  obtain rfl := Option.some.inj hfile
  exact parseLockBody_lockText_eq_ok_iff.mp hparse

/-- A step that only adds a call without effect to the history. -/
theorem Inv.of_unchanged {session : Session} (h : Inv sha256 utimes session) {call : Completed}
    (hprior : ∀ holderId, latestPrior (call :: session.history) holderId =
      latestPrior session.history holderId)
    (hrelease : latestRelease (call :: session.history) = latestRelease session.history)
    (hevents : call.events = 0) : Inv sha256 utimes ⟨session.dir, call :: session.history⟩ := by
  obtain ⟨events, hlog, hlength⟩ := h.log
  refine ⟨⟨events, hlog, ?_⟩, h.text, fun nowMs hnow ↦ ?_⟩
  · simpa [eventsOwed, hevents] using hlength
  · rw [hrelease] at hnow
    obtain ⟨hvalid, hstorable, hfile, howner⟩ := h.cursor nowMs hnow
    refine ⟨hvalid, hstorable, hfile, fun body mtimeMs hread hheld ↦ ?_⟩
    rw [hprior]
    exact howner body mtimeMs hread hheld

/-- A step that writes the lock file and adds the events that its call owes. -/
theorem inv_of_written {session : Session} {call : Completed} {body : ConsolidationLockBody}
    {mtimeMs : JsNumber} {dir' : LessonsDir} (hlength : events.length = eventsOwed session.history)
    (hextends : Extends sha256 { session.dir with lock := some ⟨lockText body, mtimeMs⟩ } dir'
      events call.events)
    (hcursor : ∀ nowMs, latestRelease (call :: session.history) = some nowMs →
      isNonNegativeFinite nowMs = true ∧ restoredMtime utimes nowMs.unsigned = some nowMs.unsigned ∧
        mtimeMs = nowMs.unsigned)
    (howner : ∀ nowMs, latestRelease (call :: session.history) = some nowMs → body.Valid →
      body.state = LockState.held.text →
        latestPrior (call :: session.history) body.holderId = some nowMs.unsigned) :
    Inv sha256 utimes ⟨dir', call :: session.history⟩ := by
  obtain ⟨hlock, events', hlog', hlength'⟩ := hextends
  refine ⟨⟨events', hlog', ?_⟩, ?_, fun nowMs hnow ↦ ?_⟩
  · simp only [eventsOwed, List.map_cons, List.sum_cons] at hlength ⊢
    omega
  · intro file hfile
    rw [hlock] at hfile
    obtain rfl := Option.some.inj hfile
    exact ⟨body, rfl⟩
  · obtain ⟨hvalid, hstorable, hmtime⟩ := hcursor nowMs hnow
    refine ⟨hvalid, hstorable, ⟨_, hlock, hmtime⟩, fun found foundMs hread hheld ↦ ?_⟩
    rw [hlock] at hread
    obtain ⟨hbody, rfl⟩ := state_eq_of_read_lockText hread
    exact howner nowMs hnow hbody hheld

/-- Room for the events of one more call. -/
def Fits (session : Session) : Prop := eventsOwed session.history + 1 < maxArrayLength

theorem mtimeMs_of_stamped {session : Session} {nowMs priorMtimeMs mtimeMs : JsNumber}
    (h : AtCursor utimes session nowMs)
    (hstamped : Stamped utimes session.dir.lock priorMtimeMs mtimeMs) :
    priorMtimeMs = nowMs.unsigned ∧ mtimeMs = nowMs.unsigned := by
  cases hlock : session.dir.lock with
  | none =>
      obtain ⟨file, hfile, -⟩ := h.file
      rw [hlock] at hfile
      cases hfile
  | some file =>
      rw [hlock] at hstamped
      cases hstamped with
      | restored hrestored =>
          have hmtime := h.mtimeMs_eq hlock
          rw [hmtime, h.storable] at hrestored
          exact ⟨hmtime, (Option.some.inj hrestored).symm⟩

theorem inv_acquire (hsha : ∀ text, isHex64 (sha256 text) = true) {session : Session}
    (h : Inv sha256 utimes session) (hfits : Fits session) (process : Process)
    (input : TryAcquireInput) :
    Inv sha256 utimes (step sha256 utimes session (.acquire process input)) := by
  obtain ⟨events, hlog, hlength⟩ := h.log
  have hroom : events.length + 1 < maxArrayLength := by rwa [hlength]
  have hends : AcquireEnds sha256 utimes session.dir events process input _ :=
    tryAcquire_ends hsha hlog hroom process input
  simp only [step]
  generalize tryAcquireConsolidationLock sha256 utimes process input session.dir = performed at hends
  cases hends with
  | @unchanged result hresult =>
      apply h.of_unchanged
      · intro holderId
        rcases result with error | acquired | refusal
        · rfl
        · exact absurd rfl (hresult acquired)
        · rfl
      · rfl
      · rcases result with error | acquired | refusal
        · rfl
        · exact absurd rfl (hresult acquired)
        · rfl
  | @acquired acquired mtimeMs dir' hextends hholderId hstamped =>
      apply inv_of_written hlength hextends
      · intro nowMs hnow
        have hcursor := h.cursor nowMs hnow
        exact ⟨hcursor.valid, hcursor.storable, (mtimeMs_of_stamped hcursor hstamped).2⟩
      · intro nowMs hnow _ _
        have hprior := (mtimeMs_of_stamped (h.cursor nowMs hnow) hstamped).1
        simp [latestPrior, heldBody, hholderId, hprior]
  | @invalid error priorMtimeMs mtimeMs dir' hextends hinvalid hstamped =>
      apply inv_of_written hlength hextends
      · intro nowMs hnow
        have hcursor := h.cursor nowMs hnow
        exact ⟨hcursor.valid, hcursor.storable, (mtimeMs_of_stamped hcursor hstamped).2⟩
      · exact fun nowMs hnow hvalid ↦ absurd hvalid hinvalid
  | @unstamped file mtimeMs hlock hrestored =>
      have hnone : ∀ nowMs, latestRelease session.history ≠ some nowMs := by
        intro nowMs hnow
        have hcursor := h.cursor nowMs hnow
        rw [hcursor.mtimeMs_eq hlock, hcursor.storable] at hrestored
        cases hrestored
      apply inv_of_written hlength ⟨rfl, events, hlog, rfl⟩
      · exact fun nowMs hnow ↦ absurd hnow (hnone nowMs)
      · exact fun nowMs hnow ↦ absurd hnow (hnone nowMs)

/-- Release and rollback, told by what they read: nothing of their own, or a body
under their holder id. -/
theorem inv_release (hsha : ∀ text, isHex64 (sha256 text) = true) {session : Session}
    (h : Inv sha256 utimes session) (hfits : Fits session) (process : Process) (input : ReleaseInput)
    (hsound : Sound utimes session (.release process input)) :
    Inv sha256 utimes (step sha256 utimes session (.release process input)) := by
  obtain ⟨events, hlog, hlength⟩ := h.log
  have hroom : events.length + 1 < maxArrayLength := by rwa [hlength]
  simp only [step, releaseConsolidationLock]
  split
  · exact h.of_unchanged (fun _ ↦ rfl) rfl rfl
  · exact h.of_unchanged (fun _ ↦ rfl) rfl rfl
  · next body mtimeMs hread =>
      split
      · exact h.of_unchanged (fun _ ↦ rfl) rfl rfl
      next hid =>
      split
      · exact h.of_unchanged (fun _ ↦ rfl) rfl rfl
      next hstate =>
      rw [not_not] at hid hstate
      obtain ⟨hvalid, hstores, hstorable⟩ := hsound ⟨body, mtimeMs, hread, hstate, hid⟩
      obtain ⟨file, -, hparse, -⟩ := readLockBody_eq_ok_some_iff.mp hread
      have hends : MarkEnds sha256 utimes session.dir events body input.nowMs input.nowMs _ :=
        markReleased_ends hsha hlog hroom process .lockReleased (by decide)
          (valid_of_parseLockBody hparse) input.nowMs input.nowMs
      generalize markReleased sha256 utimes process .lockReleased body input.nowMs input.nowMs
        session.dir = performed at hends
      cases hends with
      | marked hrestored hextends =>
          rw [hstores] at hrestored
          obtain rfl := Option.some.inj hrestored
          apply inv_of_written hlength hextends
          · intro nowMs hnow
            obtain rfl : input.nowMs = nowMs := Option.some.inj hnow
            exact ⟨hvalid, hstorable, rfl⟩
          · intro nowMs _ _ hheld
            exact absurd hheld released_ne_held
      | invalid hrestored hinvalid hextends =>
          rw [hvalid] at hinvalid
          cases hinvalid
      | unstamped hrestored =>
          rw [hstores] at hrestored
          cases hrestored

theorem inv_rollback (hsha : ∀ text, isHex64 (sha256 text) = true) {session : Session}
    (h : Inv sha256 utimes session) (hfits : Fits session) (process : Process)
    (input : RollbackInput) (hown : OwnPrior session (.rollback process input))
    (hsound : Sound utimes session (.rollback process input)) :
    Inv sha256 utimes (step sha256 utimes session (.rollback process input)) := by
  obtain ⟨events, hlog, hlength⟩ := h.log
  have hroom : events.length + 1 < maxArrayLength := by rwa [hlength]
  simp only [step, rollbackConsolidationLock]
  split
  · exact h.of_unchanged (fun _ ↦ rfl) rfl rfl
  · exact h.of_unchanged (fun _ ↦ rfl) rfl rfl
  · next body mtimeMs hread =>
      split
      · exact h.of_unchanged (fun _ ↦ rfl) rfl rfl
      next hid =>
      rw [not_not] at hid
      obtain ⟨file, hlock, hparse, hmtime⟩ := readLockBody_eq_ok_some_iff.mp hread
      have hbody := valid_of_parseLockBody hparse
      have hkept : ∀ nowMs, latestRelease session.history = some nowMs →
          restoredMtime utimes input.priorMtimeMs = some nowMs.unsigned := by
        intro nowMs hnow
        have hcursor := h.cursor nowMs hnow
        rcases hbody.held_or_released with hheld | hreleased
        · have hprior := hcursor.owner body mtimeMs hread hheld
          rw [hown nowMs.unsigned (hid ▸ hprior)]
          exact hcursor.storable
        · rw [hsound body mtimeMs hread hid hreleased, ← hmtime, hcursor.mtimeMs_eq hlock]
      have hends : MarkEnds sha256 utimes session.dir events body input.priorMtimeMs input.nowMs _ :=
        markReleased_ends hsha hlog hroom process .lockRolledBack (by decide)
          hbody input.priorMtimeMs input.nowMs
      generalize markReleased sha256 utimes process .lockRolledBack body input.priorMtimeMs
        input.nowMs session.dir = performed at hends
      have hreleased : ∀ nowMs : JsNumber, (releasedBody body).Valid →
          (releasedBody body).state = LockState.held.text →
            latestPrior session.history (releasedBody body).holderId = some nowMs.unsigned :=
        fun _ _ hheld ↦ absurd hheld released_ne_held
      cases hends with
      | marked hrestored hextends =>
          apply inv_of_written hlength hextends
          · intro nowMs hnow
            have hcursor := h.cursor nowMs hnow
            have hstored := Option.some.inj (hrestored.symm.trans (hkept nowMs hnow))
            exact ⟨hcursor.valid, hcursor.storable, hstored⟩
          · exact fun nowMs _ ↦ hreleased nowMs
      | invalid hrestored hinvalid hextends =>
          apply inv_of_written hlength hextends
          · intro nowMs hnow
            have hcursor := h.cursor nowMs hnow
            have hstored := Option.some.inj (hrestored.symm.trans (hkept nowMs hnow))
            exact ⟨hcursor.valid, hcursor.storable, hstored⟩
          · exact fun nowMs _ ↦ hreleased nowMs
      | unstamped hrestored =>
          have hnone : ∀ nowMs, latestRelease session.history ≠ some nowMs := by
            intro nowMs hnow
            rw [hkept nowMs hnow] at hrestored
            cases hrestored
          apply inv_of_written hlength ⟨rfl, events, hlog, rfl⟩
          · exact fun nowMs hnow ↦ absurd hnow (hnone nowMs)
          · exact fun nowMs _ ↦ hreleased nowMs

theorem inv_step (hsha : ∀ text, isHex64 (sha256 text) = true) {session : Session} {call : Call}
    (h : Inv sha256 utimes session) (hfits : Fits session) (hown : OwnPrior session call)
    (hsound : Sound utimes session call) :
    Inv sha256 utimes (step sha256 utimes session call) := by
  cases call with
  | acquire process input => exact inv_acquire hsha h hfits process input
  | release process input => exact inv_release hsha h hfits process input hsound
  | rollback process input => exact inv_rollback hsha h hfits process input hown hsound

theorem Inv.cursorAndChain {session : Session} (h : Inv sha256 utimes session) :
    CursorAndChain sha256 session where
  cursor nowMs hnow := by
    have hcursor := h.cursor nowMs hnow
    obtain ⟨file, hlock, hmtime⟩ := hcursor.file
    refine ⟨file, hlock, ?_⟩
    obtain ⟨d, hd⟩ := JsNumber.exists_unsigned_eq_finite
      (isFinite_of_isNonNegativeFinite hcursor.valid)
    rw [hmtime, ← JsNumber.unsigned_strictEq, JsNumber.unsigned_unsigned, hd]
    exact decide_eq_true rfl
  chain := by
    obtain ⟨events, hlog, hlength⟩ := h.log
    exact ⟨events, _, hlog.readEventChain_eq, hlog.verify_eq, hlength⟩

/-- A call by a caller that does not hold the lock leaves the lock file alone. -/
theorem lock_eq_of_byNonHolder (hsha : ∀ text, isHex64 (sha256 text) = true) {session : Session}
    {call : Call} (h : Inv sha256 utimes session) (hfits : Fits session)
    (hsound : Sound utimes session call) (hcall : ByNonHolder sha256 utimes session call) :
    (step sha256 utimes session call).dir.lock = session.dir.lock := by
  obtain ⟨events, hlog, hlength⟩ := h.log
  have hroom : events.length + 1 < maxArrayLength := by rwa [hlength]
  cases call with
  | acquire process input =>
      obtain ⟨refusal, hrefused⟩ := hcall
      have hends : AcquireEnds sha256 utimes session.dir events process input _ :=
        tryAcquire_ends hsha hlog hroom process input
      simp only [step]
      generalize tryAcquireConsolidationLock sha256 utimes process input session.dir = performed
        at hends hrefused
      cases hends with
      | unchanged _ => rfl
      | acquired _ _ _ => cases hrefused
      | invalid _ _ _ => cases hrefused
      | unstamped _ _ => cases hrefused
  | release process input =>
      simp only [step, releaseConsolidationLock]
      split
      · rfl
      · rfl
      · next body mtimeMs hread =>
          split
          · rfl
          next hid =>
          split
          · rfl
          next hstate =>
          rw [not_not] at hid hstate
          exact absurd ⟨body, mtimeMs, hread, hstate, hid⟩ hcall
  | rollback process input =>
      simp only [step, rollbackConsolidationLock]
      split
      · rfl
      · rfl
      · next body mtimeMs hread =>
          split
          · rfl
          next hid =>
          rw [not_not] at hid
          obtain ⟨file, hlock, hparse, hmtime⟩ := readLockBody_eq_ok_some_iff.mp hread
          have hbody := valid_of_parseLockBody hparse
          have hreleased := hbody.held_or_released.resolve_left fun hheld ↦
            hcall ⟨body, mtimeMs, hread, hheld, hid⟩
          have hrestored := hsound body mtimeMs hread hid hreleased
          have hsame : lockText (releasedBody body) = file.text := by
            obtain ⟨written, htext⟩ := h.text file hlock
            rw [htext, parseLockBody_lockText_eq_ok_iff] at hparse
            have hkept : releasedBody body = body := by rw [releasedBody, ← hreleased]
            rw [hkept, hparse.2, lockText_unsigned, htext]
          have hends : MarkEnds sha256 utimes session.dir events body input.priorMtimeMs input.nowMs
              _ :=
            markReleased_ends hsha hlog hroom process
              .lockRolledBack (by decide) hbody input.priorMtimeMs input.nowMs
          generalize markReleased sha256 utimes process .lockRolledBack body input.priorMtimeMs
            input.nowMs session.dir = performed at hends
          cases hends with
          | marked hstored hextends =>
              rw [hrestored] at hstored
              rw [hextends.lock, hlock, hsame, ← Option.some.inj hstored, ← hmtime]
          | invalid hstored _ hextends =>
              rw [hrestored] at hstored
              rw [hextends.lock, hlock, hsame, ← Option.some.inj hstored, ← hmtime]
          | unstamped hnone =>
              rw [hrestored] at hnone
              cases hnone

/-! ## Runs -/

theorem events_le (call : Completed) : call.events ≤ 2 := by
  unfold Completed.events
  split
  · split <;> omega
  · omega
  · omega
  · omega

theorem eventsOwed_le (history : List Completed) : eventsOwed history ≤ 2 * history.length := by
  induction history with
  | nil => simp [eventsOwed]
  | cons call history ih =>
      have hcall := events_le call
      simp only [eventsOwed, List.map_cons, List.sum_cons, List.length_cons] at ih ⊢
      omega

theorem length_history_step (session : Session) (call : Call) :
    (step sha256 utimes session call).history.length = session.history.length + 1 := by
  cases call <;> rfl

theorem meetsAlong_fits {session : Session} {calls : List Call}
    (h : 2 * (session.history.length + calls.length) ≤ maxArrayLength) :
    MeetsAlong (step sha256 utimes) (fun session _ ↦ Fits session) session calls := by
  induction calls generalizing session with
  | nil => trivial
  | cons call calls ih =>
      rw [List.length_cons] at h
      have howed := eventsOwed_le session.history
      refine ⟨?_, ih ?_⟩
      · unfold Fits
        omega
      · rw [length_history_step]
        omega

end

/-! ## Rolling back over one's own release -/

def sampleProcess : Process := ⟨7, js "host-a", fun _ ↦ .delivered, 500, js "uuid"⟩

def sampleInput : TryAcquireInput := ⟨js "lessons", js "holder-1", 1000, none, none, none⟩

def sampleAcquire : Call := .acquire sampleProcess sampleInput

def sampleRelease : Call := .release sampleProcess ⟨js "holder-1", 2000⟩

def sampleRollback : Call := .rollback sampleProcess ⟨js "holder-1", 0, 3000⟩

def sampleSha256 : JsString → JsString := fun _ ↦ List.replicate 64 0x61

/-- A file system that keeps whole seconds. -/
def sampleUtimes (seconds : JsNumber) : Option JsNumber :=
  if seconds.isFinite then some (.ofRat (⌊seconds.toRat⌋ * 1000)) else none

theorem isHex64_sampleSha256 (text : JsString) : isHex64 (sampleSha256 text) = true := by
  rw [sampleSha256]
  decide

def sampleLateRelease : Call := .release sampleProcess ⟨js "holder-1", 4000⟩

end TestIntelligence.AgenticHarness.ConsolidationLock
