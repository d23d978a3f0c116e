import TestIntelligence.AgenticHarness.ConsolidationEvents
import TestIntelligence.Systems.Runs

/-!
# Concurrent callers of the consolidation lock

Any number of callers share one lock file, and their file operations interleave.
A first acquire links its body into place and fails if a file is there; an acquire
of a released lock renames its body over the file it read before.  Between that
read and the rename another caller may have acquired the lock.
-/

namespace TestIntelligence.AgenticHarness.ConsolidationLock

open Js Systems

/-! ## Callers -/

/-- Where a call stands, named by the file operation that comes next. -/
inductive Phase
  | idle
  | readFile (process : Process) (input : TryAcquireInput)
  | stat (process : Process) (input : TryAcquireInput) (body : ConsolidationLockBody)
  | link (process : Process) (input : TryAcquireInput)
  | rename (process : Process) (input : TryAcquireInput) (mtimeMs : JsNumber)
      (displaced : Option ConsolidationLockBody)
  | utimes (process : Process) (input : TryAcquireInput) (mtimeMs : JsNumber)
  | log
  | releaseReadFile (process : Process) (input : ReleaseInput)
  | releaseStat (process : Process) (input : ReleaseInput) (body : ConsolidationLockBody)
  | releaseRename (process : Process) (input : ReleaseInput) (body : ConsolidationLockBody)
  | releaseUtimes (input : ReleaseInput)
  | releaseLog

/-- A caller holds the lock from the `ok = true` of an acquire to the rename of
its release. -/
structure Callers (ι : Type) where
  lock : Option LockFile
  phase : ι → Phase
  holding : ι → Bool

/-- `advance` performs the next file operation of a caller.  The files of the log
are not the lock's, so an append is one operation, which completes or throws. -/
inductive Action (ι : Type)
  | acquire (i : ι) (process : Process) (input : TryAcquireInput)
  | release (i : ι) (process : Process) (input : ReleaseInput)
  | advance (i : ι) (logged : Bool)

variable {ι : Type} [DecidableEq ι]

def Callers.start : Callers ι := ⟨none, fun _ ↦ .idle, fun _ ↦ false⟩

def Callers.enter (s : Callers ι) (i : ι) (phase : Phase) : Callers ι :=
  { s with phase := Function.update s.phase i phase }

def Callers.write (s : Callers ι) (text : JsString) (mtimeMs : JsNumber) : Callers ι :=
  { s with lock := some ⟨text, mtimeMs⟩ }

def Callers.hold (s : Callers ι) (i : ι) (holds : Bool) : Callers ι :=
  { s with holding := Function.update s.holding i holds }

/-- What `tryAcquireConsolidationLock` does with the body and time stamp it read. -/
def decideAcquire (process : Process) (input : TryAcquireInput) (body : ConsolidationLockBody)
    (mtimeMs : JsNumber) : Phase :=
  if body.state = LockState.released.text then .rename process input mtimeMs none
  else if isStale process input body then .rename process input mtimeMs (some body)
  else .idle

def decideRelease (process : Process) (input : ReleaseInput) (body : ConsolidationLockBody) :
    Phase :=
  if body.holderId ≠ input.holderId then .idle
  else if body.state ≠ LockState.held.text then .idle
  else .releaseRename process input body

/-- `utimes` on the lock file, with the phase after it. -/
def stampLock (utimes : JsNumber → Option JsNumber) (s : Callers ι) (i : ι) (mtimeMs : JsNumber)
    (phase : Phase) : Callers ι :=
  match s.lock, restoredMtime utimes mtimeMs with
  | some file, some stored => (s.write file.text stored).enter i phase
  | _, _ => s.enter i .idle

/-- The next file operation of a caller. -/
def advance (utimes : JsNumber → Option JsNumber) (s : Callers ι) (i : ι) (logged : Bool) :
    Callers ι :=
  match s.phase i with
  | .idle => s
  | .readFile process input =>
      match s.lock with
      | none => s.enter i (.link process input)
      | some file =>
          match parseLockBody file.text with
          | .error _ => s.enter i .idle
          | .ok body => s.enter i (.stat process input body)
  | .stat process input body =>
      match s.lock with
      | none => s.enter i .idle
      | some file => s.enter i (decideAcquire process input body file.mtimeMs)
  | .link process input =>
      match s.lock with
      | none => (s.write (lockText (heldBody process input)) process.clockMs).enter i .log
      | some _ => s.enter i (.readFile process input)
  | .rename process input mtimeMs _ =>
      (s.write (lockText (heldBody process input)) process.clockMs).enter i
        (.utimes process input mtimeMs)
  | .utimes _ _ mtimeMs => stampLock utimes s i mtimeMs .log
  | .log => (s.hold i (s.holding i || logged)).enter i .idle
  | .releaseReadFile process input =>
      match s.lock with
      | none => s.enter i .idle
      | some file =>
          match parseLockBody file.text with
          | .error _ => s.enter i .idle
          | .ok body => s.enter i (.releaseStat process input body)
  | .releaseStat process input body =>
      match s.lock with
      | none => s.enter i .idle
      | some _ => s.enter i (decideRelease process input body)
  | .releaseRename process input body =>
      ((s.write (lockText (releasedBody body)) process.clockMs).hold i false).enter i
        (.releaseUtimes input)
  | .releaseUtimes input => stampLock utimes s i input.nowMs .releaseLog
  | .releaseLog => s.enter i .idle

/-- A caller makes one call at a time. -/
def act (utimes : JsNumber → Option JsNumber) (s : Callers ι) : Action ι → Callers ι
  | .acquire i process input =>
      match s.phase i, validateAcquire input with
      | .idle, .ok () => s.enter i (.readFile process input)
      | _, _ => s
  | .release i process input =>
      match s.phase i with
      | .idle => s.enter i (.releaseReadFile process input)
      | _ => s
  | .advance i logged => advance utimes s i logged

/-- Each caller passes its own holder id. -/
def Names (holderId : ι → JsString) : Action ι → Prop
  | .acquire i _ input => input.holderId = holderId i
  | .release i _ input => input.holderId = holderId i
  | .advance _ _ => True

def Phase.findsStale : Phase → Bool
  | .stat process input body => body.state == LockState.held.text && isStale process input body
  | _ => false

/-- No holder is found stale. -/
def NeverStale (s : Callers ι) : Action ι → Prop
  | .advance i _ => (s.phase i).findsStale = false
  | _ => True

def readsReleased (lock : Option LockFile) : Bool :=
  match readLockBody lock with
  | .ok (some (body, _)) => body.state == LockState.released.text
  | _ => false

def Phase.overwrites (lock : Option LockFile) : Phase → Bool
  | .rename _ _ _ none => !readsReleased lock
  | _ => false

/-- An acquire that found the lock released finds it so when it renames. -/
def NoLostRace (s : Callers ι) : Action ι → Prop
  | .advance i _ => (s.phase i).overwrites s.lock = false
  | _ => True

def MutuallyExclusive (s : Callers ι) : Prop :=
  ∀ i j, s.holding i = true → s.holding j = true → i = j

/-! ## Who owns the lock file -/

/-- The lock file is held under the holder id. -/
def HeldBy (lock : Option LockFile) (holderId : JsString) : Prop :=
  ∃ file body, lock = some file ∧ file.text = lockText body ∧
    body.state = LockState.held.text ∧ body.holderId = holderId

theorem holderId_eq_of_lockText_eq {body body' : ConsolidationLockBody}
    (h : lockText body = lockText body') : body.holderId = body'.holderId := by
  obtain ⟨members, hparse, -, -, hid, -⟩ := parse_lockText body
  obtain ⟨members', hparse', -, -, hid', -⟩ := parse_lockText body'
  rw [h, hparse'] at hparse
  obtain rfl : members' = members := by simpa using hparse
  rw [hid] at hid'
  simpa using hid'

theorem HeldBy.unique {lock : Option LockFile} {holderId holderId' : JsString}
    (h : HeldBy lock holderId) (h' : HeldBy lock holderId') : holderId = holderId' := by
  obtain ⟨file, body, hlock, htext, -, rfl⟩ := h
  obtain ⟨file', body', hlock', htext', -, rfl⟩ := h'
  rw [hlock] at hlock'
  obtain rfl := Option.some.inj hlock'
  exact holderId_eq_of_lockText_eq (htext.symm.trans htext')

theorem heldBy_heldBody (process : Process) (input : TryAcquireInput) (mtimeMs : JsNumber) :
    HeldBy (some ⟨lockText (heldBody process input), mtimeMs⟩) input.holderId :=
  ⟨_, heldBody process input, rfl, rfl, rfl, rfl⟩

/-- Setting the time stamp keeps the holder. -/
theorem HeldBy.restamp {file : LockFile} {holderId : JsString} (h : HeldBy (some file) holderId)
    (mtimeMs : JsNumber) : HeldBy (some ⟨file.text, mtimeMs⟩) holderId := by
  obtain ⟨_, body, hlock, htext, hstate, hid⟩ := h
  obtain rfl := Option.some.inj hlock
  exact ⟨_, body, rfl, htext, hstate, hid⟩

theorem not_heldBy_of_readsReleased {lock : Option LockFile} (h : readsReleased lock = true)
    (holderId : JsString) : ¬ HeldBy lock holderId := by
  unfold readsReleased at h
  split at h
  · next found mtimeMs hread =>
      obtain ⟨file, hlock, hparse, -⟩ := readLockBody_eq_ok_some_iff.mp hread
      rintro ⟨file', body, hlock', htext, hstate, -⟩
      obtain rfl := Option.some.inj (hlock.symm.trans hlock')
      rw [htext, parseLockBody_lockText_eq_ok_iff] at hparse
      obtain ⟨-, rfl⟩ := hparse
      exact released_ne_held ((beq_iff_eq.mp h).symm.trans hstate)
  · cases h

/-- Every lock file was written by a caller. -/
def Written (lock : Option LockFile) : Prop :=
  ∀ file, lock = some file → ∃ body, file.text = lockText body

theorem heldBy_of_parse {file : LockFile} (hwritten : Written (some file))
    {body : ConsolidationLockBody} (hparse : parseLockBody file.text = .ok body)
    (hstate : body.state = LockState.held.text) : HeldBy (some file) body.holderId := by
  obtain ⟨written, htext⟩ := hwritten file rfl
  rw [htext, parseLockBody_lockText_eq_ok_iff] at hparse
  obtain ⟨-, rfl⟩ := hparse
  exact ⟨file, written, rfl, htext, hstate, rfl⟩

/-! ## The invariant -/

/-- What a caller in the middle of a call relies on. -/
def PhaseInv (lock : Option LockFile) (holderId : JsString) : Phase → Prop
  | .idle => True
  | .readFile _ input => input.holderId = holderId
  | .stat _ input body => input.holderId = holderId ∧ body.Valid
  | .link _ input => input.holderId = holderId
  | .rename _ input _ displaced => input.holderId = holderId ∧ displaced = none
  | .utimes _ _ _ => HeldBy lock holderId
  | .log => HeldBy lock holderId
  | .releaseReadFile _ input => input.holderId = holderId
  | .releaseStat _ input body => input.holderId = holderId ∧
      (body.holderId = holderId → body.state = LockState.held.text → HeldBy lock holderId)
  | .releaseRename _ _ body => body.holderId = holderId ∧ HeldBy lock holderId
  | .releaseUtimes _ => True
  | .releaseLog => True

structure OwnerInv (holderId : ι → JsString) (s : Callers ι) : Prop where
  written : Written s.lock
  holding : ∀ i, s.holding i = true → HeldBy s.lock (holderId i)
  phases : ∀ i, PhaseInv s.lock (holderId i) (s.phase i)

omit [DecidableEq ι] in
theorem ownerInv_start (holderId : ι → JsString) : OwnerInv holderId (.start : Callers ι) :=
  ⟨nofun, nofun, fun _ ↦ trivial⟩

/-- A change of the lock file that keeps the other callers' locks. -/
theorem PhaseInv.mono {lock lock' : Option LockFile} {holderId : JsString}
    (h : HeldBy lock holderId → HeldBy lock' holderId) {phase : Phase}
    (hphase : PhaseInv lock holderId phase) : PhaseInv lock' holderId phase := by
  cases phase with
  | idle => trivial
  | readFile process input => exact hphase
  | stat process input body => exact hphase
  | link process input => exact hphase
  | rename process input mtimeMs displaced => exact hphase
  | utimes process input mtimeMs => exact h hphase
  | log => exact h hphase
  | releaseReadFile process input => exact hphase
  | releaseStat process input body => exact ⟨hphase.1, fun hid hstate ↦ h (hphase.2 hid hstate)⟩
  | releaseRename process input body => exact ⟨hphase.1, h hphase.2⟩
  | releaseUtimes input => trivial
  | releaseLog => trivial

variable {holderId : ι → JsString} {s : Callers ι} {i : ι}

/-- A step in which only the phase of one caller changes. -/
theorem OwnerInv.enter (h : OwnerInv holderId s) {phase : Phase}
    (hphase : PhaseInv s.lock (holderId i) phase) : OwnerInv holderId (s.enter i phase) := by
  refine ⟨h.written, h.holding, fun j ↦ ?_⟩
  by_cases hj : j = i
  · subst hj
    simpa [Callers.enter] using hphase
  · simpa [Callers.enter, hj] using h.phases j

/-- A step in which one caller writes the lock file: nobody else owned it. -/
theorem OwnerInv.write (h : OwnerInv holderId s) {text : JsString} {mtimeMs : JsNumber} {holds : Bool}
    {phase : Phase} (hwritten : ∃ body, text = lockText body)
    (hothers : ∀ j, j ≠ i → HeldBy s.lock (holderId j) → HeldBy (some ⟨text, mtimeMs⟩) (holderId j))
    (hholds : holds = true → HeldBy (some ⟨text, mtimeMs⟩) (holderId i))
    (hphase : PhaseInv (some ⟨text, mtimeMs⟩) (holderId i) phase) :
    OwnerInv holderId (((s.write text mtimeMs).hold i holds).enter i phase) := by
  refine ⟨?_, fun j hj ↦ ?_, fun j ↦ ?_⟩
  · intro file hfile
    obtain rfl := Option.some.inj hfile
    exact hwritten
  · by_cases hji : j = i
    · subst hji
      exact hholds (by simpa [Callers.enter, Callers.hold] using hj)
    · apply hothers j hji
      exact h.holding j (by simpa [Callers.enter, Callers.hold, Callers.write, hji] using hj)
  · by_cases hji : j = i
    · subst hji
      simpa [Callers.enter, Callers.hold, Callers.write] using hphase
    · have hj := (h.phases j).mono (hothers j hji)
      simpa [Callers.enter, Callers.hold, Callers.write, hji] using hj

theorem write_enter_eq (s : Callers ι) (i : ι) (text : JsString) (mtimeMs : JsNumber)
    (phase : Phase) : (s.write text mtimeMs).enter i phase =
      ((s.write text mtimeMs).hold i (s.holding i)).enter i phase := by
  simp [Callers.hold, Callers.write, Callers.enter]

/-- Writing a held body where nobody else owned the file. -/
theorem OwnerInv.acquire (h : OwnerInv holderId s) (process : Process) {input : TryAcquireInput}
    (hid : input.holderId = holderId i)
    (hothers : ∀ j, j ≠ i → ¬ HeldBy s.lock (holderId j)) {phase : Phase}
    (hphase : ∀ lock, HeldBy lock (holderId i) → PhaseInv lock (holderId i) phase) :
    OwnerInv holderId
      ((s.write (lockText (heldBody process input)) process.clockMs).enter i phase) := by
  have hheld := heldBy_heldBody process input process.clockMs
  rw [hid] at hheld
  rw [write_enter_eq]
  exact h.write ⟨_, rfl⟩ (fun j hj hheld ↦ absurd hheld (hothers j hj)) (fun _ ↦ hheld)
    (hphase _ hheld)

theorem OwnerInv.stamp (h : OwnerInv holderId s) (utimes : JsNumber → Option JsNumber)
    (mtimeMs : JsNumber) {phase : Phase}
    (hphase : ∀ lock, (HeldBy s.lock (holderId i) → HeldBy lock (holderId i)) →
      PhaseInv lock (holderId i) phase) :
    OwnerInv holderId (stampLock utimes s i mtimeMs phase) := by
  unfold stampLock
  split
  · next file stored hlock _ =>
      have hrestamp : ∀ holderId, HeldBy s.lock holderId →
          HeldBy (some ⟨file.text, stored⟩) holderId := by
        intro holderId hheld
        rw [hlock] at hheld
        exact hheld.restamp stored
      rw [write_enter_eq]
      apply h.write (h.written file hlock) (fun j _ ↦ hrestamp _)
      · exact fun hholds ↦ hrestamp _ (h.holding i hholds)
      · exact hphase _ (hrestamp _)
  · exact h.enter trivial

theorem OwnerInv.hold (h : OwnerInv holderId s) (hheld : HeldBy s.lock (holderId i)) (holds : Bool) :
    OwnerInv holderId (s.hold i holds) := by
  refine ⟨h.written, fun j hj ↦ ?_, h.phases⟩
  by_cases hji : j = i
  · subst hji
    exact hheld
  · exact h.holding j (by simpa [Callers.hold, hji] using hj)

theorem phaseInv_decideAcquire {lock : Option LockFile} {name : JsString} {process : Process}
    {input : TryAcquireInput} {body : ConsolidationLockBody} (hid : input.holderId = name)
    (hbody : body.Valid)
    (hstale : body.state = LockState.held.text → isStale process input body = false)
    (mtimeMs : JsNumber) : PhaseInv lock name (decideAcquire process input body mtimeMs) := by
  unfold decideAcquire
  split
  · exact ⟨hid, rfl⟩
  · next hreleased =>
      have hheld := hbody.held_or_released.resolve_right hreleased
      rw [hstale hheld]
      trivial

theorem phaseInv_decideRelease {lock : Option LockFile} {name : JsString} {process : Process}
    {input : ReleaseInput} {body : ConsolidationLockBody} (hid : input.holderId = name)
    (hheld : body.holderId = name → body.state = LockState.held.text → HeldBy lock name) :
    PhaseInv lock name (decideRelease process input body) := by
  unfold decideRelease
  split
  · trivial
  next hbody =>
  split
  · trivial
  next hstate =>
  rw [not_not] at hbody hstate
  exact ⟨hbody.trans hid, hheld (hbody.trans hid) hstate⟩

/-- One file operation keeps the invariant. -/
theorem ownerInv_advance (hinj : Function.Injective holderId)
    (utimes : JsNumber → Option JsNumber) (h : OwnerInv holderId s) {logged : Bool}
    (hstale : NeverStale s (.advance i logged)) (hrace : NoLostRace s (.advance i logged)) :
    OwnerInv holderId (advance utimes s i logged) := by
  have hphase := h.phases i
  unfold NeverStale at hstale
  unfold NoLostRace at hrace
  unfold advance
  cases hcase : s.phase i with
  | idle => exact h
  | readFile process input =>
      simp only [hcase] at hphase
      cases hlock : s.lock with
      | none => exact h.enter hphase
      | some file =>
          dsimp only
          cases hparse : parseLockBody file.text with
          | error error => exact h.enter trivial
          | ok body => exact h.enter ⟨hphase, valid_of_parseLockBody hparse⟩
  | stat process input body =>
      simp only [hcase] at hphase hstale
      have hfresh : body.state = LockState.held.text → isStale process input body = false := by
        intro hheld
        simpa [Phase.findsStale, hheld] using hstale
      cases hlock : s.lock with
      | none => exact h.enter trivial
      | some file => exact h.enter (phaseInv_decideAcquire hphase.1 hphase.2 hfresh file.mtimeMs)
  | link process input =>
      simp only [hcase] at hphase
      cases hlock : s.lock with
      | some file => exact h.enter hphase
      | none =>
          apply h.acquire process hphase
          · rintro j - ⟨file, body, hfile, -⟩
            rw [hlock] at hfile
            cases hfile
          · exact fun lock hheld ↦ hheld
  | rename process input mtimeMs displaced =>
      simp only [hcase] at hphase hrace
      obtain ⟨hid, rfl⟩ := hphase
      have hreleased : readsReleased s.lock = true := by simpa [Phase.overwrites] using hrace
      apply h.acquire process hid
      · exact fun j _ ↦ not_heldBy_of_readsReleased hreleased (holderId j)
      · exact fun lock hheld ↦ hheld
  | utimes process input mtimeMs =>
      simp only [hcase] at hphase
      exact h.stamp utimes mtimeMs fun lock hkeeps ↦ hkeeps hphase
  | log =>
      simp only [hcase] at hphase
      exact (h.hold hphase _).enter trivial
  | releaseReadFile process input =>
      simp only [hcase] at hphase
      cases hlock : s.lock with
      | none => exact h.enter trivial
      | some file =>
          dsimp only
          cases hparse : parseLockBody file.text with
          | error error => exact h.enter trivial
          | ok body =>
              refine h.enter ⟨hphase, fun hid hstate ↦ ?_⟩
              rw [hlock, ← hid]
              exact heldBy_of_parse (hlock ▸ h.written) hparse hstate
  | releaseStat process input body =>
      simp only [hcase] at hphase
      cases hlock : s.lock with
      | none => exact h.enter trivial
      | some file => exact h.enter (phaseInv_decideRelease hphase.1 hphase.2)
  | releaseRename process input body =>
      simp only [hcase] at hphase
      dsimp only
      apply h.write ⟨_, rfl⟩
      · exact fun j hj hheld ↦ absurd (hinj (hheld.unique hphase.2)) hj
      · simp
      · trivial
  | releaseUtimes input => exact h.stamp utimes input.nowMs fun lock _ ↦ trivial
  | releaseLog => exact h.enter trivial

theorem ownerInv_act (hinj : Function.Injective holderId) (utimes : JsNumber → Option JsNumber)
    {action : Action ι} (h : OwnerInv holderId s) (hnames : Names holderId action)
    (hstale : NeverStale s action) (hrace : NoLostRace s action) :
    OwnerInv holderId (act utimes s action) := by
  cases action with
  | acquire i process input =>
      simp only [act]
      split
      · exact h.enter hnames
      · exact h
  | release i process input =>
      simp only [act]
      split
      · exact h.enter hnames
      · exact h
  | advance i logged => exact ownerInv_advance hinj utimes h hstale hrace

/-- Where no acquire renames its body over a lock that another caller acquired
since it was read, at most one caller holds the lock. -/
theorem mutuallyExclusive_of_noLostRace (utimes : JsNumber → Option JsNumber)
    (hinj : Function.Injective holderId) {actions : List (Action ι)}
    (hnames : ∀ action ∈ actions, Names holderId action)
    (hstale : MeetsAlong (act utimes) NeverStale .start actions)
    (hrace : MeetsAlong (act utimes) NoLostRace .start actions) :
    Always (act utimes) MutuallyExclusive .start actions := by
  have hinv : Always (act utimes) (OwnerInv holderId) .start actions := by
    apply always_of_meetsAlong _ (ownerInv_start holderId) hnames (hstale.and hrace)
    rintro s action hnames ⟨hstale, hrace⟩ h
    exact ownerInv_act hinj utimes h hnames hstale hrace
  intro done hdone i j hi hj
  have h := hinv done hdone
  exact hinj ((h.holding i hi).unique (h.holding j hj))

/-! ## Calls that do not overlap -/

omit [DecidableEq ι] in
/-! ## Two callers -/

instance (s : Callers ι) : (action : Action ι) → Decidable (NeverStale s action)
  | .acquire _ _ _ | .release _ _ _ => .isTrue trivial
  | .advance i _ => inferInstanceAs (Decidable ((s.phase i).findsStale = false))

instance (s : Callers ι) : (action : Action ι) → Decidable (NoLostRace s action)
  | .acquire _ _ _ | .release _ _ _ => .isTrue trivial
  | .advance i _ => inferInstanceAs (Decidable ((s.phase i).overwrites s.lock = false))

def callerProcess : Process := ⟨7, js "host-a", fun _ ↦ .delivered, 500, js "uuid"⟩

def storedTime (seconds : JsNumber) : Option JsNumber := some (.ofRat (seconds.toRat * 1000))

def callerId : Bool → JsString
  | false => js "holder-1"
  | true => js "holder-2"

def acquireCall (i : Bool) : Action Bool :=
  .acquire i callerProcess ⟨js "lessons", callerId i, 1000, none, none, none⟩

def releaseCall (i : Bool) : Action Bool := .release i callerProcess ⟨callerId i, 2000⟩

/-- `count` file operations of a caller. -/
def operations (i : Bool) (count : ℕ) : List (Action Bool) := List.replicate count (.advance i true)

/-- The first caller creates the lock and releases it. -/
def createAndRelease : List (Action Bool) :=
  acquireCall false :: operations false 3 ++ releaseCall false :: operations false 5

/-- Both callers read that the lock is released before either renames. -/
def raceForReleased : List (Action Bool) :=
  createAndRelease ++ [acquireCall false, acquireCall true] ++ operations false 2 ++
    operations true 2 ++ operations false 3 ++ operations true 3

theorem mutuallyExclusive_lost_in_race :
    Function.Injective callerId ∧ (∀ action ∈ raceForReleased, Names callerId action) ∧
      MeetsAlong (act storedTime) NeverStale .start raceForReleased ∧
        ¬ Always (act storedTime) MutuallyExclusive .start raceForReleased := by
  refine ⟨by decide, ?_, by decide +kernel, fun halways ↦ ?_⟩
  · simp [raceForReleased, createAndRelease, operations, acquireCall, releaseCall, Names]
  · have hboth : (run (act storedTime) .start raceForReleased).holding false = true ∧
        (run (act storedTime) .start raceForReleased).holding true = true := by
      decide +kernel
    exact absurd (halways _ List.prefix_rfl false true hboth.1 hboth.2) (by decide)

/-- The callers acquire the lock one after the other. -/
def takeTurns : List (Action Bool) :=
  createAndRelease ++ acquireCall true :: operations true 5 ++ acquireCall false ::
    operations false 2

theorem mutuallyExclusive_takeTurns :
    Always (act storedTime) MutuallyExclusive .start takeTurns := by
  have hinj : Function.Injective callerId := by decide
  apply mutuallyExclusive_of_noLostRace storedTime hinj
  · simp [takeTurns, createAndRelease, operations, acquireCall, releaseCall, Names]
  · decide +kernel
  · decide +kernel

end TestIntelligence.AgenticHarness.ConsolidationLock
