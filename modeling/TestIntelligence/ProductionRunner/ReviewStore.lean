import TestIntelligence.Review.FourEyes
import TestIntelligence.Review.StateMachine
import TestIntelligence.ProductionRunner.PolicyReport
import TestIntelligence.Security.ContentHash

/-!
# The review store

`review-store.ts` for one job directory.  The directory holds an event log and a
snapshot, both absent until the job is seeded.  A call reads the files, computes
the next ones and writes both; a refused or failed call writes nothing.  Event
ids and the state of the multi-source conflicts come from outside, and
`String.prototype.localeCompare` is a parameter because its order depends on the
locale of the process.
-/

namespace TestIntelligence.ProductionRunner

open Js Review Security

/-! ## Persisted data -/

structure ReviewEvent where
  id : JsString
  jobId : JsString
  testCaseId : Option JsString
  kind : ReviewEventKind
  eventAt : JsString
  actor : Option JsString
  note : Option JsString
  fromState : Option ReviewState
  toState : Option ReviewState
  sequence : ℕ
  metadata : Option (List (JsString × Json))

structure ReviewSnapshot where
  testCaseId : JsString
  state : ReviewState
  policyDecision : TestCasePolicyDecision
  lastEventId : JsString
  lastEventAt : JsString
  fourEyesEnforced : Bool
  approvers : List JsString
  fourEyesReasons : Option (List FourEyesEnforcementReason)
  primaryReviewer : Option JsString
  primaryApprovalAt : Option JsString
  secondaryReviewer : Option JsString
  secondaryApprovalAt : Option JsString
  lastEditor : Option JsString
  deriving DecidableEq, Repr

structure SnapshotCounts where
  approvedCount : ℕ
  needsReviewCount : ℕ
  rejectedCount : ℕ
  pendingSecondaryApprovalCount : ℕ
  deriving DecidableEq, Repr

structure ReviewGateSnapshot where
  jobId : JsString
  generatedAt : JsString
  perTestCase : List ReviewSnapshot
  counts : SnapshotCounts
  fourEyesPolicy : Option FourEyesPolicy
  deriving DecidableEq, Repr

structure PersistedReviewEventsEnvelope where
  jobId : JsString
  events : List ReviewEvent
  nextSequence : ℕ

/-- `review-events.json` and `review-state.json` of one job. -/
structure JobFiles where
  events : Option PersistedReviewEventsEnvelope
  snapshot : Option ReviewGateSnapshot

/-- The directory of a job that was never seeded. -/
def JobFiles.empty : JobFiles := ⟨none, none⟩

/-- What a call obtains from outside the store: fresh event ids and the ids of
the resolved conflicts, absent when the job has no reconciliation report. -/
structure Surroundings where
  randomUUID : ℕ → JsString
  resolvedConflictIds : Option (List JsString)

inductive StoreError
  | eventsJobIdMismatch
  deriving DecidableEq, Repr

def readEnvelope (jobId : JsString) (files : JobFiles) :
    Except StoreError (Option PersistedReviewEventsEnvelope) :=
  match files.events with
  | none => .ok none
  | some envelope =>
      if envelope.jobId = jobId then .ok (some envelope) else .error .eventsJobIdMismatch

def readConflictAwarePolicy (surroundings : Surroundings) (policy : TestCasePolicyReport) :
    TestCasePolicyReport :=
  match surroundings.resolvedConflictIds with
  | none => policy
  | some resolved => pruneResolvedMultiSourceConflictViolations policy (resolved.contains ·)

/-! ## Snapshots -/

/-- `approved`, `exported` or `transferred`. -/
def isApprovedState (state : ReviewState) : Bool :=
  state = .approved || state = .exported || state = .transferred

def computeCounts (perTestCase : List ReviewSnapshot) : SnapshotCounts :=
  perTestCase.foldl (fun counts entry ↦
    if isApprovedState entry.state then { counts with approvedCount := counts.approvedCount + 1 }
    else if entry.state = .needsReview ∨ entry.state = .edited then
      { counts with needsReviewCount := counts.needsReviewCount + 1 }
    else if entry.state = .pendingSecondaryApproval then
      { counts with pendingSecondaryApprovalCount := counts.pendingSecondaryApprovalCount + 1 }
    else if entry.state = .rejected then
      { counts with rejectedCount := counts.rejectedCount + 1 }
    else counts) ⟨0, 0, 0, 0⟩

/-- The members of the object that is persisted for one entry; `none` is a key
that is not written. -/
def ReviewSnapshot.fields (entry : ReviewSnapshot) : List (JsString × Option Json) :=
  [(js "testCaseId", some (.str entry.testCaseId)),
    (js "state", some (.str entry.state.text)),
    (js "policyDecision", some (.str entry.policyDecision.text)),
    (js "lastEventId", some (.str entry.lastEventId)),
    (js "lastEventAt", some (.str entry.lastEventAt)),
    (js "fourEyesEnforced", some (.bool entry.fourEyesEnforced)),
    (js "approvers", some (.arr (entry.approvers.map .str))),
    (js "fourEyesReasons",
      entry.fourEyesReasons.map fun reasons ↦ .arr (reasons.map fun reason ↦ .str reason.text)),
    (js "primaryReviewer", entry.primaryReviewer.map .str),
    (js "primaryApprovalAt", entry.primaryApprovalAt.map .str),
    (js "secondaryReviewer", entry.secondaryReviewer.map .str),
    (js "secondaryApprovalAt", entry.secondaryApprovalAt.map .str),
    (js "lastEditor", entry.lastEditor.map .str)]

def ReviewSnapshot.toJson (entry : ReviewSnapshot) : Json := .obj (presentMembers entry.fields)

def reviewSnapshotsEqual (left right : ReviewSnapshot) : Bool :=
  canonicalJson left.toJson = canonicalJson right.toJson

section Calls

variable (localeCompare : JsString → JsString → ℤ) (jobId : JsString)

def sortSnapshotEntries (entries : List ReviewSnapshot) : List ReviewSnapshot :=
  entries.insertionSort (fun a b ↦ localeCompare a.testCaseId b.testCaseId ≤ 0)

/-- The snapshot with new entries, sorted and counted again. -/
def ReviewGateSnapshot.withEntries (snapshot : ReviewGateSnapshot)
    (entries : List ReviewSnapshot) : ReviewGateSnapshot :=
  let sorted := sortSnapshotEntries localeCompare entries
  { snapshot with perTestCase := sorted, counts := computeCounts sorted }

/-- The log with one more event. -/
def PersistedReviewEventsEnvelope.append (envelope : PersistedReviewEventsEnvelope)
    (event : ReviewEvent) : PersistedReviewEventsEnvelope :=
  { envelope with
    events := envelope.events ++ [event]
    nextSequence := envelope.nextSequence + 1 }

/-! ## Seeding -/

structure SeedSnapshotInput where
  generatedAt : JsString
  testCases : List GeneratedTestCase
  policy : TestCasePolicyReport
  fourEyesPolicy : Option FourEyesPolicy
  visualReport : Option VisualSidecarValidationReport

/-- The `decisions` map of the report. -/
def policyDecisions (policy : TestCasePolicyReport) : List (JsString × TestCasePolicyDecision) :=
  policy.decisions.foldl (fun decisions record ↦
    mapSet decisions record.testCaseId record.decision) []

/-- The test cases with a violation of this outcome. -/
def escalatedCases (policy : TestCasePolicyReport) (outcome : TestCasePolicyOutcome) :
    List JsString :=
  (policy.decisions.filter (·.hasOutcome outcome)).map (·.testCaseId)

def seedDecision (policy : TestCasePolicyReport) (testCase : GeneratedTestCase) :
    TestCasePolicyDecision :=
  (mapGet (policyDecisions policy) testCase.id).getD .needsReview

/-- `sortedEnforcementReasons` of one test case. -/
def seedReasons (input : SeedSnapshotInput) (policy : TestCasePolicyReport)
    (testCase : GeneratedTestCase) : List FourEyesEnforcementReason :=
  let evaluated :=
    match input.fourEyesPolicy with
    | none => []
    | some fourEyesPolicy =>
        let reasons :=
          setOf (evaluateFourEyesEnforcement testCase fourEyesPolicy input.visualReport).reasons
        if testCase.id ∈ escalatedCases policy .customContextRiskEscalation ∧
            .regulatedData ∈ fourEyesPolicy.requiredRiskCategories then
          setAdd reasons .riskCategory
        else reasons
  sortOn (·.text)
    (if testCase.id ∈ escalatedCases policy .multiSourceConflictPresent then
      setAdd evaluated .multiSourceConflictPresent
    else evaluated)

def seedEvent (input : SeedSnapshotInput) (policy : TestCasePolicyReport) (eventId : JsString)
    (sequence : ℕ) (testCase : GeneratedTestCase) : ReviewEvent where
  id := eventId
  jobId := jobId
  testCaseId := some testCase.id
  kind := .generated
  eventAt := input.generatedAt
  actor := none
  note := none
  fromState := some .generated
  toState := some (seedReviewStateFromPolicy (seedDecision policy testCase))
  sequence := sequence
  metadata := some [(js "policyDecision", .str (seedDecision policy testCase).text)]

def seedEntry (input : SeedSnapshotInput) (policy : TestCasePolicyReport) (eventId : JsString)
    (testCase : GeneratedTestCase) : ReviewSnapshot where
  testCaseId := testCase.id
  state := seedReviewStateFromPolicy (seedDecision policy testCase)
  policyDecision := seedDecision policy testCase
  lastEventId := eventId
  lastEventAt := input.generatedAt
  fourEyesEnforced := seedReasons input policy testCase ≠ []
  approvers := []
  fourEyesReasons :=
    if seedReasons input policy testCase ≠ [] then some (seedReasons input policy testCase)
    else none
  primaryReviewer := none
  primaryApprovalAt := none
  secondaryReviewer := none
  secondaryApprovalAt := none
  lastEditor := none

/-- The loop over the test cases, with `sequence` as its counter. -/
def seedCases (input : SeedSnapshotInput) (policy : TestCasePolicyReport)
    (randomUUID : ℕ → JsString) : ℕ → List GeneratedTestCase →
      List ReviewEvent × List ReviewSnapshot
  | _, [] => ([], [])
  | sequence, testCase :: rest =>
      let eventId := randomUUID sequence
      let (events, entries) := seedCases input policy randomUUID (sequence + 1) rest
      (seedEvent jobId input policy eventId sequence testCase :: events,
        seedEntry input policy eventId testCase :: entries)

def seedSnapshot (surroundings : Surroundings) (input : SeedSnapshotInput) (files : JobFiles) :
    ReviewGateSnapshot × JobFiles :=
  match files.snapshot with
  | some existing => (existing, files)
  | none =>
      let policy := readConflictAwarePolicy surroundings input.policy
      let (events, perTestCase) :=
        seedCases jobId input policy surroundings.randomUUID 1 input.testCases
      let sortedEntries := sortSnapshotEntries localeCompare perTestCase
      let snapshot : ReviewGateSnapshot :=
        { jobId := jobId
          generatedAt := input.generatedAt
          perTestCase := sortedEntries
          counts := computeCounts sortedEntries
          fourEyesPolicy := input.fourEyesPolicy.map cloneFourEyesPolicy }
      let envelope : PersistedReviewEventsEnvelope :=
        { jobId := jobId
          events := events
          nextSequence := 1 + input.testCases.length }
      (snapshot, ⟨some envelope, some snapshot⟩)

/-! ## Refreshing policy decisions -/

structure RefreshPolicyDecisionsInput where
  eventAt : JsString
  policy : TestCasePolicyReport

inductive RefreshRefusalCode
  | snapshotMissing
  | policyReportJobMismatch
  | policyReportTestCaseMismatch
  deriving DecidableEq, Repr

inductive RefreshPolicyDecisionsResult
  | ok (snapshot : ReviewGateSnapshot) (changedCount : ℕ) (event : Option ReviewEvent)
  | refused (code : RefreshRefusalCode)

/-- The loop over the report's rows; a row for an unknown or repeated test case
stops it. -/
def collectDecisions (known : List JsString) :
    List TestCasePolicyDecisionRecord → List (JsString × TestCasePolicyDecision) →
      Option (List (JsString × TestCasePolicyDecision))
  | [], decisions => some decisions
  | record :: rest, decisions =>
      if record.testCaseId ∉ known ∨ (mapGet decisions record.testCaseId).isSome then none
      else collectDecisions known rest (mapSet decisions record.testCaseId record.decision)

/-- `nextEntry`: the new decision and the reasons without or with the conflict. -/
def reassess (escalated : List JsString) (nextDecision : TestCasePolicyDecision)
    (entry : ReviewSnapshot) : ReviewSnapshot :=
  let kept := setDelete (setOf (entry.fourEyesReasons.getD [])) .multiSourceConflictPresent
  let sortedReasons := sortOn (·.text)
    (if entry.testCaseId ∈ escalated then setAdd kept .multiSourceConflictPresent else kept)
  { entry with
    policyDecision := nextDecision
    fourEyesEnforced := sortedReasons ≠ []
    fourEyesReasons := if sortedReasons ≠ [] then some sortedReasons else none }

/-- The new entry, when the report has a row for it and it differs. -/
def changedEntry (decisions : List (JsString × TestCasePolicyDecision))
    (escalated : List JsString) (entry : ReviewSnapshot) : Option ReviewSnapshot :=
  match mapGet decisions entry.testCaseId with
  | none => none
  | some nextDecision =>
      if reviewSnapshotsEqual entry (reassess escalated nextDecision entry) then none
      else some (reassess escalated nextDecision entry)

def changedEntries (decisions : List (JsString × TestCasePolicyDecision))
    (escalated : List JsString) (entries : List ReviewSnapshot) : List ReviewSnapshot :=
  entries.filterMap (changedEntry decisions escalated)

/-- The approvals collected so far are dropped. -/
def discardApprovals (entry : ReviewSnapshot) : ReviewSnapshot :=
  { entry with
    approvers := []
    primaryReviewer := none
    primaryApprovalAt := none
    secondaryReviewer := none
    secondaryApprovalAt := none }

/-- The states from which a blocked decision sends an entry back to review. -/
def isReopenable (state : ReviewState) : Bool :=
  state = .approved || state = .pendingSecondaryApproval || state = .edited

def touchChanged (eventId eventAt : JsString) (changed : ReviewSnapshot) : ReviewSnapshot :=
  let next := { changed with lastEventId := eventId, lastEventAt := eventAt }
  if next.policyDecision = .blocked ∧ isReopenable next.state then
    discardApprovals { next with state := .needsReview }
  else next

def refreshEvent (eventId : JsString) (input : RefreshPolicyDecisionsInput)
    (policy : TestCasePolicyReport) (sequence changedCount : ℕ) : ReviewEvent where
  id := eventId
  jobId := jobId
  testCaseId := none
  kind := .note
  eventAt := input.eventAt
  actor := none
  note := some (js "Policy decisions refreshed from override-aware policy report.")
  fromState := none
  toState := none
  sequence := sequence
  metadata := some
    [(js "policyDecisionRefresh", .str (js "semantic_content_overrides")),
      (js "changedCount", .num (JsNumber.ofRat changedCount)),
      (js "policyProfileId", .str policy.policyProfileId),
      (js "policyProfileVersion", .str policy.policyProfileVersion)]

/-- `new Map(changedEntries.map(...))`. -/
def changedById (changed : List ReviewSnapshot) : List (JsString × ReviewSnapshot) :=
  changed.foldl (fun m entry ↦ mapSet m entry.testCaseId entry) []

def refreshEntries (eventId eventAt : JsString) (changed entries : List ReviewSnapshot) :
    List ReviewSnapshot :=
  entries.map fun entry ↦
    match mapGet (changedById changed) entry.testCaseId with
    | none => entry
    | some next => touchChanged eventId eventAt next

/-- The decisions of an accepted report. -/
def acceptedDecisions (policy : TestCasePolicyReport) (snapshot : ReviewGateSnapshot) :
    Except RefreshRefusalCode (List (JsString × TestCasePolicyDecision)) :=
  if policy.jobId ≠ jobId then .error .policyReportJobMismatch
  else if policy.totalTestCases ≠ snapshot.perTestCase.length then
    .error .policyReportTestCaseMismatch
  else
    match collectDecisions (snapshot.perTestCase.map (·.testCaseId)) policy.decisions [] with
    | none => .error .policyReportTestCaseMismatch
    | some decisions => .ok decisions

def refreshPolicyDecisions (surroundings : Surroundings) (input : RefreshPolicyDecisionsInput)
    (files : JobFiles) : Except StoreError (RefreshPolicyDecisionsResult × JobFiles) := do
  match ← readEnvelope jobId files, files.snapshot with
  | some envelope, some snapshot =>
      let policy := readConflictAwarePolicy surroundings input.policy
      match acceptedDecisions jobId policy snapshot with
      | .error code => .ok (.refused code, files)
      | .ok decisions =>
          let changed := changedEntries decisions
            (escalatedCases policy .multiSourceConflictPresent) snapshot.perTestCase
          if changed = [] then .ok (.ok snapshot 0 none, files)
          else
            let eventId := surroundings.randomUUID 0
            let event := refreshEvent jobId eventId input policy envelope.nextSequence
              changed.length
            let nextSnapshot := snapshot.withEntries localeCompare
              (refreshEntries eventId input.eventAt changed snapshot.perTestCase)
            .ok (.ok nextSnapshot changed.length (some event),
              ⟨some (envelope.append event), some nextSnapshot⟩)
  | _, _ => .ok (.refused .snapshotMissing, files)

/-! ## Recording transitions -/

structure RecordTransitionInput where
  testCaseId : Option JsString
  kind : ReviewEventKind
  eventAt : JsString
  actor : Option JsString
  note : Option JsString
  metadata : Option (List (JsString × Json))

inductive FourEyesRefusalCode
  | fourEyesActorRequired
  | selfApprovalRefused
  | duplicatePrincipalRefused
  | primaryApprovalRequired
  | fourEyesNotRequired
  deriving DecidableEq, Repr

inductive RecordRefusalCode
  | snapshotMissing
  | testCaseUnknown
  | testCaseIdRequired
  | noteTooLong
  | actorTooLong
  | kindUnknown
  | transition (code : ReviewTransitionRefusalCode)
  | fourEyes (code : FourEyesRefusalCode)
  deriving DecidableEq, Repr

inductive RecordTransitionResult
  | ok (event : ReviewEvent) (snapshot : ReviewGateSnapshot)
  | refused (code : RecordRefusalCode)

/-- `NOTE_MAX_LENGTH`, in UTF-16 code units. -/
def noteMaxLength : ℕ := 1024

/-- `ACTOR_MAX_LENGTH`, in UTF-16 code units. -/
def actorMaxLength : ℕ := 256

def resolveEventKind (inbound : ReviewEventKind) (entry : Option ReviewSnapshot) :
    ReviewEventKind :=
  match entry with
  | none => inbound
  | some entry =>
      if inbound ≠ .approved then inbound
      else if !entry.fourEyesEnforced then .approved
      else if entry.state = .needsReview ∨ entry.state = .edited ∨ entry.state = .generated then
        .primaryApproved
      else if entry.state = .pendingSecondaryApproval then .secondaryApproved
      else .approved

/-- `entry.approvers.includes(actor)`. -/
def approversInclude (entry : ReviewSnapshot) (actor : Option JsString) : Bool :=
  match actor with
  | none => false
  | some actor => entry.approvers.contains actor

/-- Whether a recorded principal is the one who acts. -/
def isSamePrincipal (recorded actor : Option JsString) : Bool :=
  recorded.isSome && recorded = actor

def applyFourEyesRefusals (actor : Option JsString) (resolvedKind : ReviewEventKind)
    (entry : Option ReviewSnapshot) : Option FourEyesRefusalCode :=
  match entry with
  | none => none
  | some entry =>
      let isFourEyesKind := resolvedKind = .primaryApproved ∨ resolvedKind = .secondaryApproved
      if isFourEyesKind ∧ !entry.fourEyesEnforced then some .fourEyesNotRequired
      else if isFourEyesKind ∧ (actor = none ∨ actor = some []) then some .fourEyesActorRequired
      else if resolvedKind = .primaryApproved then
        if isSamePrincipal entry.lastEditor actor then some .selfApprovalRefused
        else if approversInclude entry actor then some .duplicatePrincipalRefused
        else none
      else if resolvedKind = .secondaryApproved then
        if entry.state ≠ .pendingSecondaryApproval then some .primaryApprovalRequired
        else if isSamePrincipal entry.primaryReviewer actor then some .selfApprovalRefused
        else if approversInclude entry actor then some .duplicatePrincipalRefused
        else if isSamePrincipal entry.lastEditor actor then some .selfApprovalRefused
        else none
      else none

/-- The approver list after an approval by `actor`. -/
def nextApprovers (approvers : List JsString) (actor : Option JsString) (kind : ReviewEventKind) :
    List JsString :=
  match actor with
  | none => approvers
  | some actor =>
      if kind.isApproval ∧ actor ∉ approvers then sortStrings (approvers ++ [actor]) else approvers

def applyEntryEffects (entry : ReviewSnapshot) (toState : ReviewState)
    (eventId eventAt : JsString) (actor : Option JsString) (kind : ReviewEventKind) :
    ReviewSnapshot :=
  let updated :=
    { entry with
      state := toState
      lastEventId := eventId
      lastEventAt := eventAt
      approvers := nextApprovers entry.approvers actor kind }
  let updated :=
    if kind = .primaryApproved ∧ actor.isSome then
      { updated with primaryReviewer := actor, primaryApprovalAt := some eventAt }
    else updated
  let updated :=
    if kind = .secondaryApproved ∧ actor.isSome then
      { updated with secondaryReviewer := actor, secondaryApprovalAt := some eventAt }
    else updated
  let updated :=
    if kind = .edited then discardApprovals { updated with lastEditor := actor } else updated
  if kind = .reviewStarted ∧ isReopenable entry.state then discardApprovals updated else updated

def replaceEntry (testCaseId : JsString) (updated : ReviewSnapshot)
    (entries : List ReviewSnapshot) : List ReviewSnapshot :=
  entries.map fun entry ↦ if entry.testCaseId = testCaseId then updated else entry

/-- The entry a request is about; a job-level note is about none. -/
def locateEntry (input : RecordTransitionInput) (entries : List ReviewSnapshot) :
    Except RecordRefusalCode (Option ReviewSnapshot) :=
  match input.testCaseId with
  | none => if input.kind = .note then .ok none else .error .testCaseIdRequired
  | some testCaseId =>
      match entries.find? (·.testCaseId = testCaseId) with
      | none => .error .testCaseUnknown
      | some entry => .ok (some entry)

/-- The checks between locating the entry and writing: the resolved kind and the
states before and after. -/
def admitTransition (input : RecordTransitionInput) (entry : Option ReviewSnapshot) :
    Except RecordRefusalCode (ReviewEventKind × ReviewState × ReviewState) :=
  let fromState := (entry.map (·.state)).getD .generated
  let resolvedKind := resolveEventKind input.kind entry
  match applyFourEyesRefusals input.actor resolvedKind entry with
  | some code => .error (.fourEyes code)
  | none =>
      match transitionReviewState fromState resolvedKind (entry.map (·.policyDecision)) with
      | .error code => .error (.transition code)
      | .ok toState => .ok (resolvedKind, fromState, toState)

def recordEvent (eventId : JsString) (input : RecordTransitionInput) (kind : ReviewEventKind)
    (fromState toState : ReviewState) (sequence : ℕ) : ReviewEvent where
  id := eventId
  jobId := jobId
  testCaseId := input.testCaseId
  kind := kind
  eventAt := input.eventAt
  actor := input.actor
  note := input.note
  fromState := some fromState
  toState := some toState
  sequence := sequence
  metadata := input.metadata

/-- `nextEntries`: a note touches its entry, any other kind applies its effects. -/
def recordEntries (eventId : JsString) (input : RecordTransitionInput) (kind : ReviewEventKind)
    (toState : ReviewState) (entry : Option ReviewSnapshot) (entries : List ReviewSnapshot) :
    List ReviewSnapshot :=
  match entry with
  | none => entries
  | some entry =>
      if kind ≠ .note then
        replaceEntry entry.testCaseId
          (applyEntryEffects entry toState eventId input.eventAt input.actor kind) entries
      else
        replaceEntry entry.testCaseId
          { entry with lastEventId := eventId, lastEventAt := input.eventAt } entries

def recordTransition (surroundings : Surroundings) (input : RecordTransitionInput)
    (files : JobFiles) : Except StoreError (RecordTransitionResult × JobFiles) := do
  if noteMaxLength < (input.note.getD []).length then return (.refused .noteTooLong, files)
  if actorMaxLength < (input.actor.getD []).length then return (.refused .actorTooLong, files)
  if input.kind ∉ allowedReviewEventKinds then return (.refused .kindUnknown, files)
  match ← readEnvelope jobId files, files.snapshot with
  | some envelope, some snapshot =>
      match locateEntry input snapshot.perTestCase with
      | .error code => return (.refused code, files)
      | .ok entry =>
          match admitTransition input entry with
          | .error code => return (.refused code, files)
          | .ok (kind, fromState, toState) =>
              let eventId := surroundings.randomUUID 0
              let event := recordEvent jobId eventId input kind fromState toState
                envelope.nextSequence
              let nextSnapshot := snapshot.withEntries localeCompare
                (recordEntries eventId input kind toState entry snapshot.perTestCase)
              return (.ok event nextSnapshot, ⟨some (envelope.append event), some nextSnapshot⟩)
  | _, _ => return (.refused .snapshotMissing, files)

/-! ## Calls -/

inductive Call
  | seedSnapshot (surroundings : Surroundings) (input : SeedSnapshotInput)
  | recordTransition (surroundings : Surroundings) (input : RecordTransitionInput)
  | refreshPolicyDecisions (surroundings : Surroundings) (input : RefreshPolicyDecisionsInput)

/-- The files after a call; a call that throws leaves them alone. -/
def step (files : JobFiles) : Call → JobFiles
  | .seedSnapshot surroundings input =>
      (seedSnapshot localeCompare jobId surroundings input files).2
  | .recordTransition surroundings input =>
      match recordTransition localeCompare jobId surroundings input files with
      | .error _ => files
      | .ok (_, next) => next
  | .refreshPolicyDecisions surroundings input =>
      match refreshPolicyDecisions localeCompare jobId surroundings input files with
      | .error _ => files
      | .ok (_, next) => next

/-- Seeded lists have distinct test case ids. -/
def Call.HasDistinctIds : Call → Prop
  | .seedSnapshot _ input => (input.testCases.map (·.id)).Nodup
  | _ => True

end Calls

end TestIntelligence.ProductionRunner
