import TestIntelligence.Js.Sorting
import TestIntelligence.ProductionRunner.ReviewStoreSteps
import TestIntelligence.Systems.Runs

/-!
# Approvals in every reachable snapshot

The bookkeeping of approvals is kept by every call: an entry that is open for
review has no approvals, one that waits for its second approval has exactly the
first.  Two-principal safety of enforced entries is kept exactly by the calls that
do not enforce four eyes on an entry already approved without them.
-/

namespace TestIntelligence.ProductionRunner

open Js Review Systems

/-- Two different principals have approved, and neither made the last edit. -/
def TwoPrincipals (entry : ReviewSnapshot) : Prop :=
  ∃ primary secondary, entry.primaryReviewer = some primary ∧
    entry.secondaryReviewer = some secondary ∧ primary ≠ [] ∧ secondary ≠ [] ∧
    primary ≠ secondary ∧ primary ∈ entry.approvers ∧ secondary ∈ entry.approvers ∧
    entry.lastEditor ≠ some primary ∧ entry.lastEditor ≠ some secondary

/-- The states in which a case is open for review. -/
def isOpenState (state : ReviewState) : Bool :=
  state = .generated || state = .needsReview || state = .edited

/-- The approvals an entry carries are those of its current round. -/
structure Bookkept (entry : ReviewSnapshot) : Prop where
  opened : isOpenState entry.state = true →
    entry.approvers = [] ∧ entry.primaryReviewer = none ∧ entry.secondaryReviewer = none
  pending : entry.state = .pendingSecondaryApproval → ∃ primary, primary ≠ [] ∧
    entry.primaryReviewer = some primary ∧ entry.approvers = [primary] ∧
    entry.secondaryReviewer = none ∧ entry.lastEditor ≠ some primary
  approved : isApprovedState entry.state = true → entry.secondaryReviewer ≠ none →
    TwoPrincipals entry

/-! ## Entries -/

theorem bookkept_discardApprovals {entry : ReviewSnapshot}
    (h : entry.state ≠ .pendingSecondaryApproval) : Bookkept (discardApprovals entry) where
  opened _ := ⟨rfl, rfl, rfl⟩
  pending hpending := absurd hpending h
  approved _ hsecondary := absurd rfl hsecondary

theorem bookkept_seedEntry (input : SeedSnapshotInput) (policy : TestCasePolicyReport)
    (eventId : JsString) (testCase : GeneratedTestCase) :
    Bookkept (seedEntry input policy eventId testCase) where
  opened _ := ⟨rfl, rfl, rfl⟩
  pending hpending := by
    simp only [seedEntry, seedReviewStateFromPolicy] at hpending
    split at hpending <;> cases hpending
  approved _ hsecondary := absurd rfl hsecondary

theorem bookkept_reassess {entry : ReviewSnapshot} (h : Bookkept entry) (escalated : List JsString)
    (nextDecision : TestCasePolicyDecision) : Bookkept (reassess escalated nextDecision entry) :=
  ⟨h.opened, h.pending, h.approved⟩

theorem bookkept_touchChanged {changed : ReviewSnapshot} (h : Bookkept changed)
    (eventId eventAt : JsString) : Bookkept (touchChanged eventId eventAt changed) := by
  simp only [touchChanged]
  split
  · exact bookkept_discardApprovals (by simp)
  · exact ⟨h.opened, h.pending, h.approved⟩

theorem bookkept_refreshed {entry : ReviewSnapshot} (h : Bookkept entry)
    (eventId eventAt : JsString) (decisions : List (JsString × TestCasePolicyDecision))
    (escalated : List JsString) :
    Bookkept (refreshed eventId eventAt decisions escalated entry) := by
  unfold refreshed
  split
  · exact h
  · next next hnext =>
      obtain ⟨nextDecision, -, rfl, -⟩ := changedEntry_eq_some.mp hnext
      exact bookkept_touchChanged (bookkept_reassess h escalated nextDecision) eventId eventAt

/-- A first approval comes from a named principal who neither edited nor approved. -/
theorem primary_of_no_refusal {actor : Option JsString} {entry : ReviewSnapshot}
    (h : applyFourEyesRefusals actor .primaryApproved (some entry) = none) :
    ∃ principal, actor = some principal ∧ principal ≠ [] ∧ entry.lastEditor ≠ some principal ∧
      principal ∉ entry.approvers := by
  simp only [applyFourEyesRefusals, true_or, true_and, if_true] at h
  split_ifs at h with henforced hactor heditor hincluded
  push Not at hactor
  obtain ⟨principal, rfl⟩ := Option.ne_none_iff_exists'.mp hactor.1
  refine ⟨principal, rfl, fun hempty ↦ hactor.2 (by rw [hempty]), fun hsame ↦ heditor ?_,
    fun hmem ↦ hincluded ?_⟩
  · simp [isSamePrincipal, hsame]
  · simpa [approversInclude] using hmem

/-- A second approval comes from another named principal. -/
theorem secondary_of_no_refusal {actor : Option JsString} {entry : ReviewSnapshot}
    (h : applyFourEyesRefusals actor .secondaryApproved (some entry) = none) :
    ∃ principal, actor = some principal ∧ principal ≠ [] ∧ entry.lastEditor ≠ some principal ∧
      entry.primaryReviewer ≠ some principal ∧ principal ∉ entry.approvers := by
  simp only [applyFourEyesRefusals, or_true, true_and, reduceCtorEq, if_false, if_true] at h
  split_ifs at h with henforced hactor hstate hprimary hincluded heditor
  push Not at hactor
  obtain ⟨principal, rfl⟩ := Option.ne_none_iff_exists'.mp hactor.1
  refine ⟨principal, rfl, fun hempty ↦ hactor.2 (by rw [hempty]), fun hsame ↦ heditor ?_,
    fun hsame ↦ hprimary ?_, fun hmem ↦ hincluded ?_⟩
  · simp [isSamePrincipal, hsame]
  · simp [isSamePrincipal, hsame]
  · simpa [approversInclude] using hmem

theorem bookkept_primaryApproved {entry : ReviewSnapshot} {actor : Option JsString}
    (h : Bookkept entry) (hopen : isOpenState entry.state = true)
    (hrefusal : applyFourEyesRefusals actor .primaryApproved (some entry) = none)
    (eventId eventAt : JsString) :
    Bookkept (applyEntryEffects entry .pendingSecondaryApproval eventId eventAt actor
      .primaryApproved) := by
  obtain ⟨principal, rfl, hnonempty, heditor, -⟩ := primary_of_no_refusal hrefusal
  obtain ⟨happrovers, -, hsecondary⟩ := h.opened hopen
  refine ⟨nofun, fun _ ↦ ⟨principal, hnonempty, rfl, ?_, hsecondary, heditor⟩, nofun⟩
  simp [applyEntryEffects, nextApprovers, happrovers, ReviewEventKind.isApproval]

theorem bookkept_secondaryApproved {entry : ReviewSnapshot} {actor : Option JsString}
    (h : Bookkept entry) (hpending : entry.state = .pendingSecondaryApproval)
    (hrefusal : applyFourEyesRefusals actor .secondaryApproved (some entry) = none)
    (eventId eventAt : JsString) :
    Bookkept (applyEntryEffects entry .approved eventId eventAt actor .secondaryApproved) := by
  obtain ⟨principal, rfl, hnonempty, heditor, hdistinct, hnew⟩ := secondary_of_no_refusal hrefusal
  obtain ⟨primary, hprimary, hreviewer, happrovers, -, hprimaryEditor⟩ := h.pending hpending
  have hne : primary ≠ principal := fun heq ↦ hdistinct (heq ▸ hreviewer)
  have hnext : nextApprovers entry.approvers (some principal) .secondaryApproved =
      sortStrings [primary, principal] := by
    simp only [nextApprovers, happrovers, ReviewEventKind.isApproval]
    rw [if_pos ⟨by decide, by simpa using Ne.symm hne⟩]
    rfl
  refine ⟨nofun, nofun, fun _ _ ↦ ⟨primary, principal, hreviewer, rfl, hprimary, hnonempty, hne,
    ?_, ?_, hprimaryEditor, heditor⟩⟩
  · change primary ∈ nextApprovers entry.approvers (some principal) .secondaryApproved
    simp [hnext]
  · change principal ∈ nextApprovers entry.approvers (some principal) .secondaryApproved
    simp [hnext]

theorem bookkept_reviewStarted {entry : ReviewSnapshot} (h : Bookkept entry)
    {toState : ReviewState} (htable : transitions .reviewStarted entry.state = some toState)
    (eventId eventAt : JsString) (actor : Option JsString) :
    Bookkept (applyEntryEffects entry toState eventId eventAt actor .reviewStarted) := by
  have htarget : toState = .needsReview := by
    cases hstate : entry.state <;> simp_all [transitions]
  subst htarget
  by_cases hreopen : isReopenable entry.state = true
  · simp only [applyEntryEffects, reduceCtorEq, false_and, if_false, hreopen, and_self, if_true]
    exact bookkept_discardApprovals (by simp)
  · have hopen : isOpenState entry.state = true := by
      cases hstate : entry.state <;> simp_all [transitions, isReopenable, isOpenState]
    obtain ⟨happrovers, hprimary, hsecondary⟩ := h.opened hopen
    have hnext : nextApprovers entry.approvers actor .reviewStarted = [] := by
      rw [happrovers]
      cases actor <;> rfl
    simp only [applyEntryEffects, reduceCtorEq, false_and, if_false, hreopen, and_false, hnext]
    exact ⟨fun _ ↦ ⟨rfl, hprimary, hsecondary⟩, fun hstate ↦ (by cases hstate),
      fun hstate ↦ absurd hstate Bool.false_ne_true⟩

theorem bookkept_approved {entry : ReviewSnapshot} (h : Bookkept entry)
    (hopen : isOpenState entry.state = true) (eventId eventAt : JsString)
    (actor : Option JsString) :
    Bookkept (applyEntryEffects entry .approved eventId eventAt actor .approved) := by
  obtain ⟨-, -, hsecondary⟩ := h.opened hopen
  exact ⟨nofun, nofun, fun _ hset ↦ absurd hsecondary hset⟩

/-- Every admitted kind keeps the bookkeeping of the entry it is about. -/
theorem bookkept_rejected {entry : ReviewSnapshot} (h : entry.state = .rejected) :
    Bookkept entry where
  opened hopen := by
    rw [h] at hopen
    cases hopen
  pending hpending := by
    rw [h] at hpending
    cases hpending
  approved happroved := by
    rw [h] at happroved
    cases happroved

theorem bookkept_applyEntryEffects {entry : ReviewSnapshot} {actor : Option JsString}
    {kind : ReviewEventKind} {toState : ReviewState} (h : Bookkept entry)
    (hrefusal : applyFourEyesRefusals actor kind (some entry) = none)
    (htable : transitions kind entry.state = some toState) (hnote : kind ≠ .note)
    (eventId eventAt : JsString) :
    Bookkept (applyEntryEffects entry toState eventId eventAt actor kind) := by
  have hnext : kind.isApproval = false → nextApprovers entry.approvers actor kind = entry.approvers := by
    intro hkind
    cases actor <;> simp [nextApprovers, hkind]
  cases kind with
  | generated =>
      cases hstate : entry.state <;> rw [hstate] at htable <;> cases htable
      simp only [applyEntryEffects, reduceCtorEq, false_and, if_false, hnext rfl]
      exact ⟨fun _ ↦ h.opened (by rw [hstate]; rfl), fun hstate ↦ (by cases hstate),
        fun hstate ↦ absurd hstate Bool.false_ne_true⟩
  | reviewStarted => exact bookkept_reviewStarted h htable eventId eventAt actor
  | approved =>
      cases hstate : entry.state <;> rw [hstate] at htable <;> cases htable <;>
        exact bookkept_approved h (by rw [hstate]; rfl) eventId eventAt actor
  | primaryApproved =>
      cases hstate : entry.state <;> rw [hstate] at htable <;> cases htable <;>
        exact bookkept_primaryApproved h (by rw [hstate]; rfl) hrefusal eventId eventAt
  | secondaryApproved =>
      cases hstate : entry.state <;> rw [hstate] at htable <;> cases htable
      exact bookkept_secondaryApproved h hstate hrefusal eventId eventAt
  | rejected =>
      cases hstate : entry.state <;> rw [hstate] at htable <;> cases htable <;>
        exact bookkept_rejected rfl
  | edited =>
      have htarget : toState ≠ .pendingSecondaryApproval := by
        cases hstate : entry.state <;> rw [hstate] at htable <;> cases htable <;> simp
      simp only [applyEntryEffects, reduceCtorEq, false_and, if_false, if_true]
      exact bookkept_discardApprovals htarget
  | exported =>
      cases hstate : entry.state <;> rw [hstate] at htable <;> cases htable
      simp only [applyEntryEffects, reduceCtorEq, false_and, if_false, hnext rfl]
      exact ⟨fun hstate ↦ absurd hstate Bool.false_ne_true, fun hstate ↦ (by cases hstate),
        fun _ ↦ h.approved (by rw [hstate]; rfl)⟩
  | transferred =>
      cases hstate : entry.state <;> rw [hstate] at htable <;> cases htable
      simp only [applyEntryEffects, reduceCtorEq, false_and, if_false, hnext rfl]
      exact ⟨fun hstate ↦ absurd hstate Bool.false_ne_true, fun hstate ↦ (by cases hstate),
        fun _ ↦ h.approved (by rw [hstate]; rfl)⟩
  | note => exact absurd rfl hnote

theorem bookkept_recorded {entry : ReviewSnapshot} (h : Bookkept entry)
    {input : RecordTransitionInput} {kind : ReviewEventKind} {toState : ReviewState}
    (hadmitted : admitTransition input (some entry) = .ok (kind, entry.state, toState))
    (eventId : JsString) : Bookkept (recorded eventId input kind toState entry) := by
  obtain ⟨-, -, hrefusal, htransition⟩ := admitTransition_ok hadmitted
  unfold recorded
  split
  · next hnote =>
      exact bookkept_applyEntryEffects h hrefusal (transitionReviewState_ok htransition).1 hnote
        eventId input.eventAt
  · exact ⟨h.opened, h.pending, h.approved⟩

/-- Enforcement is recorded together with its reasons. -/
def ReasonsRecorded (entry : ReviewSnapshot) : Prop :=
  entry.fourEyesEnforced = true ↔ entry.fourEyesReasons.getD [] ≠ []

theorem reasonsRecorded_seedEntry (input : SeedSnapshotInput) (policy : TestCasePolicyReport)
    (eventId : JsString) (testCase : GeneratedTestCase) :
    ReasonsRecorded (seedEntry input policy eventId testCase) := by
  by_cases h : seedReasons input policy testCase = [] <;> simp [ReasonsRecorded, seedEntry, h]

theorem reasonsRecorded_reassess (escalated : List JsString)
    (nextDecision : TestCasePolicyDecision) (entry : ReviewSnapshot) :
    ReasonsRecorded (reassess escalated nextDecision entry) := by
  simp only [ReasonsRecorded, reassess, decide_eq_true_eq]
  split_ifs <;> simp_all

theorem reasonsRecorded_refreshed {entry : ReviewSnapshot} (h : ReasonsRecorded entry)
    (eventId eventAt : JsString) (decisions : List (JsString × TestCasePolicyDecision))
    (escalated : List JsString) :
    ReasonsRecorded (refreshed eventId eventAt decisions escalated entry) := by
  unfold refreshed
  split
  · exact h
  · next next hnext =>
      obtain ⟨nextDecision, -, rfl, -⟩ := changedEntry_eq_some.mp hnext
      have hreassess := reasonsRecorded_reassess escalated nextDecision entry
      simp only [touchChanged]
      split <;> exact hreassess

/-- A recorded event does not touch enforcement. -/
theorem enforcement_recorded (eventId : JsString) (input : RecordTransitionInput)
    (kind : ReviewEventKind) (toState : ReviewState) (entry : ReviewSnapshot) :
    (recorded eventId input kind toState entry).fourEyesEnforced = entry.fourEyesEnforced ∧
      (recorded eventId input kind toState entry).fourEyesReasons = entry.fourEyesReasons := by
  cases kind <;> simp only [recorded, applyEntryEffects, discardApprovals, ne_eq, reduceCtorEq,
    not_true_eq_false, not_false_eq_true, false_and, true_and, if_true, if_false] <;>
    split_ifs <;> exact ⟨rfl, rfl⟩

theorem reasonsRecorded_recorded {entry : ReviewSnapshot} (h : ReasonsRecorded entry)
    (eventId : JsString) (input : RecordTransitionInput) (kind : ReviewEventKind)
    (toState : ReviewState) : ReasonsRecorded (recorded eventId input kind toState entry) := by
  obtain ⟨henforced, hreasons⟩ := enforcement_recorded eventId input kind toState entry
  unfold ReasonsRecorded
  rw [henforced, hreasons]
  exact h

/-! ## Files -/

variable {localeCompare : JsString → JsString → ℤ} {jobId : JsString}

/-- Every entry of the snapshot, if there is one. -/
def Entries (P : ReviewSnapshot → Prop) (files : JobFiles) : Prop :=
  ∀ snapshot, files.snapshot = some snapshot → ∀ entry ∈ snapshot.perTestCase, P entry

/-- What an entry keeps through every call. -/
def Tracked (entry : ReviewSnapshot) : Prop := Bookkept entry ∧ ReasonsRecorded entry

/-- Well-formed files with tracked entries. -/
def Kept (jobId : JsString) (files : JobFiles) : Prop :=
  WellFormed jobId files ∧ Entries Tracked files

theorem mem_replaceEntry {testCaseId : JsString} {updated entry : ReviewSnapshot}
    {entries : List ReviewSnapshot} (h : entry ∈ replaceEntry testCaseId updated entries) :
    entry = updated ∨ entry ∈ entries := by
  obtain ⟨original, horiginal, rfl⟩ := List.mem_map.mp h
  split
  · exact .inl rfl
  · exact .inr horiginal

theorem entries_seededFiles {P : ReviewSnapshot → Prop} {surroundings : Surroundings}
    {input : SeedSnapshotInput} :
    Entries P (seededFiles localeCompare jobId surroundings input) ↔
      ∀ entry ∈ (seedCases jobId input (readConflictAwarePolicy surroundings input.policy)
        surroundings.randomUUID 1 input.testCases).2, P entry := by
  obtain ⟨envelope, snapshot, hseeded, -, -, -, hentries⟩ :=
    @seededFiles_eq localeCompare jobId surroundings input
  rw [hseeded]
  constructor
  · intro h entry hentry
    exact h snapshot rfl entry (hentries.mem_iff.mpr hentry)
  · rintro h _ ⟨⟩ entry hentry
    exact h entry (hentries.mem_iff.mp hentry)

theorem tracked_effect {files next : JobFiles} {call : Call} (hfiles : Entries Tracked files)
    (h : Effect localeCompare jobId files call next) : Entries Tracked next := by
  cases h with
  | seeded _ =>
      refine entries_seededFiles.mpr fun entry hentry ↦ ?_
      obtain ⟨testCase, -, eventId, rfl⟩ := mem_seedCases_entries hentry
      exact ⟨bookkept_seedEntry _ _ eventId testCase, reasonsRecorded_seedEntry _ _ eventId testCase⟩
  | seededBefore _ => exact hfiles
  | refreshRefused _ => exact hfiles
  | refreshIdle _ _ _ => exact hfiles
  | recordRefused => exact hfiles
  | refreshed hstate _ _ _ =>
      subst hstate
      rintro _ ⟨⟩ entry hentry
      obtain ⟨original, horiginal, rfl⟩ := List.mem_map.mp (mem_withEntries.mp hentry)
      obtain ⟨hbookkept, hreasons⟩ := hfiles _ rfl original horiginal
      exact ⟨bookkept_refreshed hbookkept _ _ _ _, reasonsRecorded_refreshed hreasons _ _ _ _⟩
  | noted hstate _ _ =>
      subst hstate
      rintro _ ⟨⟩ entry hentry
      exact hfiles _ rfl entry (mem_withEntries.mp hentry)
  | recorded hstate hentry _ hadmitted =>
      subst hstate
      rintro _ ⟨⟩ entry' hentry'
      rcases mem_replaceEntry (mem_withEntries.mp hentry') with rfl | hold
      · obtain ⟨hbookkept, hreasons⟩ := hfiles _ rfl _ hentry
        exact ⟨bookkept_recorded hbookkept hadmitted _, reasonsRecorded_recorded hreasons _ _ _ _⟩
      · exact hfiles _ rfl entry' hold

theorem kept_empty : Kept jobId .empty := ⟨.inl rfl, nofun⟩

theorem kept_step {files : JobFiles} {call : Call} (hcall : call.HasDistinctIds)
    (hfiles : Kept jobId files) : Kept jobId (step localeCompare jobId files call) :=
  ⟨wellFormed_effect hfiles.1 hcall (step_effect hfiles.1 call),
    tracked_effect hfiles.2 (step_effect hfiles.1 call)⟩

theorem kept_run {calls : List Call} (hcalls : ∀ call ∈ calls, call.HasDistinctIds) :
    Kept jobId (run (step localeCompare jobId) .empty calls) :=
  run_induction (fun _ _ ↦ kept_step) kept_empty hcalls

theorem isApproval_resolveEventKind (inbound : ReviewEventKind) (located : Option ReviewSnapshot) :
    (resolveEventKind inbound located).isApproval = inbound.isApproval := by
  cases located with
  | none => rfl
  | some entry =>
      by_cases hinbound : inbound = .approved
      · subst hinbound
        simp only [resolveEventKind, ne_eq, not_true_eq_false, if_false]
        split_ifs <;> rfl
      · simp [resolveEventKind, hinbound]

/-- A successful approval is never about a blocked entry. -/
theorem not_blocked_of_recordTransition {surroundings : Surroundings}
    {input : RecordTransitionInput} {files next : JobFiles} {event : ReviewEvent}
    {snapshot snapshot' : ReviewGateSnapshot} (hfiles : WellFormed jobId files)
    (hsnapshot : files.snapshot = some snapshot)
    (h : recordTransition localeCompare jobId surroundings input files =
      .ok (.ok event snapshot', next))
    (happroval : input.kind.isApproval = true ∨ event.kind.isApproval = true)
    {entry : ReviewSnapshot} (hentry : entry ∈ snapshot.perTestCase)
    (hid : input.testCaseId = some entry.testCaseId) : entry.policyDecision ≠ .blocked := by
  rcases recordTransition_cases h with ⟨-, code, hcode⟩ |
    ⟨envelope, stored, located, kind, fromState, toState, rfl, hlocated, hadmitted, -, hresult⟩
  · cases hcode
  cases hsnapshot
  cases hresult
  obtain ⟨rfl, -, -, htransition⟩ := admitTransition_ok hadmitted
  have hkind : (resolveEventKind input.kind located).isApproval = true := by
    rcases happroval with hinbound | hevent
    · rwa [isApproval_resolveEventKind]
    · exact hevent
  rcases locateEntry_ok hlocated with ⟨-, hnone, -⟩ | ⟨entry', hentry', rfl, hid'⟩
  · cases hnone.symm.trans hid
  · have hids : (snapshot.perTestCase.map (·.testCaseId)).Nodup := by
      rcases hfiles with hempty | ⟨_, _, hsame, -, hids⟩
      · cases hempty
      · cases hsame
        exact hids
    have hsame : entry = entry' :=
      List.inj_on_of_nodup_map hids hentry hentry' (Option.some.inj (hid.symm.trans hid'))
    subst hsame
    intro hblocked
    exact (transitionReviewState_ok htransition).2 hkind (by simp [hblocked])

/-! ## A job with one test case -/

def quietSurroundings : Surroundings where
  randomUUID n := js "event-" ++ numberText (JsNumber.ofRat n)
  resolvedConflictIds := none

/-- A report with one row, for the test case `tc-1` of `job-1`. -/
def oneCaseReport (decision : TestCasePolicyDecision)
    (violations : List TestCasePolicyViolation) : TestCasePolicyReport where
  jobId := js "job-1"
  policyProfileId := js "profile"
  policyProfileVersion := js "1"
  totalTestCases := 1
  approvedCount := if decision = .approved then 1 else 0
  blockedCount := if decision = .blocked then 1 else 0
  needsReviewCount := if decision = .needsReview then 1 else 0
  blocked := decision = .blocked
  decisions := [⟨js "tc-1", decision, violations⟩]
  jobLevelViolations := []

def oneCaseSeed (riskCategory : TestCaseRiskCategory) (decision : TestCasePolicyDecision) : Call :=
  .seedSnapshot quietSurroundings
    { generatedAt := js "t0"
      testCases := [⟨js "tc-1", riskCategory, []⟩]
      policy := oneCaseReport decision []
      fourEyesPolicy := some euBankingDefaultFourEyesPolicy
      visualReport := none }

def oneCaseRecord (kind : ReviewEventKind) (actor : JsString) : Call :=
  .recordTransition quietSurroundings
    { testCaseId := some (js "tc-1")
      kind := kind
      eventAt := js "t1"
      actor := some actor
      note := none
      metadata := none }

def oneCaseRefresh (decision : TestCasePolicyDecision)
    (violations : List TestCasePolicyViolation) : Call :=
  .refreshPolicyDecisions quietSurroundings ⟨js "t2", oneCaseReport decision violations⟩

def conflictViolation : TestCasePolicyViolation where
  rule := js "policy:multi-source"
  outcome := .multiSourceConflictPresent
  severity := .warning
  reason := js "multi-source conflict(s) c-1 affect this case"
  path := none

/-- Whether some entry of the snapshot passes the test. -/
def JobFiles.anyEntry (files : JobFiles) (test : ReviewSnapshot → Bool) : Bool :=
  files.snapshot.any fun snapshot ↦ snapshot.perTestCase.any test

theorem anyEntry_iff {files : JobFiles} {test : ReviewSnapshot → Bool} :
    files.anyEntry test = true ↔
      ∃ snapshot, files.snapshot = some snapshot ∧
        ∃ entry ∈ snapshot.perTestCase, test entry = true := by
  unfold JobFiles.anyEntry
  cases files.snapshot <;> simp

/-! ## Bookkeeping along runs -/

/-- In every reachable snapshot, open entries carry no approvals and a pending one
carries exactly its first; and no approval succeeds on a blocked entry. -/
theorem approvals_bookkept (localeCompare : JsString → JsString → ℤ) (jobId : JsString)
    (calls : List Call) (hcalls : ∀ call ∈ calls, call.HasDistinctIds) :
    ∀ snapshot, (run (step localeCompare jobId) .empty calls).snapshot = some snapshot →
      (∀ entry ∈ snapshot.perTestCase,
        (entry.state = .generated ∨ entry.state = .needsReview ∨ entry.state = .edited →
          entry.approvers = [] ∧ entry.primaryReviewer = none ∧ entry.secondaryReviewer = none) ∧
        (entry.state = .pendingSecondaryApproval → ∃ primary,
          entry.primaryReviewer = some primary ∧ entry.approvers = [primary] ∧
            entry.secondaryReviewer = none)) ∧
      ∀ surroundings input event snapshot' next,
        recordTransition localeCompare jobId surroundings input
          (run (step localeCompare jobId) .empty calls) = .ok (.ok event snapshot', next) →
        input.kind.isApproval = true ∨ event.kind.isApproval = true →
        ∀ entry ∈ snapshot.perTestCase, input.testCaseId = some entry.testCaseId →
          entry.policyDecision ≠ .blocked := by
  intro snapshot hsnapshot
  have hkept := @kept_run localeCompare jobId calls hcalls
  refine ⟨fun entry hentry ↦ ?_, ?_⟩
  · have hbookkept := (hkept.2 snapshot hsnapshot entry hentry).1
    refine ⟨fun hstate ↦ hbookkept.opened ?_, fun hstate ↦ ?_⟩
    · rcases hstate with hstate | hstate | hstate <;> rw [hstate] <;> rfl
    · obtain ⟨primary, -, hreviewer, happrovers, hsecondary, -⟩ := hbookkept.pending hstate
      exact ⟨primary, hreviewer, happrovers, hsecondary⟩
  · intro surroundings input event snapshot' next hrecord happroval entry hentry hid
    exact not_blocked_of_recordTransition hkept.1 hsnapshot hrecord happroval hentry hid

theorem approvals_bookkept_pending :
    let calls := [oneCaseSeed .high .needsReview, oneCaseRecord .approved (js "alice")]
    let files := run (step codeUnitCompare (js "job-1")) .empty calls
    files.anyEntry (·.state = .pendingSecondaryApproval) = true ∧
      ∀ snapshot, files.snapshot = some snapshot → ∀ entry ∈ snapshot.perTestCase,
        entry.state = .pendingSecondaryApproval → ∃ primary,
          entry.primaryReviewer = some primary ∧ entry.approvers = [primary] ∧
            entry.secondaryReviewer = none := by
  intro calls files
  have hcalls : ∀ call ∈ calls, call.HasDistinctIds := by
    simp [calls, oneCaseSeed, oneCaseRecord, Call.HasDistinctIds]
  refine ⟨by decide, fun snapshot hsnapshot entry hentry hpending ↦ ?_⟩
  exact ((approvals_bookkept codeUnitCompare (js "job-1") calls hcalls snapshot hsnapshot).1
    entry hentry).2 hpending

/-! ## Two principals -/

/-- An enforced entry that counts as approved has its two principals. -/
def SafeEntry (entry : ReviewSnapshot) : Prop :=
  entry.fourEyesEnforced = true → isApprovedState entry.state = true → TwoPrincipals entry

def FourEyesSafe (files : JobFiles) : Prop := Entries SafeEntry files

/-- The call enforces four eyes on no entry that is approved without them: a seed
approves no enforced case, and a refresh reports no conflict for an entry that has
been approved without a second reviewer, unless it also blocks and reopens it. -/
def EnforcesInTime (jobId : JsString) (files : JobFiles) : Call → Prop
  | .seedSnapshot surroundings input =>
      files.snapshot = none → ∀ testCase ∈ input.testCases,
        seedDecision (readConflictAwarePolicy surroundings input.policy) testCase = .approved →
        seedReasons input (readConflictAwarePolicy surroundings input.policy) testCase = []
  | .recordTransition _ _ => True
  | .refreshPolicyDecisions surroundings input =>
      ∀ envelope snapshot decisions, files = ⟨some envelope, some snapshot⟩ →
        acceptedDecisions jobId (readConflictAwarePolicy surroundings input.policy) snapshot =
          .ok decisions →
        ∀ entry ∈ snapshot.perTestCase, ∀ nextDecision,
          mapGet decisions entry.testCaseId = some nextDecision →
          entry.testCaseId ∈ escalatedCases
            (readConflictAwarePolicy surroundings input.policy) .multiSourceConflictPresent →
          isApprovedState entry.state = true → entry.secondaryReviewer = none →
          entry.state = .approved ∧ nextDecision = .blocked

theorem mem_seedCases_of_mem {input : SeedSnapshotInput} {policy : TestCasePolicyReport}
    {randomUUID : ℕ → JsString} {sequence : ℕ} {testCases : List GeneratedTestCase}
    {testCase : GeneratedTestCase} (h : testCase ∈ testCases) :
    ∃ eventId, seedEntry input policy eventId testCase ∈
      (seedCases jobId input policy randomUUID sequence testCases).2 := by
  induction testCases generalizing sequence with
  | nil => simp at h
  | cons testCase' rest ih =>
      rcases List.mem_cons.mp h with rfl | h
      · exact ⟨_, List.mem_cons_self⟩
      · obtain ⟨eventId, hmem⟩ := @ih (sequence + 1) h
        exact ⟨eventId, List.mem_cons_of_mem _ hmem⟩

theorem not_twoPrincipals_of_no_secondary {entry : ReviewSnapshot}
    (h : entry.secondaryReviewer = none) : ¬ TwoPrincipals entry := by
  rintro ⟨primary, secondary, -, hsecondary, -⟩
  cases h.symm.trans hsecondary

/-- A seeded entry is safe exactly when it is not both approved and enforced. -/
theorem safeEntry_seedEntry {input : SeedSnapshotInput} {policy : TestCasePolicyReport}
    {eventId : JsString} {testCase : GeneratedTestCase} :
    SafeEntry (seedEntry input policy eventId testCase) ↔
      (seedDecision policy testCase = .approved → seedReasons input policy testCase = []) := by
  have hstate : isApprovedState (seedEntry input policy eventId testCase).state = true ↔
      seedDecision policy testCase = .approved := by
    simp only [seedEntry, seedReviewStateFromPolicy]
    split_ifs with h <;> simp [isApprovedState, h]
  have henforced : (seedEntry input policy eventId testCase).fourEyesEnforced = true ↔
      seedReasons input policy testCase ≠ [] := by
    simp [seedEntry]
  have hnot := not_twoPrincipals_of_no_secondary
    (show (seedEntry input policy eventId testCase).secondaryReviewer = none from rfl)
  unfold SafeEntry
  rw [hstate, henforced]
  tauto

/-- A reported conflict enforces four eyes. -/
theorem enforced_reassess {escalated : List JsString} {entry : ReviewSnapshot}
    (h : entry.testCaseId ∈ escalated) (nextDecision : TestCasePolicyDecision) :
    (reassess escalated nextDecision entry).fourEyesEnforced = true := by
  simp only [reassess, if_pos h, decide_eq_true_eq]
  refine List.ne_nil_of_mem (a := .multiSourceConflictPresent) ?_
  simp

/-- Without a reported conflict a refresh enforces nothing new. -/
theorem enforced_of_reassess {escalated : List JsString} {entry : ReviewSnapshot}
    (hreasons : ReasonsRecorded entry) (h : entry.testCaseId ∉ escalated) (nextDecision : TestCasePolicyDecision)
    (henforced : (reassess escalated nextDecision entry).fourEyesEnforced = true) :
    entry.fourEyesEnforced = true := by
  simp only [reassess, if_neg h, decide_eq_true_eq] at henforced
  obtain ⟨reason, hreason⟩ := List.exists_mem_of_ne_nil _ henforced
  refine hreasons.mpr (List.ne_nil_of_mem (a := reason) ?_)
  simp only [mem_sortOn, mem_setDelete, mem_setOf] at hreason
  exact hreason.1

theorem refreshed_of_idle {eventId eventAt : JsString}
    {decisions : List (JsString × TestCasePolicyDecision)} {escalated : List JsString}
    {entry : ReviewSnapshot} (h : changedEntry decisions escalated entry = none) :
    refreshed eventId eventAt decisions escalated entry = entry := by
  unfold refreshed
  rw [h]

/-- A refreshed entry is safe exactly when no conflict is reported for an entry
approved without a second reviewer, other than to reopen it. -/
theorem safeEntry_refreshed_iff {entry : ReviewSnapshot} (htracked : Tracked entry)
    (hsafe : SafeEntry entry) {eventId eventAt : JsString}
    {decisions : List (JsString × TestCasePolicyDecision)} {escalated : List JsString} :
    SafeEntry (refreshed eventId eventAt decisions escalated entry) ↔
      ∀ nextDecision, mapGet decisions entry.testCaseId = some nextDecision →
        entry.testCaseId ∈ escalated → isApprovedState entry.state = true →
        entry.secondaryReviewer = none → entry.state = .approved ∧ nextDecision = .blocked := by
  obtain ⟨hbookkept, hreasons⟩ := htracked
  unfold refreshed
  split
  · next hidle =>
      refine iff_of_true hsafe fun nextDecision hdecision hescalated hstate hsecondary ↦ ?_
      have hsame : entry = reassess escalated nextDecision entry := by
        by_contra hne
        cases hidle.symm.trans (changedEntry_eq_some.mpr ⟨nextDecision, hdecision, rfl, hne⟩)
      have henforced : entry.fourEyesEnforced = true :=
        hsame ▸ enforced_reassess hescalated nextDecision
      exact absurd (hsafe henforced hstate) (not_twoPrincipals_of_no_secondary hsecondary)
  · next next hnext =>
      obtain ⟨nextDecision, hdecision, rfl, -⟩ := changedEntry_eq_some.mp hnext
      simp only [hdecision, Option.some.injEq, forall_eq', touchChanged]
      split
      · next hreopened =>
          refine iff_of_true (fun _ hstate ↦ absurd hstate Bool.false_ne_true) fun _ hstate _ ↦ ⟨?_, hreopened.1⟩
          have hreopenable : isReopenable entry.state = true := hreopened.2
          revert hstate hreopenable
          cases entry.state <;> decide
      · next hkept =>
          constructor
          · intro h hescalated hstate hsecondary
            exact absurd (h (enforced_reassess hescalated nextDecision) hstate)
              (not_twoPrincipals_of_no_secondary hsecondary)
          · intro h henforced hstate
            by_cases hescalated : entry.testCaseId ∈ escalated
            · refine hbookkept.approved hstate fun hsecondary ↦ hkept ?_
              obtain ⟨happroved, hblocked⟩ := h hescalated hstate hsecondary
              refine ⟨hblocked, ?_⟩
              change isReopenable entry.state = true
              rw [happroved]
              rfl
            · exact hsafe (enforced_of_reassess hreasons hescalated nextDecision henforced) hstate

theorem state_recorded (eventId : JsString) (input : RecordTransitionInput)
    {kind : ReviewEventKind} {toState : ReviewState} {entry : ReviewSnapshot}
    (htable : transitions kind entry.state = some toState) :
    (recorded eventId input kind toState entry).state = toState := by
  by_cases hnote : kind = .note
  · subst hnote
    rw [transitions_note] at htable
    simpa [recorded] using htable
  · cases kind <;> simp only [recorded, applyEntryEffects, discardApprovals, ne_eq, reduceCtorEq,
      not_true_eq_false, not_false_eq_true, false_and, true_and, if_true, if_false] at hnote ⊢ <;>
      split_ifs <;> rfl

/-- An enforced entry that is open is never approved in one step. -/
theorem resolveEventKind_ne_approved {inbound : ReviewEventKind} {entry : ReviewSnapshot}
    (henforced : entry.fourEyesEnforced = true) (hopen : isOpenState entry.state = true) :
    resolveEventKind inbound (some entry) ≠ .approved := by
  have hstate : entry.state = .needsReview ∨ entry.state = .edited ∨ entry.state = .generated := by
    revert hopen
    cases entry.state <;> decide
  by_cases hinbound : inbound = .approved
  · simp [resolveEventKind, hinbound, henforced, hstate]
  · simp [resolveEventKind, hinbound]

/-- A recorded event keeps an entry safe: an enforced entry becomes approved only
through its second approval. -/
theorem safeEntry_recorded {entry : ReviewSnapshot} (hbookkept : Bookkept entry)
    (hsafe : SafeEntry entry) {input : RecordTransitionInput} {kind : ReviewEventKind}
    {toState : ReviewState}
    (hadmitted : admitTransition input (some entry) = .ok (kind, entry.state, toState))
    (eventId : JsString) : SafeEntry (recorded eventId input kind toState entry) := by
  intro henforced hstate
  rw [(enforcement_recorded eventId input kind toState entry).1] at henforced
  have hnext := bookkept_recorded hbookkept hadmitted eventId
  obtain ⟨hkind, -, hrefusal, htransition⟩ := admitTransition_ok hadmitted
  have htable := (transitionReviewState_ok htransition).1
  have hcarried : isApprovedState entry.state = true → entry.secondaryReviewer ≠ none := by
    intro happroved
    obtain ⟨-, secondary, -, hsecondary, -⟩ := hsafe henforced happroved
    rw [hsecondary]
    exact Option.some_ne_none secondary
  rw [state_recorded eventId input htable] at hstate
  refine hnext.approved (by rwa [state_recorded eventId input htable]) ?_
  cases kind with
  | secondaryApproved =>
      obtain ⟨principal, hactor, -⟩ := secondary_of_no_refusal hrefusal
      simp [recorded, applyEntryEffects, hactor]
  | note =>
      rw [transitions_note] at htable
      cases htable
      exact hcarried hstate
  | exported =>
      cases hentry : entry.state <;> rw [hentry] at htable <;> cases htable
      exact hcarried (by rw [hentry]; rfl)
  | transferred =>
      cases hentry : entry.state <;> rw [hentry] at htable <;> cases htable
      exact hcarried (by rw [hentry]; rfl)
  | approved =>
      cases hentry : entry.state <;> rw [hentry] at htable <;> cases htable <;>
        exact absurd hkind (resolveEventKind_ne_approved henforced (by rw [hentry]; rfl)).symm
  | _ =>
      cases hentry : entry.state <;> rw [hentry] at htable <;> cases htable <;> cases hstate

theorem fourEyesSafe_effect {files next : JobFiles} {call : Call} (htracked : Entries Tracked files)
    (hsafe : FourEyesSafe files) (h : Effect localeCompare jobId files call next) :
    FourEyesSafe next ↔ EnforcesInTime jobId files call := by
  cases h with
  | seeded hstate =>
      subst hstate
      refine entries_seededFiles.trans ⟨fun hentries _ testCase htestCase ↦ ?_,
        fun hintime entry hentry ↦ ?_⟩
      · obtain ⟨eventId, hmem⟩ := mem_seedCases_of_mem htestCase
        exact safeEntry_seedEntry.mp (hentries _ hmem)
      · obtain ⟨testCase, htestCase, eventId, rfl⟩ := mem_seedCases_entries hentry
        exact safeEntry_seedEntry.mpr (hintime rfl testCase htestCase)
  | seededBefore hstate =>
      subst hstate
      exact iff_of_true hsafe nofun
  | refreshRefused hrefused =>
      refine iff_of_true hsafe fun envelope snapshot decisions hstate hdecisions ↦ ?_
      exact absurd hdecisions (hrefused envelope snapshot hstate decisions)
  | refreshIdle hstate hdecisions hidle =>
      subst hstate
      refine iff_of_true hsafe ?_
      rintro _ _ _ ⟨⟩ hdecisions' entry hentry
      cases hdecisions.symm.trans hdecisions'
      refine (@safeEntry_refreshed_iff entry (htracked _ rfl entry hentry)
        (hsafe _ rfl entry hentry) [] [] _ _).mp ?_
      rw [refreshed_of_idle (hidle entry hentry)]
      exact hsafe _ rfl entry hentry
  | refreshed hstate hdecisions _ _ =>
      subst hstate
      constructor
      · rintro h _ _ _ ⟨⟩ hdecisions' entry hentry
        cases hdecisions.symm.trans hdecisions'
        refine (safeEntry_refreshed_iff (htracked _ rfl entry hentry) (hsafe _ rfl entry hentry)).mp
          (h _ rfl _ (mem_withEntries.mpr (List.mem_map_of_mem hentry)))
      · rintro h _ ⟨⟩ entry hentry
        obtain ⟨original, horiginal, rfl⟩ := List.mem_map.mp (mem_withEntries.mp hentry)
        exact (safeEntry_refreshed_iff (htracked _ rfl original horiginal)
          (hsafe _ rfl original horiginal)).mpr (h _ _ _ rfl hdecisions original horiginal)
  | recordRefused => exact iff_of_true hsafe trivial
  | noted hstate _ _ =>
      subst hstate
      refine iff_of_true ?_ trivial
      rintro _ ⟨⟩ entry hentry
      exact hsafe _ rfl entry (mem_withEntries.mp hentry)
  | recorded hstate hentry _ hadmitted =>
      subst hstate
      refine iff_of_true ?_ trivial
      rintro _ ⟨⟩ entry' hentry'
      rcases mem_replaceEntry (mem_withEntries.mp hentry') with rfl | hold
      · exact safeEntry_recorded (htracked _ rfl _ hentry).1 (hsafe _ rfl _ hentry) hadmitted _
      · exact hsafe _ rfl entry' hold

/-- Along every run, enforced approvals have two principals in all states reached
exactly when every call enforces four eyes in time. -/
theorem fourEyesSafe_iff_enforcesInTime (localeCompare : JsString → JsString → ℤ)
    (jobId : JsString) (calls : List Call) (hcalls : ∀ call ∈ calls, call.HasDistinctIds) :
    Always (step localeCompare jobId) FourEyesSafe .empty calls ↔
      MeetsAlong (step localeCompare jobId) (EnforcesInTime jobId) .empty calls := by
  refine always_iff_meetsAlong (fun _ _ ↦ kept_step) ?_ kept_empty nofun hcalls
  intro files call hcall hkept hsafe
  exact fourEyesSafe_effect hkept.2 hsafe (step_effect hkept.1 call)

theorem fourEyesSafe_two_approvals :
    let calls := [oneCaseSeed .high .needsReview, oneCaseRecord .approved (js "alice"),
      oneCaseRecord .approved (js "bob")]
    Always (step codeUnitCompare (js "job-1")) FourEyesSafe .empty calls ∧
      (run (step codeUnitCompare (js "job-1")) .empty calls).anyEntry
        (fun entry ↦ entry.fourEyesEnforced && isApprovedState entry.state) = true := by
  intro calls
  have hcalls : ∀ call ∈ calls, call.HasDistinctIds := by
    simp [calls, oneCaseSeed, oneCaseRecord, Call.HasDistinctIds]
  refine ⟨(fourEyesSafe_iff_enforcesInTime codeUnitCompare (js "job-1") calls hcalls).mpr ?_,
    by decide⟩
  refine ⟨?_, trivial, trivial, trivial⟩
  intro _ testCase htestCase happroved
  obtain rfl := List.mem_singleton.mp htestCase
  exact absurd happroved (by decide)

theorem not_safe_of_anyEntry {files : JobFiles}
    (h : files.anyEntry (fun entry ↦ entry.fourEyesEnforced && isApprovedState entry.state &&
      entry.secondaryReviewer.isNone) = true) : ¬ FourEyesSafe files := by
  intro hsafe
  obtain ⟨snapshot, hsnapshot, entry, hentry, htest⟩ := anyEntry_iff.mp h
  simp only [Bool.and_eq_true, Option.isNone_iff_eq_none] at htest
  exact not_twoPrincipals_of_no_secondary htest.2
    (hsafe snapshot hsnapshot entry hentry htest.1.1 htest.1.2)

/-- An enforced case that the policy approves is seeded as approved with no
reviewer; and a conflict found after a single approval enforces four eyes on the
approved case. -/
theorem fourEyesSafe_fails :
    let seeded := [oneCaseSeed .high .approved]
    let refreshed := [oneCaseSeed .low .needsReview, oneCaseRecord .approved (js "alice"),
      oneCaseRefresh .needsReview [conflictViolation]]
    (∀ call ∈ seeded ++ refreshed, call.HasDistinctIds) ∧
      ¬ FourEyesSafe (run (step codeUnitCompare (js "job-1")) .empty seeded) ∧
      ¬ FourEyesSafe (run (step codeUnitCompare (js "job-1")) .empty refreshed) := by
  intro seeded refreshed
  refine ⟨?_, not_safe_of_anyEntry (by decide), not_safe_of_anyEntry (by decide)⟩
  simp [seeded, refreshed, oneCaseSeed, oneCaseRecord, oneCaseRefresh, Call.HasDistinctIds]

end TestIntelligence.ProductionRunner
