import TestIntelligence.ProductionRunner.ReviewStoreInvariants
import Mathlib.Data.List.Chain

/-!
# The event log and the snapshot

The log is gap-free and grows by one event per effective call.  It explains the
snapshot when the events of each test case form a chain that ends in the state the
snapshot shows.  Recorded transitions keep this; a policy refresh writes a note
for the whole job, so it keeps it exactly when it sends no entry back to review.
-/

namespace TestIntelligence.ProductionRunner

open Js Review Systems

/-- The events that name the test case. -/
def ownEvents (events : List ReviewEvent) (testCaseId : JsString) : List ReviewEvent :=
  events.filter (·.testCaseId = some testCaseId)

/-- The sequences are `1, …, n` and the next one is `n + 1`. -/
def Sequenced (files : JobFiles) : Prop :=
  ∀ envelope, files.events = some envelope →
    envelope.events.map (·.sequence) = List.range' 1 envelope.events.length ∧
      envelope.nextSequence = envelope.events.length + 1

/-- The events lead without a gap to the state. -/
def LeadsTo (events : List ReviewEvent) (state : ReviewState) : Prop :=
  events.IsChain (fun earlier later ↦ later.fromState = earlier.toState) ∧
    events.getLast?.bind (·.toState) = some state

/-- Replaying the log of any test case gives its state in the snapshot. -/
def Explained (files : JobFiles) : Prop :=
  ∀ envelope snapshot, files = ⟨some envelope, some snapshot⟩ →
    ∀ entry ∈ snapshot.perTestCase,
      LeadsTo (ownEvents envelope.events entry.testCaseId) entry.state

/-- The log grew by exactly one event. -/
def AppendsOne (files next : JobFiles) : Prop :=
  ∃ envelope event snapshot, files.events = some envelope ∧
    next = ⟨some (envelope.append event), some snapshot⟩

/-- What a call writes: a seed creates the log with one event for each test case,
any other call appends one event when it takes effect, and a refusal writes
nothing. -/
def WritesLog (localeCompare : JsString → JsString → ℤ) (jobId : JsString) (files : JobFiles) :
    Call → Prop
  | .seedSnapshot surroundings input =>
      let next := step localeCompare jobId files (.seedSnapshot surroundings input)
      next = files ∨ (files = .empty ∧ ∃ envelope snapshot,
        next = ⟨some envelope, some snapshot⟩ ∧
          envelope.events.length = input.testCases.length)
  | .recordTransition surroundings input =>
      let next := step localeCompare jobId files (.recordTransition surroundings input)
      (next = files ∨ AppendsOne files next) ∧
        ∀ code next', recordTransition localeCompare jobId surroundings input files =
          .ok (.refused code, next') → next = files
  | .refreshPolicyDecisions surroundings input =>
      let next := step localeCompare jobId files (.refreshPolicyDecisions surroundings input)
      (next = files ∨ AppendsOne files next) ∧
        ∀ code next', refreshPolicyDecisions localeCompare jobId surroundings input files =
          .ok (.refused code, next') → next = files

/-- No accepted refresh newly blocks an entry that would be sent back to review. -/
def ReopensNothing (jobId : JsString) (files : JobFiles) : Call → Prop
  | .refreshPolicyDecisions surroundings input =>
      ∀ envelope snapshot decisions, files = ⟨some envelope, some snapshot⟩ →
        acceptedDecisions jobId (readConflictAwarePolicy surroundings input.policy) snapshot =
          .ok decisions →
        ∀ entry ∈ snapshot.perTestCase, mapGet decisions entry.testCaseId = some .blocked →
          isReopenable entry.state = true →
          reassess (escalatedCases (readConflictAwarePolicy surroundings input.policy)
            .multiSourceConflictPresent) .blocked entry = entry
  | _ => True

variable {localeCompare : JsString → JsString → ℤ} {jobId : JsString}

/-! ## Chains -/

theorem ownEvents_append (events : List ReviewEvent) (event : ReviewEvent)
    (testCaseId : JsString) :
    ownEvents (events ++ [event]) testCaseId =
      ownEvents events testCaseId ++ if event.testCaseId = some testCaseId then [event] else [] := by
  unfold ownEvents
  rw [List.filter_append]
  split_ifs with h <;> simp [h]

/-- One more event of the test case, from the state reached so far. -/
theorem LeadsTo.append {events : List ReviewEvent} {state state' : ReviewState}
    (h : LeadsTo events state) {event : ReviewEvent} (hfrom : event.fromState = some state)
    (hto : event.toState = some state') : LeadsTo (events ++ [event]) state' := by
  refine ⟨h.1.append (.singleton event) ?_, by simpa using hto⟩
  intro earlier hearlier later hlater
  obtain rfl : event = later := by simpa using hlater
  have hlast := h.2
  rw [Option.mem_def.mp hearlier] at hlast
  rw [hfrom]
  exact hlast.symm

theorem LeadsTo.unique {events : List ReviewEvent} {state state' : ReviewState}
    (h : LeadsTo events state) (h' : LeadsTo events state') : state = state' :=
  Option.some.inj (h.2.symm.trans h'.2)

theorem leadsTo_singleton {event : ReviewEvent} {state : ReviewState}
    (h : event.toState = some state) : LeadsTo [event] state :=
  ⟨.singleton event, h⟩

/-! ## Seeding -/

theorem ownEvents_seedCases_of_not_mem {input : SeedSnapshotInput} {policy : TestCasePolicyReport}
    {randomUUID : ℕ → JsString} {sequence : ℕ} {testCases : List GeneratedTestCase}
    {testCaseId : JsString} (h : testCaseId ∉ testCases.map (·.id)) :
    ownEvents (seedCases jobId input policy randomUUID sequence testCases).1 testCaseId = [] := by
  induction testCases generalizing sequence with
  | nil => rfl
  | cons testCase rest ih =>
      rw [List.map_cons, List.mem_cons, not_or] at h
      have hhead : (seedEvent jobId input policy (randomUUID sequence) sequence testCase).testCaseId
          ≠ some testCaseId := by
        intro heq
        exact h.1 (Option.some.inj heq).symm
      simp only [seedCases, ownEvents, List.filter_cons, hhead, decide_false, Bool.false_eq_true,
        if_false]
      exact ih h.2

/-- With distinct ids, the only event of a seeded entry leads to its state. -/
theorem leadsTo_seedCases {input : SeedSnapshotInput} {policy : TestCasePolicyReport}
    {randomUUID : ℕ → JsString} {sequence : ℕ} {testCases : List GeneratedTestCase}
    (hids : (testCases.map (·.id)).Nodup) {entry : ReviewSnapshot}
    (h : entry ∈ (seedCases jobId input policy randomUUID sequence testCases).2) :
    LeadsTo (ownEvents (seedCases jobId input policy randomUUID sequence testCases).1
      entry.testCaseId) entry.state := by
  induction testCases generalizing sequence with
  | nil => simp [seedCases] at h
  | cons testCase rest ih =>
      obtain ⟨hnew, hids⟩ := List.nodup_cons.mp hids
      rcases List.mem_cons.mp h with rfl | h
      · have htail := @ownEvents_seedCases_of_not_mem jobId input policy randomUUID (sequence + 1)
          rest testCase.id hnew
        have hown : ownEvents (seedCases jobId input policy randomUUID sequence
            (testCase :: rest)).1 testCase.id =
              [seedEvent jobId input policy (randomUUID sequence) sequence testCase] := by
          unfold ownEvents at htail ⊢
          simp [seedCases, seedEvent, htail]
        change LeadsTo (ownEvents _ testCase.id) _
        rw [hown]
        exact leadsTo_singleton rfl
      · have hne : testCase.id ≠ entry.testCaseId := by
          intro heq
          obtain ⟨testCase', htestCase', eventId, rfl⟩ := mem_seedCases_entries h
          exact hnew (List.mem_map.mpr ⟨testCase', htestCase', heq.symm⟩)
        have hown : ownEvents (seedCases jobId input policy randomUUID sequence
            (testCase :: rest)).1 entry.testCaseId =
              ownEvents (seedCases jobId input policy randomUUID (sequence + 1) rest).1
                entry.testCaseId := by
          simp [ownEvents, seedCases, seedEvent, hne]
        rw [hown]
        exact ih hids h

theorem length_seedCases (input : SeedSnapshotInput) (policy : TestCasePolicyReport)
    (randomUUID : ℕ → JsString) (sequence : ℕ) (testCases : List GeneratedTestCase) :
    (seedCases jobId input policy randomUUID sequence testCases).1.length = testCases.length := by
  induction testCases generalizing sequence with
  | nil => rfl
  | cons testCase rest ih => simp [seedCases, ih]

theorem sequences_seedCases (input : SeedSnapshotInput) (policy : TestCasePolicyReport)
    (randomUUID : ℕ → JsString) (sequence : ℕ) (testCases : List GeneratedTestCase) :
    (seedCases jobId input policy randomUUID sequence testCases).1.map (·.sequence) =
      List.range' sequence testCases.length := by
  induction testCases generalizing sequence with
  | nil => rfl
  | cons testCase rest ih =>
      rw [List.length_cons, List.range'_succ]
      simp [seedCases, seedEvent, ih]

/-! ## Sequences -/

theorem sequenced_append {envelope : PersistedReviewEventsEnvelope}
    {snapshot snapshot' : Option ReviewGateSnapshot} {event : ReviewEvent}
    (h : Sequenced ⟨some envelope, snapshot⟩) (hevent : event.sequence = envelope.nextSequence) :
    Sequenced ⟨some (envelope.append event), snapshot'⟩ := by
  obtain ⟨hsequences, hnext⟩ := h envelope rfl
  rintro _ ⟨⟩
  simp only [PersistedReviewEventsEnvelope.append, List.map_append, List.length_append,
    List.map_cons, List.map_nil, List.length_cons, List.length_nil]
  refine ⟨?_, by omega⟩
  rw [hsequences, hevent, hnext, List.range'_concat, Nat.add_comm, Nat.one_mul]

theorem sequenced_effect {files next : JobFiles} {call : Call} (hfiles : Sequenced files)
    (h : Effect localeCompare jobId files call next) : Sequenced next := by
  cases h with
  | @seeded surroundings input _ =>
      obtain ⟨envelope, snapshot, hseeded, -, hnext, hevents, -⟩ :=
        @seededFiles_eq localeCompare jobId surroundings input
      rw [hseeded]
      rintro _ ⟨⟩
      rw [hnext, hevents, length_seedCases, sequences_seedCases]
      exact ⟨rfl, Nat.add_comm _ _⟩
  | seededBefore _ => exact hfiles
  | refreshRefused _ => exact hfiles
  | refreshIdle _ _ _ => exact hfiles
  | recordRefused => exact hfiles
  | refreshed hstate _ _ hsequence =>
      subst hstate
      exact sequenced_append hfiles hsequence
  | noted hstate _ hsequence =>
      subst hstate
      exact sequenced_append hfiles hsequence
  | recorded hstate _ _ _ =>
      subst hstate
      exact sequenced_append hfiles rfl

/-- The invariant under which the log is examined. -/
def Logged (jobId : JsString) (files : JobFiles) : Prop := WellFormed jobId files ∧ Sequenced files

theorem logged_empty : Logged jobId .empty := ⟨.inl rfl, nofun⟩

theorem logged_step {files : JobFiles} {call : Call} (hcall : call.HasDistinctIds)
    (hfiles : Logged jobId files) : Logged jobId (step localeCompare jobId files call) :=
  ⟨wellFormed_effect hfiles.1 hcall (step_effect hfiles.1 call),
    sequenced_effect hfiles.2 (step_effect hfiles.1 call)⟩

theorem logged_run {calls : List Call} (hcalls : ∀ call ∈ calls, call.HasDistinctIds) :
    Logged jobId (run (step localeCompare jobId) .empty calls) :=
  run_induction (fun _ _ ↦ logged_step) logged_empty hcalls

theorem writesLog_of_wellFormed {files : JobFiles} (hfiles : WellFormed jobId files) (call : Call) :
    WritesLog localeCompare jobId files call := by
  have heffect := @step_effect localeCompare jobId files hfiles call
  cases call with
  | seedSnapshot surroundings input =>
      dsimp only [WritesLog]
      generalize step localeCompare jobId files _ = next at heffect
      cases heffect with
      | seeded hstate =>
          obtain ⟨envelope, snapshot, hseeded, -, -, hevents, -⟩ :=
            @seededFiles_eq localeCompare jobId surroundings input
          refine .inr ⟨hstate, envelope, snapshot, hseeded, ?_⟩
          rw [hevents, length_seedCases]
      | seededBefore _ => exact .inl rfl
  | recordTransition surroundings input =>
      refine ⟨?_, ?_⟩
      · generalize step localeCompare jobId files _ = next at heffect
        cases heffect with
        | recordRefused => exact .inl rfl
        | noted hstate _ _ => exact .inr ⟨_, _, _, by rw [hstate], rfl⟩
        | recorded hstate _ _ _ => exact .inr ⟨_, _, _, by rw [hstate], rfl⟩
      · intro code next hrefused
        have hnext : next = files := by
          rcases recordTransition_cases hrefused with ⟨hnext, -⟩ | ⟨_, _, _, _, _, _, _, _, _, _, hok⟩
          · exact hnext
          · cases hok
        simp only [step, hrefused, hnext]
  | refreshPolicyDecisions surroundings input =>
      refine ⟨?_, ?_⟩
      · generalize step localeCompare jobId files _ = next at heffect
        cases heffect with
        | refreshRefused _ => exact .inl rfl
        | refreshIdle _ _ _ => exact .inl rfl
        | refreshed hstate _ _ _ => exact .inr ⟨_, _, _, by rw [hstate], rfl⟩
      · intro code next hrefused
        have hnext : next = files := by
          rcases refreshPolicyDecisions_cases hrefused with ⟨hnext, -⟩ |
            ⟨_, _, _, _, _, ⟨_, _, hok⟩ | ⟨_, _, hok⟩⟩
          · exact hnext
          · cases hok
          · cases hok
        simp only [step, hrefused, hnext]

/-! ## Explained snapshots -/

/-- A refresh keeps the state of an entry exactly when it does not reopen it. -/
theorem state_refreshed_iff {entry : ReviewSnapshot} {eventId eventAt : JsString}
    {decisions : List (JsString × TestCasePolicyDecision)} {escalated : List JsString} :
    (refreshed eventId eventAt decisions escalated entry).state = entry.state ↔
      (mapGet decisions entry.testCaseId = some .blocked → isReopenable entry.state = true →
        reassess escalated .blocked entry = entry) := by
  cases hchanged : changedEntry decisions escalated entry with
  | none =>
      rw [refreshed_of_idle hchanged]
      refine iff_of_true rfl fun hblocked _ ↦ ?_
      by_contra hne
      cases hchanged.symm.trans (changedEntry_eq_some.mpr ⟨.blocked, hblocked, rfl, Ne.symm hne⟩)
  | some next =>
      obtain ⟨nextDecision, hdecision, rfl, hne⟩ := changedEntry_eq_some.mp hchanged
      simp only [refreshed, hchanged, touchChanged, hdecision, Option.some.injEq]
      split
      · next hreopened =>
          obtain ⟨hblocked, hstate⟩ : nextDecision = .blocked ∧ isReopenable entry.state = true :=
            hreopened
          subst hblocked
          refine iff_of_false ?_ fun h ↦ hne (h rfl hstate).symm
          intro heq
          have hneeds : entry.state = .needsReview := heq.symm
          rw [hneeds] at hstate
          exact absurd hstate (by decide)
      · next hkept =>
          refine iff_of_true rfl fun hblocked hstate ↦ absurd ⟨hblocked, hstate⟩ hkept

theorem explained_effect {files next : JobFiles} {call : Call} (hfiles : WellFormed jobId files)
    (hcall : call.HasDistinctIds) (hexplained : Explained files)
    (h : Effect localeCompare jobId files call next) :
    Explained next ↔ ReopensNothing jobId files call := by
  cases h with
  | @seeded surroundings input _ =>
      refine iff_of_true ?_ trivial
      obtain ⟨envelope, snapshot, hseeded, -, -, hevents, hentries⟩ :=
        @seededFiles_eq localeCompare jobId surroundings input
      rw [hseeded]
      rintro _ _ ⟨⟩ entry hentry
      rw [hevents]
      exact leadsTo_seedCases hcall (hentries.mem_iff.mp hentry)
  | seededBefore _ => exact iff_of_true hexplained trivial
  | refreshRefused hrefused =>
      refine iff_of_true hexplained fun envelope snapshot decisions hstate hdecisions ↦ ?_
      exact absurd hdecisions (hrefused envelope snapshot hstate decisions)
  | refreshIdle hstate hdecisions hidle =>
      subst hstate
      refine iff_of_true hexplained ?_
      rintro _ _ _ ⟨⟩ hdecisions' entry hentry
      cases hdecisions.symm.trans hdecisions'
      refine (@state_refreshed_iff entry [] [] _ _).mp ?_
      rw [refreshed_of_idle (hidle entry hentry)]
  | @refreshed surroundings input envelope snapshot decisions event hstate hdecisions hevent _ =>
      subst hstate
      have hown : ∀ testCaseId, ownEvents (envelope.append event).events testCaseId =
          ownEvents envelope.events testCaseId := by
        intro testCaseId
        simp [PersistedReviewEventsEnvelope.append, ownEvents_append, hevent]
      constructor
      · rintro h _ _ _ ⟨⟩ hdecisions' entry hentry
        cases hdecisions.symm.trans hdecisions'
        have hnext := h _ _ rfl _ (mem_withEntries.mpr (List.mem_map_of_mem hentry))
        rw [refreshed_testCaseId, hown] at hnext
        exact state_refreshed_iff.mp (hnext.unique (hexplained _ _ rfl entry hentry))
      · rintro h _ _ ⟨⟩ entry hentry
        obtain ⟨original, horiginal, rfl⟩ := List.mem_map.mp (mem_withEntries.mp hentry)
        rw [refreshed_testCaseId, hown,
          state_refreshed_iff.mpr (h _ _ _ rfl hdecisions original horiginal)]
        exact hexplained _ _ rfl original horiginal
  | recordRefused => exact iff_of_true hexplained trivial
  | noted hstate hevent _ =>
      subst hstate
      refine iff_of_true ?_ trivial
      rintro _ _ ⟨⟩ entry hentry
      have hown := hexplained _ _ rfl entry (mem_withEntries.mp hentry)
      simpa [PersistedReviewEventsEnvelope.append, ownEvents_append, hevent] using hown
  | @recorded surroundings input envelope snapshot entry kind toState hstate hentry hid hadmitted =>
      subst hstate
      refine iff_of_true ?_ trivial
      obtain ⟨-, -, -, htransition⟩ := admitTransition_ok hadmitted
      have htable := (transitionReviewState_ok htransition).1
      rintro _ _ ⟨⟩ entry' hentry'
      obtain ⟨original, horiginal, rfl⟩ := List.mem_map.mp (mem_withEntries.mp hentry')
      have hids : (snapshot.perTestCase.map (·.testCaseId)).Nodup := by
        rcases hfiles with hempty | ⟨_, _, hsame, -, hids⟩
        · cases hempty
        · cases hsame
          exact hids
      have hown := hexplained _ _ rfl original horiginal
      have hevent : (recordEvent jobId (surroundings.randomUUID 0) input kind entry.state toState
          envelope.nextSequence).testCaseId = some entry.testCaseId := hid
      by_cases hsame : original.testCaseId = entry.testCaseId
      · obtain rfl := List.inj_on_of_nodup_map hids horiginal hentry hsame
        rw [if_pos rfl, recorded_testCaseId, state_recorded _ _ htable]
        simp only [PersistedReviewEventsEnvelope.append, ownEvents_append]
        rw [if_pos hevent]
        exact hown.append rfl rfl
      · rw [if_neg hsame]
        simp only [PersistedReviewEventsEnvelope.append, ownEvents_append]
        rw [if_neg (fun heq ↦ hsame (Option.some.inj (heq.symm.trans hevent))), List.append_nil]
        exact hown

/-- In every run the log stays gap-free and every call writes at most its own
event; the log explains all snapshots reached exactly when no refresh reopens an
entry. -/
theorem log_explains_iff_reopensNothing (localeCompare : JsString → JsString → ℤ)
    (jobId : JsString) (calls : List Call) (hcalls : ∀ call ∈ calls, call.HasDistinctIds) :
    Always (step localeCompare jobId) Sequenced .empty calls ∧
      (∀ done call, done ++ [call] <+: calls →
        WritesLog localeCompare jobId (run (step localeCompare jobId) .empty done) call) ∧
      (Always (step localeCompare jobId) Explained .empty calls ↔
        MeetsAlong (step localeCompare jobId) (ReopensNothing jobId) .empty calls) := by
  have hlogged : ∀ done, done <+: calls →
      Logged jobId (run (step localeCompare jobId) .empty done) :=
    fun done hdone ↦ logged_run fun call hcall ↦ hcalls call (hdone.subset hcall)
  refine ⟨fun done hdone ↦ (hlogged done hdone).2, fun done call hdone ↦ ?_, ?_⟩
  · exact writesLog_of_wellFormed (hlogged done ((List.prefix_append _ _).trans hdone)).1 call
  · refine always_iff_meetsAlong (fun _ _ ↦ logged_step) ?_ logged_empty nofun hcalls
    intro files call hcall hlogged hexplained
    exact explained_effect hlogged.1 hcall hexplained (step_effect hlogged.1 call)

theorem log_explains_approved_case :
    let calls := [oneCaseSeed .low .needsReview, oneCaseRecord .edited (js "alice"),
      oneCaseRecord .approved (js "bob")]
    Always (step codeUnitCompare (js "job-1")) Explained .empty calls ∧
      (run (step codeUnitCompare (js "job-1")) .empty calls).anyEntry
        (·.state = .approved) = true := by
  intro calls
  have hcalls : ∀ call ∈ calls, call.HasDistinctIds := by
    simp [calls, oneCaseSeed, oneCaseRecord, Call.HasDistinctIds]
  exact ⟨(log_explains_iff_reopensNothing codeUnitCompare (js "job-1") calls hcalls).2.2.mpr
    ⟨trivial, trivial, trivial, trivial⟩, by decide⟩

/-- The state of the last event of a test case, as an auditor reads it. -/
def JobFiles.lastLoggedState (files : JobFiles) (testCaseId : JsString) : Option ReviewState :=
  files.events.bind fun envelope ↦
    (ownEvents envelope.events testCaseId).getLast?.bind (·.toState)

theorem lastLoggedState_of_explained {files : JobFiles} (h : Explained files)
    (hfiles : WellFormed jobId files) {snapshot : ReviewGateSnapshot}
    (hsnapshot : files.snapshot = some snapshot) {entry : ReviewSnapshot}
    (hentry : entry ∈ snapshot.perTestCase) :
    files.lastLoggedState entry.testCaseId = some entry.state := by
  rcases hfiles with rfl | ⟨envelope, stored, rfl, -, -⟩
  · cases hsnapshot
  · cases hsnapshot
    exact (h envelope snapshot rfl entry hentry).2

/-- An approved case that a refresh blocks is back in review, while the last event
that names it still says `approved`. -/
theorem log_explains_fails :
    let calls := [oneCaseSeed .low .needsReview, oneCaseRecord .approved (js "alice"),
      oneCaseRefresh .blocked []]
    (∀ call ∈ calls, call.HasDistinctIds) ∧
      ¬ Explained (run (step codeUnitCompare (js "job-1")) .empty calls) := by
  intro calls
  have hcalls : ∀ call ∈ calls, call.HasDistinctIds := by
    simp [calls, oneCaseSeed, oneCaseRecord, oneCaseRefresh, Call.HasDistinctIds]
  refine ⟨hcalls, fun hexplained ↦ ?_⟩
  have hlogged := @logged_run codeUnitCompare (js "job-1") calls hcalls
  have hdiffers : (run (step codeUnitCompare (js "job-1")) .empty calls).anyEntry (fun entry ↦
      (run (step codeUnitCompare (js "job-1")) .empty calls).lastLoggedState entry.testCaseId ≠
        some entry.state) = true := by
    decide
  obtain ⟨snapshot, hsnapshot, entry, hentry, hne⟩ := anyEntry_iff.mp hdiffers
  simp only [decide_eq_true_eq] at hne
  exact hne (lastLoggedState_of_explained hexplained hlogged.1 hsnapshot hentry)

end TestIntelligence.ProductionRunner
