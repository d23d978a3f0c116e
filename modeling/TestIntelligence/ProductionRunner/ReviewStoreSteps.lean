import TestIntelligence.ProductionRunner.ReviewStore

/-!
# What one call of the review store can do

Inversion lemmas for the three calls.  A call leaves the files as they are, or it
creates them, or it appends one event and rewrites entries one by one; the
per-entry effects are `refreshed` for a policy refresh and `recorded` for a
transition.
-/

namespace TestIntelligence.ProductionRunner

open Js Review Security

/-! ## Comparing entries -/

/-- The keys of a persisted entry. -/
def snapshotKeys : List JsString :=
  [js "testCaseId", js "state", js "policyDecision", js "lastEventId", js "lastEventAt",
    js "fourEyesEnforced", js "approvers", js "fourEyesReasons", js "primaryReviewer",
    js "primaryApprovalAt", js "secondaryReviewer", js "secondaryApprovalAt", js "lastEditor"]

theorem keys_fields (entry : ReviewSnapshot) : entry.fields.map Prod.fst = snapshotKeys := rfl

theorem nodup_snapshotKeys : snapshotKeys.Nodup := by decide

theorem pairwise_snapshotKeys : snapshotKeys.Pairwise fun k k' ↦ keyBefore k k' = true := by
  decide

theorem protoKey_not_mem_snapshotKeys : protoKey ∉ snapshotKeys := by decide

theorem enumerated_fields (entry : ReviewSnapshot) : Enumerated entry.fields := by
  unfold Enumerated
  rw [keys_fields]
  exact ⟨nodup_snapshotKeys, pairwise_snapshotKeys⟩

/-- Strings, booleans and arrays of strings. -/
def IsFlat : Json → Prop
  | .str _ => True
  | .bool _ => True
  | .arr items => ∃ texts : List JsString, items = texts.map .str
  | _ => False

theorem IsFlat.ordered {v : Json} (h : IsFlat v) : v.Ordered := by
  cases v with
  | arr items =>
      obtain ⟨texts, rfl⟩ := h
      rw [Json.ordered_arr]
      simp [Json.Ordered, Json.All]
  | str s => trivial
  | bool b => trivial
  | _ => exact h.elim

theorem IsFlat.plainNumbers {v : Json} (h : IsFlat v) : v.PlainNumbers := by
  cases v with
  | arr items =>
      obtain ⟨texts, rfl⟩ := h
      rw [Json.plainNumbers_arr]
      simp [Json.PlainNumbers, Json.All]
  | str s => trivial
  | bool b => trivial
  | _ => exact h.elim

theorem IsFlat.sortValue_eq {v : Json} (h : IsFlat v) : sortValue v = v := by
  cases v with
  | arr items =>
      obtain ⟨texts, rfl⟩ := h
      simp [sortValue]
  | str s => rfl
  | bool b => rfl
  | _ => exact h.elim

theorem isFlat_fields (entry : ReviewSnapshot) :
    ∀ field ∈ entry.fields, ∀ v ∈ field.2, IsFlat v := by
  unfold ReviewSnapshot.fields
  simp +contextual only [IsFlat, List.forall_mem_cons, Option.mem_def, Option.some.injEq,
    forall_eq', Option.map_eq_some_iff, forall_exists_index, and_imp, forall_apply_eq_imp_iff₂,
    implies_true, List.not_mem_nil, true_and, and_true]
  refine ⟨⟨entry.approvers, rfl⟩, fun reasons _ ↦ ⟨reasons.map (·.text), ?_⟩⟩
  rw [List.map_map]
  rfl

theorem reviewSnapshotsEqual_iff (left right : ReviewSnapshot) :
    reviewSnapshotsEqual left right = true ↔ left = right := by
  have hordered := fun entry : ReviewSnapshot ↦ ordered_presentMembers (enumerated_fields entry)
    fun field hfield v hv ↦ (isFlat_fields entry field hfield v hv).ordered
  have hplain := fun entry : ReviewSnapshot ↦ @plainNumbers_presentMembers entry.fields
    fun field hfield v hv ↦ (isFlat_fields entry field hfield v hv).plainNumbers
  have hsort : ∀ entry : ReviewSnapshot,
      entry.fields.map (·.2.map sortValue) = entry.fields.map (·.2) := by
    intro entry
    refine List.map_congr_left fun field hfield ↦ ?_
    refine (Option.map_congr fun v hv ↦ ?_).trans Option.map_id'
    exact (isFlat_fields entry field hfield v hv).sortValue_eq
  rw [reviewSnapshotsEqual, decide_eq_true_iff]
  constructor
  · intro h
    have h := (canonicalJson_eq_iff (hordered left) (hplain left) (hordered right)
      (hplain right)).mp h
    have h := fields_eq_of_sortValue_eq (by rw [keys_fields, keys_fields]) (enumerated_fields left)
      (by rw [keys_fields]; exact protoKey_not_mem_snapshotKeys) h
    rw [hsort, hsort] at h
    simp only [ReviewSnapshot.fields, List.map_cons, List.cons.injEq, Option.some.injEq,
      Json.str.injEq, Json.bool.injEq, Json.arr.injEq] at h
    obtain ⟨htestCaseId, hstate, hpolicyDecision, hlastEventId, hlastEventAt, hfourEyesEnforced,
      happrovers, hfourEyesReasons, hprimaryReviewer, hprimaryApprovalAt, hsecondaryReviewer,
      hsecondaryApprovalAt, hlastEditor, -⟩ := h
    have hstr : Function.Injective Json.str := fun _ _ ↦ Json.str.inj
    have hreasons : Function.Injective fun reasons : List FourEyesEnforcementReason ↦
        Json.arr (reasons.map fun reason ↦ .str reason.text) := by
      intro reasons reasons' heq
      refine List.map_injective_iff.mpr ?_ (Json.arr.inj heq)
      exact fun _ _ h ↦ FourEyesEnforcementReason.text_injective (hstr h)
    cases left
    cases right
    rw [ReviewSnapshot.mk.injEq]
    exact ⟨htestCaseId, ReviewState.text_injective hstate,
      TestCasePolicyDecision.text_injective hpolicyDecision, hlastEventId, hlastEventAt,
      hfourEyesEnforced, List.map_injective_iff.mpr hstr happrovers,
      Option.map_injective hreasons hfourEyesReasons, Option.map_injective hstr hprimaryReviewer,
      Option.map_injective hstr hprimaryApprovalAt, Option.map_injective hstr hsecondaryReviewer,
      Option.map_injective hstr hsecondaryApprovalAt, Option.map_injective hstr hlastEditor⟩
  · rintro rfl
    rfl
/-! ## Sorted entries -/

section

variable {localeCompare : JsString → JsString → ℤ} {jobId : JsString}

theorem sortSnapshotEntries_perm (entries : List ReviewSnapshot) :
    (sortSnapshotEntries localeCompare entries).Perm entries :=
  List.perm_insertionSort _ entries

@[simp] theorem mem_sortSnapshotEntries {entries : List ReviewSnapshot} {entry : ReviewSnapshot} :
    entry ∈ sortSnapshotEntries localeCompare entries ↔ entry ∈ entries :=
  (sortSnapshotEntries_perm entries).mem_iff

@[simp] theorem mem_withEntries {snapshot : ReviewGateSnapshot} {entries : List ReviewSnapshot}
    {entry : ReviewSnapshot} :
    entry ∈ (snapshot.withEntries localeCompare entries).perTestCase ↔ entry ∈ entries :=
  mem_sortSnapshotEntries

theorem ids_withEntries_perm (snapshot : ReviewGateSnapshot) (entries : List ReviewSnapshot) :
    ((snapshot.withEntries localeCompare entries).perTestCase.map (·.testCaseId)).Perm
      (entries.map (·.testCaseId)) :=
  (sortSnapshotEntries_perm entries).map _

/-! ## Refreshing -/

/-- What a refresh does to one entry. -/
def refreshed (eventId eventAt : JsString) (decisions : List (JsString × TestCasePolicyDecision))
    (escalated : List JsString) (entry : ReviewSnapshot) : ReviewSnapshot :=
  match changedEntry decisions escalated entry with
  | none => entry
  | some next => touchChanged eventId eventAt next

theorem changedEntry_eq_some {decisions : List (JsString × TestCasePolicyDecision)}
    {escalated : List JsString} {entry next : ReviewSnapshot} :
    changedEntry decisions escalated entry = some next ↔
      ∃ nextDecision, mapGet decisions entry.testCaseId = some nextDecision ∧
        next = reassess escalated nextDecision entry ∧ entry ≠ next := by
  unfold changedEntry
  cases mapGet decisions entry.testCaseId with
  | none => simp
  | some nextDecision =>
      have hiff := reviewSnapshotsEqual_iff entry (reassess escalated nextDecision entry)
      by_cases heq : entry = reassess escalated nextDecision entry
      · simp only [if_pos (hiff.mpr heq), Option.some.injEq, exists_eq_left', reduceCtorEq,
          false_iff, not_and, not_not]
        rintro rfl
        exact heq
      · simp only [if_neg (fun h ↦ heq (hiff.mp h)), Option.some.injEq, exists_eq_left']
        constructor
        · rintro rfl
          exact ⟨rfl, heq⟩
        · rintro ⟨rfl, -⟩
          rfl

theorem changedEntry_testCaseId {decisions : List (JsString × TestCasePolicyDecision)}
    {escalated : List JsString} {entry next : ReviewSnapshot}
    (h : changedEntry decisions escalated entry = some next) :
    next.testCaseId = entry.testCaseId := by
  obtain ⟨nextDecision, -, rfl, -⟩ := changedEntry_eq_some.mp h
  rfl

@[simp] theorem touchChanged_testCaseId (eventId eventAt : JsString) (changed : ReviewSnapshot) :
    (touchChanged eventId eventAt changed).testCaseId = changed.testCaseId := by
  simp only [touchChanged]
  split <;> rfl

@[simp] theorem refreshed_testCaseId (eventId eventAt : JsString)
    (decisions : List (JsString × TestCasePolicyDecision)) (escalated : List JsString)
    (entry : ReviewSnapshot) :
    (refreshed eventId eventAt decisions escalated entry).testCaseId = entry.testCaseId := by
  unfold refreshed
  split
  · rfl
  · next next hnext => rw [touchChanged_testCaseId, changedEntry_testCaseId hnext]

theorem nodup_changedEntries {decisions : List (JsString × TestCasePolicyDecision)}
    {escalated : List JsString} {entries : List ReviewSnapshot}
    (hids : (entries.map (·.testCaseId)).Nodup) :
    ((changedEntries decisions escalated entries).map (·.testCaseId)).Nodup := by
  refine hids.sublist ?_
  clear hids
  induction entries with
  | nil => simp [changedEntries]
  | cons entry entries ih =>
      unfold changedEntries at ih ⊢
      cases hentry : changedEntry decisions escalated entry with
      | none =>
          rw [List.filterMap_cons_none hentry, List.map_cons]
          exact ih.cons _
      | some next =>
          rw [List.filterMap_cons_some hentry, List.map_cons, List.map_cons,
            changedEntry_testCaseId hentry]
          exact ih.cons_cons _

/-- With distinct ids, the map of changed entries gives each entry its own change. -/
theorem refreshEntries_eq_map (eventId eventAt : JsString)
    (decisions : List (JsString × TestCasePolicyDecision)) (escalated : List JsString)
    {entries : List ReviewSnapshot} (hids : (entries.map (·.testCaseId)).Nodup) :
    refreshEntries eventId eventAt (changedEntries decisions escalated entries) entries =
      entries.map (refreshed eventId eventAt decisions escalated) := by
  refine List.map_congr_left fun entry hentry ↦ ?_
  have hget : mapGet (changedById (changedEntries decisions escalated entries)) entry.testCaseId =
      changedEntry decisions escalated entry := by
    have hfold := mapGet_foldl_mapSet ReviewSnapshot.testCaseId id
      (@nodup_changedEntries decisions escalated entries hids) []
      entry.testCaseId
    have hfind := find?_filterMap_of_mem (φ := changedEntry decisions escalated)
      (fun _ _ ↦ changedEntry_testCaseId) hids hentry
    refine hfold.trans ?_
    rw [changedEntries, hfind]
    simp
  rw [hget]
  rfl

theorem events_of_readEnvelope {files : JobFiles} {found : Option PersistedReviewEventsEnvelope}
    (h : readEnvelope jobId files = .ok found) : files.events = found := by
  unfold readEnvelope at h
  split at h
  · next hnone => exact hnone.trans (Except.ok.inj h)
  · next envelope hsome =>
      split at h
      · exact hsome.trans (Except.ok.inj h)
      · cases h

/-- A refresh is refused, or changes nothing, or appends its note and rewrites
the entries. -/
theorem refreshPolicyDecisions_cases {surroundings : Surroundings}
    {input : RefreshPolicyDecisionsInput} {files next : JobFiles}
    {result : RefreshPolicyDecisionsResult}
    (h : refreshPolicyDecisions localeCompare jobId surroundings input files = .ok (result, next)) :
    let policy := readConflictAwarePolicy surroundings input.policy
    let escalated := escalatedCases policy .multiSourceConflictPresent
    (next = files ∧ (∃ code, result = .refused code) ∧
        ∀ envelope snapshot, files = ⟨some envelope, some snapshot⟩ →
          ∀ decisions, acceptedDecisions jobId policy snapshot ≠ .ok decisions) ∨
      ∃ envelope snapshot decisions, files = ⟨some envelope, some snapshot⟩ ∧
        acceptedDecisions jobId policy snapshot = .ok decisions ∧
        let changed := changedEntries decisions escalated snapshot.perTestCase
        let event := refreshEvent jobId (surroundings.randomUUID 0) input policy
          envelope.nextSequence changed.length
        let snapshot' := snapshot.withEntries localeCompare (refreshEntries
          (surroundings.randomUUID 0) input.eventAt changed snapshot.perTestCase)
        (next = files ∧ changed = [] ∧ result = .ok snapshot 0 none) ∨
          (changed ≠ [] ∧ next = ⟨some (envelope.append event), some snapshot'⟩ ∧
            result = .ok snapshot' changed.length (some event)) := by
  intro policy escalated
  unfold refreshPolicyDecisions at h
  cases hread : readEnvelope jobId files with
  | error code => simp [hread, bind, Except.bind] at h
  | ok found =>
      simp only [hread, bind, Except.bind] at h
      have hevents := events_of_readEnvelope hread
      split at h
      · next envelope snapshot hsnapshot =>
          have hfiles : files = ⟨some envelope, some snapshot⟩ := by
            cases files
            simp_all
          split at h
          · next code hcode =>
              cases h
              refine .inl ⟨rfl, ⟨code, rfl⟩, ?_⟩
              rintro envelope' snapshot' hfiles' decisions hdecisions
              cases hfiles.symm.trans hfiles'
              exact nomatch hcode.symm.trans hdecisions
          · next decisions hdecisions =>
              refine .inr ⟨envelope, snapshot, decisions, hfiles, hdecisions, ?_⟩
              split at h
              · next hchanged =>
                  cases h
                  exact .inl ⟨rfl, hchanged, rfl⟩
              · next hchanged =>
                  cases h
                  exact .inr ⟨hchanged, rfl, rfl⟩
      · next hmissing =>
          cases h
          refine .inl ⟨rfl, ⟨_, rfl⟩, ?_⟩
          rintro envelope snapshot rfl decisions -
          exact hmissing envelope snapshot hevents.symm rfl

/-! ## Recording -/

/-- What a recorded event does to the entry it is about. -/
def recorded (eventId : JsString) (input : RecordTransitionInput) (kind : ReviewEventKind)
    (toState : ReviewState) (entry : ReviewSnapshot) : ReviewSnapshot :=
  if kind ≠ .note then applyEntryEffects entry toState eventId input.eventAt input.actor kind
  else { entry with lastEventId := eventId, lastEventAt := input.eventAt }

@[simp] theorem applyEntryEffects_testCaseId (entry : ReviewSnapshot) (toState : ReviewState)
    (eventId eventAt : JsString) (actor : Option JsString) (kind : ReviewEventKind) :
    (applyEntryEffects entry toState eventId eventAt actor kind).testCaseId =
      entry.testCaseId := by
  cases kind <;> simp only [applyEntryEffects, discardApprovals, reduceCtorEq, false_and, true_and,
    if_true, if_false] <;> split <;> rfl

@[simp] theorem recorded_testCaseId (eventId : JsString) (input : RecordTransitionInput)
    (kind : ReviewEventKind) (toState : ReviewState) (entry : ReviewSnapshot) :
    (recorded eventId input kind toState entry).testCaseId = entry.testCaseId := by
  unfold recorded
  split
  · simp
  · rfl

theorem recordEntries_some (eventId : JsString) (input : RecordTransitionInput)
    (kind : ReviewEventKind) (toState : ReviewState) (entry : ReviewSnapshot)
    (entries : List ReviewSnapshot) :
    recordEntries eventId input kind toState (some entry) entries =
      replaceEntry entry.testCaseId (recorded eventId input kind toState entry) entries := by
  by_cases hkind : kind = .note <;> simp [recordEntries, recorded, hkind]

theorem ids_replaceEntry {testCaseId : JsString} {updated : ReviewSnapshot}
    (h : updated.testCaseId = testCaseId) (entries : List ReviewSnapshot) :
    (replaceEntry testCaseId updated entries).map (·.testCaseId) =
      entries.map (·.testCaseId) := by
  unfold replaceEntry
  rw [List.map_map]
  refine List.map_congr_left fun entry _ ↦ ?_
  simp only [Function.comp_apply]
  split
  · next heq => rw [h, heq]
  · rfl

theorem locateEntry_ok {input : RecordTransitionInput} {entries : List ReviewSnapshot}
    {located : Option ReviewSnapshot} (h : locateEntry input entries = .ok located) :
    (located = none ∧ input.testCaseId = none ∧ input.kind = .note) ∨
      ∃ entry ∈ entries, located = some entry ∧ input.testCaseId = some entry.testCaseId := by
  unfold locateEntry at h
  split at h
  · next hid =>
      split at h
      · next hkind => exact .inl ⟨(Except.ok.inj h).symm, hid, hkind⟩
      · cases h
  · next testCaseId hid =>
      split at h
      · cases h
      · next entry hfind =>
          have hmatch : entry.testCaseId = testCaseId := by simpa using List.find?_some hfind
          exact .inr ⟨entry, List.mem_of_find?_eq_some hfind, (Except.ok.inj h).symm,
            hmatch ▸ hid⟩

theorem admitTransition_ok {input : RecordTransitionInput} {located : Option ReviewSnapshot}
    {kind : ReviewEventKind} {fromState toState : ReviewState}
    (h : admitTransition input located = .ok (kind, fromState, toState)) :
    kind = resolveEventKind input.kind located ∧
      fromState = (located.map (·.state)).getD .generated ∧
      applyFourEyesRefusals input.actor kind located = none ∧
      transitionReviewState fromState kind (located.map (·.policyDecision)) = .ok toState := by
  unfold admitTransition at h
  dsimp only at h
  split at h
  · cases h
  · next hrefusal =>
      split at h
      · cases h
      · next target htarget =>
          cases h
          exact ⟨rfl, rfl, hrefusal, htarget⟩

/-- A transition is refused, or appends its event and replaces the entry it is about. -/
theorem recordTransition_cases {surroundings : Surroundings} {input : RecordTransitionInput}
    {files next : JobFiles} {result : RecordTransitionResult}
    (h : recordTransition localeCompare jobId surroundings input files = .ok (result, next)) :
    (next = files ∧ ∃ code, result = .refused code) ∨
      ∃ envelope snapshot located kind fromState toState,
        files = ⟨some envelope, some snapshot⟩ ∧
        locateEntry input snapshot.perTestCase = .ok located ∧
        admitTransition input located = .ok (kind, fromState, toState) ∧
        let event := recordEvent jobId (surroundings.randomUUID 0) input kind fromState toState
          envelope.nextSequence
        let snapshot' := snapshot.withEntries localeCompare (recordEntries
          (surroundings.randomUUID 0) input kind toState located snapshot.perTestCase)
        next = ⟨some (envelope.append event), some snapshot'⟩ ∧ result = .ok event snapshot' := by
  unfold recordTransition at h
  simp only [pure, Except.pure, bind, Except.bind] at h
  split at h
  · cases h
    exact .inl ⟨rfl, _, rfl⟩
  split at h
  · cases h
    exact .inl ⟨rfl, _, rfl⟩
  split at h
  · cases h
    exact .inl ⟨rfl, _, rfl⟩
  split at h
  · cases h
  next found hread =>
  have hevents := events_of_readEnvelope hread
  split at h
  · next envelope snapshot hsnapshot =>
      split at h
      · cases h
        exact .inl ⟨rfl, _, rfl⟩
      · next located hlocated =>
          split at h
          · cases h
            exact .inl ⟨rfl, _, rfl⟩
          · next kind fromState toState hadmitted =>
              cases h
              have hfiles : files = ⟨some envelope, some snapshot⟩ := by
                cases files
                simp_all
              exact .inr ⟨envelope, snapshot, located, kind, fromState, toState, hfiles,
                hlocated, hadmitted, rfl, rfl⟩
  · cases h
    exact .inl ⟨rfl, _, rfl⟩

end

/-! ## One step -/

/-- No files yet, or both files of the job with distinct test case ids. -/
def WellFormed (jobId : JsString) (files : JobFiles) : Prop :=
  files = .empty ∨ ∃ envelope snapshot, files = ⟨some envelope, some snapshot⟩ ∧
    envelope.jobId = jobId ∧ (snapshot.perTestCase.map (·.testCaseId)).Nodup

section

variable (localeCompare : JsString → JsString → ℤ) (jobId : JsString)

/-- The files that seeding writes. -/
def seededFiles (surroundings : Surroundings) (input : SeedSnapshotInput) : JobFiles :=
  (seedSnapshot localeCompare jobId surroundings input .empty).2

/-- Everything a call can do to well-formed files. -/
inductive Effect (files : JobFiles) : Call → JobFiles → Prop
  | seeded {surroundings input} (hfiles : files = .empty) :
      Effect files (.seedSnapshot surroundings input)
        (seededFiles localeCompare jobId surroundings input)
  | seededBefore {surroundings input} {envelope snapshot}
      (hfiles : files = ⟨some envelope, some snapshot⟩) :
      Effect files (.seedSnapshot surroundings input) files
  | refreshRefused {surroundings input}
      (hrefused : ∀ envelope snapshot, files = ⟨some envelope, some snapshot⟩ → ∀ decisions,
        acceptedDecisions jobId (readConflictAwarePolicy surroundings input.policy) snapshot ≠
          .ok decisions) :
      Effect files (.refreshPolicyDecisions surroundings input) files
  | refreshIdle {surroundings input} {envelope snapshot decisions}
      (hfiles : files = ⟨some envelope, some snapshot⟩)
      (hdecisions : acceptedDecisions jobId
        (readConflictAwarePolicy surroundings input.policy) snapshot = .ok decisions)
      (hidle : ∀ entry ∈ snapshot.perTestCase, changedEntry decisions
        (escalatedCases (readConflictAwarePolicy surroundings input.policy)
          .multiSourceConflictPresent) entry = none) :
      Effect files (.refreshPolicyDecisions surroundings input) files
  | refreshed {surroundings input} {envelope snapshot decisions event}
      (hfiles : files = ⟨some envelope, some snapshot⟩)
      (hdecisions : acceptedDecisions jobId
        (readConflictAwarePolicy surroundings input.policy) snapshot = .ok decisions)
      (hevent : event.testCaseId = none) (hsequence : event.sequence = envelope.nextSequence) :
      Effect files (.refreshPolicyDecisions surroundings input)
        ⟨some (envelope.append event), some (snapshot.withEntries localeCompare
          (snapshot.perTestCase.map (refreshed (surroundings.randomUUID 0) input.eventAt decisions
            (escalatedCases (readConflictAwarePolicy surroundings input.policy)
              .multiSourceConflictPresent))))⟩
  | recordRefused {surroundings input} : Effect files (.recordTransition surroundings input) files
  | noted {surroundings input} {envelope snapshot event}
      (hfiles : files = ⟨some envelope, some snapshot⟩)
      (hevent : event.testCaseId = none) (hsequence : event.sequence = envelope.nextSequence) :
      Effect files (.recordTransition surroundings input)
        ⟨some (envelope.append event),
          some (snapshot.withEntries localeCompare snapshot.perTestCase)⟩
  | recorded {surroundings input} {envelope snapshot entry kind toState}
      (hfiles : files = ⟨some envelope, some snapshot⟩) (hentry : entry ∈ snapshot.perTestCase)
      (hid : input.testCaseId = some entry.testCaseId)
      (hadmitted : admitTransition input (some entry) = .ok (kind, entry.state, toState)) :
      Effect files (.recordTransition surroundings input)
        ⟨some (envelope.append (recordEvent jobId (surroundings.randomUUID 0) input kind
            entry.state toState envelope.nextSequence)),
          some (snapshot.withEntries localeCompare (replaceEntry entry.testCaseId
            (recorded (surroundings.randomUUID 0) input kind toState entry)
            snapshot.perTestCase))⟩

variable {localeCompare jobId}

theorem effect_seedSnapshot {files : JobFiles} (hfiles : WellFormed jobId files)
    (surroundings : Surroundings) (input : SeedSnapshotInput) :
    Effect localeCompare jobId files (.seedSnapshot surroundings input)
      (step localeCompare jobId files (.seedSnapshot surroundings input)) := by
  rcases hfiles with rfl | ⟨envelope, snapshot, rfl, -, -⟩
  · exact .seeded rfl
  · exact .seededBefore rfl

theorem effect_refreshPolicyDecisions {files : JobFiles} (hfiles : WellFormed jobId files)
    (surroundings : Surroundings) (input : RefreshPolicyDecisionsInput) :
    Effect localeCompare jobId files (.refreshPolicyDecisions surroundings input)
      (step localeCompare jobId files (.refreshPolicyDecisions surroundings input)) := by
  have hread : ∃ found, readEnvelope jobId files = .ok found := by
    rcases hfiles with rfl | ⟨envelope, snapshot, rfl, hjob, -⟩
    · exact ⟨none, rfl⟩
    · exact ⟨some envelope, if_pos hjob⟩
  obtain ⟨result, next, hcall⟩ : ∃ result next,
      refreshPolicyDecisions localeCompare jobId surroundings input files =
        .ok (result, next) := by
    obtain ⟨found, hfound⟩ := hread
    unfold refreshPolicyDecisions
    simp only [hfound, bind, Except.bind]
    split
    · split
      · exact ⟨_, _, rfl⟩
      · split <;> exact ⟨_, _, rfl⟩
    · exact ⟨_, _, rfl⟩
  simp only [step, hcall]
  rcases refreshPolicyDecisions_cases hcall with ⟨rfl, -, hrefused⟩ |
    ⟨envelope, snapshot, decisions, rfl, hdecisions, ⟨rfl, hidle, -⟩ | ⟨-, rfl, -⟩⟩
  · exact .refreshRefused hrefused
  · refine .refreshIdle rfl hdecisions fun entry hentry ↦ ?_
    rw [changedEntries, List.filterMap_eq_nil_iff] at hidle
    exact hidle entry hentry
  · obtain hempty | ⟨envelope', snapshot', hfiles, -, hids⟩ := hfiles
    · cases hempty
    · cases hfiles
      rw [refreshEntries_eq_map _ _ _ _ hids]
      exact .refreshed rfl hdecisions rfl rfl

theorem effect_recordTransition (files : JobFiles) (surroundings : Surroundings)
    (input : RecordTransitionInput) :
    Effect localeCompare jobId files (.recordTransition surroundings input)
      (step localeCompare jobId files (.recordTransition surroundings input)) := by
  unfold step
  dsimp only
  split
  · exact .recordRefused
  · next result next hcall =>
      rcases recordTransition_cases hcall with ⟨rfl, -⟩ |
        ⟨envelope, snapshot, located, kind, fromState, toState, rfl, hlocated, hadmitted, rfl, -⟩
      · exact .recordRefused
      · rcases locateEntry_ok hlocated with ⟨rfl, hid, -⟩ | ⟨entry, hentry, rfl, hid⟩
        · exact .noted rfl hid rfl
        · obtain ⟨-, rfl, -⟩ := admitTransition_ok hadmitted
          rw [recordEntries_some]
          exact .recorded rfl hentry hid hadmitted

/-- The step relation covers every call on well-formed files. -/
theorem step_effect {files : JobFiles} (hfiles : WellFormed jobId files) (call : Call) :
    Effect localeCompare jobId files call (step localeCompare jobId files call) := by
  cases call with
  | seedSnapshot surroundings input => exact effect_seedSnapshot hfiles surroundings input
  | recordTransition surroundings input => exact effect_recordTransition files surroundings input
  | refreshPolicyDecisions surroundings input =>
      exact effect_refreshPolicyDecisions hfiles surroundings input

theorem seedCases_entries (input : SeedSnapshotInput) (policy : TestCasePolicyReport)
    (randomUUID : ℕ → JsString) (sequence : ℕ) (testCases : List GeneratedTestCase) :
    (seedCases jobId input policy randomUUID sequence testCases).2.map (·.testCaseId) =
      testCases.map (·.id) := by
  induction testCases generalizing sequence with
  | nil => rfl
  | cons testCase rest ih => simp [seedCases, seedEntry, ih]

theorem mem_seedCases_entries {input : SeedSnapshotInput} {policy : TestCasePolicyReport}
    {randomUUID : ℕ → JsString} {sequence : ℕ} {testCases : List GeneratedTestCase}
    {entry : ReviewSnapshot}
    (h : entry ∈ (seedCases jobId input policy randomUUID sequence testCases).2) :
    ∃ testCase ∈ testCases, ∃ eventId, entry = seedEntry input policy eventId testCase := by
  induction testCases generalizing sequence with
  | nil => simp [seedCases] at h
  | cons testCase rest ih =>
      rcases List.mem_cons.mp h with rfl | h
      · exact ⟨testCase, List.mem_cons_self, _, rfl⟩
      · obtain ⟨testCase', hmem, heq⟩ := ih h
        exact ⟨testCase', List.mem_cons_of_mem _ hmem, heq⟩

/-- A seeded job has both files, and an entry for each test case. -/
theorem seededFiles_eq (surroundings : Surroundings) (input : SeedSnapshotInput) :
    ∃ envelope snapshot,
      seededFiles localeCompare jobId surroundings input = ⟨some envelope, some snapshot⟩ ∧
      envelope.jobId = jobId ∧ envelope.nextSequence = 1 + input.testCases.length ∧
      envelope.events = (seedCases jobId input (readConflictAwarePolicy surroundings input.policy)
        surroundings.randomUUID 1 input.testCases).1 ∧
      snapshot.perTestCase.Perm (seedCases jobId input
        (readConflictAwarePolicy surroundings input.policy) surroundings.randomUUID 1
        input.testCases).2 :=
  ⟨_, _, rfl, rfl, rfl, rfl, sortSnapshotEntries_perm _⟩

theorem wellFormed_effect {files next : JobFiles} {call : Call} (hfiles : WellFormed jobId files)
    (hcall : call.HasDistinctIds) (h : Effect localeCompare jobId files call next) :
    WellFormed jobId next := by
  have hstored : ∀ {envelope snapshot}, files = ⟨some envelope, some snapshot⟩ →
      envelope.jobId = jobId ∧ (snapshot.perTestCase.map (·.testCaseId)).Nodup := by
    rintro envelope snapshot rfl
    rcases hfiles with hempty | ⟨envelope', snapshot', hsame, hjob, hids⟩
    · cases hempty
    · cases hsame
      exact ⟨hjob, hids⟩
  cases h with
  | @seeded surroundings input _ =>
      obtain ⟨envelope, snapshot, hseeded, hjob, -, -, hentries⟩ :=
        @seededFiles_eq localeCompare jobId surroundings input
      refine .inr ⟨envelope, snapshot, hseeded, hjob, ?_⟩
      rw [(hentries.map _).nodup_iff, seedCases_entries]
      exact hcall
  | seededBefore _ => exact hfiles
  | refreshRefused _ => exact hfiles
  | refreshIdle _ _ _ => exact hfiles
  | recordRefused => exact hfiles
  | refreshed hstate _ _ _ =>
      obtain ⟨hjob, hids⟩ := hstored hstate
      refine .inr ⟨_, _, rfl, hjob, ?_⟩
      rw [(ids_withEntries_perm _ _).nodup_iff, List.map_map]
      simpa [Function.comp_def] using hids
  | noted hstate _ _ =>
      obtain ⟨hjob, hids⟩ := hstored hstate
      exact .inr ⟨_, _, rfl, hjob, (ids_withEntries_perm _ _).nodup_iff.mpr hids⟩
  | recorded hstate _ _ _ =>
      obtain ⟨hjob, hids⟩ := hstored hstate
      refine .inr ⟨_, _, rfl, hjob, ?_⟩
      rw [(ids_withEntries_perm _ _).nodup_iff, ids_replaceEntry (by simp)]
      exact hids

end

end TestIntelligence.ProductionRunner
