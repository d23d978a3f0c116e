import TestIntelligence.Integrations.AlmGates
import TestIntelligence.Integrations.AlmTenant

/-!
# What the gates of the ALM transfer let through

Where a code is raised the client sees no lookup, create or step call; where none is raised
every entry of the preview has met every gate and gets one record.
-/

namespace TestIntelligence.Integrations

open Js Review ProductionRunner

/-! ## The client and the sink with a log -/

/-- The calls that look up or write. -/
inductive TransferCall
  | lookupByExternalId (folder : QcApiFolderHandle) (externalIdCandidate : JsString)
  | createTestEntity (folder : QcApiFolderHandle) (entry : QcMappingPreviewEntry)
  | createDesignStep (qcEntityId : JsString) (step : QcApiDesignStepRequest)

section

variable {σ τ : Type}

def logCall {α : Type} (call : TransferCall) (f : σ → σ × α) (s : σ × List TransferCall) :
    (σ × List TransferCall) × α :=
  (((f s.1).1, s.2 ++ [call]), (f s.1).2)

def QcApiTransferClient.logged (client : QcApiTransferClient σ) :
    QcApiTransferClient (σ × List TransferCall) where
  resolveFolder path s := (((client.resolveFolder path s.1).1, s.2),
    (client.resolveFolder path s.1).2)
  lookupByExternalId folder externalId :=
    logCall (.lookupByExternalId folder externalId) (client.lookupByExternalId folder externalId)
  createTestEntity folder entry :=
    logCall (.createTestEntity folder entry) (client.createTestEntity folder entry)
  createDesignStep qcEntityId step :=
    logCall (.createDesignStep qcEntityId step) (client.createDesignStep qcEntityId step)

/-- The log has the events that the sink is offered. -/
def loggedSink (sink : TransferReviewEventSink τ) :
    TransferReviewEventSink (τ × List TransferredEvent) :=
  fun event t ↦ (((sink event t.1).1, t.2 ++ [event]), (sink event t.1).2)

/-! ## Gates -/

/-- What the gates have established about an entry. -/
structure Gated (input : RunOpenTextAlmApiTransferInput) (entry : QcMappingPreviewEntry) :
    Prop where
  exportable : entry.exportable = true
  snapshot : ∃ snapshot, mapGet (buildSnapshotIndex input.reviewSnapshot) entry.testCaseId =
      some snapshot ∧ (snapshot.state = .exported ∨ snapshot.state = .transferred) ∧
    snapshot.policyDecision ≠ .blocked ∧ isFourEyesPending snapshot = false
  dryRun : ∃ dryRun, input.dryRun = some dryRun ∧ dryRun.refused = false ∧
    dryRun.jobId = input.jobId ∧ dryRun.profileId = input.profile.id ∧
    dryRun.profileVersion = input.profile.version ∧
    ∃ payload ∈ dryRun.plannedPayloads, payload.testCaseId = entry.testCaseId ∧
      payload.externalIdCandidate = entry.externalIdCandidate ∧
      payload.targetFolderPath = entry.targetFolderPath ∧
      payload.designStepCount = entry.designSteps.length
  folder : isFolderPathUnderRoot entry.targetFolderPath input.profile.targetFolderPath = true

@[simp] theorem refuseIf_eq_nil {fires : Bool} {code : JsString} :
    refuseIf fires code = [] ↔ fires = false := by
  cases fires <;> simp [refuseIf]

theorem mem_of_mapGet_planned {payloads : List DryRunPlannedEntityPayload} {testCaseId : JsString}
    {planned : DryRunPlannedEntityPayload}
    (h : mapGet (payloads.foldl
      (fun index payload ↦ mapSet index payload.testCaseId payload) []) testCaseId =
        some planned) : planned ∈ payloads ∧ planned.testCaseId = testCaseId := by
  have hindex : ∀ (index : List (JsString × DryRunPlannedEntityPayload)),
      ∀ p ∈ payloads.foldl (fun index payload ↦ mapSet index payload.testCaseId payload) index,
        p ∈ index ∨ p.2 ∈ payloads ∧ p.2.testCaseId = p.1 := by
    clear h
    induction payloads with
    | nil => exact fun index p hp ↦ .inl hp
    | cons payload payloads ih =>
        intro index p hp
        rcases ih (mapSet index payload.testCaseId payload) p hp with hp | ⟨hmem, hid⟩
        · rcases mem_mapSet hp with rfl | hp
          · exact .inr ⟨List.mem_cons_self, rfl⟩
          · exact .inl hp
        · exact .inr ⟨List.mem_cons_of_mem _ hmem, hid⟩
  rcases hindex [] _ (mem_of_mapGet h) with hnil | hplanned
  · cases hnil
  · exact hplanned

variable {sha256 : Bytes → JsString} {localeCompare : JsString → JsString → ℤ}
variable {input : RunOpenTextAlmApiTransferInput} {entry : QcMappingPreviewEntry}

theorem snapshot_of_isEligible {snapshotIndex : List (JsString × ReviewSnapshot)}
    (h : isEligible snapshotIndex entry = true) :
    entry.exportable = true ∧ ∃ snapshot, mapGet snapshotIndex entry.testCaseId = some snapshot ∧
      (snapshot.state = .exported ∨ snapshot.state = .transferred) ∧
      snapshot.policyDecision ≠ .blocked ∧ isFourEyesPending snapshot = false := by
  unfold isEligible at h
  cases hsnapshot : mapGet snapshotIndex entry.testCaseId with
  | none => simp [hsnapshot] at h
  | some snapshot =>
      simp only [hsnapshot, Bool.and_eq_true, isTransferableState, Bool.or_eq_true,
        decide_eq_true_eq, Bool.not_eq_true'] at h
      obtain ⟨⟨⟨hstate, hexportable⟩, hpolicy⟩, hpending⟩ := h
      exact ⟨hexportable, snapshot, rfl, hstate, hpolicy, hpending⟩

theorem folder_of_profileRefusals (h : profileRefusals input = [])
    (hentry : entry ∈ input.preview) :
    isFolderPathUnderRoot entry.targetFolderPath input.profile.targetFolderPath = true := by
  simp only [profileRefusals, List.append_eq_nil_iff, refuseIf_eq_nil] at h
  have hfolder := (List.any_eq_false.mp h.2) entry hentry
  simpa using (by simpa using hfolder : _ ∧ _).2

theorem dryRun_of_dryRunRefusals (h : dryRunRefusals input = []) (hentry : entry ∈ input.preview) :
    ∃ dryRun, input.dryRun = some dryRun ∧ dryRun.refused = false ∧
      dryRun.jobId = input.jobId ∧ dryRun.profileId = input.profile.id ∧
      dryRun.profileVersion = input.profile.version ∧
      ∃ payload ∈ dryRun.plannedPayloads, payload.testCaseId = entry.testCaseId ∧
        payload.externalIdCandidate = entry.externalIdCandidate ∧
        payload.targetFolderPath = entry.targetFolderPath ∧
        payload.designStepCount = entry.designSteps.length := by
  unfold dryRunRefusals at h
  cases hdryRun : input.dryRun with
  | none => simp [hdryRun] at h
  | some dryRun =>
      simp only [hdryRun, List.append_eq_nil_iff, refuseIf_eq_nil] at h
      obtain ⟨⟨⟨⟨hsame, hrefused⟩, -⟩, -⟩, hpayloads⟩ := h
      simp only [Bool.or_eq_false_iff, decide_eq_false_iff_not, ne_eq, not_not] at hsame
      simp only [Bool.not_eq_false', dryRunPayloadsMatchPreview, Bool.and_eq_true,
        List.all_eq_true] at hpayloads
      have hmatch := hpayloads.2 entry hentry
      unfold payloadMatches at hmatch
      split at hmatch
      · cases hmatch
      · next planned hplanned =>
        simp only [Bool.and_eq_true, decide_eq_true_eq] at hmatch
        obtain ⟨hmem, hid⟩ := mem_of_mapGet_planned hplanned
        obtain ⟨⟨⟨⟨⟨⟨hjob, -⟩, -⟩, -⟩, -⟩, hprofile⟩, hversion⟩ := hsame
        exact ⟨dryRun, rfl, hrefused, hjob, hprofile, hversion, planned, hmem, hid,
          hmatch.1.1, hmatch.1.2, hmatch.2⟩

/-- Where no code is raised, every entry has met every gate. -/
theorem gated_of_collectGateRefusals {reviewEventSink : Option (TransferEntityRecord → Bool)}
    (h : collectGateRefusals (input.toTransferInput sha256 localeCompare reviewEventSink) = [])
    (hentry : entry ∈ input.preview) : Gated input entry := by
  obtain ⟨hother, hentries⟩ := List.append_eq_nil_iff.mp h
  change otherRefusals sha256 localeCompare input = [] at hother
  change entryRefusals (buildSnapshotIndex input.reviewSnapshot) input.preview = [] at hentries
  simp only [otherRefusals, List.append_eq_nil_iff] at hother
  obtain ⟨⟨⟨-, hprofile⟩, hdryRun⟩, -⟩ := hother
  obtain ⟨hexportable, hsnapshot⟩ := snapshot_of_isEligible
    (isEligible_of_entryRefusals hentries hentry)
  exact ⟨hexportable, hsnapshot, dryRun_of_dryRunRefusals hdryRun hentry,
    folder_of_profileRefusals hprofile hentry⟩

/-! ## One attempt for each entry -/

variable {client : QcApiTransferClient σ}

theorem isRecordOf_fillEntity (qcEntityId recordedAt : JsString)
    (steps : List QcApiDesignStepRequest) (preExisting : Bool) (s : σ) :
    IsRecordOf (fillEntity client entry qcEntityId recordedAt steps preExisting s).2.record
      entry := by
  unfold fillEntity
  split <;> exact ⟨rfl, rfl, rfl⟩

variable (entry client) in
theorem isRecordOf_attemptTransfer (folder : QcApiFolderHandle) (recordedAt : JsString) (s : σ) :
    IsRecordOf (attemptTransfer client folder entry recordedAt s).2.record entry := by
  unfold attemptTransfer
  split
  · exact ⟨rfl, rfl, rfl⟩
  · split
    · exact isRecordOf_fillEntity _ _ _ _ _
    · exact ⟨rfl, rfl, rfl⟩
  · split
    · exact ⟨rfl, rfl, rfl⟩
    · exact isRecordOf_fillEntity _ _ _ _ _

variable (client) in
theorem transferEntries_eq_ok (transfer : TransferInput)
    {folderByPath : List (JsString × QcApiFolderHandle)} {eligible : List QcMappingPreviewEntry}
    (hfolders : ∀ entry ∈ eligible, mapGet folderByPath entry.targetFolderPath ≠ none) (n : ℕ)
    (s : σ) : ∃ s' attempts,
      transferEntries client transfer folderByPath eligible n s = (s', .ok attempts) ∧
        List.Forall₂ (fun entry attempt ↦ IsRecordOf attempt.record entry) eligible attempts := by
  induction eligible generalizing n s with
  | nil => exact ⟨s, [], rfl, .nil⟩
  | cons entry rest ih =>
      obtain ⟨hfolder, hfolders⟩ := List.forall_mem_cons.mp hfolders
      obtain ⟨folder, hfolder⟩ := Option.ne_none_iff_exists'.mp hfolder
      have hattempt := isRecordOf_attemptTransfer entry client folder
        (transfer.now n) s
      obtain ⟨s', attempts, hrest, hrecords⟩ := ih hfolders (n + 1)
        (attemptTransfer client folder entry (transfer.now n) s).1
      refine ⟨s', (attemptTransfer client folder entry (transfer.now n) s).2 :: attempts, ?_,
        .cons hattempt hrecords⟩
      rw [transferEntries, hfolder]
      simp only [hrest]
      rfl

theorem resolveTargetFolders_some {transfer : TransferInput} {paths : List JsString}
    {folderByPath folders : List (JsString × QcApiFolderHandle)} {s s' : σ}
    (h : resolveTargetFolders client sha256 transfer paths folderByPath s = (s', some folders)) :
    ∀ path, path ∈ paths ∨ mapGet folderByPath path ≠ none → mapGet folders path ≠ none := by
  induction paths generalizing folderByPath s with
  | nil =>
      obtain ⟨-, hfolders⟩ := Prod.mk.inj h
      rw [← Option.some.inj hfolders]
      rintro path (hpath | hpath)
      · cases hpath
      · exact hpath
  | cons first rest ih =>
      rw [resolveTargetFolders] at h
      split at h
      · next t folder _ =>
        intro path hpath
        apply ih h
        rw [mapGet_mapSet]
        by_cases heq : path = first
        · exact .inr (by simp [heq])
        · rw [if_neg heq]
          exact hpath.imp_left fun hmem ↦ (List.mem_cons.mp hmem).resolve_left heq
      · exact absurd (congrArg Prod.snd h) (by simp)

variable (sha256 client) in
/-- Resolving folders makes no call that the log shows. -/
theorem log_resolveTargetFolders (transfer : TransferInput) (paths : List JsString)
    (folderByPath : List (JsString × QcApiFolderHandle)) (s : σ × List TransferCall) :
    (resolveTargetFolders client.logged sha256 transfer paths folderByPath s).1.2 = s.2 := by
  induction paths generalizing folderByPath s with
  | nil => rfl
  | cons first rest ih =>
      have hone : (resolveTargetFolder client.logged sha256 transfer first s).1.2 = s.2 := by
        unfold resolveTargetFolder
        split
        · split
          · split <;> rfl
          · rfl
        · split
          · next hresolve => exact (congrArg (·.1.2) hresolve).symm
          · next hresolve => exact (congrArg (·.1.2) hresolve).symm
      rw [resolveTargetFolders]
      split
      · next t folder hstep =>
        rw [hstep] at hone
        rw [ih, hone]
      · next t hstep =>
        rw [hstep] at hone
        exact hone

/-! ## Events and counts -/

theorem outcome_sinkFailed (record : TransferEntityRecord) :
    (sinkFailed record).outcome = record.outcome := rfl

variable (sha256 input) in
/-- The sink is offered the transferred records, and no record changes but in its detail. -/
theorem appendTransferred_spec (sink : TransferReviewEventSink τ)
    (records : List TransferEntityRecord) (t : τ × List TransferredEvent) :
    (appendTransferred sha256 input (loggedSink sink) records t).1.2 =
        t.2 ++ (records.filter (·.outcome.isTransferred)).map (transferredEvent sha256 input) ∧
      List.Forall₂ (fun record record' ↦ record' = record ∨ record' = sinkFailed record) records
        (appendTransferred sha256 input (loggedSink sink) records t).2 := by
  induction records generalizing t with
  | nil => exact ⟨by simp [appendTransferred], .nil⟩
  | cons record rest ih =>
      rw [appendTransferred]
      split
      · next htransferred =>
        obtain ⟨hlog, hrecords⟩ :=
          ih (loggedSink sink (transferredEvent sha256 input record) t).1
        refine ⟨?_, .cons ?_ hrecords⟩
        · rw [hlog, List.filter_cons, if_pos htransferred]
          simp [loggedSink]
        · split
          · exact .inl rfl
          · exact .inr rfl
      · next htransferred =>
        obtain ⟨hlog, hrecords⟩ := ih t
        exact ⟨by rw [hlog, List.filter_cons, if_neg htransferred], .cons (.inl rfl) hrecords⟩

theorem countP_outcomes (records : List TransferEntityRecord) :
    records.countP (·.outcome = .created) + records.countP (·.outcome = .skippedDuplicate) +
      records.countP (·.outcome = .failed) + records.countP (·.outcome = .refused) =
        records.length := by
  induction records with
  | nil => rfl
  | cons record records ih =>
      simp only [List.countP_cons, List.length_cons]
      cases record.outcome <;> simp <;> omega

/-! ## The whole run -/

def entryKey (entry : QcMappingPreviewEntry) : JsString × JsString × JsString :=
  (entry.testCaseId, entry.externalIdCandidate, entry.targetFolderPath)

def recordKey (record : TransferEntityRecord) : JsString × JsString × JsString :=
  (record.testCaseId, record.externalIdCandidate, record.targetFolderPath)

/-- What a report says about the calls of the run and the events it offered. -/
structure GatedTransfer (sha256 : Bytes → JsString) (input : RunOpenTextAlmApiTransferInput)
    (hasSink : Bool) (calls : List TransferCall) (events : List TransferredEvent)
    (report : TransferReport) : Prop where
  refused : report.refusalCodes ≠ [] → calls = [] ∧ report.records = [] ∧ events = []
  gated : report.refusalCodes = [] → ∀ entry ∈ input.preview, Gated input entry
  records : report.refusalCodes = [] →
    (report.records.map recordKey).Perm (input.preview.map entryKey)
  counts : report.createdCount + report.skippedDuplicateCount + report.failedCount +
    report.refusedCount = report.records.length
  events : report.refusalCodes = [] → hasSink = true →
    events.Perm ((report.records.filter (·.outcome.isTransferred)).map
      (transferredEvent sha256 input))

theorem gatedTransfer_refusedReport {hasSink : Bool} {codes : List JsString} (hcodes : codes ≠ []) :
    GatedTransfer sha256 input hasSink [] [] (refusedReport codes) := by
  have hne : sortedUnique codes ≠ [] := by
    obtain ⟨code, hcode⟩ := List.exists_mem_of_ne_nil codes hcodes
    apply List.ne_nil_of_mem (a := code)
    simpa [sortedUnique] using hcode
  exact ⟨fun _ ↦ ⟨rfl, rfl, rfl⟩, fun h ↦ absurd h hne, fun h ↦ absurd h hne, rfl,
    fun h ↦ absurd h hne⟩

/-- What the sink leaves alone in the records. -/
theorem map_records_of_forall₂ {α : Type} {f : TransferEntityRecord → α}
    (hf : ∀ record, f (sinkFailed record) = f record) {records records' : List TransferEntityRecord}
    (h : List.Forall₂ (fun record record' ↦ record' = record ∨ record' = sinkFailed record) records
      records') : records'.map f = records.map f := by
  induction h with
  | nil => rfl
  | cons hone _ ih =>
      rw [List.map_cons, List.map_cons, ih]
      rcases hone with rfl | rfl
      · rfl
      · rw [hf]

theorem map_recordKey_of_forall₂ {eligible : List QcMappingPreviewEntry}
    {attempts : List AttemptResult}
    (h : List.Forall₂ (fun entry attempt ↦ IsRecordOf attempt.record entry) eligible attempts) :
    (attempts.map (·.record)).map recordKey = eligible.map entryKey := by
  induction h with
  | nil => rfl
  | cons hone _ ih =>
      obtain ⟨hid, hexternal, hfolder⟩ := hone
      simp only [List.map_cons, ih]
      rw [recordKey, hid, hexternal, hfolder, entryKey]

theorem sortPreviewEntries_perm {reviewEventSink : Option (TransferEntityRecord → Bool)}
    (h : collectGateRefusals (input.toTransferInput sha256 localeCompare reviewEventSink) = []) :
    (sortPreviewEntries localeCompare input.preview (buildSnapshotIndex input.reviewSnapshot)).Perm
      input.preview := by
  have hentries : entryRefusals (buildSnapshotIndex input.reviewSnapshot) input.preview = [] :=
    (List.append_eq_nil_iff.mp h).2
  apply (sortBy_perm _ _).trans
  rw [List.filter_eq_self.mpr fun entry hentry ↦ isEligible_of_entryRefusals hentries hentry]

/-- The events of the transferred records, before and after the sink noted its failures. -/
theorem events_of_forall₂ {records records' : List TransferEntityRecord}
    (h : List.Forall₂ (fun record record' ↦ record' = record ∨ record' = sinkFailed record) records
      records') :
    (records'.filter (·.outcome.isTransferred)).map (transferredEvent sha256 input) =
      (records.filter (·.outcome.isTransferred)).map (transferredEvent sha256 input) := by
  induction h with
  | nil => rfl
  | cons hone _ ih =>
      simp only [List.filter_cons]
      rcases hone with rfl | rfl
      · split
        · rw [List.map_cons, List.map_cons, ih]
        · exact ih
      · rw [outcome_sinkFailed]
        split
        · rw [List.map_cons, List.map_cons, ih]
          rfl
        · exact ih

theorem gatedTransfer_reportOf {hasSink : Bool} {calls : List TransferCall}
    {events : List TransferredEvent} {records records' : List TransferEntityRecord}
    {created : List QcCreatedEntity} (hgated : ∀ entry ∈ input.preview, Gated input entry)
    (hkeys : (records.map recordKey).Perm (input.preview.map entryKey))
    (hnoted : List.Forall₂ (fun record record' ↦ record' = record ∨ record' = sinkFailed record)
      records records')
    (hevents : hasSink = true → events =
      (records.filter (·.outcome.isTransferred)).map (transferredEvent sha256 input)) :
    GatedTransfer sha256 input hasSink calls events (reportOf localeCompare records' created) where
  refused h := absurd rfl h
  gated _ := hgated
  records _ := by
    rw [← map_records_of_forall₂ (fun _ ↦ rfl) hnoted] at hkeys
    exact ((sortBy_perm _ records').map recordKey).trans hkeys
  counts := countP_outcomes _
  events _ hsink := by
    rw [hevents hsink, ← events_of_forall₂ hnoted]
    exact ((sortBy_perm _ records').symm.filter _).map _

/-- What a run leaves behind: the log of the client, the log of the sink, and the result. -/
def RunGated (sha256 : Bytes → JsString) (input : RunOpenTextAlmApiTransferInput)
    (hasSink : Bool) : ((σ × List TransferCall) × τ × List TransferredEvent) ×
      Except JsString TransferReport → Prop
  | (((_, calls), (_, events)), .error _) => input.jobId = [] ∧ calls = [] ∧ events = []
  | (((_, calls), (_, events)), .ok report) =>
      input.jobId ≠ [] ∧ GatedTransfer sha256 input hasSink calls events report

variable (sha256 input) in
theorem noteReviewEvents_spec (sink : Option (TransferReviewEventSink τ))
    (records : List TransferEntityRecord) (t : τ) :
    List.Forall₂ (fun record record' ↦ record' = record ∨ record' = sinkFailed record) records
        (noteReviewEvents sha256 input (sink.map loggedSink) records (t, [])).2 ∧
      (sink.isSome = true →
        (noteReviewEvents sha256 input (sink.map loggedSink) records (t, [])).1.2 =
          (records.filter (·.outcome.isTransferred)).map (transferredEvent sha256 input)) := by
  cases sink with
  | none => exact ⟨List.forall₂_same.mpr fun record _ ↦ .inl rfl, fun h ↦ by cases h⟩
  | some sink =>
      obtain ⟨hlog, hrecords⟩ := appendTransferred_spec sha256 input sink
        records (t, [])
      exact ⟨hrecords, fun _ ↦ hlog⟩

theorem runGated_transferAll {sink : Option (TransferReviewEventSink τ)}
    {folderByPath : List (JsString × QcApiFolderHandle)} {eligible : List QcMappingPreviewEntry}
    (hjob : input.jobId ≠ []) (hgated : ∀ entry ∈ input.preview, Gated input entry)
    (hperm : eligible.Perm input.preview)
    (hfolders : ∀ entry ∈ eligible, mapGet folderByPath entry.targetFolderPath ≠ none)
    (s : σ × List TransferCall) (t : τ) :
    RunGated sha256 input sink.isSome (input.transferAll sha256 localeCompare client.logged
      (sink.map loggedSink) folderByPath eligible s (t, [])) := by
  obtain ⟨s', attempts, hattempts, hrecords⟩ := transferEntries_eq_ok client.logged
    (input.toTransferInput sha256 localeCompare none) hfolders 0 s
  obtain ⟨hnoted, hevents⟩ := noteReviewEvents_spec sha256 input sink
    (attempts.map (·.record)) t
  unfold RunOpenTextAlmApiTransferInput.transferAll
  rw [hattempts]
  refine ⟨hjob, gatedTransfer_reportOf hgated ?_ hnoted hevents⟩
  rw [map_recordKey_of_forall₂ hrecords]
  exact hperm.map entryKey

end

end TestIntelligence.Integrations
