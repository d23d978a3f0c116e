import TestIntelligence.Integrations.TmsPushPipeline

/-!
# What a push accounts for

Once a session is open, an error of `validateProject`, `mapTestCase`, `chunkBatches` or
`pushTestCaseBatch` leaves the pipeline without a report.
-/

namespace TestIntelligence.Integrations

open Js ProductionRunner Systems

/-! ## The adapter with a log -/

inductive TmsEvent
  | opened (session : TmsAdapterSession)
  | reported (results : List TmsPushAttemptResult)
  | closed (session : TmsAdapterSession)

variable {σ π : Type}

/-- The log has the sessions that were opened, what batches returned, and the sessions that
`disconnect` was called for. -/
def TmsAdapter.logged (adapter : TmsAdapter σ π) : TmsAdapter (σ × List TmsEvent) π where
  adapterId := adapter.adapterId
  version := adapter.version
  connect input := (adapter.connect input).logging .opened
  validateProject session := (adapter.validateProject session).silent TmsEvent
  mapTestCase session runId entry := (adapter.mapTestCase session runId entry).silent TmsEvent
  pushTestCaseBatch session dryRun mapped :=
    (adapter.pushTestCaseBatch session dryRun mapped).logging .reported
  disconnect session := (adapter.disconnect session).announcing (.closed session)

/-- What callers rely on: mapping keeps the id of the case, and a batch that returns has one
result for each of its cases. -/
structure TmsAdapter.ResultPerCase (adapter : TmsAdapter σ π) : Prop where
  mapTestCase : ∀ session runId entry s mapped t,
    (adapter.mapTestCase session runId entry).exec s = (.ok mapped, t) →
      mapped.testCaseId = entry.testCaseId
  pushTestCaseBatch : ∀ session dryRun mapped s results t,
    (adapter.pushTestCaseBatch session dryRun mapped).exec s = (.ok results, t) →
      (results.map (·.testCaseId)).Perm (mapped.map (·.testCaseId))

/-- A report on the cases of a mapping preview, and what the log says. -/
structure AccountsForAll (entries : List QcMappingPreviewEntry) (log : List TmsEvent)
    (report : TmsPushReportArtifact) : Prop where
  once : ∀ entry ∈ entries, report.entries.countP (·.testCaseId = entry.testCaseId) = 1
  verdicts : ∀ results, .reported results ∈ log → ∀ result ∈ results,
    ∃ entry ∈ report.entries, entry.toTmsPushAttemptResult = result
  counts : report.pushedCount + report.skippedDuplicateCount + report.failedCount =
    report.entries.length
  disconnected : ∀ session, .opened session ∈ log → .closed session ∈ log

section

variable (adapter : TmsAdapter σ π) (input : RunTmsPushPipelineInput)

/-- No call of the session throws. -/
def SessionReturns (session : TmsAdapterSession) (entries : List QcMappingPreviewEntry) (s : σ) :
    Prop :=
  match (adapter.validateProject session).exec s with
  | (.error _, _) => False
  | (.ok (.invalid _ _), _) => True
  | (.ok (.valid _), t) =>
      Call.AllReturn (adapter.mapTestCase session input.runId) entries t ∧
        0 < input.batchSize.getD 50 ∧
        ∀ mapped u batches,
          (entries.mapM (adapter.mapTestCase session input.runId)).exec t = (.ok mapped, u) →
          chunkBatches mapped (input.batchSize.getD 50) = .ok batches →
          Call.AllReturn (adapter.pushTestCaseBatch session input.dryRun) batches u

/-- The preview refuses the push, or no session opens, or no call of the session throws. -/
def Completes (entries : List QcMappingPreviewEntry) (s : σ) : Prop :=
  input.preview.refusalCodes = [] →
    ∀ session t, (adapter.connect input.toTmsConnectInput).exec s = (.ok session, t) →
      SessionReturns adapter input session entries t

end

/-! ## The log changes nothing -/

section

variable {localeCompare : JsString → JsString → ℤ} {sanitizeTmsErrorDetail : JsString → JsString}
variable {adapter : TmsAdapter σ π} {input : RunTmsPushPipelineInput}

theorem pushBatches_shadows (session : TmsAdapterSession) (mapped : List (TmsMappedCase π)) :
    (pushBatches adapter.logged input session mapped).Shadows
      (pushBatches adapter input session mapped) := by
  unfold pushBatches
  split
  · exact Call.shadows_throw _
  · next batches _ =>
    apply (Call.Shadows.mapM (fun batch ↦ Call.shadows_logging _ _) batches).bind
    intro results
    exact Call.shadows_pure _

theorem pushInSession_shadows (session : TmsAdapterSession) (entries : List QcMappingPreviewEntry) :
    (pushInSession sanitizeTmsErrorDetail adapter.logged input session entries).Shadows
      (pushInSession sanitizeTmsErrorDetail adapter input session entries) := by
  apply (Call.shadows_silent _).bind
  intro validation
  cases validation with
  | invalid code message => exact Call.shadows_pure _
  | valid resolvedProjectId =>
      apply (Call.Shadows.mapM (fun entry ↦ Call.shadows_silent _) entries).bind
      intro mapped
      exact pushBatches_shadows session mapped

theorem pushEntries_shadows (entries : List QcMappingPreviewEntry) :
    (pushEntries sanitizeTmsErrorDetail adapter.logged input entries).Shadows
      (pushEntries sanitizeTmsErrorDetail adapter input entries) := by
  apply (Call.shadows_logging _ _).attempt.bind
  intro connected
  cases connected with
  | error err => exact Call.shadows_pure _
  | ok session =>
      apply (pushInSession_shadows session entries).bind
      intro outcome
      apply (Call.shadows_announcing _ _).attempt.bind
      intro disconnected
      exact Call.shadows_pure outcome

theorem runTmsPushPipeline_shadows :
    (runTmsPushPipeline localeCompare sanitizeTmsErrorDetail adapter.logged input).Shadows
      (runTmsPushPipeline localeCompare sanitizeTmsErrorDetail adapter input) := by
  unfold runTmsPushPipeline
  dsimp only
  split
  · apply (pushEntries_shadows _).bind
    intro outcome
    exact Call.shadows_pure _
  · apply (Call.shadows_pure _).bind
    intro outcome
    exact Call.shadows_pure _

/-! ## When the pipeline returns -/

theorem entries_eq_nil_of_refusalCodes {preview : MappingPreviewFile}
    (h : preview.refusalCodes ≠ []) : preview.entries = [] := by
  cases preview with
  | missing => rfl
  | unreadable => rfl
  | artifact entries =>
      by_contra hentries
      exact h (if_neg hentries)

theorem chunkBatches_ok_iff {α : Type} {items : List α} {size : ℤ} :
    (∃ batches, chunkBatches items size = .ok batches) ↔ 0 < size := by
  unfold chunkBatches
  split
  · next hsize => simp [hsize]
  · next hsize => simp [not_le.mp hsize]

theorem pushBatches_returns_iff {session : TmsAdapterSession} {mapped : List (TmsMappedCase π)}
    {s : σ} :
    (pushBatches adapter input session mapped).Returns s ↔
      ∃ batches, chunkBatches mapped (input.batchSize.getD 50) = .ok batches ∧
        Call.AllReturn (adapter.pushTestCaseBatch session input.dryRun) batches s := by
  unfold pushBatches
  split
  · next err herr => simp [herr]
  · next batches hbatches =>
    rw [Call.returns_bind_iff]
    constructor
    · rintro ⟨results, t, hresults, -⟩
      exact ⟨batches, hbatches, Call.returns_mapM_iff.mp ⟨results, t, hresults⟩⟩
    · rintro ⟨batches', hbatches', hall⟩
      obtain rfl := Except.ok.inj (hbatches.symm.trans hbatches')
      obtain ⟨results, t, hresults⟩ := Call.returns_mapM_iff.mpr hall
      exact ⟨results, t, hresults, Call.returns_pure _ _⟩

theorem pushInSession_returns_iff {session : TmsAdapterSession}
    {entries : List QcMappingPreviewEntry} {s : σ} :
    (pushInSession sanitizeTmsErrorDetail adapter input session entries).Returns s ↔
      SessionReturns adapter input session entries s := by
  unfold pushInSession SessionReturns
  rw [Call.returns_bind_iff]
  rcases (adapter.validateProject session).exec s with ⟨result, t⟩
  rcases result with err | validation
  · simp
  · cases validation with
    | invalid code message => exact ⟨fun _ ↦ trivial, fun _ ↦ ⟨_, _, rfl, Call.returns_pure _ _⟩⟩
    | valid resolvedProjectId =>
        dsimp only
        constructor
        · rintro ⟨validation, t', heq, hreturns⟩
          obtain ⟨hvalidation, rfl⟩ := Prod.mk.inj heq
          obtain rfl := Except.ok.inj hvalidation
          obtain ⟨mapped, u, hmapped, hpush⟩ := Call.returns_bind_iff.mp hreturns
          obtain ⟨batches, hbatches, hall⟩ := pushBatches_returns_iff.mp hpush
          refine ⟨Call.returns_mapM_iff.mp ⟨mapped, u, hmapped⟩,
            chunkBatches_ok_iff.mp ⟨batches, hbatches⟩, ?_⟩
          intro mapped' u' batches' hmapped' hbatches'
          obtain ⟨hsame, rfl⟩ := Prod.mk.inj (hmapped.symm.trans hmapped')
          obtain rfl := Except.ok.inj hsame
          obtain rfl := Except.ok.inj (hbatches.symm.trans hbatches')
          exact hall
        · rintro ⟨hmap, hsize, hpush⟩
          obtain ⟨mapped, u, hmapped⟩ := Call.returns_mapM_iff.mpr hmap
          obtain ⟨batches, hbatches⟩ := chunkBatches_ok_iff.mpr hsize
          have hall := hpush mapped u batches hmapped hbatches
          exact ⟨_, t, rfl, Call.returns_bind_iff.mpr
            ⟨mapped, u, hmapped, pushBatches_returns_iff.mpr ⟨batches, hbatches, hall⟩⟩⟩

variable (sanitizeTmsErrorDetail) in
theorem pushEntries_returns_iff {entries : List QcMappingPreviewEntry} {s : σ} :
    (pushEntries sanitizeTmsErrorDetail adapter input entries).Returns s ↔
      ∀ session t, (adapter.connect input.toTmsConnectInput).exec s = (.ok session, t) →
        SessionReturns adapter input session entries t := by
  unfold pushEntries
  rw [Call.returns_bind_iff]
  simp only [Call.exec_attempt]
  rcases (adapter.connect input.toTmsConnectInput).exec s with ⟨result, t⟩
  cases result with
  | error err =>
      refine ⟨fun _ session t' heq ↦ absurd (congrArg Prod.fst heq) (by simp), fun _ ↦ ?_⟩
      exact ⟨_, _, rfl, Call.returns_pure _ _⟩
  | ok session =>
      constructor
      · rintro ⟨connected, t', heq, hreturns⟩ session' t'' heq'
        obtain ⟨hconnected, rfl⟩ := Prod.mk.inj heq
        obtain rfl := Except.ok.inj hconnected
        obtain ⟨hsession, rfl⟩ := Prod.mk.inj heq'
        obtain rfl := Except.ok.inj hsession
        obtain ⟨outcome, u, hpush, -⟩ := Call.returns_bind_iff.mp hreturns
        exact pushInSession_returns_iff.mp ⟨outcome, u, hpush⟩
      · intro h
        obtain ⟨outcome, u, hpush⟩ := pushInSession_returns_iff.mpr (h session t rfl)
        refine ⟨.ok session, t, rfl, Call.returns_bind_iff.mpr ⟨outcome, u, hpush, ?_⟩⟩
        exact Call.returns_bind_iff.mpr ⟨_, _, rfl, Call.returns_pure _ _⟩

variable (sanitizeTmsErrorDetail) in
theorem runTmsPushPipeline_returns_iff {s : σ} :
    (runTmsPushPipeline localeCompare sanitizeTmsErrorDetail adapter input).Returns s ↔
      Completes adapter input
        (sortBy (fun a b ↦ localeCompare a.testCaseId b.testCaseId) input.preview.entries) s := by
  unfold runTmsPushPipeline Completes
  dsimp only
  split
  · next hcodes =>
    rw [Call.returns_bind_iff, forall_prop_of_true hcodes,
      ← pushEntries_returns_iff sanitizeTmsErrorDetail]
    constructor
    · rintro ⟨outcome, t, hpush, -⟩
      exact ⟨outcome, t, hpush⟩
    · rintro ⟨outcome, t, hpush⟩
      exact ⟨outcome, t, hpush, Call.returns_pure _ _⟩
  · next hcodes =>
    refine ⟨fun _ hnil ↦ absurd hnil hcodes, fun _ ↦ ?_⟩
    exact Call.returns_bind_iff.mpr ⟨_, s, rfl, Call.returns_pure _ _⟩

/-! ## One result for each case -/

theorem TmsAdapter.ResultPerCase.logged (h : adapter.ResultPerCase) :
    adapter.logged.ResultPerCase where
  mapTestCase session runId entry s mapped t hexec := by
    obtain ⟨hresult, rfl⟩ := Prod.mk.inj hexec
    exact h.mapTestCase session runId entry s.1 mapped _ (Prod.ext hresult rfl)
  pushTestCaseBatch session dryRun mapped s results t hexec :=
    h.pushTestCaseBatch session dryRun mapped s.1 results t.1 (Call.exec_logging_eq_ok.mp hexec).1

theorem map_testCaseId_toFailureAttempt (adapterId err : JsString)
    (entries : List QcMappingPreviewEntry) :
    (entries.map (toFailureAttempt sanitizeTmsErrorDetail adapterId err)).map (·.testCaseId) =
      entries.map (·.testCaseId) := by
  rw [List.map_map]
  rfl

theorem testCaseIds_mapped (h : adapter.ResultPerCase) {session : TmsAdapterSession}
    {entries : List QcMappingPreviewEntry} {mapped : List (TmsMappedCase π)} {s t : σ}
    (hmap : (entries.mapM (adapter.mapTestCase session input.runId)).exec s = (.ok mapped, t)) :
    mapped.map (·.testCaseId) = entries.map (·.testCaseId) := by
  have hcalls := Call.forall₂_of_exec_mapM hmap
  clear hmap
  induction hcalls with
  | nil => rfl
  | cons hcall _ ih =>
      obtain ⟨s', t', hcall⟩ := hcall
      rw [List.map_cons, List.map_cons, h.mapTestCase _ _ _ _ _ _ hcall, ih]

theorem testCaseIds_results (h : adapter.ResultPerCase) {session : TmsAdapterSession}
    {batches : List (List (TmsMappedCase π))} {results : List (List TmsPushAttemptResult)} {s t : σ}
    (hpush : (batches.mapM (adapter.pushTestCaseBatch session input.dryRun)).exec s =
      (.ok results, t)) :
    (results.flatten.map (·.testCaseId)).Perm (batches.flatten.map (·.testCaseId)) := by
  have hcalls := Call.forall₂_of_exec_mapM hpush
  clear hpush
  induction hcalls with
  | nil => exact .nil
  | cons hcall _ ih =>
      obtain ⟨s', t', hcall⟩ := hcall
      rw [List.flatten_cons, List.flatten_cons, List.map_append, List.map_append]
      exact (h.pushTestCaseBatch _ _ _ _ _ _ hcall).append ih

/-- What the batches report, and what the log says about it. -/
theorem pushBatches_eq_ok {session : TmsAdapterSession} {mapped : List (TmsMappedCase π)} {s t : σ}
    {outcome : List JsString × List TmsPushAttemptResult}
    (hpush : (pushBatches adapter input session mapped).exec s = (.ok outcome, t)) :
    ∃ (batches : List (List (TmsMappedCase π))) (results : List (List TmsPushAttemptResult)),
      batches.flatten = mapped ∧
      (batches.mapM (adapter.pushTestCaseBatch session input.dryRun)).exec s = (.ok results, t) ∧
      outcome = ([], results.flatten) := by
  unfold pushBatches at hpush
  split at hpush
  · exact absurd (congrArg Prod.fst hpush) (by simp)
  · next batches hbatches =>
    obtain ⟨results, t', hresults, hpure⟩ := Call.exec_bind_eq_ok.mp hpush
    obtain ⟨houtcome, rfl⟩ := Prod.mk.inj hpure
    exact ⟨batches, results, flatten_chunkBatches hbatches, hresults,
      (Except.ok.inj houtcome).symm⟩

theorem testCaseIds_pushInSession (h : adapter.ResultPerCase) {session : TmsAdapterSession}
    {entries : List QcMappingPreviewEntry} {s t : σ}
    {outcome : List JsString × List TmsPushAttemptResult}
    (hpush : (pushInSession sanitizeTmsErrorDetail adapter input session entries).exec s =
      (.ok outcome, t)) :
    (outcome.2.map (·.testCaseId)).Perm (entries.map (·.testCaseId)) := by
  obtain ⟨validation, s', -, hpush⟩ := Call.exec_bind_eq_ok.mp hpush
  cases validation with
  | invalid code message =>
      obtain ⟨houtcome, -⟩ := Prod.mk.inj hpush
      rw [← Except.ok.inj houtcome, map_testCaseId_toFailureAttempt]
  | valid resolvedProjectId =>
      obtain ⟨mapped, u, hmapped, hpush⟩ := Call.exec_bind_eq_ok.mp hpush
      obtain ⟨batches, results, rfl, hresults, rfl⟩ := pushBatches_eq_ok hpush
      rw [← testCaseIds_mapped h hmapped]
      exact testCaseIds_results h hresults

/-! ## What the log says -/

theorem log_pushInSession {session : TmsAdapterSession} {entries : List QcMappingPreviewEntry}
    {s t : σ × List TmsEvent} {outcome : List JsString × List TmsPushAttemptResult}
    (hpush : (pushInSession sanitizeTmsErrorDetail adapter.logged input session entries).exec s =
      (.ok outcome, t)) :
    ∃ reports : List (List TmsPushAttemptResult), t.2 = s.2 ++ reports.map .reported ∧
      ∀ results ∈ reports, results ⊆ outcome.2 := by
  obtain ⟨validation, s', hvalidate, hpush⟩ := Call.exec_bind_eq_ok.mp hpush
  have hlog : s'.2 = s.2 := (congrArg (·.2.2) hvalidate).symm
  cases validation with
  | invalid code message =>
      obtain ⟨-, rfl⟩ := Prod.mk.inj hpush
      exact ⟨[], by simp [hlog], by simp⟩
  | valid resolvedProjectId =>
      obtain ⟨mapped, u, hmapped, hpush⟩ := Call.exec_bind_eq_ok.mp hpush
      obtain ⟨batches, results, -, hresults, rfl⟩ := pushBatches_eq_ok hpush
      have hmappedLog : u.2 = s'.2 := Call.log_of_exec_mapM_silent hmapped
      have hreported : t.2 = u.2 ++ results.map .reported := Call.log_of_exec_mapM_logging hresults
      refine ⟨results, by rw [hreported, hmappedLog, hlog], ?_⟩
      intro reported hreported result hresult
      exact List.mem_flatten.mpr ⟨reported, hreported, hresult⟩

theorem testCaseIds_pushEntries (h : adapter.ResultPerCase) {entries : List QcMappingPreviewEntry}
    {s t : σ} {outcome : List JsString × List TmsPushAttemptResult}
    (hpush : (pushEntries sanitizeTmsErrorDetail adapter input entries).exec s =
      (.ok outcome, t)) :
    (outcome.2.map (·.testCaseId)).Perm (entries.map (·.testCaseId)) := by
  obtain ⟨connected, s', -, hpush⟩ := Call.exec_bind_eq_ok.mp hpush
  cases connected with
  | error err =>
      obtain ⟨houtcome, -⟩ := Prod.mk.inj hpush
      rw [← Except.ok.inj houtcome, map_testCaseId_toFailureAttempt]
  | ok session =>
      obtain ⟨outcome', u, hpush, hrest⟩ := Call.exec_bind_eq_ok.mp hpush
      obtain ⟨-, u', -, hpure⟩ := Call.exec_bind_eq_ok.mp hrest
      obtain ⟨houtcome, -⟩ := Prod.mk.inj hpure
      rw [← Except.ok.inj houtcome]
      exact testCaseIds_pushInSession h hpush

/-- The log of a push that ends: verdicts are in the outcome, and the session is closed. -/
theorem log_pushEntries {entries : List QcMappingPreviewEntry} {s : σ} {t : σ × List TmsEvent}
    {outcome : List JsString × List TmsPushAttemptResult}
    (hpush : (pushEntries sanitizeTmsErrorDetail adapter.logged input entries).exec (s, []) =
      (.ok outcome, t)) :
    (∀ results, .reported results ∈ t.2 → results ⊆ outcome.2) ∧
      ∀ session, .opened session ∈ t.2 → .closed session ∈ t.2 := by
  obtain ⟨connected, s', hconnect, hpush⟩ := Call.exec_bind_eq_ok.mp hpush
  obtain ⟨hresult, hstate⟩ := Prod.mk.inj hconnect
  cases connected with
  | error err =>
      have hlog : s'.2 = [] := by
        rw [← hstate]
        exact Call.log_of_exec_logging_error (Except.ok.inj hresult)
      obtain ⟨-, rfl⟩ := Prod.mk.inj hpush
      simp [hlog]
  | ok session =>
      have hopened : s'.2 = [.opened session] :=
        (Call.exec_logging_eq_ok.mp (Prod.ext (Except.ok.inj hresult) hstate)).2
      obtain ⟨outcome', u, hpush, hrest⟩ := Call.exec_bind_eq_ok.mp hpush
      obtain ⟨reports, hlog, hreports⟩ := log_pushInSession hpush
      obtain ⟨disconnected, u', hclose, hpure⟩ := Call.exec_bind_eq_ok.mp hrest
      obtain ⟨houtcome, rfl⟩ := Prod.mk.inj hpure
      obtain ⟨-, hclosed⟩ := Prod.mk.inj hclose
      have hfinal : u'.2 = .opened session :: (reports.map .reported ++ [.closed session]) := by
        rw [← hclosed]
        change u.2 ++ [.closed session] = _
        rw [hlog, hopened]
        simp
      rw [← Except.ok.inj houtcome, hfinal]
      constructor
      · intro results hresults
        obtain hmem : results ∈ reports := by simpa using hresults
        exact hreports results hmem
      · intro session' hopen
        obtain rfl : session' = session := by simpa using hopen
        simp

/-! ## The report -/

theorem map_toReportEntry (now : ℕ → JsString) (attempts : List TmsPushAttemptResult) :
    (attempts.mapIdx fun i attempt ↦ toReportEntry attempt (now i)).map
      (·.toTmsPushAttemptResult) = attempts := by
  apply List.ext_getElem (by simp)
  intro i hi hi'
  simp [toReportEntry]

variable (localeCompare sanitizeTmsErrorDetail adapter input) in
theorem toTmsPushAttemptResult_reportEntries {entries : List QcMappingPreviewEntry}
    (refusalCodes : List JsString) {attemptResults : List TmsPushAttemptResult}
    (hids : (attemptResults.map (·.testCaseId)).Perm (entries.map (·.testCaseId))) :
    ((reportEntries localeCompare sanitizeTmsErrorDetail adapter input entries refusalCodes
      attemptResults).map (·.toTmsPushAttemptResult)).Perm attemptResults := by
  have hattempts : (if refusalCodes ≠ [] ∧ attemptResults = [] then
      entries.map (toFailureAttempt sanitizeTmsErrorDetail adapter.adapterId
        (js "refused before push"))
      else attemptResults) = attemptResults := by
    split
    · next h =>
      rw [h.2] at hids ⊢
      rw [List.map_eq_nil_iff.mp hids.nil_eq.symm, List.map_nil]
    · rfl
  unfold reportEntries
  rw [hattempts]
  apply ((sortBy_perm _ _).map _).trans
  rw [map_toReportEntry]

theorem countVerdict_sum (entries : List TmsPushReportEntry) :
    countVerdict .pushed entries + countVerdict .skippedDup entries + countVerdict .failed entries =
      entries.length := by
  unfold countVerdict
  induction entries with
  | nil => rfl
  | cons entry entries ih =>
      simp only [List.countP_cons, List.length_cons]
      cases hverdict : entry.verdict <;> simp <;> omega

theorem accountsForAll_buildReport {entries mapped : List QcMappingPreviewEntry}
    {refusalCodes : List JsString} {attemptResults : List TmsPushAttemptResult}
    {log : List TmsEvent} (hperm : mapped.Perm entries)
    (hnodup : (entries.map (·.testCaseId)).Nodup)
    (hids : (attemptResults.map (·.testCaseId)).Perm (mapped.map (·.testCaseId)))
    (hverdicts : ∀ results, .reported results ∈ log → results ⊆ attemptResults)
    (hclosed : ∀ session, .opened session ∈ log → .closed session ∈ log) :
    AccountsForAll entries log (buildReport localeCompare sanitizeTmsErrorDetail adapter input
      mapped refusalCodes attemptResults) where
  once entry hentry := by
    have hreport := (toTmsPushAttemptResult_reportEntries localeCompare sanitizeTmsErrorDetail
      adapter input refusalCodes hids).map (·.testCaseId)
    have hcount := (hreport.trans (hids.trans (hperm.map (·.testCaseId)))).countP_eq
      (· = entry.testCaseId)
    have hone : (entries.map (·.testCaseId)).countP (· = entry.testCaseId) = 1 := by
      rw [← List.count_eq_one_of_mem hnodup (List.mem_map_of_mem hentry), List.count]
      simp only [beq_eq_decide]
    rw [List.map_map, List.countP_map] at hcount
    exact hcount.trans hone
  verdicts results hresults result hresult := by
    have hreport := toTmsPushAttemptResult_reportEntries localeCompare
      sanitizeTmsErrorDetail adapter input refusalCodes hids
    exact List.mem_map.mp (hreport.mem_iff.mpr (hverdicts results hresults hresult))
  counts := countVerdict_sum _
  disconnected := hclosed

end

/-- A push accounts for every case exactly if no call of an open session throws. -/
theorem runTmsPushPipeline_accounts_iff (localeCompare : JsString → JsString → ℤ)
    (sanitizeTmsErrorDetail : JsString → JsString) (adapter : TmsAdapter σ π)
    (hadapter : adapter.ResultPerCase) (input : RunTmsPushPipelineInput)
    (hnodup : (input.preview.entries.map (·.testCaseId)).Nodup) (s : σ) :
    (∃ report t,
      (runTmsPushPipeline localeCompare sanitizeTmsErrorDetail adapter.logged input).exec (s, []) =
        (.ok report, t) ∧ AccountsForAll input.preview.entries t.2 report) ↔
      Completes adapter input
        (sortBy (fun a b ↦ localeCompare a.testCaseId b.testCaseId) input.preview.entries) s := by
  rw [← runTmsPushPipeline_returns_iff sanitizeTmsErrorDetail,
    ← runTmsPushPipeline_shadows.returns_iff s []]
  constructor
  · rintro ⟨report, t, hexec, -⟩
    exact ⟨report, t, hexec⟩
  · rintro ⟨report, t, hexec⟩
    refine ⟨report, t, hexec, ?_⟩
    unfold runTmsPushPipeline at hexec
    dsimp only at hexec
    split at hexec
    · obtain ⟨outcome, u, houtcome, hpure⟩ := Call.exec_bind_eq_ok.mp hexec
      obtain ⟨hreport, rfl⟩ := Prod.mk.inj hpure
      rw [← Except.ok.inj hreport]
      obtain ⟨hverdicts, hclosed⟩ := log_pushEntries houtcome
      exact accountsForAll_buildReport (sortBy_perm _ _) hnodup
        (testCaseIds_pushEntries hadapter.logged houtcome) hverdicts hclosed
    · next hcodes =>
      obtain ⟨outcome, u, houtcome, hpure⟩ := Call.exec_bind_eq_ok.mp hexec
      obtain ⟨hreport, rfl⟩ := Prod.mk.inj hpure
      obtain ⟨hok, rfl⟩ := Prod.mk.inj houtcome
      rw [← Except.ok.inj hreport, ← Except.ok.inj hok]
      have hnil := entries_eq_nil_of_refusalCodes hcodes
      apply accountsForAll_buildReport (sortBy_perm _ _) hnodup
      · rw [hnil]
        exact .nil
      · simp
      · simp

/-! ## Samples -/

def pushedAttempt (mapped : TmsMappedCase π) : TmsPushAttemptResult where
  testCaseId := mapped.testCaseId
  idempotencyKey := mapped.idempotencyKey
  verdict := .pushed
  tmsTestCaseId := mapped.testCaseId
  tmsErrorCode := []
  tmsErrorMessage := []
  attemptCount := 1

/-- An adapter that counts its batches, and throws once it has had so many. -/
def countingAdapter (batches : ℕ) : TmsAdapter ℕ Unit where
  adapterId := []
  version := []
  connect input := pure ⟨input.endpointAlias, input.projectId, input.tenantId, []⟩
  validateProject session := pure (.valid session.projectId)
  mapTestCase _ _ entry := pure ⟨entry.testCaseId, [], ()⟩
  pushTestCaseBatch _ _ mapped := .of fun n ↦
    if n < batches then (.ok (mapped.map pushedAttempt), n + 1) else (.error [], n)
  disconnect _ := pure ()

theorem countingAdapter_resultPerCase (batches : ℕ) : (countingAdapter batches).ResultPerCase where
  mapTestCase session runId entry s mapped t hexec := by
    rw [← Except.ok.inj (congrArg Prod.fst hexec)]
  pushTestCaseBatch session dryRun mapped s results t hexec := by
    simp only [countingAdapter, Call.exec_of] at hexec
    split at hexec
    · rw [← Except.ok.inj (congrArg Prod.fst hexec), List.map_map]
      exact .rfl
    · cases hexec

def sampleEntry (testCaseId : JsString) : QcMappingPreviewEntry where
  testCaseId := testCaseId
  externalIdCandidate := []
  testName := []
  objective := []
  priority := []
  riskCategory := []
  targetFolderPath := []
  preconditions := []
  testData := []
  designSteps := []
  expectedResults := []
  visualProvenance := none
  sourceTraceRefs := []
  exportable := true
  blockingReasons := []

/-- Two cases in batches of one. -/
def twoCases : RunTmsPushPipelineInput where
  endpointAlias := []
  projectId := []
  tenantId := []
  preview := .artifact [sampleEntry [0x61], sampleEntry [0x62]]
  runId := []
  now := fun _ ↦ []
  dryRun := false
  batchSize := some 1

theorem twoCases_completes : Completes (countingAdapter 2) twoCases
    (sortBy (fun a b ↦ codeUnitCompare a.testCaseId b.testCaseId) twoCases.preview.entries) 0 := by
  intro _ session t hconnect
  obtain ⟨-, rfl⟩ := Prod.mk.inj hconnect
  refine ⟨⟨⟨_, _, rfl⟩, ⟨_, _, rfl⟩, trivial⟩, by decide, ?_⟩
  intro mapped u batches hmapped hbatches
  have hcases : ((sortBy (fun a b ↦ codeUnitCompare a.testCaseId b.testCaseId)
      twoCases.preview.entries).mapM ((countingAdapter 2).mapTestCase session twoCases.runId)).exec
        0 = (.ok [⟨[0x61], [], ()⟩, ⟨[0x62], [], ()⟩], 0) := rfl
  obtain ⟨hsame, rfl⟩ := Prod.mk.inj (hcases.symm.trans hmapped)
  obtain rfl := Except.ok.inj hsame
  obtain rfl := Except.ok.inj hbatches
  exact ⟨⟨_, _, rfl⟩, ⟨_, _, rfl⟩, trivial⟩

theorem twoCases_accounts : ∃ report t,
    (runTmsPushPipeline codeUnitCompare id (countingAdapter 2).logged twoCases).exec (0, []) =
      (.ok report, t) ∧ AccountsForAll twoCases.preview.entries t.2 report :=
  (runTmsPushPipeline_accounts_iff codeUnitCompare id (countingAdapter 2)
    (countingAdapter_resultPerCase 2) twoCases (by decide) 0).mpr twoCases_completes

/-- The first batch is pushed, the second throws: no report, and the session stays open. -/
theorem second_batch_throws :
    ((runTmsPushPipeline codeUnitCompare id (countingAdapter 1).logged twoCases).exec (0, [])).1 =
        .error [] ∧
      ((runTmsPushPipeline codeUnitCompare id (countingAdapter 1).logged twoCases).exec
        (0, [])).2.2 = [.opened ⟨[], [], [], []⟩,
          .reported [pushedAttempt ⟨[0x61], [], ()⟩]] :=
  ⟨rfl, rfl⟩

end TestIntelligence.Integrations
