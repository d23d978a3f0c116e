import TestIntelligence.Integrations.AlmTransfer
import TestIntelligence.Systems.Answers

/-!
# A tenant under ambiguous failures

The tenant keeps a list of entities, each with its design steps in the order in which they
were created.  Every call may succeed, fail without effect or fail after it took effect;
lookups are truthful.  No sequence of runs over one preview creates an entity twice or a
step out of order, and the first run without a failure completes every entity.
-/

namespace TestIntelligence.Integrations

open Js ProductionRunner Systems

structure TenantEntity where
  qcEntityId : JsString
  folder : QcApiFolderHandle
  externalId : JsString
  steps : List QcApiDesignStepRequest

/-- The entities now, those at every earlier moment, and the number of calls so far. -/
structure TenantState where
  entities : List TenantEntity
  past : List (List TenantEntity)
  calls : ℕ

inductive Fate
  | succeeds
  | failsWithoutEffect (error : ClientError)
  | failsAfterEffect (error : ClientError)

/-- What becomes of each call, and how the tenant chooses ids. -/
structure Tenant where
  folders : JsString → QcApiFolderHandle
  newEntityId : List JsString → JsString
  newEntityId_fresh : ∀ ids, newEntityId ids ∉ ids
  fate : ℕ → Fate

def TenantEntity.addStep (qcEntityId : JsString) (step : QcApiDesignStepRequest)
    (entity : TenantEntity) : TenantEntity :=
  if entity.qcEntityId = qcEntityId then { entity with steps := entity.steps ++ [step] } else entity

def lookupEntity (folder : QcApiFolderHandle) (externalId : JsString)
    (entities : List TenantEntity) : QcApiLookupResult :=
  match entities.find? fun entity ↦ entity.folder = folder ∧ entity.externalId = externalId with
  | none => .missing
  | some entity => .found entity.qcEntityId (some entity.steps.length)

namespace Tenant

variable (tenant : Tenant)

/-- A call with the given effect and answer. -/
def answer {α : Type} (effect : List TenantEntity → List TenantEntity × α) (s : TenantState) :
    TenantState × Except ClientError α :=
  let unchanged : TenantState := ⟨s.entities, s.entities :: s.past, s.calls + 1⟩
  let changed : TenantState := ⟨(effect s.entities).1, s.entities :: s.past, s.calls + 1⟩
  match tenant.fate s.calls with
  | .succeeds => (changed, .ok (effect s.entities).2)
  | .failsWithoutEffect error => (unchanged, .error error)
  | .failsAfterEffect error => (changed, .error error)

def newEntity (folder : QcApiFolderHandle) (externalId : JsString) (entities : List TenantEntity) :
    TenantEntity :=
  ⟨tenant.newEntityId (entities.map (·.qcEntityId)), folder, externalId, []⟩

def client : QcApiTransferClient TenantState where
  resolveFolder path := tenant.answer fun entities ↦ (entities, tenant.folders path)
  lookupByExternalId folder externalId :=
    tenant.answer fun entities ↦ (entities, lookupEntity folder externalId entities)
  createTestEntity folder entry :=
    tenant.answer fun entities ↦
      let entity := tenant.newEntity folder entry.externalIdCandidate entities
      (entities ++ [entity], entity.qcEntityId)
  createDesignStep qcEntityId step :=
    tenant.answer fun entities ↦ (entities.map (·.addStep qcEntityId step), ())

/-- None of the calls between the two states fails. -/
def FailureFree (s s' : TenantState) : Prop :=
  ∀ n, s.calls ≤ n → n < s'.calls → tenant.fate n = .succeeds

def folderOf (sha256 : Bytes → JsString) (input : TransferInput) (targetFolderPath : JsString) :
    QcApiFolderHandle :=
  match input.folderResolver with
  | some _ => simulatedFolder sha256 input targetFolderPath
  | none => tenant.folders targetFolderPath

end Tenant

/-! ## What the tenant holds -/

section

variable (folderOf : JsString → QcApiFolderHandle) (entries : List QcMappingPreviewEntry)

def TenantEntity.IsOf (entity : TenantEntity) (entry : QcMappingPreviewEntry) : Prop :=
  entity.folder = folderOf entry.targetFolderPath ∧ entity.externalId = entry.externalIdCandidate

/-- No entity is there twice, and each one has a first part of the steps of its entry. -/
structure Sound (entities : List TenantEntity) : Prop where
  ids : (entities.map (·.qcEntityId)).Nodup
  keys : (entities.map fun entity ↦ (entity.folder, entity.externalId)).Nodup
  steps : ∀ entity ∈ entities, ∀ entry ∈ entries, entity.IsOf folderOf entry →
    entity.steps <+: sortedDesignSteps entry

/-- The tenant is sound, now and at every earlier moment. -/
def AlwaysSound (s : TenantState) : Prop :=
  ∀ entities ∈ s.entities :: s.past, Sound folderOf entries entities

def Completed (entities : List TenantEntity) (entry : QcMappingPreviewEntry) : Prop :=
  ∃ entity ∈ entities, entity.IsOf folderOf entry ∧ entity.steps = sortedDesignSteps entry

end

def IsRecordOf (record : TransferEntityRecord) (entry : QcMappingPreviewEntry) : Prop :=
  record.testCaseId = entry.testCaseId ∧
    record.externalIdCandidate = entry.externalIdCandidate ∧
    record.targetFolderPath = entry.targetFolderPath

/-- Entities stay, and steps are only added at their ends. -/
structure Grows (s s' : TenantState) : Prop where
  calls : s.calls ≤ s'.calls
  entities : ∀ entity ∈ s.entities, ∃ entity' ∈ s'.entities,
    entity'.qcEntityId = entity.qcEntityId ∧ entity'.folder = entity.folder ∧
      entity'.externalId = entity.externalId ∧ entity.steps <+: entity'.steps

theorem Grows.refl (s : TenantState) : Grows s s :=
  ⟨le_rfl, fun entity h ↦ ⟨entity, h, rfl, rfl, rfl, List.prefix_refl _⟩⟩

theorem Grows.trans {s s' s'' : TenantState} (h : Grows s s') (h' : Grows s' s'') :
    Grows s s'' := by
  refine ⟨h.calls.trans h'.calls, fun entity hentity ↦ ?_⟩
  obtain ⟨entity', hentity', hid, hfolder, hexternal, hsteps⟩ := h.entities entity hentity
  obtain ⟨entity'', hentity'', hid', hfolder', hexternal', hsteps'⟩ :=
    h'.entities entity' hentity'
  exact ⟨entity'', hentity'', hid'.trans hid, hfolder'.trans hfolder, hexternal'.trans hexternal,
    hsteps.trans hsteps'⟩

section

variable {folderOf : JsString → QcApiFolderHandle} {entries : List QcMappingPreviewEntry}
  {s s' : TenantState} {entry : QcMappingPreviewEntry}

theorem Completed.grows (h : Completed folderOf s.entities entry) (hgrows : Grows s s')
    (hsound : Sound folderOf entries s'.entities) (hentry : entry ∈ entries) :
    Completed folderOf s'.entities entry := by
  obtain ⟨entity, hentity, ⟨hfolder, hexternal⟩, hsteps⟩ := h
  obtain ⟨entity', hentity', -, hfolder', hexternal', hprefix⟩ := hgrows.entities entity hentity
  have hof : entity'.IsOf folderOf entry := ⟨hfolder'.trans hfolder, hexternal'.trans hexternal⟩
  refine ⟨entity', hentity', hof, ?_⟩
  have hle := hsound.steps entity' hentity' entry hentry hof
  rw [hsteps] at hprefix
  exact hle.eq_of_length_le hprefix.length_le

end

/-! ## Effects -/

section

variable (qcEntityId : JsString) (step : QcApiDesignStepRequest) (entity : TenantEntity)

@[simp] theorem addStep_qcEntityId : (entity.addStep qcEntityId step).qcEntityId =
    entity.qcEntityId := by
  unfold TenantEntity.addStep
  split <;> rfl

@[simp] theorem addStep_folder : (entity.addStep qcEntityId step).folder = entity.folder := by
  unfold TenantEntity.addStep
  split <;> rfl

@[simp] theorem addStep_externalId : (entity.addStep qcEntityId step).externalId =
    entity.externalId := by
  unfold TenantEntity.addStep
  split <;> rfl

theorem addStep_steps : (entity.addStep qcEntityId step).steps =
    if entity.qcEntityId = qcEntityId then entity.steps ++ [step] else entity.steps := by
  unfold TenantEntity.addStep
  split <;> rfl

end

section

variable {folderOf : JsString → QcApiFolderHandle} {entries : List QcMappingPreviewEntry}
  {entities : List TenantEntity} {entry : QcMappingPreviewEntry} {tenant : Tenant}

/-- No two entries of the preview share a folder and an external id. -/
def DistinctIds (folderOf : JsString → QcApiFolderHandle) (entries : List QcMappingPreviewEntry) :
    Prop :=
  ∀ entry ∈ entries, ∀ entry' ∈ entries,
    folderOf entry.targetFolderPath = folderOf entry'.targetFolderPath →
      entry.externalIdCandidate = entry'.externalIdCandidate → entry = entry'

theorem Sound.addEntity (h : Sound folderOf entries entities) {folder : QcApiFolderHandle}
    {externalId : JsString}
    (hnew : ∀ entity ∈ entities, ¬(entity.folder = folder ∧ entity.externalId = externalId)) :
    Sound folderOf entries (entities ++ [tenant.newEntity folder externalId entities]) := by
  refine ⟨?_, ?_, fun entity hentity entry hentry hof ↦ ?_⟩
  · rw [List.map_append, List.map_singleton, ← List.concat_eq_append]
    exact h.ids.concat (tenant.newEntityId_fresh _)
  · rw [List.map_append, List.map_singleton, ← List.concat_eq_append]
    refine h.keys.concat fun hmem ↦ ?_
    obtain ⟨entity, hentity, hkey⟩ := List.mem_map.mp hmem
    exact hnew entity hentity (Prod.mk.inj hkey)
  · rcases List.mem_append.mp hentity with hentity | hentity
    · exact h.steps entity hentity entry hentry hof
    · obtain rfl := List.mem_singleton.mp hentity
      exact List.nil_prefix

/-- The next step of an entity keeps the tenant sound. -/
theorem Sound.addStep (h : Sound folderOf entries entities)
    (hdistinct : DistinctIds folderOf entries) (hentry : entry ∈ entries)
    {entity : TenantEntity} (hentity : entity ∈ entities) (hof : entity.IsOf folderOf entry)
    {step : QcApiDesignStepRequest} {rest : List QcApiDesignStepRequest}
    (hsteps : entity.steps ++ step :: rest = sortedDesignSteps entry) :
    Sound folderOf entries (entities.map (·.addStep entity.qcEntityId step)) := by
  refine ⟨?_, ?_, fun other hother entry' hentry' hof' ↦ ?_⟩
  · rw [List.map_map]
    simpa [Function.comp_def] using h.ids
  · rw [List.map_map]
    simpa [Function.comp_def] using h.keys
  · obtain ⟨entity', hentity', rfl⟩ := List.mem_map.mp hother
    have hof'' : entity'.IsOf folderOf entry' := by simpa [TenantEntity.IsOf] using hof'
    rw [addStep_steps]
    split
    · next hid =>
        obtain rfl := List.inj_on_of_nodup_map h.ids hentity' hentity hid
        obtain rfl : entry = entry' := by
          apply hdistinct entry hentry entry' hentry'
          · rw [← hof.1, hof''.1]
          · rw [← hof.2, hof''.2]
        rw [← hsteps]
        exact ⟨rest, List.append_assoc _ _ _⟩
    · exact h.steps entity' hentity' entry' hentry' hof''

end

/-! ## Single calls -/

section

variable {tenant : Tenant} {α : Type} {effect : List TenantEntity → List TenantEntity × α}
  {s s' : TenantState} {result : Except ClientError α}

/-- A call has its effect or none, and it does not fail unless that is its fate. -/
theorem answer_spec (h : tenant.answer effect s = (s', result)) :
    s'.past = s.entities :: s.past ∧ s'.calls = s.calls + 1 ∧
      (s'.entities = s.entities ∨ s'.entities = (effect s.entities).1) ∧
      (∀ value, result = .ok value →
        s'.entities = (effect s.entities).1 ∧ value = (effect s.entities).2) ∧
      (∀ error, result = .error error → tenant.fate s.calls ≠ .succeeds) := by
  rw [Tenant.answer] at h
  split at h
  · next hfate =>
      obtain ⟨rfl, rfl⟩ := Prod.mk.inj h
      simp
  · next hfate =>
      obtain ⟨rfl, rfl⟩ := Prod.mk.inj h
      simp [hfate]
  · next hfate =>
      obtain ⟨rfl, rfl⟩ := Prod.mk.inj h
      simp [hfate]

end

section

variable {folderOf : JsString → QcApiFolderHandle} {entries : List QcMappingPreviewEntry}
  {entry : QcMappingPreviewEntry} {tenant : Tenant} {s s' : TenantState}

/-- What calls leave: a tenant that has always been sound and has only grown. -/
structure Kept (folderOf : JsString → QcApiFolderHandle) (entries : List QcMappingPreviewEntry)
    (s s' : TenantState) : Prop where
  sound : AlwaysSound folderOf entries s'
  grows : Grows s s'

theorem Kept.refl (h : AlwaysSound folderOf entries s) : Kept folderOf entries s s :=
  ⟨h, .refl s⟩

theorem Kept.trans {s'' : TenantState} (h : Kept folderOf entries s s')
    (h' : Kept folderOf entries s' s'') : Kept folderOf entries s s'' :=
  ⟨h'.sound, h.grows.trans h'.grows⟩

theorem AlwaysSound.now (h : AlwaysSound folderOf entries s) :
    Sound folderOf entries s.entities := h _ List.mem_cons_self

/-- A call whose effect keeps the tenant sound and lets it grow. -/
theorem kept_of_answer {α : Type} {effect : List TenantEntity → List TenantEntity × α}
    {result : Except ClientError α} (h : tenant.answer effect s = (s', result))
    (hs : AlwaysSound folderOf entries s)
    (hsound : Sound folderOf entries (effect s.entities).1)
    (hgrows : ∀ entity ∈ s.entities, ∃ entity' ∈ (effect s.entities).1,
      entity'.qcEntityId = entity.qcEntityId ∧ entity'.folder = entity.folder ∧
        entity'.externalId = entity.externalId ∧ entity.steps <+: entity'.steps) :
    Kept folderOf entries s s' := by
  obtain ⟨hpast, hcalls, hentities, -, -⟩ := answer_spec h
  refine ⟨fun entities hmem ↦ ?_, by omega, ?_⟩
  · rw [hpast] at hmem
    rcases List.mem_cons.mp hmem with rfl | hmem
    · rcases hentities with heq | heq
      · rw [heq]
        exact hs.now
      · rw [heq]
        exact hsound
    · exact hs entities hmem
  · rcases hentities with heq | heq
    · rw [heq]
      exact (Grows.refl s).entities
    · rw [heq]
      exact hgrows

theorem kept_of_read {α : Type} {value : List TenantEntity → α} {result : Except ClientError α}
    (h : tenant.answer (fun entities ↦ (entities, value entities)) s = (s', result))
    (hs : AlwaysSound folderOf entries s) :
    Kept folderOf entries s s' ∧ s'.entities = s.entities := by
  refine ⟨kept_of_answer h hs hs.now (Grows.refl s).entities, ?_⟩
  obtain ⟨-, -, hentities, -, -⟩ := answer_spec h
  rcases hentities with heq | heq <;> exact heq

/-- A call that fails is not free of failures. -/
theorem fails_of_answer {α : Type} {effect : List TenantEntity → List TenantEntity × α}
    {error : ClientError} (h : tenant.answer effect s = (s', .error error)) :
    ¬tenant.FailureFree s s' := by
  obtain ⟨-, hcalls, -, -, herror⟩ := answer_spec h
  exact fun hfree ↦ herror error rfl (hfree s.calls le_rfl (by omega))

theorem FailureFree.mono {t t' : TenantState} (h : tenant.FailureFree t t')
    (hs : t.calls ≤ s.calls) (hs' : s'.calls ≤ t'.calls) : tenant.FailureFree s s' :=
  fun n hn hn' ↦ h n (hs.trans hn) (hn'.trans_le hs')

/-! ## One entry -/

/-- Creating the steps that an entity lacks. -/
theorem createDesignSteps_spec (hdistinct : DistinctIds folderOf entries) (hentry : entry ∈ entries)
    {entity : TenantEntity} {steps : List QcApiDesignStepRequest} {n m : ℕ}
    {outcome : Option ClientError} (hs : AlwaysSound folderOf entries s)
    (hentity : entity ∈ s.entities) (hof : entity.IsOf folderOf entry)
    (hsteps : entity.steps ++ steps = sortedDesignSteps entry)
    (h : createDesignSteps tenant.client entity.qcEntityId steps n s = (s', m, outcome)) :
    Kept folderOf entries s s' ∧ (outcome = none → Completed folderOf s'.entities entry) ∧
      (outcome ≠ none → ¬tenant.FailureFree s s') := by
  induction steps generalizing entity n s with
  | nil =>
      obtain ⟨rfl, -, rfl⟩ : s = s' ∧ n = m ∧ none = outcome := by
        simpa [createDesignSteps] using h
      rw [List.append_nil] at hsteps
      exact ⟨.refl hs, fun _ ↦ ⟨entity, hentity, hof, hsteps⟩, fun h ↦ absurd rfl h⟩
  | cons step rest ih =>
      rw [createDesignSteps] at h
      obtain ⟨t, result, hcall⟩ : ∃ t result, tenant.answer (fun entities ↦
          (entities.map (·.addStep entity.qcEntityId step), ())) s = (t, result) := ⟨_, _, rfl⟩
      have hclient : tenant.client.createDesignStep entity.qcEntityId step s = (t, result) := hcall
      have hkept : Kept folderOf entries s t := by
        apply kept_of_answer hcall hs
        · exact hs.now.addStep hdistinct hentry hentity hof hsteps
        · intro other hother
          refine ⟨_, List.mem_map_of_mem hother, addStep_qcEntityId .., addStep_folder ..,
            addStep_externalId .., ?_⟩
          rw [addStep_steps]
          split
          · exact List.prefix_append _ _
          · exact List.prefix_refl _
      rw [hclient] at h
      cases result with
      | error error =>
          obtain ⟨rfl, -, rfl⟩ : t = s' ∧ n = m ∧ some error = outcome := by simpa using h
          exact ⟨hkept, fun h ↦ by simp at h, fun _ ↦ fails_of_answer hcall⟩
      | ok value =>
          obtain ⟨-, -, -, hok, -⟩ := answer_spec hcall
          obtain ⟨hentities, -⟩ := hok value rfl
          have hadded : entity.addStep entity.qcEntityId step ∈ t.entities := by
            rw [hentities]
            exact List.mem_map_of_mem hentity
          have hfurther : (entity.addStep entity.qcEntityId step).steps ++ rest =
              sortedDesignSteps entry := by
            rw [addStep_steps, if_pos rfl, ← hsteps, List.append_assoc]
            rfl
          have hof' : (entity.addStep entity.qcEntityId step).IsOf folderOf entry := by
            simpa [TenantEntity.IsOf] using hof
          have hid : createDesignSteps tenant.client
              (entity.addStep entity.qcEntityId step).qcEntityId rest (n + 1) t =
                (s', m, outcome) := by
            rw [addStep_qcEntityId]
            exact h
          obtain ⟨hrest, hcompleted, hfails⟩ := ih hkept.sound hadded hof' hfurther hid
          refine ⟨hkept.trans hrest, hcompleted, fun hnone hfree ↦ hfails hnone ?_⟩
          exact FailureFree.mono hfree hkept.grows.calls le_rfl

/-- What an attempt leaves, and what its record says. -/
structure Attempted (tenant : Tenant) (folderOf : JsString → QcApiFolderHandle)
    (entries : List QcMappingPreviewEntry) (entry : QcMappingPreviewEntry) (s s' : TenantState)
    (record : TransferEntityRecord) : Prop where
  kept : Kept folderOf entries s s'
  describes : IsRecordOf record entry
  completed : record.outcome.isTransferred = true → Completed folderOf s'.entities entry
  fails : record.outcome.isTransferred = false → ¬tenant.FailureFree s s'

theorem isRecordOf_newRecord (entry : QcMappingPreviewEntry) (outcome : TransferEntityOutcome)
    (qcEntityId : JsString) (n : ℕ) (recordedAt : JsString) :
    IsRecordOf (newRecord entry outcome qcEntityId n recordedAt) entry := ⟨rfl, rfl, rfl⟩

theorem attempted_of_failure (hkept : Kept folderOf entries s s')
    (hfails : ¬tenant.FailureFree s s') (qcEntityId : JsString) (n : ℕ) (recordedAt : JsString)
    (error : ClientError) : Attempted tenant folderOf entries entry s s'
      (failedAttempt entry qcEntityId n recordedAt error).record := by
  refine ⟨hkept, ⟨rfl, rfl, rfl⟩, fun h ↦ ?_, fun _ ↦ hfails⟩
  simp [failedAttempt, newRecord, TransferEntityOutcome.isTransferred] at h

theorem Attempted.after {t : TenantState} {record : TransferEntityRecord}
    (h : Attempted tenant folderOf entries entry t s' record) (hkept : Kept folderOf entries s t) :
    Attempted tenant folderOf entries entry s s' record := by
  refine ⟨hkept.trans h.kept, h.describes, h.completed, fun hfailed hfree ↦ h.fails hfailed ?_⟩
  exact FailureFree.mono hfree hkept.grows.calls le_rfl

theorem fillEntity_spec (hdistinct : DistinctIds folderOf entries) (hentry : entry ∈ entries)
    {entity : TenantEntity} {steps : List QcApiDesignStepRequest} {recordedAt : JsString}
    {preExisting : Bool} {attempt : AttemptResult} (hs : AlwaysSound folderOf entries s)
    (hentity : entity ∈ s.entities) (hof : entity.IsOf folderOf entry)
    (hsteps : entity.steps ++ steps = sortedDesignSteps entry)
    (h : fillEntity tenant.client entry entity.qcEntityId recordedAt steps preExisting s =
      (s', attempt)) : Attempted tenant folderOf entries entry s s' attempt.record := by
  obtain ⟨t, n, outcome, hcreate⟩ : ∃ t n outcome,
      createDesignSteps tenant.client entity.qcEntityId steps 0 s = (t, n, outcome) :=
    ⟨_, _, _, rfl⟩
  obtain ⟨hkept, hcompleted, hfails⟩ :=
    createDesignSteps_spec hdistinct hentry hs hentity hof hsteps hcreate
  rw [fillEntity, hcreate] at h
  cases outcome with
  | some error =>
      obtain ⟨rfl, rfl⟩ := Prod.mk.inj h
      exact attempted_of_failure hkept (hfails (by simp)) ..
  | none =>
      obtain ⟨rfl, rfl⟩ := Prod.mk.inj h
      refine ⟨hkept, isRecordOf_newRecord .., fun _ ↦ hcompleted rfl, fun hfailed ↦ ?_⟩
      simp [newRecord, TransferEntityOutcome.isTransferred] at hfailed

theorem length_sortedDesignSteps (entry : QcMappingPreviewEntry) :
    (sortedDesignSteps entry).length = entry.designSteps.length := by
  rw [sortedDesignSteps, List.length_map, List.length_insertionSort]

/-- A truthful lookup. -/
theorem lookupEntity_spec (entities : List TenantEntity) (entry : QcMappingPreviewEntry) :
    (lookupEntity (folderOf entry.targetFolderPath) entry.externalIdCandidate entities = .missing ∧
      ∀ entity ∈ entities, ¬entity.IsOf folderOf entry) ∨
    ∃ entity ∈ entities, entity.IsOf folderOf entry ∧
      lookupEntity (folderOf entry.targetFolderPath) entry.externalIdCandidate entities =
        .found entity.qcEntityId (some entity.steps.length) := by
  rw [lookupEntity]
  cases hfind : entities.find? fun entity ↦ entity.folder = folderOf entry.targetFolderPath ∧
      entity.externalId = entry.externalIdCandidate with
  | none =>
      refine .inl ⟨rfl, fun entity hentity ↦ ?_⟩
      simpa [TenantEntity.IsOf] using List.find?_eq_none.mp hfind entity hentity
  | some entity =>
      refine .inr ⟨entity, List.mem_of_find?_eq_some hfind, ?_, rfl⟩
      simpa [TenantEntity.IsOf] using List.find?_some hfind

theorem attemptTransfer_spec (hdistinct : DistinctIds folderOf entries) (hentry : entry ∈ entries)
    {recordedAt : JsString} {attempt : AttemptResult} (hs : AlwaysSound folderOf entries s)
    (h : attemptTransfer tenant.client (folderOf entry.targetFolderPath) entry recordedAt s =
      (s', attempt)) : Attempted tenant folderOf entries entry s s' attempt.record := by
  obtain ⟨t, lookup, hcall⟩ : ∃ t lookup, tenant.answer (fun entities ↦ (entities,
      lookupEntity (folderOf entry.targetFolderPath) entry.externalIdCandidate entities)) s =
        (t, lookup) := ⟨_, _, rfl⟩
  have hlookup : tenant.client.lookupByExternalId (folderOf entry.targetFolderPath)
      entry.externalIdCandidate s = (t, lookup) := hcall
  obtain ⟨hkept, hentities⟩ := kept_of_read hcall hs
  rw [attemptTransfer, hlookup] at h
  cases lookup with
  | error error =>
      obtain ⟨rfl, rfl⟩ := Prod.mk.inj h
      exact attempted_of_failure hkept (fails_of_answer hcall) ..
  | ok value =>
      obtain ⟨-, -, -, hok, -⟩ := answer_spec hcall
      obtain ⟨-, hvalue⟩ := hok value rfl
      rcases @lookupEntity_spec folderOf s.entities entry with
        ⟨hmissing, hnew⟩ | ⟨entity, hentity, hof, hfound⟩
      · obtain rfl : value = .missing := hvalue.trans hmissing
        obtain ⟨u, created, hcreate⟩ : ∃ u created, tenant.answer (fun entities ↦
            (entities ++ [tenant.newEntity (folderOf entry.targetFolderPath)
              entry.externalIdCandidate entities],
            (tenant.newEntity (folderOf entry.targetFolderPath) entry.externalIdCandidate
              entities).qcEntityId)) t = (u, created) := ⟨_, _, rfl⟩
        have hclient : tenant.client.createTestEntity (folderOf entry.targetFolderPath) entry t =
            (u, created) := hcreate
        have hadded : Kept folderOf entries t u := by
          apply kept_of_answer hcreate hkept.sound
          · apply hkept.sound.now.addEntity
            rw [hentities]
            exact hnew
          · exact fun other hother ↦ ⟨other, List.mem_append_left _ hother, rfl, rfl, rfl,
              List.prefix_refl _⟩
        simp only [hclient] at h
        cases created with
        | error error =>
            obtain ⟨rfl, rfl⟩ := Prod.mk.inj h
            exact (attempted_of_failure hadded (fails_of_answer hcreate) ..).after hkept
        | ok qcEntityId =>
            obtain ⟨-, -, -, hok, -⟩ := answer_spec hcreate
            obtain ⟨hwith, rfl⟩ := hok qcEntityId rfl
            have hmem : tenant.newEntity (folderOf entry.targetFolderPath)
                entry.externalIdCandidate t.entities ∈ u.entities := by
              rw [hwith]
              exact List.mem_append_right _ List.mem_cons_self
            have hfill : Attempted tenant folderOf entries entry u s' attempt.record :=
              fillEntity_spec hdistinct hentry hadded.sound hmem ⟨rfl, rfl⟩ rfl h
            exact hfill.after (hkept.trans hadded)
      · obtain rfl : value = .found entity.qcEntityId (some entity.steps.length) :=
          hvalue.trans hfound
        have hprefix := hs.now.steps entity hentity entry hentry hof
        rw [← hentities] at hentity
        by_cases hpartial : entity.steps.length < entry.designSteps.length
        · have hresume :
              isPartialWrite (some entity.steps.length) entry.designSteps.length = true :=
            decide_eq_true hpartial
          simp only [hresume, if_true, Option.getD_some] at h
          have hsteps : entity.steps ++ (sortedDesignSteps entry).drop entity.steps.length =
              sortedDesignSteps entry := (List.prefix_iff_eq_append.mp hprefix)
          exact (fillEntity_spec hdistinct hentry hkept.sound hentity hof hsteps h).after hkept
        · have hskip : isPartialWrite (some entity.steps.length) entry.designSteps.length = false :=
            decide_eq_false hpartial
          simp only [hskip, Bool.false_eq_true, if_false] at h
          obtain ⟨rfl, rfl⟩ := Prod.mk.inj h
          refine ⟨hkept, isRecordOf_newRecord .., fun _ ↦ ⟨entity, hentity, hof, ?_⟩,
            fun hfailed ↦ ?_⟩
          · apply hprefix.eq_of_length_le
            rw [length_sortedDesignSteps]
            exact not_lt.mp hpartial
          · simp [newRecord, TransferEntityOutcome.isTransferred] at hfailed

/-! ## One run -/

/-- The folder resolver, where there is one, finds every folder. -/
def ResolvesFolders (input : TransferInput) : Prop :=
  ∀ resolver ∈ input.folderResolver, ∀ path,
    resolver path = .ok .resolved ∨ resolver path = .ok .simulated

variable {sha256 : Bytes → JsString} {input : TransferInput}

theorem resolveTargetFolder_spec {path : JsString} {folder : Option QcApiFolderHandle}
    (hs : AlwaysSound folderOf entries s)
    (h : resolveTargetFolder tenant.client sha256 input path s = (s', folder)) :
    Kept folderOf entries s s' ∧
      (∀ found, folder = some found → found = tenant.folderOf sha256 input path) ∧
      (folder = none → ResolvesFolders input → ¬tenant.FailureFree s s') := by
  rw [resolveTargetFolder] at h
  cases hresolver : input.folderResolver with
  | some resolver =>
      have hhandle : tenant.folderOf sha256 input path = simulatedFolder sha256 input path := by
        rw [Tenant.folderOf, hresolver]
      have hnone : folder = none → ResolvesFolders input →
          folder = some (simulatedFolder sha256 input path) := by
        rintro rfl hresolves
        rw [hresolver] at h
        rcases hresolves resolver hresolver path with heq | heq <;> simp [heq] at h
      rw [hresolver] at h
      simp only at h
      have hstate : s = s' ∧
          ∀ found, folder = some found → found = simulatedFolder sha256 input path := by
        split at h
        · split at h
          · obtain ⟨rfl, rfl⟩ := Prod.mk.inj h
            exact ⟨rfl, fun found heq ↦ (Option.some.inj heq).symm⟩
          · obtain ⟨rfl, rfl⟩ := Prod.mk.inj h
            exact ⟨rfl, fun found heq ↦ absurd heq (by simp)⟩
        · obtain ⟨rfl, rfl⟩ := Prod.mk.inj h
          exact ⟨rfl, fun found heq ↦ absurd heq (by simp)⟩
      obtain ⟨rfl, hfound⟩ := hstate
      refine ⟨.refl hs, fun found heq ↦ (hfound found heq).trans hhandle.symm,
        fun heq hresolves ↦ ?_⟩
      exact absurd (heq.symm.trans (hnone heq hresolves)) (by simp)
  | none =>
      have hhandle : tenant.folderOf sha256 input path = tenant.folders path := by
        rw [Tenant.folderOf, hresolver]
      obtain ⟨t, result, hcall⟩ : ∃ t result, tenant.answer (fun entities ↦
          (entities, tenant.folders path)) s = (t, result) := ⟨_, _, rfl⟩
      have hclient : tenant.client.resolveFolder path s = (t, result) := hcall
      obtain ⟨hkept, -⟩ := kept_of_read hcall hs
      rw [hresolver] at h
      simp only [hclient] at h
      cases result with
      | ok value =>
          obtain ⟨-, -, -, hok, -⟩ := answer_spec hcall
          obtain ⟨rfl, rfl⟩ := Prod.mk.inj h
          refine ⟨hkept, fun found heq ↦ ?_, fun heq ↦ by cases heq⟩
          rw [hhandle, ← Option.some.inj heq]
          exact (hok value rfl).2
      | error error =>
          obtain ⟨rfl, rfl⟩ := Prod.mk.inj h
          exact ⟨hkept, fun found heq ↦ absurd heq (by simp), fun _ _ ↦ fails_of_answer hcall⟩

theorem resolveTargetFolders_spec {paths : List JsString}
    {folderByPath : List (JsString × QcApiFolderHandle)}
    {found : Option (List (JsString × QcApiFolderHandle))} (hs : AlwaysSound folderOf entries s)
    (h : resolveTargetFolders tenant.client sha256 input paths folderByPath s = (s', found)) :
    Kept folderOf entries s s' ∧
      (∀ folders, found = some folders → ∀ path,
        path ∈ paths ∨ mapGet folderByPath path = some (tenant.folderOf sha256 input path) →
          mapGet folders path = some (tenant.folderOf sha256 input path)) ∧
      (found = none → ResolvesFolders input → ¬tenant.FailureFree s s') := by
  induction paths generalizing folderByPath s with
  | nil =>
      obtain ⟨rfl, rfl⟩ := Prod.mk.inj h
      refine ⟨.refl hs, fun folders heq path hpath ↦ ?_, fun heq ↦ by cases heq⟩
      rw [← Option.some.inj heq]
      exact hpath.resolve_left (by simp)
  | cons path rest ih =>
      rw [resolveTargetFolders] at h
      obtain ⟨t, folder, hstep⟩ : ∃ t folder,
          resolveTargetFolder tenant.client sha256 input path s = (t, folder) := ⟨_, _, rfl⟩
      obtain ⟨hkept, hfolder, hfails⟩ := resolveTargetFolder_spec hs hstep
      rw [hstep] at h
      cases folder with
      | none =>
          obtain ⟨rfl, rfl⟩ := Prod.mk.inj h
          exact ⟨hkept, fun folders heq ↦ absurd heq (by simp), fun _ ↦ hfails rfl⟩
      | some folder =>
          obtain ⟨hrest, hfound, hfails'⟩ := ih hkept.sound h
          refine ⟨hkept.trans hrest, fun folders heq other hother ↦ ?_,
            fun heq hresolves hfree ↦ ?_⟩
          · apply hfound folders heq other
            rw [mapGet_mapSet]
            by_cases hpath : other = path
            · right
              rw [if_pos hpath, hpath, hfolder folder rfl]
            · rw [if_neg hpath]
              exact hother.imp_left fun hmem ↦ (List.mem_cons.mp hmem).resolve_left hpath
          · exact hfails' heq hresolves (FailureFree.mono hfree hkept.grows.calls le_rfl)

/-- The loop over the entries makes one attempt for each of them. -/
theorem transferEntries_spec (hdistinct : DistinctIds folderOf entries)
    {folderByPath : List (JsString × QcApiFolderHandle)} {eligible : List QcMappingPreviewEntry}
    {n : ℕ} {result : Except JsString (List AttemptResult)}
    (hfolders : ∀ entry ∈ eligible,
      mapGet folderByPath entry.targetFolderPath = some (folderOf entry.targetFolderPath))
    (heligible : ∀ entry ∈ eligible, entry ∈ entries) (hs : AlwaysSound folderOf entries s)
    (h : transferEntries tenant.client input folderByPath eligible n s = (s', result)) :
    Kept folderOf entries s s' ∧ ∃ attempts, result = .ok attempts ∧
      List.Forall₂ (fun entry attempt ↦ IsRecordOf attempt.record entry ∧
        (attempt.record.outcome.isTransferred = true → Completed folderOf s'.entities entry) ∧
        (tenant.FailureFree s s' → attempt.record.outcome.isTransferred = true))
        eligible attempts := by
  induction eligible generalizing n s result with
  | nil =>
      obtain ⟨rfl, rfl⟩ := Prod.mk.inj h
      exact ⟨.refl hs, [], rfl, .nil⟩
  | cons entry rest ih =>
      obtain ⟨hfolder, hfolders⟩ := List.forall_mem_cons.mp hfolders
      obtain ⟨hentry, heligible⟩ := List.forall_mem_cons.mp heligible
      obtain ⟨t, attempt, hattempt⟩ : ∃ t attempt, attemptTransfer tenant.client
          (folderOf entry.targetFolderPath) entry (input.now n) s = (t, attempt) := ⟨_, _, rfl⟩
      obtain ⟨u, others, hothers⟩ : ∃ u others, transferEntries tenant.client input folderByPath
          rest (n + 1) t = (u, others) := ⟨_, _, rfl⟩
      simp only [transferEntries, hfolder, hattempt, hothers] at h
      obtain ⟨rfl, rfl⟩ := Prod.mk.inj h
      have hone := attemptTransfer_spec hdistinct hentry hs hattempt
      obtain ⟨hkept, attempts, rfl, hall⟩ := ih hfolders heligible hone.kept.sound hothers
      refine ⟨hone.kept.trans hkept, attempt :: attempts, rfl, .cons ?_ (hall.imp ?_)⟩
      · refine ⟨hone.describes, fun htransferred ↦ ?_, fun hfree ↦ ?_⟩
        · exact (hone.completed htransferred).grows hkept.grows hkept.sound.now hentry
        · by_contra hnot
          apply hone.fails (by simpa using hnot)
          exact FailureFree.mono hfree le_rfl hkept.grows.calls
      · rintro entry' attempt' ⟨hrecord, hcompleted, htransferred⟩
        refine ⟨hrecord, hcompleted, fun hfree ↦ htransferred ?_⟩
        exact FailureFree.mono hfree hone.kept.grows.calls le_rfl

/-- Where the gate over the entries refuses nothing, every entry is eligible. -/
theorem isEligible_of_entryRefusals {snapshotIndex : List (JsString × ReviewSnapshot)}
    {preview : List QcMappingPreviewEntry} (h : entryRefusals snapshotIndex preview = [])
    (hentry : entry ∈ preview) : isEligible snapshotIndex entry = true := by
  have happroved : entryGate snapshotIndex entry = .approved := by
    simp only [entryRefusals] at h
    rw [if_neg (List.ne_nil_of_mem hentry)] at h
    split at h
    · cases h
    · have hcode := List.filterMap_eq_nil_iff.mp h _ (List.mem_map_of_mem hentry)
      cases hgate : entryGate snapshotIndex entry with
      | approved => rfl
      | _ => simp [hgate, gateCode] at hcode
  unfold entryGate at happroved
  unfold isEligible
  cases hsnapshot : mapGet snapshotIndex entry.testCaseId with
  | none => simp [hsnapshot] at happroved
  | some snapshot =>
      simp only [hsnapshot] at happroved
      split at happroved
      · cases happroved
      · next hpolicy =>
        split at happroved
        · cases happroved
        · next hexportable =>
          split at happroved
          · cases happroved
          · split at happroved
            · cases happroved
            · next hpending =>
              split at happroved
              · next hstate => simp_all
              · cases happroved

theorem isRecordOf_noteReviewEvent {record : TransferEntityRecord} (h : IsRecordOf record entry) :
    IsRecordOf (noteReviewEvent input record) entry := by
  unfold noteReviewEvent
  split
  · exact h
  · split <;> exact h

theorem outcome_noteReviewEvent (record : TransferEntityRecord) :
    (noteReviewEvent input record).outcome = record.outcome := by
  unfold noteReviewEvent
  split
  · rfl
  · split <;> rfl

/-- The run is not refused: no gate refuses it, and the folders can be resolved. -/
structure Passes (input : TransferInput) : Prop where
  jobId : input.jobId ≠ []
  gates : collectGateRefusals input = []
  folders : ResolvesFolders input

/-- What one run leaves, and what its records say. -/
structure ExactlyOnce (tenant : Tenant) (folderOf : JsString → QcApiFolderHandle)
    (entries : List QcMappingPreviewEntry) (input : TransferInput) (s s' : TenantState)
    (result : Except JsString TransferReport) : Prop where
  sound : AlwaysSound folderOf entries s'
  records : ∀ report, result = .ok report → ∀ record ∈ report.records,
    record.outcome.isTransferred = true →
      ∃ entry ∈ entries, IsRecordOf record entry ∧ Completed folderOf s'.entities entry
  completes : Passes input → tenant.FailureFree s s' → ∃ report, result = .ok report ∧
    ∀ entry ∈ entries, Completed folderOf s'.entities entry ∧ ∃ record ∈ report.records,
      IsRecordOf record entry ∧ record.outcome.isTransferred = true

variable {localeCompare : JsString → JsString → ℤ}

theorem exactlyOnce_run (hdistinct : DistinctIds folderOf entries)
    (hpreview : input.preview = entries) (hfolderOf : tenant.folderOf sha256 input = folderOf)
    {result : Except JsString TransferReport}
    (hs : AlwaysSound folderOf entries s)
    (h : runOpenTextAlmApiTransfer tenant.client sha256 localeCompare input s = (s', result)) :
    ExactlyOnce tenant folderOf entries input s s' result := by
  rw [runOpenTextAlmApiTransfer] at h
  split at h
  · next hjob =>
      obtain ⟨rfl, rfl⟩ := Prod.mk.inj h
      exact ⟨hs, fun report heq ↦ absurd heq (by simp), fun hpasses ↦ absurd hjob hpasses.jobId⟩
  split at h
  · next hgates =>
      obtain ⟨rfl, rfl⟩ := Prod.mk.inj h
      refine ⟨hs, fun report heq record hrecord ↦ ?_, fun hpasses ↦ absurd hpasses.gates hgates⟩
      obtain rfl := Except.ok.inj heq
      simp [refusedReport] at hrecord
  · subst hpreview hfolderOf
    simp only at h
    generalize heligible : sortPreviewEntries localeCompare input.preview
      (buildSnapshotIndex input.reviewSnapshot) = eligible at h
    have hsub : ∀ entry ∈ eligible, entry ∈ input.preview := by
      intro entry hentry
      rw [← heligible, sortPreviewEntries, mem_sortBy] at hentry
      exact List.mem_of_mem_filter hentry
    obtain ⟨t, found, hresolve⟩ : ∃ t found, resolveTargetFolders tenant.client sha256 input
        (sortedUnique (eligible.map (·.targetFolderPath))) [] s = (t, found) := ⟨_, _, rfl⟩
    obtain ⟨hkept, hfound, hfails⟩ := resolveTargetFolders_spec hs hresolve
    rw [hresolve] at h
    cases found with
    | none =>
        obtain ⟨rfl, rfl⟩ := Prod.mk.inj h
        refine ⟨hkept.sound, fun report heq record hrecord ↦ ?_, fun hpasses hfree ↦ ?_⟩
        · obtain rfl := Except.ok.inj heq
          simp [refusedReport] at hrecord
        · exact absurd hfree (hfails rfl hpasses.folders)
    | some folderByPath =>
        obtain ⟨u, outcome, htransfer⟩ : ∃ u outcome, transferEntries tenant.client input
            folderByPath eligible 0 t = (u, outcome) := ⟨_, _, rfl⟩
        have hfolders : ∀ entry ∈ eligible, mapGet folderByPath entry.targetFolderPath =
            some (tenant.folderOf sha256 input entry.targetFolderPath) := by
          intro entry hentry
          apply hfound folderByPath rfl
          left
          rw [sortedUnique, mem_sortStrings, mem_setOf]
          exact List.mem_map_of_mem hentry
        obtain ⟨hkept', attempts, rfl, hall⟩ :=
          transferEntries_spec hdistinct hfolders hsub hkept.sound htransfer
        simp only [htransfer] at h
        obtain ⟨rfl, rfl⟩ := Prod.mk.inj h
        refine ⟨hkept'.sound, fun report heq record hrecord htransferred ↦ ?_,
          fun hpasses hfree ↦ ⟨_, rfl, fun entry hentry ↦ ?_⟩⟩
        · obtain rfl := Except.ok.inj heq
          simp only [transferReport, mem_sortBy, List.mem_map] at hrecord
          obtain ⟨attempt, hattempt, rfl⟩ := hrecord
          obtain ⟨entry, hentry, hrecord, hcompleted, -⟩ :=
            exists_of_forall₂_of_mem hall.flip hattempt
          rw [outcome_noteReviewEvent] at htransferred
          exact ⟨entry, hsub entry hentry, isRecordOf_noteReviewEvent hrecord,
            hcompleted htransferred⟩
        · have hmem : entry ∈ eligible := by
            rw [← heligible, sortPreviewEntries, mem_sortBy, List.mem_filter]
            refine ⟨hentry, isEligible_of_entryRefusals ?_ hentry⟩
            exact (List.append_eq_nil_iff.mp hpasses.gates).2
          obtain ⟨attempt, hattempt, hrecord, hcompleted, htransferred⟩ :=
            exists_of_forall₂_of_mem hall hmem
          have hdone := htransferred (FailureFree.mono hfree hkept.grows.calls le_rfl)
          refine ⟨hcompleted hdone, noteReviewEvent input attempt.record, ?_,
            isRecordOf_noteReviewEvent hrecord, ?_⟩
          · simp only [transferReport, mem_sortBy]
            exact List.mem_map_of_mem hattempt
          · rw [outcome_noteReviewEvent]
            exact hdone

end

/-! ## Sequences of runs -/

section

variable (tenant : Tenant) (sha256 : Bytes → JsString) (localeCompare : JsString → JsString → ℤ)

def transferRun (s : TenantState) (input : TransferInput) :
    TenantState × Except JsString TransferReport :=
  runOpenTextAlmApiTransfer tenant.client sha256 localeCompare input s

end

section

variable {tenant : Tenant} {sha256 : Bytes → JsString} {localeCompare : JsString → JsString → ℤ}
  {folderOf : JsString → QcApiFolderHandle} {entries : List QcMappingPreviewEntry}
  {runs : List TransferInput} {s : TenantState}

end

/-- The fourth call, which creates the first step, takes effect and fails. -/
def flakyTenant : Tenant where
  folders path := ⟨js "f-1", path⟩
  newEntityId ids := ids.flatten ++ [0x30]
  newEntityId_fresh := by
    intro ids hmem
    have hle := (List.sublist_flatten_of_mem hmem).length_le
    simp at hle
  fate n := if n = 3 then .failsAfterEffect ⟨some .transportError, js "timeout"⟩ else .succeeds

def loginEntry : QcMappingPreviewEntry where
  testCaseId := js "tc-1"
  externalIdCandidate := js "ext-1"
  testName := js "Log in"
  objective := []
  priority := js "p1"
  riskCategory := js "low"
  targetFolderPath := js "/Subject/Auth"
  preconditions := []
  testData := []
  designSteps := [⟨2, js "Submit", none, none⟩, ⟨1, js "Open", none, none⟩]
  expectedResults := []
  visualProvenance := none
  sourceTraceRefs := []
  exportable := true
  blockingReasons := []

def loginTransfer : TransferInput where
  jobId := js "job-1"
  profileId := js "opentext-alm-default"
  profileVersion := js "1.0.0"
  preview := [loginEntry]
  reviewSnapshot :=
    { jobId := js "job-1"
      generatedAt := []
      perTestCase := [⟨js "tc-1", .exported, .approved, [], [], false, [], none, none, none, none,
        none, none⟩]
      counts := ⟨1, 0, 0, 0⟩
      fourEyesPolicy := none }
  otherRefusals := []
  folderResolver := none
  now := fun _ ↦ []
  reviewEventSink := none

end TestIntelligence.Integrations
