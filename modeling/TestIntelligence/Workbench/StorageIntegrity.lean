import TestIntelligence.Js.Outcome
import TestIntelligence.Workbench.StorageTransactions

/-!
# Referential integrity of the memory adapter

Records are added under fresh identifiers and updated under their own, and an update keeps the
tenant.  A reference that was checked when its record was created therefore stays sound.
-/

namespace TestIntelligence.Workbench

open Js Systems

/-! ## References -/

def RefersToRun (maps : MemoryMaps) (runId tenantScope : JsString) : Prop :=
  ∃ run, mapGet (maps .runs) runId = some run ∧ run.tenantScope = tenantScope

def RefersToSeed (maps : MemoryMaps) (seedId tenantScope runId : JsString) : Prop :=
  ∃ seed, mapGet (maps .generatedSeeds) seedId = some seed ∧ seed.tenantScope = tenantScope ∧
    seed.runId = runId

/-- The version is stored and has a trace link. -/
def RefersToLinkedVersion (maps : MemoryMaps) (versionId tenantScope : JsString) : Prop :=
  ∃ version, mapGet (maps .testCaseVersions) versionId = some version ∧ version.id = versionId ∧
    version.tenantScope = tenantScope ∧
    ∃ entry ∈ maps .testCaseTraceLinks, entry.2.testCaseVersionId = versionId ∧
      entry.2.tenantScope = tenantScope

structure RefersSoundly (maps : MemoryMaps) : Prop where
  artifacts : ∀ entry ∈ maps .artifacts, RefersToRun maps entry.2.runId entry.2.tenantScope
  generatedSeeds : ∀ entry ∈ maps .generatedSeeds,
    RefersToRun maps entry.2.runId entry.2.tenantScope
  exports : ∀ entry ∈ maps .exports, RefersToRun maps entry.2.runId entry.2.tenantScope
  testCases : ∀ entry ∈ maps .testCases,
    RefersToRun maps entry.2.sourceRunId entry.2.tenantScope ∧
    RefersToSeed maps entry.2.sourceGeneratedSeedId entry.2.tenantScope entry.2.sourceRunId ∧
    RefersToLinkedVersion maps entry.2.currentVersionId entry.2.tenantScope

/-- What later maps still hold of the records that are referred to. -/
structure Retains (maps maps' : MemoryMaps) : Prop where
  runs : ∀ id run, mapGet (maps .runs) id = some run →
    ∃ run', mapGet (maps' .runs) id = some run' ∧ run'.tenantScope = run.tenantScope
  generatedSeeds : ∀ id seed, mapGet (maps .generatedSeeds) id = some seed →
    mapGet (maps' .generatedSeeds) id = some seed
  testCaseVersions : ∀ id version, mapGet (maps .testCaseVersions) id = some version →
    mapGet (maps' .testCaseVersions) id = some version
  testCaseTraceLinks : ∀ entry ∈ maps .testCaseTraceLinks,
    ∃ entry' ∈ maps' .testCaseTraceLinks, entry'.2 = entry.2

theorem Retains.refersToRun {maps maps' : MemoryMaps} (h : Retains maps maps')
    {runId tenantScope : JsString} (hrun : RefersToRun maps runId tenantScope) :
    RefersToRun maps' runId tenantScope := by
  obtain ⟨run, hget, htenant⟩ := hrun
  obtain ⟨run', hget', htenant'⟩ := h.runs runId run hget
  exact ⟨run', hget', htenant'.trans htenant⟩

theorem Retains.refersToSeed {maps maps' : MemoryMaps} (h : Retains maps maps')
    {seedId tenantScope runId : JsString} (hseed : RefersToSeed maps seedId tenantScope runId) :
    RefersToSeed maps' seedId tenantScope runId := by
  obtain ⟨seed, hget, hfields⟩ := hseed
  exact ⟨seed, h.generatedSeeds seedId seed hget, hfields⟩

theorem Retains.refersToLinkedVersion {maps maps' : MemoryMaps} (h : Retains maps maps')
    {versionId tenantScope : JsString}
    (hversion : RefersToLinkedVersion maps versionId tenantScope) :
    RefersToLinkedVersion maps' versionId tenantScope := by
  obtain ⟨version, hget, hid, htenant, entry, hentry, hlink⟩ := hversion
  obtain ⟨entry', hentry', heq⟩ := h.testCaseTraceLinks entry hentry
  exact ⟨version, h.testCaseVersions versionId version hget, hid, htenant, entry', hentry',
    heq ▸ hlink⟩

/-! ## Identifiers -/

/-- The records that others refer to are stored under identifiers that were drawn. -/
structure KeysIssued (env : StorageEnvironment) (issued : ℕ) (maps : MemoryMaps) : Prop where
  runs : ∀ id ∈ (maps .runs).map Prod.fst, ∃ i < issued, id = env.randomUUID i
  generatedSeeds : ∀ id ∈ (maps .generatedSeeds).map Prod.fst, ∃ i < issued, id = env.randomUUID i
  testCaseVersions : ∀ id ∈ (maps .testCaseVersions).map Prod.fst,
    ∃ i < issued, id = env.randomUUID i
  testCaseTraceLinks : ∀ id ∈ (maps .testCaseTraceLinks).map Prod.fst,
    ∃ i < issued, id = env.randomUUID i

structure SoundMaps (env : StorageEnvironment) (issued : ℕ) (maps : MemoryMaps) : Prop where
  refers : RefersSoundly maps
  keys : KeysIssued env issued maps

/-- What a call may put into the maps. -/
inductive Puts (fresh : ℕ → JsString) (timestamp : JsString) (maps : MemoryMaps) :
    List StoredEntry → ℕ → Prop
  | nothing (issued : ℕ) : Puts fresh timestamp maps [] issued
  | snapshot (id : JsString) (record : SnapshotMetadataRecord) (issued : ℕ) :
      Puts fresh timestamp maps [⟨.snapshots, id, record⟩] issued
  | scopeBasket (id : JsString) (record : ScopeBasketRecord) (issued : ℕ) :
      Puts fresh timestamp maps [⟨.scopeBaskets, id, record⟩] issued
  | newRun (record : RunMetadataRecord) :
      Puts fresh timestamp maps [⟨.runs, fresh 0, record⟩] 1
  | updatedRun {id : JsString} {existing record : RunMetadataRecord} (issued : ℕ)
      (hexisting : mapGet (maps .runs) id = some existing)
      (htenant : record.tenantScope = existing.tenantScope) :
      Puts fresh timestamp maps [⟨.runs, id, record⟩] issued
  | newArtifact {record : ArtifactMetadataRecord} (id : JsString) (issued : ℕ)
      (hrun : RefersToRun maps record.runId record.tenantScope) :
      Puts fresh timestamp maps [⟨.artifacts, id, record⟩] issued
  | newExport {record : ExportMetadataRecord} (id : JsString) (issued : ℕ)
      (hrun : RefersToRun maps record.runId record.tenantScope) :
      Puts fresh timestamp maps [⟨.exports, id, record⟩] issued
  | newSeed {record : GeneratedSeedMetadataRecord}
      (hrun : RefersToRun maps record.runId record.tenantScope) :
      Puts fresh timestamp maps [⟨.generatedSeeds, fresh 0, record⟩] 1
  | newTestCase {input : CreatePersistedTestCaseInput}
      (hrun : RefersToRun maps input.sourceRunId input.tenantScope)
      (hseed : RefersToSeed maps input.sourceGeneratedSeedId input.tenantScope input.sourceRunId)
      (htargets : input.initialVersion.traceTargets ≠ []) :
      Puts fresh timestamp maps
        (⟨.testCases, fresh 0, testCaseOf fresh timestamp input⟩ ::
          ⟨.testCaseVersions, fresh 1, versionOf fresh timestamp input⟩ ::
            (traceLinksOf fresh timestamp input).map linkEntry)
        (2 + (traceLinksOf fresh timestamp input).length)

/-! ## What the calls put -/

section

variable {fresh : ℕ → JsString} {timestamp : JsString} {maps : MemoryMaps}

theorem refersToRun_of_assert {runId tenantScope relationName : JsString} {u : Unit}
    (h : assertSameTenantRun (mapGet (maps .runs) runId) tenantScope relationName = .ok u) :
    RefersToRun maps runId tenantScope := by
  unfold assertSameTenantRun at h
  split at h
  · cases h
  · next hrun =>
      rw [Option.isNone_iff_eq_none] at hrun
      obtain ⟨run, hrun⟩ := Option.ne_none_iff_exists'.mp hrun
      obtain ⟨hget, htenant⟩ := Option.filter_eq_some_iff.mp hrun
      exact ⟨run, hget, of_decide_eq_true htenant⟩

theorem refersToSeed_of_assert {input : CreatePersistedTestCaseInput} {u : Unit}
    (h : assertReferencedGeneratedSeed maps input = .ok u) :
    RefersToSeed maps input.sourceGeneratedSeedId input.tenantScope input.sourceRunId := by
  unfold assertReferencedGeneratedSeed at h
  split at h
  · cases h
  · next hseed =>
      rw [Option.isNone_iff_eq_none] at hseed
      obtain ⟨seed, hseed⟩ := Option.ne_none_iff_exists'.mp hseed
      obtain ⟨hget, hfields⟩ := Option.filter_eq_some_iff.mp hseed
      rw [Bool.and_eq_true, decide_eq_true_eq, decide_eq_true_eq] at hfields
      exact ⟨seed, hget, hfields⟩

theorem traceTargets_of_assert {input : CreatePersistedTestCaseInput} {u : Unit}
    (h : assertTraceTargetsPresent input = .ok u) : input.initialVersion.traceTargets ≠ [] := by
  unfold assertTraceTargetsPresent at h
  split at h
  · cases h
  · next hne => exact hne

/-- An update puts nothing, or the updated record in the place of the existing one. -/
theorem updateStoredRecord_cases (maps : MemoryMaps) (kind : StoreKind) (id tenantScope : JsString)
    (update : RecordOf kind → RecordOf kind) (readings : ℕ) :
    (updateStoredRecord maps kind id tenantScope update readings).issued = 0 ∧
      ((updateStoredRecord maps kind id tenantScope update readings).entries = [] ∨
        ∃ existing, mapGet (maps kind) id = some existing ∧
          (updateStoredRecord maps kind id tenantScope update readings).entries =
            [⟨kind, id, update existing⟩]) := by
  unfold updateStoredRecord
  cases hget : mapGet (maps kind) id with
  | none => exact ⟨rfl, .inl rfl⟩
  | some existing =>
      dsimp only
      split
      · exact ⟨rfl, .inl rfl⟩
      · exact ⟨rfl, .inr ⟨existing, rfl, rfl⟩⟩

theorem puts_effect {call : RepositoryCall} {effect : RepositoryEffect}
    (h : call.effect fresh timestamp maps = .ok effect) :
    Puts fresh timestamp maps effect.entries effect.issued := by
  cases call with
  | createSnapshot input =>
      change SnapshotRepository.create fresh timestamp input = .ok effect at h
      unfold SnapshotRepository.create at h
      dsimp only at h
      split at h
      · obtain ⟨u, -, h⟩ := bind_eq_ok h
        obtain rfl := Except.ok.inj h
        exact .snapshot _ _ _
      · obtain rfl := Except.ok.inj h
        exact .snapshot _ _ _
  | createRun input =>
      obtain rfl := Except.ok.inj h
      exact .newRun _
  | createScopeBasket input =>
      obtain rfl := Except.ok.inj h
      exact .scopeBasket _ _ _
  | createArtifact input =>
      change ArtifactRepository.create fresh timestamp maps input = .ok effect at h
      unfold ArtifactRepository.create at h
      obtain ⟨u, hrun, h⟩ := bind_eq_ok h
      obtain ⟨v, -, h⟩ := bind_eq_ok h
      obtain rfl := Except.ok.inj h
      exact .newArtifact _ _ (refersToRun_of_assert hrun)
  | createGeneratedSeed input =>
      change GeneratedSeedRepository.create fresh timestamp maps input = .ok effect at h
      unfold GeneratedSeedRepository.create at h
      obtain ⟨u, hrun, h⟩ := bind_eq_ok h
      obtain ⟨v, -, h⟩ := bind_eq_ok h
      obtain rfl := Except.ok.inj h
      exact .newSeed (refersToRun_of_assert hrun)
  | createExport input =>
      change ExportRepository.create fresh timestamp maps input = .ok effect at h
      unfold ExportRepository.create at h
      obtain ⟨u, hrun, h⟩ := bind_eq_ok h
      obtain ⟨v, -, h⟩ := bind_eq_ok h
      obtain rfl := Except.ok.inj h
      exact .newExport _ _ (refersToRun_of_assert hrun)
  | createTestCase input =>
      change TestCaseRepository.create fresh timestamp maps input = .ok effect at h
      unfold TestCaseRepository.create at h
      obtain ⟨u, -, h⟩ := bind_eq_ok h
      obtain ⟨v, hrun, h⟩ := bind_eq_ok h
      obtain ⟨w, hseed, h⟩ := bind_eq_ok h
      obtain ⟨x, htargets, h⟩ := bind_eq_ok h
      obtain rfl := Except.ok.inj h
      exact .newTestCase (refersToRun_of_assert hrun) (refersToSeed_of_assert hseed)
        (traceTargets_of_assert htargets)
  | updateLifecycleState id tenantScope lifecycleState =>
      obtain rfl := Except.ok.inj h
      obtain ⟨-, hentries | ⟨existing, -, hentries⟩⟩ := updateStoredRecord_cases maps
        .snapshots id tenantScope (fun existing ↦ { existing with lifecycleState }) 0
      · rw [SnapshotRepository.updateLifecycleState, hentries]
        exact .nothing _
      · rw [SnapshotRepository.updateLifecycleState, hentries]
        exact .snapshot _ _ _
  | updateStatus id tenantScope status =>
      obtain rfl := Except.ok.inj h
      obtain ⟨-, hentries | ⟨existing, hexisting, hentries⟩⟩ := updateStoredRecord_cases maps
        .runs id tenantScope (fun existing ↦ { existing with status, updatedAt := timestamp }) 1
      · rw [RunRepository.updateStatus, hentries]
        exact .nothing _
      · rw [RunRepository.updateStatus, hentries]
        exact .updatedRun _ hexisting rfl
  | updateScopeBasket id tenantScope changes =>
      obtain rfl := Except.ok.inj h
      obtain ⟨-, hentries | ⟨existing, -, hentries⟩⟩ := updateStoredRecord_cases maps
        .scopeBaskets id tenantScope
        (fun existing ↦ applyScopeBasketChanges timestamp existing changes) 1
      · rw [ScopeBasketRepository.update, hentries]
        exact .nothing _
      · rw [ScopeBasketRepository.update, hentries]
        exact .scopeBasket _ _ _
  | _ =>
      obtain rfl := Except.ok.inj h
      exact .nothing _

end

/-! ## Putting entries -/

@[simp] theorem putContents_self (maps : MemoryMaps) (kind : StoreKind) (id : JsString)
    (record : RecordOf kind) :
    putContents maps ⟨kind, id, record⟩ kind = mapSet (maps kind) id record := by
  simp [putContents]

theorem putContents_of_ne (maps : MemoryMaps) {kind kind' : StoreKind} (h : kind' ≠ kind)
    (id : JsString) (record : RecordOf kind) :
    putContents maps ⟨kind, id, record⟩ kind' = maps kind' := by
  simp [putContents, h]

theorem mapGet_mapSet_of_notMem {β : Type} {m : List (JsString × β)} {k id : JsString} {v x : β}
    (hk : k ∉ m.map Prod.fst) (h : mapGet m id = some x) : mapGet (mapSet m k v) id = some x := by
  rw [mapGet_mapSet, if_neg]
  · exact h
  · rintro rfl
    exact hk (List.mem_map_of_mem (mem_of_mapGet h))

theorem mem_mapSet_of_ne {β : Type} {m : List (JsString × β)} {k : JsString} {v : β}
    {p : JsString × β} (hp : p ∈ m) (hne : p.1 ≠ k) : p ∈ mapSet m k v := by
  induction m with
  | nil => cases hp
  | cons q m ih =>
      rw [mapSet]
      split
      · next hq =>
          rcases List.mem_cons.mp hp with rfl | hp
          · exact absurd hq hne
          · exact List.mem_cons_of_mem _ hp
      · rcases List.mem_cons.mp hp with rfl | hp
        · exact List.mem_cons_self
        · exact List.mem_cons_of_mem _ (ih hp)

theorem mem_mapSet_self {β : Type} (m : List (JsString × β)) (k : JsString) (v : β) :
    (k, v) ∈ mapSet m k v := by
  apply mem_of_mapGet
  rw [mapGet_mapSet, if_pos rfl]

def putLinks (links : List TestCaseTraceLinkRecord)
    (stored : List (JsString × TestCaseTraceLinkRecord)) :
    List (JsString × TestCaseTraceLinkRecord) :=
  links.foldl (fun stored link ↦ mapSet stored link.id link) stored

theorem foldl_linkEntry (links : List TestCaseTraceLinkRecord) (maps : MemoryMaps) :
    (links.map linkEntry).foldl putContents maps =
      Function.update maps .testCaseTraceLinks (putLinks links (maps .testCaseTraceLinks)) := by
  induction links generalizing maps with
  | nil => exact (Function.update_eq_self _ _).symm
  | cons link links ih =>
      rw [List.map_cons, List.foldl_cons, ih]
      simp [linkEntry, putContents, putLinks]

theorem mem_putLinks_of_ne {links : List TestCaseTraceLinkRecord}
    {stored : List (JsString × TestCaseTraceLinkRecord)} {p : JsString × TestCaseTraceLinkRecord}
    (hp : p ∈ stored) (hne : ∀ link ∈ links, p.1 ≠ link.id) : p ∈ putLinks links stored := by
  induction links generalizing stored with
  | nil => exact hp
  | cons link links ih =>
      obtain ⟨hlink, hlinks⟩ := List.forall_mem_cons.mp hne
      exact ih (mem_mapSet_of_ne hp hlink) hlinks

/-- Of the links that are put the last one, at least, is stored. -/
theorem exists_mem_putLinks {links : List TestCaseTraceLinkRecord} (h : links ≠ [])
    (stored : List (JsString × TestCaseTraceLinkRecord)) :
    ∃ link ∈ links, (link.id, link) ∈ putLinks links stored := by
  obtain ⟨before, link, rfl⟩ := (List.eq_nil_or_concat links).resolve_left h
  refine ⟨link, by simp, ?_⟩
  rw [putLinks, List.concat_eq_append, List.foldl_append]
  exact mem_mapSet_self _ _ _

theorem mem_keys_putLinks {links : List TestCaseTraceLinkRecord}
    {stored : List (JsString × TestCaseTraceLinkRecord)} {id : JsString}
    (h : id ∈ (putLinks links stored).map Prod.fst) :
    id ∈ stored.map Prod.fst ∨ ∃ link ∈ links, id = link.id := by
  induction links generalizing stored with
  | nil => exact .inl h
  | cons link links ih =>
      rcases ih h with h | ⟨other, hother, rfl⟩
      · rw [keys_mapSet, mem_setAdd] at h
        rcases h with h | rfl
        · exact .inl h
        · exact .inr ⟨link, List.mem_cons_self, rfl⟩
      · exact .inr ⟨other, List.mem_cons_of_mem _ hother, rfl⟩

theorem mem_traceLinksOf {fresh : ℕ → JsString} {timestamp : JsString}
    {input : CreatePersistedTestCaseInput} {link : TestCaseTraceLinkRecord}
    (h : link ∈ traceLinksOf fresh timestamp input) :
    link.testCaseVersionId = fresh 1 ∧ link.tenantScope = input.tenantScope ∧
      ∃ i < (traceLinksOf fresh timestamp input).length, link.id = fresh (2 + i) := by
  have hlength : (traceLinksOf fresh timestamp input).length =
      input.initialVersion.traceTargets.length := by
    rw [traceLinksOf, List.length_map, List.length_zipIdx]
  obtain ⟨⟨target, i⟩, hmem, rfl⟩ := List.mem_map.mp h
  refine ⟨rfl, rfl, i, ?_, rfl⟩
  rw [hlength]
  simpa using (List.mem_zipIdx hmem).2.1

/-! ## Soundness is kept -/

theorem soundMaps_empty (env : StorageEnvironment) (issued : ℕ) :
    SoundMaps env issued fun _ ↦ [] where
  refers := ⟨by simp, by simp, by simp, by simp⟩
  keys := ⟨by simp, by simp, by simp, by simp⟩

theorem KeysIssued.mono {env : StorageEnvironment} {issued issued' : ℕ} {maps : MemoryMaps}
    (h : KeysIssued env issued maps) (hle : issued ≤ issued') : KeysIssued env issued' maps := by
  have hmono : ∀ id, (∃ i < issued, id = env.randomUUID i) → ∃ i < issued', id = env.randomUUID i :=
    fun _ ⟨i, hi, hid⟩ ↦ ⟨i, hi.trans_le hle, hid⟩
  exact ⟨fun id hid ↦ hmono id (h.runs id hid), fun id hid ↦ hmono id (h.generatedSeeds id hid),
    fun id hid ↦ hmono id (h.testCaseVersions id hid),
    fun id hid ↦ hmono id (h.testCaseTraceLinks id hid)⟩

theorem RefersSoundly.of_retains {maps maps' : MemoryMaps} (h : RefersSoundly maps)
    (hretains : Retains maps maps')
    (hartifacts : ∀ entry ∈ maps' .artifacts, entry ∈ maps .artifacts ∨
      RefersToRun maps entry.2.runId entry.2.tenantScope)
    (hseeds : ∀ entry ∈ maps' .generatedSeeds, entry ∈ maps .generatedSeeds ∨
      RefersToRun maps entry.2.runId entry.2.tenantScope)
    (hexports : ∀ entry ∈ maps' .exports, entry ∈ maps .exports ∨
      RefersToRun maps entry.2.runId entry.2.tenantScope)
    (htestCases : ∀ entry ∈ maps' .testCases, entry ∈ maps .testCases ∨
      RefersToRun maps entry.2.sourceRunId entry.2.tenantScope ∧
      RefersToSeed maps entry.2.sourceGeneratedSeedId entry.2.tenantScope entry.2.sourceRunId ∧
      RefersToLinkedVersion maps' entry.2.currentVersionId entry.2.tenantScope) :
    RefersSoundly maps' where
  artifacts entry hentry := hretains.refersToRun
    ((hartifacts entry hentry).elim (h.artifacts entry) id)
  generatedSeeds entry hentry := hretains.refersToRun
    ((hseeds entry hentry).elim (h.generatedSeeds entry) id)
  exports entry hentry := hretains.refersToRun
    ((hexports entry hentry).elim (h.exports entry) id)
  testCases entry hentry := by
    rcases htestCases entry hentry with hold | ⟨hrun, hseed, hversion⟩
    · obtain ⟨hrun, hseed, hversion⟩ := h.testCases entry hold
      exact ⟨hretains.refersToRun hrun, hretains.refersToSeed hseed,
        hretains.refersToLinkedVersion hversion⟩
    · exact ⟨hretains.refersToRun hrun, hretains.refersToSeed hseed, hversion⟩

theorem Retains.of_eq {maps maps' : MemoryMaps} (hruns : maps' .runs = maps .runs)
    (hseeds : maps' .generatedSeeds = maps .generatedSeeds)
    (hversions : maps' .testCaseVersions = maps .testCaseVersions)
    (hlinks : maps' .testCaseTraceLinks = maps .testCaseTraceLinks) : Retains maps maps' where
  runs id run hget := ⟨run, by rwa [hruns], rfl⟩
  generatedSeeds id seed hget := by rwa [hseeds]
  testCaseVersions id version hget := by rwa [hversions]
  testCaseTraceLinks entry hentry := ⟨entry, by rwa [hlinks], rfl⟩

theorem KeysIssued.of_eq {env : StorageEnvironment} {issued : ℕ} {maps maps' : MemoryMaps}
    (h : KeysIssued env issued maps) (hruns : maps' .runs = maps .runs)
    (hseeds : maps' .generatedSeeds = maps .generatedSeeds)
    (hversions : maps' .testCaseVersions = maps .testCaseVersions)
    (hlinks : maps' .testCaseTraceLinks = maps .testCaseTraceLinks) :
    KeysIssued env issued maps' where
  runs := by rw [hruns]; exact h.runs
  generatedSeeds := by rw [hseeds]; exact h.generatedSeeds
  testCaseVersions := by rw [hversions]; exact h.testCaseVersions
  testCaseTraceLinks := by rw [hlinks]; exact h.testCaseTraceLinks

section

variable {env : StorageEnvironment} {issued : ℕ} {maps : MemoryMaps}

/-- An entry in a map that no one refers to, whose own references are sound. -/
theorem SoundMaps.put_referrer (h : SoundMaps env issued maps) {kind : StoreKind} {id : JsString}
    {record : RecordOf kind}
    (hkind : kind ≠ .runs ∧ kind ≠ .generatedSeeds ∧ kind ≠ .testCases ∧
      kind ≠ .testCaseVersions ∧ kind ≠ .testCaseTraceLinks)
    (hartifact : ∀ entry ∈ putContents maps ⟨kind, id, record⟩ .artifacts,
      entry ∈ maps .artifacts ∨ RefersToRun maps entry.2.runId entry.2.tenantScope)
    (hexport : ∀ entry ∈ putContents maps ⟨kind, id, record⟩ .exports,
      entry ∈ maps .exports ∨ RefersToRun maps entry.2.runId entry.2.tenantScope) :
    SoundMaps env issued (putContents maps ⟨kind, id, record⟩) := by
  obtain ⟨hruns, hseeds, htestCases, hversions, hlinks⟩ := hkind
  have hruns := putContents_of_ne maps hruns.symm id record
  have hseeds := putContents_of_ne maps hseeds.symm id record
  have htestCases := putContents_of_ne maps htestCases.symm id record
  have hversions := putContents_of_ne maps hversions.symm id record
  have hlinks := putContents_of_ne maps hlinks.symm id record
  constructor
  · apply h.refers.of_retains (.of_eq hruns hseeds hversions hlinks) hartifact ?_ hexport ?_
    · rw [hseeds]
      exact fun entry hentry ↦ .inl hentry
    · rw [htestCases]
      exact fun entry hentry ↦ .inl hentry
  · exact h.keys.of_eq hruns hseeds hversions hlinks

theorem notMem_of_fresh (huuid : Function.Injective env.randomUUID) {keys : List JsString}
    (h : ∀ id ∈ keys, ∃ i < issued, id = env.randomUUID i) (j : ℕ) :
    env.randomUUID (issued + j) ∉ keys := by
  intro hmem
  obtain ⟨i, hi, heq⟩ := h _ hmem
  have hsame := huuid heq
  omega

theorem mem_keys_mapSet_issued {β : Type} {m : List (JsString × β)} {j n : ℕ} {v : β}
    (h : ∀ id ∈ m.map Prod.fst, ∃ i < issued, id = env.randomUUID i) (hj : j < n) :
    ∀ id ∈ (mapSet m (env.randomUUID (issued + j)) v).map Prod.fst,
      ∃ i < issued + n, id = env.randomUUID i := by
  intro id hid
  rw [keys_mapSet, mem_setAdd] at hid
  rcases hid with hid | rfl
  · obtain ⟨i, hi, heq⟩ := h id hid
    exact ⟨i, by omega, heq⟩
  · exact ⟨issued + j, by omega, rfl⟩

/-- A run is new, or keeps the tenant of the run that it replaces. -/
theorem SoundMaps.put_run (h : SoundMaps env issued maps) {id : JsString}
    {record : RunMetadataRecord} {n : ℕ}
    (htenant : ∀ run, mapGet (maps .runs) id = some run → record.tenantScope = run.tenantScope)
    (hkey : ∀ id' ∈ (mapSet (maps .runs) id record).map Prod.fst,
      ∃ i < issued + n, id' = env.randomUUID i) :
    SoundMaps env (issued + n) (putContents maps ⟨.runs, id, record⟩) := by
  have hother : ∀ kind, kind ≠ .runs →
      putContents maps ⟨.runs, id, record⟩ kind = maps kind :=
    fun kind hkind ↦ putContents_of_ne maps hkind id record
  have hkeys := h.keys.mono (Nat.le_add_right issued n)
  constructor
  · apply h.refers.of_retains
    · refine ⟨fun id' run hget ↦ ?_, fun id' seed hget ↦ ?_, fun id' version hget ↦ ?_,
        fun entry hentry ↦ ⟨entry, ?_, rfl⟩⟩
      · rw [putContents_self, mapGet_mapSet]
        split
        · next heq => exact ⟨record, rfl, htenant run (heq ▸ hget)⟩
        · exact ⟨run, hget, rfl⟩
      · rwa [hother _ (by decide)]
      · rwa [hother _ (by decide)]
      · rwa [hother _ (by decide)]
    all_goals
      rw [hother _ (by decide)]
      exact fun entry hentry ↦ .inl hentry
  · refine ⟨?_, ?_, ?_, ?_⟩
    · rwa [putContents_self]
    · rw [hother _ (by decide)]
      exact hkeys.generatedSeeds
    · rw [hother _ (by decide)]
      exact hkeys.testCaseVersions
    · rw [hother _ (by decide)]
      exact hkeys.testCaseTraceLinks

theorem SoundMaps.put_seed (huuid : Function.Injective env.randomUUID)
    (h : SoundMaps env issued maps) {record : GeneratedSeedMetadataRecord}
    (hrun : RefersToRun maps record.runId record.tenantScope) :
    SoundMaps env (issued + 1)
      (putContents maps ⟨.generatedSeeds, env.randomUUID (issued + 0), record⟩) := by
  have hother : ∀ kind, kind ≠ .generatedSeeds →
      putContents maps ⟨.generatedSeeds, env.randomUUID (issued + 0), record⟩ kind = maps kind :=
    fun kind hkind ↦ putContents_of_ne maps hkind _ record
  have hkeys := h.keys.mono (Nat.le_add_right issued 1)
  constructor
  · apply h.refers.of_retains
    · refine ⟨fun id' run hget ↦ ⟨run, ?_, rfl⟩, fun id' seed hget ↦ ?_,
        fun id' version hget ↦ ?_, fun entry hentry ↦ ⟨entry, ?_, rfl⟩⟩
      · rwa [hother _ (by decide)]
      · rw [putContents_self]
        exact mapGet_mapSet_of_notMem (notMem_of_fresh huuid h.keys.generatedSeeds 0) hget
      · rwa [hother _ (by decide)]
      · rwa [hother _ (by decide)]
    · rw [hother _ (by decide)]
      exact fun entry hentry ↦ .inl hentry
    · rw [putContents_self]
      intro entry hentry
      rcases mem_mapSet hentry with rfl | hentry
      · exact .inr hrun
      · exact .inl hentry
    all_goals
      rw [hother _ (by decide)]
      exact fun entry hentry ↦ .inl hentry
  · refine ⟨?_, ?_, ?_, ?_⟩
    · rw [hother _ (by decide)]
      exact hkeys.runs
    · rw [putContents_self]
      exact mem_keys_mapSet_issued h.keys.generatedSeeds Nat.zero_lt_one
    · rw [hother _ (by decide)]
      exact hkeys.testCaseVersions
    · rw [hother _ (by decide)]
      exact hkeys.testCaseTraceLinks

/-- A test case is put together with its version and the links of the version. -/
theorem SoundMaps.put_testCase (huuid : Function.Injective env.randomUUID)
    (h : SoundMaps env issued maps) {timestamp : JsString} {input : CreatePersistedTestCaseInput}
    (hrun : RefersToRun maps input.sourceRunId input.tenantScope)
    (hseed : RefersToSeed maps input.sourceGeneratedSeedId input.tenantScope input.sourceRunId)
    (htargets : input.initialVersion.traceTargets ≠ []) :
    let fresh := fun i ↦ env.randomUUID (issued + i)
    let links := traceLinksOf fresh timestamp input
    SoundMaps env (issued + (2 + links.length))
      ((⟨.testCases, fresh 0, testCaseOf fresh timestamp input⟩ ::
        ⟨.testCaseVersions, fresh 1, versionOf fresh timestamp input⟩ ::
          links.map linkEntry).foldl putContents maps) := by
  intro fresh links
  have hlinks : links ≠ [] := by
    intro hnil
    change List.map _ _ = [] at hnil
    rw [List.map_eq_nil_iff, List.zipIdx_eq_nil_iff] at hnil
    exact htargets hnil
  rw [List.foldl_cons, List.foldl_cons, foldl_linkEntry]
  generalize hmaps : Function.update _ StoreKind.testCaseTraceLinks _ = maps'
  have hother : ∀ kind, kind ≠ .testCases → kind ≠ .testCaseVersions →
      kind ≠ .testCaseTraceLinks → maps' kind = maps kind := by
    intro kind htestCases hversions htraceLinks
    rw [← hmaps, Function.update_of_ne htraceLinks, putContents_of_ne _ hversions,
      putContents_of_ne _ htestCases]
  have htestCases : maps' .testCases =
      mapSet (maps .testCases) (fresh 0) (testCaseOf fresh timestamp input) := by
    rw [← hmaps, Function.update_of_ne (by decide), putContents_of_ne _ (by decide),
      putContents_self]
  have hversions : maps' .testCaseVersions =
      mapSet (maps .testCaseVersions) (fresh 1) (versionOf fresh timestamp input) := by
    rw [← hmaps, Function.update_of_ne (by decide), putContents_self,
      putContents_of_ne _ (by decide)]
  have htraceLinks : maps' .testCaseTraceLinks =
      putLinks links (maps .testCaseTraceLinks) := by
    rw [← hmaps, Function.update_self, putContents_of_ne _ (by decide),
      putContents_of_ne _ (by decide)]
  have hkeys := h.keys.mono (Nat.le_add_right issued (2 + links.length))
  have hversion : RefersToLinkedVersion maps' (fresh 1) input.tenantScope := by
    obtain ⟨link, hlink, hmem⟩ := exists_mem_putLinks hlinks (maps .testCaseTraceLinks)
    obtain ⟨hversionId, htenant, -⟩ := mem_traceLinksOf hlink
    refine ⟨versionOf fresh timestamp input, ?_, rfl, rfl, (link.id, link), ?_, hversionId,
      htenant⟩
    · rw [hversions, mapGet_mapSet_self]
    · rwa [htraceLinks]
  constructor
  · apply h.refers.of_retains
    · refine ⟨fun id run hget ↦ ⟨run, ?_, rfl⟩, fun id seed hget ↦ ?_,
        fun id version hget ↦ ?_, fun entry hentry ↦ ⟨entry, ?_, rfl⟩⟩
      · rwa [hother _ (by decide) (by decide) (by decide)]
      · rwa [hother _ (by decide) (by decide) (by decide)]
      · rw [hversions]
        exact mapGet_mapSet_of_notMem (notMem_of_fresh huuid h.keys.testCaseVersions 1) hget
      · rw [htraceLinks]
        apply mem_putLinks_of_ne hentry
        intro link hlink heq
        obtain ⟨-, -, i, -, hid⟩ := mem_traceLinksOf hlink
        have hmem := List.mem_map_of_mem (f := Prod.fst) hentry
        rw [heq, hid] at hmem
        exact notMem_of_fresh huuid h.keys.testCaseTraceLinks (2 + i) hmem
    · rw [hother _ (by decide) (by decide) (by decide)]
      exact fun entry hentry ↦ .inl hentry
    · rw [hother _ (by decide) (by decide) (by decide)]
      exact fun entry hentry ↦ .inl hentry
    · rw [hother _ (by decide) (by decide) (by decide)]
      exact fun entry hentry ↦ .inl hentry
    · rw [htestCases]
      intro entry hentry
      rcases mem_mapSet hentry with rfl | hentry
      · exact .inr ⟨hrun, hseed, hversion⟩
      · exact .inl hentry
  · refine ⟨?_, ?_, ?_, ?_⟩
    · rw [hother _ (by decide) (by decide) (by decide)]
      exact hkeys.runs
    · rw [hother _ (by decide) (by decide) (by decide)]
      exact hkeys.generatedSeeds
    · rw [hversions]
      exact mem_keys_mapSet_issued h.keys.testCaseVersions (by omega)
    · rw [htraceLinks]
      intro id hid
      rcases mem_keys_putLinks hid with hid | ⟨link, hlink, rfl⟩
      · exact hkeys.testCaseTraceLinks id hid
      · obtain ⟨-, -, i, hi, hid⟩ := mem_traceLinksOf hlink
        change i < links.length at hi
        exact ⟨issued + (2 + i), by omega, hid⟩

theorem SoundMaps.put (huuid : Function.Injective env.randomUUID) (h : SoundMaps env issued maps)
    {timestamp : JsString} {entries : List StoredEntry} {n : ℕ}
    (hputs : Puts (fun i ↦ env.randomUUID (issued + i)) timestamp maps entries n) :
    SoundMaps env (issued + n) (entries.foldl putContents maps) := by
  have hmono : ∀ {maps' : MemoryMaps} (n : ℕ), SoundMaps env issued maps' →
      SoundMaps env (issued + n) maps' :=
    fun n h ↦ ⟨h.refers, h.keys.mono (Nat.le_add_right issued n)⟩
  cases hputs with
  | nothing => exact hmono _ h
  | snapshot id record =>
      apply hmono
      apply h.put_referrer (by decide)
      · rw [putContents_of_ne _ (by decide)]
        exact fun entry hentry ↦ .inl hentry
      · rw [putContents_of_ne _ (by decide)]
        exact fun entry hentry ↦ .inl hentry
  | scopeBasket id record =>
      apply hmono
      apply h.put_referrer (by decide)
      · rw [putContents_of_ne _ (by decide)]
        exact fun entry hentry ↦ .inl hentry
      · rw [putContents_of_ne _ (by decide)]
        exact fun entry hentry ↦ .inl hentry
  | newRun record =>
      apply h.put_run
      · intro run hget
        exact absurd (List.mem_map_of_mem (mem_of_mapGet hget))
          (notMem_of_fresh huuid h.keys.runs 0)
      · exact mem_keys_mapSet_issued h.keys.runs Nat.zero_lt_one
  | @updatedRun id existing record n hexisting htenant =>
      have hkeys := h.keys.mono (Nat.le_add_right issued n)
      apply h.put_run
      · intro run hget
        obtain rfl := Option.some.inj (hget.symm.trans hexisting)
        exact htenant
      · have hmem : id ∈ (maps .runs).map Prod.fst := List.mem_map_of_mem (mem_of_mapGet hexisting)
        rw [keys_mapSet, setAdd, if_pos hmem]
        exact hkeys.runs
  | newArtifact id n hrun =>
      apply hmono
      apply h.put_referrer (by decide)
      · rw [putContents_self]
        intro entry hentry
        rcases mem_mapSet hentry with rfl | hentry
        · exact .inr hrun
        · exact .inl hentry
      · rw [putContents_of_ne _ (by decide)]
        exact fun entry hentry ↦ .inl hentry
  | newExport id n hrun =>
      apply hmono
      apply h.put_referrer (by decide)
      · rw [putContents_of_ne _ (by decide)]
        exact fun entry hentry ↦ .inl hentry
      · rw [putContents_self]
        intro entry hentry
        rcases mem_mapSet hentry with rfl | hentry
        · exact .inr hrun
        · exact .inl hentry
  | newSeed hrun => exact h.put_seed huuid hrun
  | newTestCase hrun hseed htargets => exact h.put_testCase huuid hrun hseed htargets

end

/-! ## Reachable states -/

section

variable (env : StorageEnvironment) (migrations : List WorkbenchMigration)

/-- The states of an adapter, those inside a transaction included: work may make any calls, and
a migration may set its version after any of them. -/
inductive Reachable (initialSchemaVersion : JsNumber) : MemoryAdapter → Prop
  | start : Reachable initialSchemaVersion (.start initialSchemaVersion)
  | after {ρ : Type} {s : MemoryAdapter} (h : Reachable initialSchemaVersion s)
      (hidle : s.inTransaction = false) (call : AdapterCall ρ) :
      Reachable initialSchemaVersion (performCall env migrations s call).1
  | opened {s : MemoryAdapter} (h : Reachable initialSchemaVersion s)
      (hidle : s.inTransaction = false) : Reachable initialSchemaVersion (openTransaction s).1
  | within {s : MemoryAdapter} (h : Reachable initialSchemaVersion s)
      (hopen : s.inTransaction = true) (call : WorkCall) :
      Reachable initialSchemaVersion (performWorkCall env migrations s call).2
  | migrated {s : MemoryAdapter} (h : Reachable initialSchemaVersion s)
      (hopen : s.inTransaction = true) {migration : WorkbenchMigration}
      (hmigration : migration ∈ migrations) :
      Reachable initialSchemaVersion { s with schemaVersion := migration.version }

/-- What holds in every state. -/
structure SoundState (s : MemoryAdapter) : Prop where
  wellFormed : s.WellFormed
  sound : SoundMaps env s.issued s.maps

variable {env} {migrations}

theorem SoundState.performRepositoryCall (huuid : Function.Injective env.randomUUID)
    {s : MemoryAdapter} (h : SoundState env s) (call : RepositoryCall) :
    SoundState env (performRepositoryCall env s call).2 := by
  refine ⟨(keeps_performRepositoryCall env s call).wellFormed h.wellFormed, ?_⟩
  cases heffect : effectIn env s call with
  | error error =>
      rw [performRepositoryCall_of_error heffect]
      exact h.sound
  | ok effect =>
      rw [performRepositoryCall_of_ok heffect]
      have hput := h.sound.put huuid (puts_effect heffect)
      rwa [MemoryAdapter.maps, ← MapHeap.contents_putAll] at hput

theorem SoundState.close {s : MemoryAdapter} (h : SoundState env s) : SoundState env s.close where
  wellFormed := (keeps_close s).wellFormed h.wellFormed
  sound := by
    rw [MemoryAdapter.maps_close]
    exact soundMaps_empty env _

theorem SoundState.performWorkCall (huuid : Function.Injective env.randomUUID)
    {s : MemoryAdapter} (h : SoundState env s) (call : WorkCall) :
    SoundState env (performWorkCall env migrations s call).2 := by
  cases call with
  | repository call => exact h.performRepositoryCall huuid call
  | handle call =>
      rw [Workbench.performWorkCall, performHandleCall_snd]
      exact h
  | adapter call =>
      rw [Workbench.performWorkCall, performNestedCall_snd]
      split
      · exact h.close
      · exact h

theorem SoundState.runWork (huuid : Function.Injective env.randomUUID) {ρ : Type} (work : Work ρ)
    {s : MemoryAdapter} (h : SoundState env s) :
    SoundState env (runWork env migrations work s).2 := by
  induction work generalizing s with
  | finish result => exact h
  | fail thrown => exact h
  | call call next ih => exact ih _ (h.performWorkCall huuid call)

theorem SoundState.applyMigrations (huuid : Function.Injective env.randomUUID)
    (pending : List WorkbenchMigration) {s : MemoryAdapter} (h : SoundState env s) :
    SoundState env (applyMigrations env migrations pending s).2 := by
  induction pending generalizing s with
  | nil => exact h
  | cons migration rest ih =>
      have hup : SoundState env (Workbench.runWork env migrations migration.up s).2 :=
        h.runWork huuid migration.up
      rw [Workbench.applyMigrations]
      rcases hrun : Workbench.runWork env migrations migration.up s with ⟨outcome, after⟩
      rw [hrun] at hup
      cases outcome with
      | error thrown => exact hup
      | ok result =>
          apply ih
          exact ⟨hup.wellFormed, hup.sound⟩

theorem SoundState.openTransaction {s : MemoryAdapter} (h : SoundState env s) :
    SoundState env (openTransaction s).1 where
  wellFormed := wellFormed_openTransaction h.wellFormed
  sound := by
    rw [maps_openTransaction h.wellFormed]
    exact h.sound

theorem SoundState.transaction {ρ : Type}
    {body : MemoryAdapter → Except Thrown ρ × MemoryAdapter} (hkeeps : KeepsAll body)
    (hbody : ∀ s, SoundState env s → SoundState env (body s).2) {s : MemoryAdapter}
    (h : SoundState env s) : SoundState env (transaction body s).2 := by
  refine ⟨wellFormed_transaction hkeeps h.wellFormed, ?_⟩
  cases hopen : s.inTransaction with
  | true =>
      unfold Workbench.transaction
      rw [hopen]
      exact h.sound
  | false =>
      have hend := transaction_end body hopen
      have hafter := hbody _ h.openTransaction
      have hissued := (hkeeps (Workbench.openTransaction s).1).issued
      have hmaps := maps_of_rolledBack hkeeps h.wellFormed
      generalize (Workbench.transaction body s).1 = outcome at hend
      generalize (Workbench.transaction body s).2 = s' at hend
      cases hend with
      | committed hrun =>
          rw [hrun] at hafter
          exact hafter.sound
      | rolledBack hrun =>
          rw [hrun] at hissued hmaps
          rw [MemoryAdapter.maps, hmaps]
          exact ⟨h.sound.refers, h.sound.keys.mono hissued⟩

theorem SoundState.migrateToLatest (huuid : Function.Injective env.randomUUID)
    {s : MemoryAdapter} (h : SoundState env s) :
    SoundState env (migrateToLatest env migrations s).2 := by
  unfold Workbench.migrateToLatest
  cases assertSchemaVersionSupported s.schemaVersion migrations with
  | error error => exact h
  | ok _ =>
      dsimp only
      split
      · exact h
      · have hafter := h.transaction
          (keeps_applyMigrations env migrations (pendingMigrations migrations s))
          (fun s hs ↦ hs.applyMigrations huuid _)
        rcases hs : Workbench.transaction (Workbench.applyMigrations env migrations
          (pendingMigrations migrations s)) s with ⟨outcome, after⟩
        rw [hs] at hafter
        cases outcome with
        | error thrown => exact hafter
        | ok result => exact hafter

theorem SoundState.performCall (huuid : Function.Injective env.randomUUID) {ρ : Type}
    {s : MemoryAdapter} (h : SoundState env s) (call : AdapterCall ρ) :
    SoundState env (performCall env migrations s call).1 := by
  cases call with
  | repository call => exact h.performRepositoryCall huuid call
  | migrateToLatest => exact h.migrateToLatest huuid
  | getSchemaVersion => exact h
  | transaction work =>
      exact h.transaction (keeps_runWork env migrations work) fun s hs ↦ hs.runWork huuid work
  | close => exact h.close

theorem Reachable.soundState (huuid : Function.Injective env.randomUUID)
    {initialSchemaVersion : JsNumber} {s : MemoryAdapter}
    (h : Reachable env migrations initialSchemaVersion s) : SoundState env s := by
  induction h with
  | start => exact ⟨MemoryAdapter.wellFormed_start _, soundMaps_empty env 0⟩
  | after _ _ call ih => exact ih.performCall huuid call
  | opened _ _ ih => exact ih.openTransaction
  | within _ _ call ih => exact ih.performWorkCall huuid call
  | migrated _ _ _ ih => exact ⟨ih.wellFormed, ih.sound⟩

end

end TestIntelligence.Workbench
