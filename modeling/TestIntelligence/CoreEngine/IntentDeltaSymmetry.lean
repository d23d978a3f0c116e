import TestIntelligence.CoreEngine.IntentDeltaLaws
import TestIntelligence.Security.Digests

/-!
# The laws of intent deltas

The reverse delta has the entries of the delta with additions and removals exchanged, except
for the drops of confidence and the growth of ambiguity, which are looked for in one direction
only.  The order of the collections does not matter.
-/

namespace TestIntelligence.CoreEngine.IntentDelta

open Js Security

/-! ## The order of the entries -/

theorem IntentDeltaKind.order_injective : Function.Injective IntentDeltaKind.order := by
  intro a b
  cases a <;> cases b <;> decide

theorem IntentDeltaChangeType.order_injective : Function.Injective IntentDeltaChangeType.order := by
  intro a b
  cases a <;> cases b <;> decide

/-- The comparison of two entries of one kind. -/
def compareElements (a b : IntentDeltaEntry) : ℤ :=
  if a.elementId ≠ b.elementId then if a.elementId < b.elementId then -1 else 1
  else a.changeType.order - b.changeType.order

theorem compareElements_nonpos (a b : IntentDeltaEntry) : compareElements a b ≤ 0 ↔
    a.elementId < b.elementId ∨
      a.elementId = b.elementId ∧ (a.changeType.order : ℤ) - b.changeType.order ≤ 0 := by
  unfold compareElements
  split
  · next hne =>
    split
    · next hlt => simp [hlt]
    · next hlt => simp [hlt, hne]
  · next heq =>
    rw [not_not] at heq
    simp [heq]

theorem compareDeltaEntries_nonpos (a b : IntentDeltaEntry) : compareDeltaEntries a b ≤ 0 ↔
    a.kind.order < b.kind.order ∨ a.kind.order = b.kind.order ∧ compareElements a b ≤ 0 := by
  unfold compareDeltaEntries
  split
  · next hne =>
    have hne' : a.kind.order ≠ b.kind.order := fun h ↦ hne (IntentDeltaKind.order_injective h)
    omega
  · next heq =>
    rw [not_not] at heq
    simp [heq, compareElements]

theorem consistent_compareDeltaEntries : Consistent compareDeltaEntries := by
  have htypes : Consistent fun a b : IntentDeltaEntry ↦
      (a.changeType.order : ℤ) - b.changeType.order :=
    ⟨fun a b ↦ by omega, fun a b c hab hbc ↦ by omega⟩
  exact consistent_of_lex (consistent_of_lex htypes compareElements_nonpos)
    compareDeltaEntries_nonpos

theorem eq_of_compareDeltaEntries {a b : IntentDeltaEntry} (hab : compareDeltaEntries a b ≤ 0)
    (hba : compareDeltaEntries b a ≤ 0) :
    a.kind = b.kind ∧ a.elementId = b.elementId ∧ a.changeType = b.changeType := by
  obtain ⟨hkind, hab, hba⟩ := eq_of_lex compareDeltaEntries_nonpos hab hba
  obtain ⟨hid, hab, hba⟩ := eq_of_lex compareElements_nonpos hab hba
  refine ⟨IntentDeltaKind.order_injective hkind, hid, IntentDeltaChangeType.order_injective ?_⟩
  omega

/-- The order of the elements. -/
def ElementLe (a b : IntentDeltaEntry) : Prop :=
  a.kind.order < b.kind.order ∨ a.kind.order = b.kind.order ∧ a.elementId ≤ b.elementId

theorem elementLe_of_compareDeltaEntries {a b : IntentDeltaEntry}
    (h : compareDeltaEntries a b ≤ 0) : ElementLe a b := by
  rcases (compareDeltaEntries_nonpos a b).mp h with hkind | ⟨hkind, h⟩
  · exact Or.inl hkind
  · refine Or.inr ⟨hkind, ?_⟩
    rcases (compareElements_nonpos a b).mp h with hid | ⟨hid, -⟩
    · exact Std.le_of_lt hid
    · exact hid ▸ Std.le_refl _

theorem ElementLe.antisymm {a b : IntentDeltaEntry} (hab : ElementLe a b) (hba : ElementLe b a) :
    a.kind = b.kind ∧ a.elementId = b.elementId := by
  rcases hab with hab | ⟨hkind, hab⟩
  · rcases hba with hba | ⟨hba, -⟩ <;> omega
  · rcases hba with hba | ⟨-, hba⟩
    · omega
    · exact ⟨IntentDeltaKind.order_injective hkind, Std.le_antisymm hab hba⟩

/-! ## The entries of a report -/

section

variable {sha256 : JsString → JsString} {inherited : JsString → Option Json}
  {prior current prior' current' : BusinessTestIntentIr}
  {options options' : ComputeIntentDeltaOptions}

def deltaEntries (sha256 : JsString → JsString) (inherited : JsString → Option Json)
    (prior current : BusinessTestIntentIr) (options : ComputeIntentDeltaOptions) :
    List IntentDeltaEntry :=
  sortBy compareDeltaEntries (allDeltas sha256 inherited prior current options)

theorem nodup_deltaEntries : (deltaEntries sha256 inherited prior current options).Nodup :=
  (sortBy_perm _ _).nodup_iff.mpr nodup_allDeltas

/-- A change of an entry that leaves its element. -/
structure KeepsElement (g : IntentDeltaEntry → IntentDeltaEntry) : Prop where
  kind : ∀ e, (g e).kind = e.kind
  elementId : ∀ e, (g e).elementId = e.elementId

theorem mem_map_structural {g : IntentDeltaEntry → IntentDeltaEntry} (hg : KeepsElement g)
    {x : IntentDeltaEntry} :
    x ∈ ((deltaEntries sha256 inherited prior current options).filter IsStructural).map g ↔
      (structuralAt sha256 inherited prior current options x.kind x.elementId).map g = some x := by
  simp only [List.mem_map, List.mem_filter, deltaEntries, mem_sortBy, decide_eq_true_eq,
    Option.map_eq_some_iff]
  constructor
  · rintro ⟨e, ⟨hmem, hstruct⟩, rfl⟩
    rw [hg.kind, hg.elementId]
    rcases mem_allDeltas.mp hmem with h | h
    · exact ⟨e, h, rfl⟩
    · exact absurd hstruct (visualSigns_spec h).2.2
  · rintro ⟨e, he, hge⟩
    obtain ⟨hkind, hid, hstruct⟩ := structuralAt_spec he
    rw [← hkind, ← hid] at he
    exact ⟨e, ⟨mem_allDeltas.mpr (Or.inl he), hstruct⟩, hge⟩

theorem nodup_map_structural {g : IntentDeltaEntry → IntentDeltaEntry} (hg : KeepsElement g) :
    (((deltaEntries sha256 inherited prior current options).filter IsStructural).map g).Nodup := by
  refine (nodup_deltaEntries.filter _).map_on fun e he e' he' heq ↦ ?_
  rw [List.mem_filter, deltaEntries, mem_sortBy, decide_eq_true_eq] at he he'
  have hkind : e.kind = e'.kind := by rw [← hg.kind e, heq, hg.kind]
  have hid : e.elementId = e'.elementId := by rw [← hg.elementId e, heq, hg.elementId]
  exact eq_of_mem_allDeltas he.1 he'.1 hkind hid (Or.inl ⟨he.2, he'.2⟩)

theorem pairwise_map_structural {g : IntentDeltaEntry → IntentDeltaEntry} (hg : KeepsElement g) :
    (((deltaEntries sha256 inherited prior current options).filter IsStructural).map g).Pairwise
      ElementLe := by
  rw [List.pairwise_map]
  refine ((consistent_compareDeltaEntries.pairwise_sortBy _).filter _).imp fun h ↦ ?_
  rw [ElementLe, hg.kind, hg.kind, hg.elementId, hg.elementId]
  exact elementLe_of_compareDeltaEntries h

/-- Two deltas that say the same of every element say it in the same order. -/
theorem map_structural_eq {g g' : IntentDeltaEntry → IntentDeltaEntry} (hg : KeepsElement g)
    (hg' : KeepsElement g')
    (h : ∀ kind id, (structuralAt sha256 inherited prior current options kind id).map g =
      (structuralAt sha256 inherited prior' current' options' kind id).map g') :
    ((deltaEntries sha256 inherited prior current options).filter IsStructural).map g =
      ((deltaEntries sha256 inherited prior' current' options').filter IsStructural).map g' := by
  have hperm := (List.perm_ext_iff_of_nodup (nodup_map_structural hg)
    (nodup_map_structural hg')).mpr fun x ↦ by
      rw [mem_map_structural hg, mem_map_structural hg', h]
  refine hperm.eq_of_pairwise ?_ (pairwise_map_structural hg) (pairwise_map_structural hg')
  intro x y hx hy hxy hyx
  obtain ⟨hkind, hid⟩ := hxy.antisymm hyx
  rw [mem_map_structural hg] at hx
  rw [mem_map_structural hg', ← h, ← hkind, ← hid, hx] at hy
  exact Option.some.inj hy

/-- Two deltas that say the same of every element and find the same signs are the same. -/
theorem deltaEntries_congr
    (hstructural : ∀ kind id, structuralAt sha256 inherited prior current options kind id =
      structuralAt sha256 inherited prior' current' options kind id) :
    deltaEntries sha256 inherited prior current options =
      deltaEntries sha256 inherited prior' current' options := by
  have hmem : ∀ e, e ∈ allDeltas sha256 inherited prior current options ↔
      e ∈ allDeltas sha256 inherited prior' current' options := fun e ↦ by
    rw [mem_allDeltas, mem_allDeltas, hstructural]
  have hperm := (List.perm_ext_iff_of_nodup nodup_allDeltas nodup_allDeltas).mpr hmem
  refine consistent_compareDeltaEntries.sortBy_eq_of_perm ?_ hperm
  intro a ha b hb hab hba
  obtain ⟨hkind, hid, htype⟩ := eq_of_compareDeltaEntries hab hba
  exact eq_of_mem_allDeltas ha hb hkind hid (Or.inr htype)

end

/-! ## Reversal -/

/-- The delta the other way round. -/
def ComputeIntentDeltaOptions.reversed (options : ComputeIntentDeltaOptions) :
    ComputeIntentDeltaOptions :=
  { options with
    priorFixtureHashes := options.currentFixtureHashes
    currentFixtureHashes := options.priorFixtureHashes
    priorVisual := options.currentVisual
    currentVisual := options.priorVisual }

def ComputeIntentDeltaInput.reversed (input : ComputeIntentDeltaInput) : ComputeIntentDeltaInput :=
  { input with prior := input.current, current := input.prior, options := input.options.reversed }

def IntentDeltaChangeType.reversed : IntentDeltaChangeType → IntentDeltaChangeType
  | .added => .removed
  | .removed => .added
  | changeType => changeType

def IntentDeltaEntry.reversed (e : IntentDeltaEntry) : IntentDeltaEntry :=
  { e with
    changeType := e.changeType.reversed
    priorHash := e.currentHash
    currentHash := e.priorHash }

/-- The entry without the screen of an element that is on both sides. -/
def IntentDeltaEntry.unlocated (e : IntentDeltaEntry) : IntentDeltaEntry :=
  { e with screenId := if e.changeType = .changed then none else e.screenId }

theorem keepsElement_unlocated : KeepsElement IntentDeltaEntry.unlocated :=
  ⟨fun _ ↦ rfl, fun _ ↦ rfl⟩

theorem keepsElement_reversed : KeepsElement fun e ↦ e.reversed.unlocated :=
  ⟨fun _ ↦ rfl, fun _ ↦ rfl⟩

section

variable {sha256 : JsString → JsString} {inherited : JsString → Option Json}
  {prior current : BusinessTestIntentIr} {options : ComputeIntentDeltaOptions}
  {kind : IntentDeltaKind} {id : JsString}

theorem changeAt_reversed {T : Type} {screenId hash : T → JsString} (before after : Option T) :
    (changeAt kind id screenId hash after before).map IntentDeltaEntry.unlocated =
      (changeAt kind id screenId hash before after).map fun e ↦ e.reversed.unlocated := by
  cases before with
  | none => cases after <;> rfl
  | some before =>
      cases after with
      | none => rfl
      | some after =>
          unfold changeAt
          dsimp only
          by_cases heq : hash before = hash after
          · simp [heq]
          · rw [if_pos heq, if_pos (Ne.symm heq)]
            rfl

theorem changeAt_self {T : Type} {screenId hash : T → JsString} (entry : Option T) :
    changeAt kind id screenId hash entry entry = none := by
  cases entry <;> simp [changeAt]

theorem structuralAt_reversed :
    (structuralAt sha256 inherited current prior options.reversed kind id).map
      IntentDeltaEntry.unlocated =
    (structuralAt sha256 inherited prior current options kind id).map
      fun e ↦ e.reversed.unlocated := by
  cases kind <;> exact changeAt_reversed _ _

/-- Nothing is reported between a revision and itself. -/
structure ComputeIntentDeltaInput.Unchanged (input : ComputeIntentDeltaInput) : Prop where
  intent : input.current = input.prior
  visual : input.options.currentVisual = input.options.priorVisual
  fixtures : input.options.currentFixtureHashes = input.options.priorFixtureHashes

theorem allDeltas_unchanged {input : ComputeIntentDeltaInput} (h : input.Unchanged)
    (hthreshold : JsNumber.lt 0 (driftThresholdOf input.options) = true) :
    allDeltas sha256 inherited input.prior input.current input.options = [] := by
  have hside : ∀ id,
      currentSide inherited input.options id = priorSide inherited input.options id :=
    fun id ↦ by rw [currentSide, priorSide, h.visual, h.fixtures]
  rw [List.eq_nil_iff_forall_not_mem, h.intent]
  intro e he
  rcases mem_allDeltas.mp he with he | he
  · revert he
    unfold structuralAt
    rw [hside]
    cases e.kind <;> simp [changeAt_self]
  · rw [signsAt, hside, visualSigns_self hthreshold] at he
    cases he

/-! ## The order of the collections -/

/-- The ids of each collection are distinct. -/
structure BusinessTestIntentIr.DistinctIds (intent : BusinessTestIntentIr) : Prop where
  screens : (intent.screens.map (·.screenId)).Nodup
  fields : (intent.detectedFields.map (·.id)).Nodup
  actions : (intent.detectedActions.map (·.id)).Nodup
  validations : (intent.detectedValidations.map (·.id)).Nodup
  navigation : (intent.detectedNavigation.map (·.id)).Nodup

/-- The collections have the same elements. -/
structure BusinessTestIntentIr.SameElements (intent intent' : BusinessTestIntentIr) : Prop where
  screens : intent.screens.Perm intent'.screens
  fields : intent.detectedFields.Perm intent'.detectedFields
  actions : intent.detectedActions.Perm intent'.detectedActions
  validations : intent.detectedValidations.Perm intent'.detectedValidations
  navigation : intent.detectedNavigation.Perm intent'.detectedNavigation

theorem structuralAt_congr {prior' current' : BusinessTestIntentIr} (hprior : prior.DistinctIds)
    (hcurrent : current.DistinctIds) (hsame : prior.SameElements prior')
    (hsame' : current.SameElements current') :
    structuralAt sha256 inherited prior current options kind id =
      structuralAt sha256 inherited prior' current' options kind id := by
  unfold structuralAt
  cases kind with
  | action =>
      dsimp only
      rw [mapGet_mapById_of_perm hprior.actions hsame.actions,
        mapGet_mapById_of_perm hcurrent.actions hsame'.actions]
  | field =>
      dsimp only
      rw [mapGet_mapById_of_perm hprior.fields hsame.fields,
        mapGet_mapById_of_perm hcurrent.fields hsame'.fields]
  | navigation =>
      dsimp only
      rw [mapGet_mapById_of_perm hprior.navigation hsame.navigation,
        mapGet_mapById_of_perm hcurrent.navigation hsame'.navigation]
  | screen =>
      dsimp only
      rw [mapGet_mapById_of_perm hprior.screens hsame.screens,
        mapGet_mapById_of_perm hcurrent.screens hsame'.screens]
  | validation =>
      dsimp only
      rw [mapGet_mapById_of_perm hprior.validations hsame.validations,
        mapGet_mapById_of_perm hcurrent.validations hsame'.validations]
  | visualScreen => rfl

/-! ## Reports -/

def reportOf (sha256 : JsString → JsString) (input : ComputeIntentDeltaInput)
    (entries : List IntentDeltaEntry) : IntentDeltaReport :=
  ⟨input.jobId, input.generatedAt, sha256Hex sha256 input.prior.json,
    sha256Hex sha256 input.current.json, entries, computeTotals entries⟩

/-- The threshold is in its range. -/
def ThresholdAccepted (options : ComputeIntentDeltaOptions) : Prop :=
  (driftThresholdOf options).lt 0 = false ∧ JsNumber.lt 1 (driftThresholdOf options) = false

theorem computeIntentDelta_eq {input : ComputeIntentDeltaInput}
    (h : ThresholdAccepted input.options) : computeIntentDelta sha256 inherited input =
      .ok (reportOf sha256 input
        (deltaEntries sha256 inherited input.prior input.current input.options)) := by
  unfold computeIntentDelta
  dsimp only
  rw [h.1, h.2]
  rfl

theorem accepted_of_computeIntentDelta {input : ComputeIntentDeltaInput}
    {report : IntentDeltaReport}
    (h : computeIntentDelta sha256 inherited input = .ok report) :
    ThresholdAccepted input.options ∧ report = reportOf sha256 input
      (deltaEntries sha256 inherited input.prior input.current input.options) := by
  have haccepted : ThresholdAccepted input.options := by
    unfold computeIntentDelta at h
    dsimp only at h
    split at h
    · cases h
    · next hrange =>
      rw [Bool.or_eq_true, not_or, Bool.not_eq_true, Bool.not_eq_true] at hrange
      exact hrange
  rw [computeIntentDelta_eq haccepted] at h
  exact ⟨haccepted, (Except.ok.inj h).symm⟩

/-- A revision has no delta to itself; the reverse delta exchanges additions and removals; an
element has one structural entry, and the signs at a screen are of different types; the order of
the collections does not matter. -/
theorem computeIntentDelta_laws (sha256 : JsString → JsString)
    (inherited : JsString → Option Json) (input : ComputeIntentDeltaInput)
    {report : IntentDeltaReport} (h : computeIntentDelta sha256 inherited input = .ok report) :
    (input.Unchanged → JsNumber.lt 0 (driftThresholdOf input.options) = true →
      report.entries = []) ∧
    (∃ back, computeIntentDelta sha256 inherited input.reversed = .ok back ∧
      (back.entries.filter IsStructural).map (·.unlocated) =
        (report.entries.filter IsStructural).map (·.reversed.unlocated)) ∧
    (report.entries.Nodup ∧ (∀ e ∈ report.entries, ¬ IsStructural e → e.kind = .visualScreen) ∧
      ∀ e ∈ report.entries, ∀ e' ∈ report.entries, e.kind = e'.kind →
        e.elementId = e'.elementId →
        IsStructural e ∧ IsStructural e' ∨ e.changeType = e'.changeType → e = e') ∧
    ∀ prior current, input.prior.DistinctIds → input.current.DistinctIds →
      input.prior.SameElements prior → input.current.SameElements current →
      ∃ permuted, computeIntentDelta sha256 inherited
          { input with prior := prior, current := current } = .ok permuted ∧
        permuted.entries = report.entries ∧ permuted.totals = report.totals := by
  obtain ⟨haccepted, rfl⟩ := accepted_of_computeIntentDelta h
  refine ⟨fun hunchanged hthreshold ↦ ?_, ?_, ⟨nodup_deltaEntries, ?_, ?_⟩, ?_⟩
  · rw [reportOf, deltaEntries, allDeltas_unchanged hunchanged hthreshold]
    rfl
  · have haccepted' : ThresholdAccepted input.reversed.options := haccepted
    exact ⟨_, computeIntentDelta_eq haccepted', map_structural_eq keepsElement_unlocated
      keepsElement_reversed fun _ _ ↦ structuralAt_reversed⟩
  · intro e he hsign
    rcases mem_allDeltas.mp (mem_sortBy.mp he) with he | he
    · exact absurd (structuralAt_spec he).2.2 hsign
    · exact (visualSigns_spec he).1
  · intro e he e' he'
    exact eq_of_mem_allDeltas (mem_sortBy.mp he) (mem_sortBy.mp he')
  · intro prior current hprior hcurrent hsame hsame'
    have hentries : deltaEntries sha256 inherited input.prior input.current input.options =
        deltaEntries sha256 inherited prior current input.options :=
      deltaEntries_congr fun _ _ ↦ structuralAt_congr hprior hcurrent hsame hsame'
    refine ⟨_, computeIntentDelta_eq haccepted, ?_, ?_⟩
    · exact hentries.symm
    · exact congrArg computeTotals hentries.symm

end

/-! ## A screen that is added and one that is seen worse -/

def sampleScreen : BusinessTestIntentScreen := ⟨js "s2", js "Login", none⟩

def sampleIntent (screens : List Json) (items : List BusinessTestIntentScreen) :
    BusinessTestIntentIr where
  screens := items
  detectedFields := []
  detectedActions := []
  detectedValidations := []
  detectedNavigation := []
  json := .obj [(js "version", .str (js "1.0.0")), (js "source", .obj [
      (js "kind", .str (js "figma_local_json")), (js "contentHash", .str (hexText 64 0))]),
    (js "screens", .arr screens), (js "detectedFields", .arr []),
    (js "detectedActions", .arr []), (js "detectedValidations", .arr []),
    (js "detectedNavigation", .arr []), (js "inferredBusinessObjects", .arr []),
    (js "risks", .arr []), (js "assumptions", .arr []), (js "openQuestions", .arr []),
    (js "piiIndicators", .arr []), (js "redactions", .arr [])]

def samplePrior : BusinessTestIntentIr := sampleIntent [] []

def sampleCurrent : BusinessTestIntentIr :=
  sampleIntent [.obj [(js "screenId", .str (js "s2")), (js "screenName", .str (js "Login")),
    (js "trace", .obj [(js "nodeId", .str (js "s2"))])]] [sampleScreen]

def sampleDescription (mean : JsNumber) : VisualScreenDescription :=
  ⟨js "s1", js "mock", [], ⟨0, 1, mean⟩, none, none⟩

def sampleInput : ComputeIntentDeltaInput where
  jobId := js "job-1"
  generatedAt := js "2026-01-01T00:00:00.000Z"
  prior := samplePrior
  current := sampleCurrent
  options := ⟨none, none, none, some [sampleDescription 1], some [sampleDescription 0]⟩

def priorIntentDigest : JsString :=
  hexText 64 0xac511ec41cb53cbc27b80b665c4236ac08e44e1c02aa83b51c63fb8336ca2ed9

def currentIntentDigest : JsString :=
  hexText 64 0xb25072aaa9fff861cb24ad46fccbfaf7da49743aa6a44dd0facd7c50452a05a8

def screenDigest : JsString :=
  hexText 64 0x167ff4702f96c8df7ce419734b3e8ca1928e1aa0c682efd4e8d27fbe97552f75

def seenDigest : JsString :=
  hexText 64 0x0eb936b0ddbba2f03e263d7f4316b55eb7ab0e736921c3b49a630554a03680c3

def unseenDigest : JsString :=
  hexText 64 0x91d004b1084e64f5357c559d003bb1f01865bb4cdddc38bf526a4b4e102fc2f3

def sampleDigests : List (JsString × JsString) :=
  [(canonicalJson samplePrior.json, priorIntentDigest),
    (canonicalJson sampleCurrent.json, currentIntentDigest),
    (canonicalJson (screenHashSeed sampleScreen), screenDigest),
    (canonicalJson (projectVisualForHash (some (sampleDescription 1)) none), seenDigest),
    (canonicalJson (projectVisualForHash (some (sampleDescription 0)) none), unseenDigest)]

def sampleReport : IntentDeltaReport where
  jobId := js "job-1"
  generatedAt := js "2026-01-01T00:00:00.000Z"
  priorIntentHash := priorIntentDigest
  currentIntentHash := currentIntentDigest
  entries :=
    [⟨.screen, .added, js "s2", some (js "s2"), none, some screenDigest, none⟩,
      ⟨.visualScreen, .changed, js "s1", some (js "s1"), some seenDigest, some unseenDigest, none⟩,
      ⟨.visualScreen, .confidenceDropped, js "s1", some (js "s1"), none, none,
        some (js "mean 1.000 -> 0.000")⟩]
  totals := ⟨1, 0, 1, 1, 0⟩

def sampleReversed : IntentDeltaReport where
  jobId := js "job-1"
  generatedAt := js "2026-01-01T00:00:00.000Z"
  priorIntentHash := currentIntentDigest
  currentIntentHash := priorIntentDigest
  entries :=
    [⟨.screen, .removed, js "s2", some (js "s2"), some screenDigest, none, none⟩,
      ⟨.visualScreen, .changed, js "s1", some (js "s1"), some unseenDigest, some seenDigest, none⟩]
  totals := ⟨0, 1, 1, 0, 0⟩

theorem computeIntentDelta_sampleInput :
    computeIntentDelta (tabledDigest sampleDigests) (fun _ ↦ none) sampleInput =
      .ok sampleReport := by
  decide +kernel

def sampleUnchanged : ComputeIntentDeltaInput :=
  { sampleInput with
    current := samplePrior
    options := { sampleInput.options with currentVisual := sampleInput.options.priorVisual } }

theorem thresholdAccepted_sampleUnchanged : ThresholdAccepted sampleUnchanged.options := by
  constructor <;> decide +kernel

theorem computeIntentDelta_laws_sample :
    (reportOf (tabledDigest sampleDigests) sampleUnchanged
      (deltaEntries (tabledDigest sampleDigests) (fun _ ↦ none) sampleUnchanged.prior
        sampleUnchanged.current sampleUnchanged.options)).entries = [] ∧
    (∃ back, computeIntentDelta (tabledDigest sampleDigests) (fun _ ↦ none) sampleInput.reversed =
        .ok back ∧ (back.entries.filter IsStructural).map (·.unlocated) =
          (sampleReport.entries.filter IsStructural).map (·.reversed.unlocated)) ∧
    sampleReport.entries.Nodup ∧
    ∃ permuted, computeIntentDelta (tabledDigest sampleDigests) (fun _ ↦ none) sampleInput =
        .ok permuted ∧ permuted.entries = sampleReport.entries ∧
          permuted.totals = sampleReport.totals := by
  have hids : samplePrior.DistinctIds ∧ sampleCurrent.DistinctIds := by
    refine ⟨⟨?_, ?_, ?_, ?_, ?_⟩, ⟨?_, ?_, ?_, ?_, ?_⟩⟩ <;> decide
  have hpositive : JsNumber.lt 0 (driftThresholdOf sampleUnchanged.options) = true := by
    decide +kernel
  obtain ⟨-, hback, ⟨hnodup, -⟩, hpermuted⟩ := computeIntentDelta_laws (tabledDigest sampleDigests)
    (fun _ ↦ none) sampleInput computeIntentDelta_sampleInput
  refine ⟨?_, hback, hnodup, hpermuted samplePrior sampleCurrent hids.1 hids.2
    ⟨.rfl, .rfl, .rfl, .rfl, .rfl⟩ ⟨.rfl, .rfl, .rfl, .rfl, .rfl⟩⟩
  exact (computeIntentDelta_laws (tabledDigest sampleDigests) (fun _ ↦ none) sampleUnchanged
    (computeIntentDelta_eq thresholdAccepted_sampleUnchanged)).1 ⟨rfl, rfl, rfl⟩ hpositive

/-- A screen that is seen worse is reported twice, and the reverse delta is silent on it. -/
theorem drop_reported_beside_change :
    computeIntentDelta (tabledDigest sampleDigests) (fun _ ↦ none) sampleInput = .ok sampleReport ∧
    computeIntentDelta (tabledDigest sampleDigests) (fun _ ↦ none) sampleInput.reversed =
      .ok sampleReversed ∧
    sampleReversed.entries.map (·.unlocated) ≠ sampleReport.entries.map (·.reversed.unlocated) ∧
    ¬ (sampleReport.entries.map fun e ↦ (e.kind, e.elementId)).Nodup := by
  refine ⟨computeIntentDelta_sampleInput, ?_, ?_, ?_⟩ <;> decide +kernel

end TestIntelligence.CoreEngine.IntentDelta
