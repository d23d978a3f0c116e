import TestIntelligence.CoreEngine.IntentDelta
import TestIntelligence.Js.Rounding

/-!
# What an intent delta says of an element

What is reported of an element depends on the element before and after alone: it is the one
structural entry of the element (added, changed or removed), and for a screen with visual
descriptions on both sides the signs that are found between them.
-/

namespace TestIntelligence.CoreEngine.IntentDelta

open Js Security

/-! ## One element -/

/-- The entry of an element, before and after. -/
def changeAt {T : Type} (kind : IntentDeltaKind) (id : JsString) (screenId hash : T → JsString) :
    (before after : Option T) → Option IntentDeltaEntry
  | none, none => none
  | none, some entry =>
      some ⟨kind, .added, id, some (screenId entry), none, some (hash entry), none⟩
  | some entry, none =>
      some ⟨kind, .removed, id, some (screenId entry), some (hash entry), none, none⟩
  | some before, some after =>
      if hash before ≠ hash after then
        some ⟨kind, .changed, id, some (screenId after), some (hash before), some (hash after),
          none⟩
      else none

theorem changeAt_spec {T : Type} {kind : IntentDeltaKind} {id : JsString}
    {screenId hash : T → JsString} {before after : Option T} {e : IntentDeltaEntry}
    (h : changeAt kind id screenId hash before after = some e) :
    e.kind = kind ∧ e.elementId = id := by
  unfold changeAt at h
  split at h
  · cases h
  · cases h
    exact ⟨rfl, rfl⟩
  · cases h
    exact ⟨rfl, rfl⟩
  · split at h
    · cases h
      exact ⟨rfl, rfl⟩
    · cases h

section

variable {T : Type} {kind : IntentDeltaKind} {screenId hash : T → JsString}
  {priorMap currentMap : List (JsString × T)} {p : JsString × T} {e : IntentDeltaEntry}

theorem addedEntry_eq_some (h : addedEntry kind screenId hash priorMap p = some e) :
    mapGet priorMap p.1 = none ∧ e.elementId = p.1 ∧ e.changeType = .added ∧
      changeAt kind p.1 screenId hash none (some p.2) = some e := by
  obtain ⟨key, entry⟩ := p
  rw [addedEntry] at h
  split at h
  · cases h
  · next hnone =>
    rw [Option.isSome_iff_ne_none, not_not] at hnone
    cases h
    exact ⟨hnone, rfl, rfl, rfl⟩

theorem removedEntry_eq_some (h : removedEntry kind screenId hash currentMap p = some e) :
    mapGet currentMap p.1 = none ∧ e.elementId = p.1 ∧ e.changeType = .removed ∧
      changeAt kind p.1 screenId hash (some p.2) none = some e := by
  obtain ⟨key, entry⟩ := p
  rw [removedEntry] at h
  split at h
  · cases h
  · next hnone =>
    rw [Option.isSome_iff_ne_none, not_not] at hnone
    cases h
    exact ⟨hnone, rfl, rfl, rfl⟩

theorem changedEntry_eq_some (h : changedEntry kind screenId hash priorMap p = some e) :
    ∃ before, mapGet priorMap p.1 = some before ∧ e.elementId = p.1 ∧ e.changeType = .changed ∧
      changeAt kind p.1 screenId hash (some before) (some p.2) = some e := by
  unfold changedEntry at h
  dsimp only at h
  split at h
  · cases h
  · next before hbefore =>
    split at h
    · next hne =>
      cases h
      exact ⟨before, hbefore, rfl, rfl, if_pos hne⟩
    · cases h

end

section

variable {T : Type} {sha256 : JsString → JsString} {kind : IntentDeltaKind}
  {id screenId : T → JsString} {hashSeed : T → Json} {prior current : List T}

theorem keys_mapById (id : T → JsString) (list : List T) :
    (mapById id list).map Prod.fst = setOf (list.map id) := by
  have hfold : ∀ m : List (JsString × T),
      (list.foldl (fun m entry ↦ mapSet m (id entry) entry) m).map Prod.fst =
        (list.map id).foldl setAdd (m.map Prod.fst) := by
    induction list with
    | nil => exact fun _ ↦ rfl
    | cons entry list ih =>
        intro m
        rw [List.foldl_cons, ih, keys_mapSet, List.map_cons, List.foldl_cons]
  exact hfold []

theorem nodup_keys_mapById (id : T → JsString) (list : List T) :
    ((mapById id list).map Prod.fst).Nodup := by
  rw [keys_mapById]
  exact nodup_foldl_setAdd List.nodup_nil

theorem mem_mapById_iff {list : List T} {p : JsString × T} :
    p ∈ mapById id list ↔ mapGet (mapById id list) p.1 = some p.2 :=
  ⟨mapGet_eq_some_of_mem (nodup_keys_mapById id list), mem_of_mapGet⟩

/-- The entry of an element in a list of a collection is the one of the element itself. -/
theorem mem_collectionDeltas {e : IntentDeltaEntry} :
    e ∈ collectionDeltas sha256 kind id screenId hashSeed prior current ↔
      changeAt kind e.elementId screenId (fun entry ↦ sha256Hex sha256 (hashSeed entry))
        (mapGet (mapById id prior) e.elementId) (mapGet (mapById id current) e.elementId) =
          some e := by
  unfold collectionDeltas
  dsimp only
  rw [List.mem_append, List.mem_append, List.mem_filterMap, List.mem_filterMap, List.mem_filterMap]
  constructor
  · rintro ((⟨p, hmem, he⟩ | ⟨p, hmem, he⟩) | ⟨p, hmem, he⟩)
    · obtain ⟨hbefore, hid, -, he⟩ := addedEntry_eq_some he
      rw [hid, hbefore, mem_mapById_iff.mp hmem]
      exact he
    · obtain ⟨hafter, hid, -, he⟩ := removedEntry_eq_some he
      rw [hid, hafter, mem_mapById_iff.mp hmem]
      exact he
    · obtain ⟨before, hbefore, hid, -, he⟩ := changedEntry_eq_some he
      rw [hid, hbefore, mem_mapById_iff.mp hmem]
      exact he
  · intro he
    cases hbefore : mapGet (mapById id prior) e.elementId with
    | none =>
        cases hafter : mapGet (mapById id current) e.elementId with
        | none =>
            rw [hbefore, hafter] at he
            cases he
        | some after =>
            rw [hbefore, hafter] at he
            refine .inl (.inl ⟨(e.elementId, after), mem_mapById_iff.mpr hafter, ?_⟩)
            rw [addedEntry, hbefore, if_neg (by simp)]
            exact he
    | some before =>
        cases hafter : mapGet (mapById id current) e.elementId with
        | none =>
            rw [hbefore, hafter] at he
            refine .inl (.inr ⟨(e.elementId, before), mem_mapById_iff.mpr hbefore, ?_⟩)
            rw [removedEntry, hafter, if_neg (by simp)]
            exact he
        | some after =>
            rw [hbefore, hafter] at he
            refine .inr ⟨(e.elementId, after), mem_mapById_iff.mpr hafter, ?_⟩
            rw [changedEntry, hbefore]
            exact he

theorem nodup_filterMap_mapById {list : List T} {φ : JsString × T → Option IntentDeltaEntry}
    (hφ : ∀ p e, φ p = some e → e.elementId = p.1) : ((mapById id list).filterMap φ).Nodup := by
  apply List.Nodup.of_map (·.elementId)
  exact (nodup_keys_mapById id list).sublist (sublist_map_filterMap hφ _)

theorem nodup_collectionDeltas :
    (collectionDeltas sha256 kind id screenId hashSeed prior current).Nodup := by
  unfold collectionDeltas
  dsimp only
  refine (List.nodup_append'.mpr ⟨nodup_filterMap_mapById fun p e h ↦ (addedEntry_eq_some h).2.1,
    nodup_filterMap_mapById fun p e h ↦ (removedEntry_eq_some h).2.1, ?_⟩).append
    (nodup_filterMap_mapById fun p e h ↦ ?_) ?_
  · intro e hadded hremoved
    obtain ⟨p, -, hp⟩ := List.mem_filterMap.mp hadded
    obtain ⟨q, -, hq⟩ := List.mem_filterMap.mp hremoved
    cases (addedEntry_eq_some hp).2.2.1.symm.trans (removedEntry_eq_some hq).2.2.1
  · obtain ⟨-, -, hid, -⟩ := changedEntry_eq_some h
    exact hid
  · intro e hfirst hchanged
    obtain ⟨p, -, hp⟩ := List.mem_filterMap.mp hchanged
    obtain ⟨-, -, -, htype, -⟩ := changedEntry_eq_some hp
    rcases List.mem_append.mp hfirst with hadded | hremoved
    · obtain ⟨q, -, hq⟩ := List.mem_filterMap.mp hadded
      cases htype.symm.trans (addedEntry_eq_some hq).2.2.1
    · obtain ⟨q, -, hq⟩ := List.mem_filterMap.mp hremoved
      cases htype.symm.trans (removedEntry_eq_some hq).2.2.1

theorem mapGet_mapById {list : List T} (hids : (list.map id).Nodup) (key : JsString) :
    mapGet (mapById id list) key = list.find? (id · = key) := by
  have hget := mapGet_foldl_mapSet id (fun entry ↦ entry) hids [] key
  simpa [mapById] using hget

/-- The order of a collection does not matter where its ids are distinct. -/
theorem mapGet_mapById_of_perm {list list' : List T} (hids : (list.map id).Nodup)
    (hperm : list.Perm list') (key : JsString) :
    mapGet (mapById id list) key = mapGet (mapById id list') key := by
  have hids' := (hperm.map id).nodup_iff.mp hids
  rw [mapGet_mapById hids, mapGet_mapById hids']
  apply Option.ext
  intro entry
  rw [find?_key_eq_some_iff hids, find?_key_eq_some_iff hids', hperm.mem_iff]

end

/-! ## One screen -/

/-- The entries that say something of both sides. -/
def IsStructural (e : IntentDeltaEntry) : Prop :=
  e.changeType = .added ∨ e.changeType = .changed ∨ e.changeType = .removed

instance : DecidablePred IsStructural := fun _ ↦ inferInstanceAs (Decidable (_ ∨ _ ∨ _))

theorem isStructural_of_changeAt {T : Type} {kind : IntentDeltaKind} {id : JsString}
    {screenId hash : T → JsString} {before after : Option T} {e : IntentDeltaEntry}
    (h : changeAt kind id screenId hash before after = some e) : IsStructural e := by
  unfold changeAt at h
  split at h
  · cases h
  · cases h
    exact .inl rfl
  · cases h
    exact .inr (.inr rfl)
  · split at h
    · cases h
      exact .inr (.inl rfl)
    · cases h

section

variable {sha256 : JsString → JsString} {threshold : JsNumber} {screenId : JsString}
  {priorDesc currentDesc : Option VisualScreenDescription}
  {priorFixture currentFixture : Option Json}

/-- What there is of a screen. -/
def visualSide (desc : Option VisualScreenDescription) (fixture : Option Json) :
    Option (Option VisualScreenDescription × Option Json) :=
  if desc.isSome || fixture.isSome then some (desc, fixture) else none

/-- What is found in one direction only. -/
def visualSigns (threshold : JsNumber) (screenId : JsString)
    (priorDesc currentDesc : Option VisualScreenDescription)
    (priorFixture currentFixture : Option Json) : List IntentDeltaEntry :=
  if (visualSide priorDesc priorFixture).isSome =
      (visualSide currentDesc currentFixture).isSome then
    confidenceDropped threshold screenId priorDesc currentDesc ++
      ambiguityIncreased screenId priorDesc currentDesc
  else []

theorem visualDelta_eq : visualDeltaForScreen sha256 threshold screenId priorDesc currentDesc
    priorFixture currentFixture =
      (changeAt .visualScreen screenId (fun _ ↦ screenId)
        (fun side ↦ sha256Hex sha256 (projectVisualForHash side.1 side.2))
        (visualSide priorDesc priorFixture) (visualSide currentDesc currentFixture)).toList ++
      visualSigns threshold screenId priorDesc currentDesc priorFixture currentFixture := by
  unfold visualDeltaForScreen visualSigns visualSide
  dsimp only
  cases hprior : (priorDesc.isSome || priorFixture.isSome) with
  | true =>
      cases hcurrent : (currentDesc.isSome || currentFixture.isSome) with
      | true =>
          simp only [Bool.not_true, Bool.and_false, Bool.false_eq_true, if_false, if_true, changeAt,
            List.append_assoc]
          split <;> rfl
      | false => rfl
  | false =>
      cases hcurrent : (currentDesc.isSome || currentFixture.isSome) with
      | true => rfl
      | false =>
          -- nothing is there on either side
          simp only [Bool.or_eq_false_iff, Option.isSome_eq_false_iff, Option.isNone_iff_eq_none]
            at hprior hcurrent
          rw [hprior.1, hprior.2, hcurrent.1, hcurrent.2]
          simp [changeAt]

theorem mem_confidenceDropped {e : IntentDeltaEntry}
    (h : e ∈ confidenceDropped threshold screenId priorDesc currentDesc) :
    e.kind = .visualScreen ∧ e.elementId = screenId ∧ e.changeType = .confidenceDropped := by
  unfold confidenceDropped at h
  split at h
  · split at h
    · obtain rfl := List.mem_singleton.mp h
      exact ⟨rfl, rfl, rfl⟩
    · cases h
  · cases h

theorem mem_ambiguityIncreased {e : IntentDeltaEntry}
    (h : e ∈ ambiguityIncreased screenId priorDesc currentDesc) :
    e.kind = .visualScreen ∧ e.elementId = screenId ∧ e.changeType = .ambiguityIncreased := by
  unfold ambiguityIncreased at h
  dsimp only at h
  split at h
  · obtain rfl := List.mem_singleton.mp h
    exact ⟨rfl, rfl, rfl⟩
  · cases h

theorem visualSigns_spec {e : IntentDeltaEntry}
    (h : e ∈ visualSigns threshold screenId priorDesc currentDesc priorFixture currentFixture) :
    e.kind = .visualScreen ∧ e.elementId = screenId ∧ ¬ IsStructural e := by
  unfold visualSigns at h
  split at h
  · rcases List.mem_append.mp h with h | h
    · obtain ⟨hkind, hid, htype⟩ := mem_confidenceDropped h
      exact ⟨hkind, hid, by simp [IsStructural, htype]⟩
    · obtain ⟨hkind, hid, htype⟩ := mem_ambiguityIncreased h
      exact ⟨hkind, hid, by simp [IsStructural, htype]⟩
  · cases h

/-- The signs of a screen are of different types. -/
theorem nodup_visualSigns : ((visualSigns threshold screenId priorDesc currentDesc priorFixture
    currentFixture).map (·.changeType)).Nodup := by
  have hshort : ∀ (changeType : IntentDeltaChangeType) (xs : List IntentDeltaEntry),
      xs.length ≤ 1 → (∀ e ∈ xs, e.changeType = changeType) →
      (xs.map (·.changeType)).Nodup ∧ ∀ t ∈ xs.map (·.changeType), t = changeType := by
    intro changeType xs hlen hxs
    refine ⟨?_, fun t ht ↦ ?_⟩
    · match xs, hlen with
      | [], _ => exact List.nodup_nil
      | [x], _ => exact List.nodup_singleton _
    · obtain ⟨e, he, rfl⟩ := List.mem_map.mp ht
      exact hxs e he
  have hdropped : (confidenceDropped threshold screenId priorDesc currentDesc).length ≤ 1 := by
    unfold confidenceDropped
    split
    · split <;> simp
    · simp
  have hincreased : (ambiguityIncreased screenId priorDesc currentDesc).length ≤ 1 := by
    unfold ambiguityIncreased
    dsimp only
    split <;> simp
  unfold visualSigns
  split
  · rw [List.map_append]
    obtain ⟨hfirst, hfirst'⟩ := hshort .confidenceDropped _ hdropped fun e he ↦
      (mem_confidenceDropped he).2.2
    obtain ⟨hsecond, hsecond'⟩ := hshort .ambiguityIncreased _ hincreased fun e he ↦
      (mem_ambiguityIncreased he).2.2
    refine hfirst.append hsecond fun t ht ht' ↦ ?_
    cases (hfirst' t ht).symm.trans (hsecond' t ht')
  · exact List.nodup_nil

theorem le_sub_self {x : JsNumber} (hthreshold : JsNumber.lt 0 threshold = true) :
    threshold.le (x.sub x) = false := by
  rw [Bool.eq_false_iff]
  intro hle
  have hpos := JsNumber.lt_of_lt_le hthreshold hle
  rw [JsNumber.zero_lt_sub] at hpos
  rcases JsNumber.lt_eq_false_total x x with h | h <;> exact Bool.false_ne_true (h.symm.trans hpos)

/-- Nothing is found between a screen and itself. -/
theorem visualSigns_self (hthreshold : JsNumber.lt 0 threshold = true) :
    visualSigns threshold screenId priorDesc priorDesc priorFixture priorFixture = [] := by
  unfold visualSigns confidenceDropped ambiguityIncreased
  simp only [lt_irrefl, if_false, List.append_nil, if_true]
  split
  · next priorMean currentMean hprior hcurrent =>
    obtain rfl := Option.some.inj (hprior.symm.trans hcurrent)
    rw [le_sub_self hthreshold, if_neg Bool.false_ne_true]
  · rfl

end

/-! ## One element of a delta -/

section

variable {sha256 : JsString → JsString} {inherited : JsString → Option Json}
  {prior current : BusinessTestIntentIr} {options : ComputeIntentDeltaOptions}

/-- What there is of a screen before. -/
def priorSide (inherited : JsString → Option Json) (options : ComputeIntentDeltaOptions)
    (id : JsString) : Option VisualScreenDescription × Option Json :=
  (mapGet (visualScreenIndex options.priorVisual) id,
    fixtureOf inherited (options.priorFixtureHashes.getD []) id)

def currentSide (inherited : JsString → Option Json) (options : ComputeIntentDeltaOptions)
    (id : JsString) : Option VisualScreenDescription × Option Json :=
  (mapGet (visualScreenIndex options.currentVisual) id,
    fixtureOf inherited (options.currentFixtureHashes.getD []) id)

/-- The added, changed or removed entry of an element. -/
def structuralAt (sha256 : JsString → JsString) (inherited : JsString → Option Json)
    (prior current : BusinessTestIntentIr) (options : ComputeIntentDeltaOptions)
    (kind : IntentDeltaKind) (id : JsString) : Option IntentDeltaEntry :=
  let entryAt {T : Type} (key screenId : T → JsString) (hashSeed : T → Json)
      (before after : List T) :=
    changeAt kind id screenId (fun entry ↦ sha256Hex sha256 (hashSeed entry))
      (mapGet (mapById key before) id) (mapGet (mapById key after) id)
  match kind with
  | .action =>
      entryAt (·.id) (·.screenId) actionHashSeed prior.detectedActions current.detectedActions
  | .field => entryAt (·.id) (·.screenId) fieldHashSeed prior.detectedFields current.detectedFields
  | .navigation =>
      entryAt (·.id) (·.screenId) navigationHashSeed prior.detectedNavigation
        current.detectedNavigation
  | .screen => entryAt (·.screenId) (·.screenId) screenHashSeed prior.screens current.screens
  | .validation =>
      entryAt (·.id) (·.screenId) validationHashSeed prior.detectedValidations
        current.detectedValidations
  | .visualScreen =>
      changeAt kind id (fun _ ↦ id)
        (fun side ↦ sha256Hex sha256 (projectVisualForHash side.1 side.2))
        (visualSide (priorSide inherited options id).1 (priorSide inherited options id).2)
        (visualSide (currentSide inherited options id).1 (currentSide inherited options id).2)

/-- The signs found at a screen. -/
def signsAt (inherited : JsString → Option Json) (options : ComputeIntentDeltaOptions)
    (id : JsString) : List IntentDeltaEntry :=
  visualSigns (driftThresholdOf options) id (priorSide inherited options id).1
    (currentSide inherited options id).1 (priorSide inherited options id).2
    (currentSide inherited options id).2

/-- Nothing is said of a screen that is in none of the lists. -/
theorem visualDelta_of_unlisted {threshold : JsNumber} {id : JsString} {fixture : Option Json} :
    visualDeltaForScreen sha256 threshold id none none fixture fixture = [] := by
  rw [visualDelta_eq]
  unfold visualSide visualSigns confidenceDropped ambiguityIncreased
  cases fixture <;> simp [changeAt, meanConfidence, ambiguityCount]

theorem fixtureOf_of_notMem {fixtures : List (JsString × JsString)} {id : JsString}
    (h : id ∉ fixtures.map Prod.fst) : fixtureOf inherited fixtures id = inherited id := by
  unfold fixtureOf
  rw [mapGet_eq_none_iff.mpr h]
  rfl

theorem mem_visualDeltaForScreen {threshold : JsNumber} {id : JsString}
    {priorDesc currentDesc : Option VisualScreenDescription}
    {priorFixture currentFixture : Option Json} {e : IntentDeltaEntry}
    (h : e ∈ visualDeltaForScreen sha256 threshold id priorDesc currentDesc priorFixture
      currentFixture) : e.kind = .visualScreen ∧ e.elementId = id := by
  rw [visualDelta_eq] at h
  rcases List.mem_append.mp h with h | h
  · exact changeAt_spec (Option.mem_toList.mp h)
  · obtain ⟨hkind, hid, -⟩ := visualSigns_spec h
    exact ⟨hkind, hid⟩

theorem mem_visualDeltas {threshold : JsNumber} {e : IntentDeltaEntry} :
    e ∈ visualDeltas sha256 inherited options threshold ↔
      e ∈ visualDeltaForScreen sha256 threshold e.elementId
        (priorSide inherited options e.elementId).1 (currentSide inherited options e.elementId).1
        (priorSide inherited options e.elementId).2 (currentSide inherited options e.elementId).2 := by
  unfold visualDeltas
  dsimp only
  rw [List.mem_flatMap]
  constructor
  · rintro ⟨id, -, he⟩
    obtain ⟨-, hid⟩ := mem_visualDeltaForScreen he
    rw [hid]
    exact he
  · intro he
    refine ⟨e.elementId, ?_, he⟩
    rw [mem_sortStrings, mem_setOf]
    by_contra hnotMem
    simp only [List.mem_append, not_or] at hnotMem
    obtain ⟨⟨⟨hprior, hcurrent⟩, hpriorFixture⟩, hcurrentFixture⟩ := hnotMem
    unfold priorSide currentSide at he
    rw [mapGet_eq_none_iff.mpr hprior, mapGet_eq_none_iff.mpr hcurrent,
      fixtureOf_of_notMem hpriorFixture, fixtureOf_of_notMem hcurrentFixture,
      visualDelta_of_unlisted] at he
    cases he

/-- What is appended, by kind. -/
def deltaParts (sha256 : JsString → JsString) (inherited : JsString → Option Json)
    (prior current : BusinessTestIntentIr) (options : ComputeIntentDeltaOptions) :
    List (IntentDeltaKind × List IntentDeltaEntry) :=
  [(.screen, screenDeltas sha256 prior current),
    (.field, collectionDeltas sha256 .field (·.id) (·.screenId) fieldHashSeed prior.detectedFields
      current.detectedFields),
    (.action, collectionDeltas sha256 .action (·.id) (·.screenId) actionHashSeed
      prior.detectedActions current.detectedActions),
    (.validation, collectionDeltas sha256 .validation (·.id) (·.screenId) validationHashSeed
      prior.detectedValidations current.detectedValidations),
    (.navigation, collectionDeltas sha256 .navigation (·.id) (·.screenId) navigationHashSeed
      prior.detectedNavigation current.detectedNavigation),
    (.visualScreen, visualDeltas sha256 inherited options (driftThresholdOf options))]

theorem allDeltas_eq_flatMap : allDeltas sha256 inherited prior current options =
    (deltaParts sha256 inherited prior current options).flatMap Prod.snd := by
  simp [allDeltas, deltaParts]

/-- An entry is the structural one of its element or a sign found at its screen. -/
theorem mem_allDeltas {e : IntentDeltaEntry} :
    e ∈ allDeltas sha256 inherited prior current options ↔
      structuralAt sha256 inherited prior current options e.kind e.elementId = some e ∨
        e ∈ signsAt inherited options e.elementId := by
  have hsigns : e ∈ signsAt inherited options e.elementId → e.kind = .visualScreen := fun h ↦
    (visualSigns_spec h).1
  have hvisual : e ∈ visualDeltas sha256 inherited options (driftThresholdOf options) ↔
      e.kind = .visualScreen ∧
        (structuralAt sha256 inherited prior current options e.kind e.elementId = some e ∨
          e ∈ signsAt inherited options e.elementId) := by
    rw [mem_visualDeltas, visualDelta_eq, List.mem_append, Option.mem_toList]
    constructor
    · rintro (h | h)
      · have hkind := (changeAt_spec h).1
        rw [hkind]
        exact ⟨rfl, Or.inl h⟩
      · exact ⟨hsigns h, Or.inr h⟩
    · rintro ⟨hkind, h | h⟩
      · rw [hkind] at h
        exact Or.inl h
      · exact Or.inr h
  have hcollection : ∀ {T : Type} (kind : IntentDeltaKind) (id screenId : T → JsString)
      (hashSeed : T → Json) (before after : List T),
      (e ∈ collectionDeltas sha256 kind id screenId hashSeed before after ↔
        e.kind = kind ∧ changeAt kind e.elementId screenId
          (fun entry ↦ sha256Hex sha256 (hashSeed entry)) (mapGet (mapById id before) e.elementId)
          (mapGet (mapById id after) e.elementId) = some e) := by
    intro T kind id screenId hashSeed before after
    rw [mem_collectionDeltas]
    exact ⟨fun h ↦ ⟨(changeAt_spec h).1, h⟩, fun h ↦ h.2⟩
  rw [allDeltas, screenDeltas]
  simp only [List.mem_append, hvisual, hcollection]
  constructor
  · rintro (((((⟨hkind, h⟩ | ⟨hkind, h⟩) | ⟨hkind, h⟩) | ⟨hkind, h⟩) | ⟨hkind, h⟩) | ⟨-, h⟩)
    all_goals first | exact h | (rw [hkind]; exact Or.inl h)
  · rintro (h | h)
    · cases hkind : e.kind with
      | visualScreen => exact Or.inr ⟨rfl, Or.inl (hkind ▸ h)⟩
      | action =>
          rw [hkind] at h
          simpa [structuralAt] using h
      | field =>
          rw [hkind] at h
          simpa [structuralAt] using h
      | navigation =>
          rw [hkind] at h
          simpa [structuralAt] using h
      | screen =>
          rw [hkind] at h
          simpa [structuralAt] using h
      | validation =>
          rw [hkind] at h
          simpa [structuralAt] using h
    · exact Or.inr ⟨hsigns h, Or.inr h⟩

theorem structuralAt_spec {kind : IntentDeltaKind} {id : JsString} {e : IntentDeltaEntry}
    (h : structuralAt sha256 inherited prior current options kind id = some e) :
    e.kind = kind ∧ e.elementId = id ∧ IsStructural e := by
  unfold structuralAt at h
  have hspec : ∀ {T : Type} {screenId hash : T → JsString} {before after : Option T},
      changeAt kind id screenId hash before after = some e →
        e.kind = kind ∧ e.elementId = id ∧ IsStructural e := by
    intro T screenId hash before after h
    obtain ⟨hkind, hid⟩ := changeAt_spec h
    exact ⟨hkind, hid, isStructural_of_changeAt h⟩
  cases kind <;> exact hspec h

/-- An element has one structural entry, and a screen one sign of each type. -/
theorem eq_of_mem_allDeltas {e e' : IntentDeltaEntry}
    (he : e ∈ allDeltas sha256 inherited prior current options)
    (he' : e' ∈ allDeltas sha256 inherited prior current options) (hkind : e.kind = e'.kind)
    (hid : e.elementId = e'.elementId)
    (hsame : IsStructural e ∧ IsStructural e' ∨ e.changeType = e'.changeType) : e = e' := by
  have hstructural : IsStructural e ↔ IsStructural e' := by
    rcases hsame with ⟨h, h'⟩ | htype
    · exact iff_of_true h h'
    · rw [IsStructural, IsStructural, htype]
  rcases mem_allDeltas.mp he with h | h
  · rcases mem_allDeltas.mp he' with h' | h'
    · rw [← hkind, ← hid, h] at h'
      exact Option.some.inj h'
    · exact absurd (hstructural.mp (structuralAt_spec h).2.2) (visualSigns_spec h').2.2
  · rcases mem_allDeltas.mp he' with h' | h'
    · exact absurd (hstructural.mpr (structuralAt_spec h').2.2) (visualSigns_spec h).2.2
    · rcases hsame with ⟨hstruct, -⟩ | htype
      · exact absurd hstruct (visualSigns_spec h).2.2
      · rw [← hid] at h'
        exact List.inj_on_of_nodup_map nodup_visualSigns h h' htype

theorem nodup_visualDeltaForScreen {threshold : JsNumber} {id : JsString}
    {priorDesc currentDesc : Option VisualScreenDescription}
    {priorFixture currentFixture : Option Json} :
    (visualDeltaForScreen sha256 threshold id priorDesc currentDesc priorFixture
      currentFixture).Nodup := by
  rw [visualDelta_eq]
  have htoList : ∀ entry : Option IntentDeltaEntry, entry.toList.Nodup := fun entry ↦ by
    cases entry <;> simp
  refine (htoList _).append (nodup_visualSigns.of_map _) fun e he he' ↦ ?_
  exact (visualSigns_spec he').2.2 (isStructural_of_changeAt (Option.mem_toList.mp he))

theorem nodup_visualDeltas {threshold : JsNumber} :
    (visualDeltas sha256 inherited options threshold).Nodup := by
  unfold visualDeltas
  dsimp only
  rw [List.nodup_flatMap]
  refine ⟨fun id _ ↦ nodup_visualDeltaForScreen, ?_⟩
  have hids : ∀ xs : List JsString, (sortStrings (setOf xs)).Nodup := fun xs ↦
    (sortStrings_perm _).nodup_iff.mpr (nodup_foldl_setAdd List.nodup_nil)
  refine (hids _).imp fun hne e he he' ↦ hne ?_
  exact (mem_visualDeltaForScreen he).2.symm.trans (mem_visualDeltaForScreen he').2

theorem nodup_flatMap_of_kinds {parts : List (IntentDeltaKind × List IntentDeltaEntry)}
    (hkinds : (parts.map Prod.fst).Nodup)
    (hparts : ∀ part ∈ parts, part.2.Nodup ∧ ∀ e ∈ part.2, e.kind = part.1) :
    (parts.flatMap Prod.snd).Nodup := by
  rw [List.nodup_flatMap]
  refine ⟨fun part hpart ↦ (hparts part hpart).1, ?_⟩
  refine (List.pairwise_map.mp hkinds).imp_of_mem fun hpart hpart' hne e he he' ↦ hne ?_
  exact ((hparts _ hpart).2 e he).symm.trans ((hparts _ hpart').2 e he')

theorem nodup_allDeltas : (allDeltas sha256 inherited prior current options).Nodup := by
  have hcollection : ∀ {T : Type} {kind : IntentDeltaKind} {id screenId : T → JsString}
      {hashSeed : T → Json} {before after : List T},
      (collectionDeltas sha256 kind id screenId hashSeed before after).Nodup ∧
        ∀ e ∈ collectionDeltas sha256 kind id screenId hashSeed before after, e.kind = kind :=
    ⟨nodup_collectionDeltas, fun e he ↦ (changeAt_spec (mem_collectionDeltas.mp he)).1⟩
  rw [allDeltas_eq_flatMap]
  refine nodup_flatMap_of_kinds (by simp [deltaParts]) fun part hpart ↦ ?_
  simp only [deltaParts, List.mem_cons, List.not_mem_nil, or_false] at hpart
  rcases hpart with rfl | rfl | rfl | rfl | rfl | rfl
  · exact hcollection
  · exact hcollection
  · exact hcollection
  · exact hcollection
  · exact hcollection
  · exact ⟨nodup_visualDeltas, fun e he ↦ (mem_visualDeltaForScreen (mem_visualDeltas.mp he)).1⟩

end

end TestIntelligence.CoreEngine.IntentDelta
