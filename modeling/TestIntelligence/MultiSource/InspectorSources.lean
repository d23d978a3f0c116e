import TestIntelligence.MultiSource.AggregateHash
import TestIntelligence.MultiSource.InspectorStore

/-!
# Removing sources

The envelope that the inspector returns after any number of removals, against the
validator of envelopes.
-/

namespace TestIntelligence.MultiSource

open Js Security

/-! ## Values read back from a file -/

theorem stored_cases (v : Json) :
    (∃ s, v = .str s) ∨ ((∀ s, v ≠ .str s) ∧ ∀ s, stored v ≠ .str s) := by
  cases v with
  | str s => exact Or.inl ⟨s, rfl⟩
  | null => exact Or.inr ⟨by simp, fun s h ↦ by cases h⟩
  | bool b => exact Or.inr ⟨by simp, fun s h ↦ by cases h⟩
  | num x =>
      refine Or.inr ⟨by simp, fun s h ↦ ?_⟩
      rw [stored, Json.printed] at h
      split at h <;> cases h
  | arr items => exact Or.inr ⟨by simp, by simp⟩
  | obj members => exact Or.inr ⟨by simp, by simp⟩

@[simp] theorem textOf_map_stored (value : Option Json) :
    textOf (value.map stored) = textOf value := by
  rcases value with _ | v
  · rfl
  · rcases stored_cases v with ⟨s, rfl⟩ | ⟨hne, hne'⟩
    · rfl
    · have hnone : textOf (some v) = none := by
        rw [Option.eq_none_iff_forall_ne_some]
        exact fun s hs ↦ hne s (Option.some.inj (textOf_eq_some.mp hs))
      rw [hnone, Option.map_some, Option.eq_none_iff_forall_ne_some]
      exact fun s hs ↦ hne' s (Option.some.inj (textOf_eq_some.mp hs))

theorem isTextWith_eq (test : JsString → Bool) (value : Option Json) :
    isTextWith test value = (textOf value).any test := by
  rcases value with _ | (_ | _ | _ | _ | _ | _) <;> rfl

@[simp] theorem isTextWith_map_stored (test : JsString → Bool) (value : Option Json) :
    isTextWith test (value.map stored) = isTextWith test value := by
  rw [isTextWith_eq, isTextWith_eq, textOf_map_stored]

theorem mapGet_stored_text {members : List (JsString × Json)} (h : (Json.obj members).Ordered)
    {name : String} (hname : js name ≠ protoKey) :
    mapGet (storedMembers members) (js name) = (mapGet members (js name)).map stored :=
  mapGet_storedMembers (Json.ordered_obj.mp h).1.1 hname

theorem isArrayOf_map_stored {check : Json → Bool} {value : Option Json}
    (h : ∀ v ∈ itemsOf value, check (stored v) = check v) :
    isArrayOf check (value.map stored) = isArrayOf check value := by
  rcases value with _ | (_ | _ | _ | _ | items | _)
  case some.num x =>
    rw [Option.map_some, stored, Json.printed]
    split <;> rfl
  case some.arr =>
    rw [Option.map_some, stored_arr, isArrayOf, isArrayOf, List.all_map]
    rw [Bool.eq_iff_iff, List.all_eq_true, List.all_eq_true]
    exact forall₂_congr fun v hv ↦ by rw [Function.comp_apply, h v hv]
  all_goals rfl

theorem itemsOf_map_stored (value : Option Json) :
    itemsOf (value.map stored) = (itemsOf value).map stored := by
  rcases value with _ | (_ | _ | _ | _ | items | _)
  case some.num x =>
    rw [Option.map_some, stored, Json.printed]
    split <;> rfl
  case some.arr => rw [Option.map_some, stored_arr, itemsOf, itemsOf]
  all_goals rfl

theorem textField_stored {v : Json} (hv : v.Ordered) {name : String} (hname : js name ≠ protoKey) :
    textField (stored v) name = textField v name := by
  cases v with
  | obj members =>
      rw [stored_obj, textField, textField, mapGet_stored_text hv hname, textOf_map_stored]
  | null => rfl
  | bool b => rfl
  | str s => rfl
  | num x =>
      rw [stored, Json.printed]
      split <;> rfl
  | arr items =>
      rw [stored_arr]
      rfl

/-! ## The file of removed sources -/

/-- An envelope that passed the check, and every object in it lists its members in order. -/
structure RemovedEnvelope (envelope : List (JsString × Json)) : Prop where
  ordered : (Json.obj envelope).Ordered
  valid : isRemovedSourcesEnvelope envelope = true

theorem ordered_of_readObject {check : List (JsString × Json) → Bool} {file : Option JsString}
    {members : List (JsString × Json)} (h : readObject check file = some members) :
    (Json.obj members).Ordered ∧ check members = true := by
  rw [readObject] at h
  split at h
  · next members' hparse =>
      obtain ⟨text, -, htext⟩ := Option.bind_eq_some_iff.mp hparse
      split at h
      · next hcheck =>
          obtain rfl := Option.some.inj h
          exact ⟨Json.ordered_of_parse htext, hcheck⟩
      · cases h
  · cases h

theorem readObject_canonicalJson {check : List (JsString × Json) → Bool}
    {members : List (JsString × Json)} (h : (Json.obj members).Ordered) :
    readObject check (some (canonicalJson (.obj members))) =
      if check (storedMembers members) then some (storedMembers members) else none := by
  rw [readObject, Option.bind_some, parse_canonicalJson_stored h, stored_obj]

theorem removedEnvelope_read (file : Option JsString) :
    RemovedEnvelope (readRemovedSourcesEnvelope file) := by
  rw [readRemovedSourcesEnvelope]
  cases hread : readObject isRemovedSourcesEnvelope file with
  | some members =>
      obtain ⟨hordered, hvalid⟩ := ordered_of_readObject hread
      exact ⟨hordered, hvalid⟩
  | none =>
      refine ⟨?_, by decide⟩
      simp only [Option.getD_none, noRemovedSources, Json.ordered_obj, List.forall_mem_cons]
      refine ⟨?_, by simp⟩
      unfold Enumerated
      decide

theorem removedRecords_noRemovedSources : removedRecords noRemovedSources = [] := by
  rw [removedRecords, noRemovedSources, mapGet_cons, if_neg (by decide), mapGet_cons,
    if_neg (by decide), mapGet_cons, if_pos rfl, itemsOf]

theorem isRemovedSourceRecord_stored {record : Json} (h : record.Ordered) :
    isRemovedSourceRecord (stored record) = isRemovedSourceRecord record := by
  cases record with
  | obj members =>
      rw [stored_obj, isRemovedSourceRecord, isRemovedSourceRecord,
        mapGet_stored_text h (show js "sourceId" ≠ protoKey by decide),
        mapGet_stored_text h (show js "removedAt" ≠ protoKey by decide),
        mapGet_stored_text h (show js "removedBy" ≠ protoKey by decide)]
      simp [isText]
  | null => rfl
  | bool b => rfl
  | str s => rfl
  | num x =>
      rw [stored, Json.printed]
      split <;> rfl
  | arr items =>
      rw [stored_arr]
      rfl

theorem ordered_items {members : List (JsString × Json)} (h : (Json.obj members).Ordered)
    {key : JsString} : ∀ item ∈ itemsOf (mapGet members key), item.Ordered := by
  intro item hitem
  cases hget : mapGet members key with
  | none =>
      rw [hget] at hitem
      cases hitem
  | some value =>
      have hvalue := (Json.ordered_obj.mp h).2 _ (mem_of_mapGet hget)
      rw [hget] at hitem
      cases value with
      | arr items => exact Json.ordered_arr.mp hvalue item hitem
      | _ => cases hitem

/-- Reading an envelope back changes neither whether it passes nor what it says. -/
theorem isRemovedSourcesEnvelope_stored {envelope : List (JsString × Json)}
    (h : (Json.obj envelope).Ordered) :
    isRemovedSourcesEnvelope (storedMembers envelope) = isRemovedSourcesEnvelope envelope := by
  have hrecords : isArrayOf isRemovedSourceRecord
      ((mapGet envelope (js "removedSources")).map stored) =
        isArrayOf isRemovedSourceRecord (mapGet envelope (js "removedSources")) :=
    isArrayOf_map_stored fun record hrecord ↦
      isRemovedSourceRecord_stored (ordered_items h record hrecord)
  rw [isRemovedSourcesEnvelope, isRemovedSourcesEnvelope,
    mapGet_stored_text h (show js "version" ≠ protoKey by decide),
    mapGet_stored_text h (show js "jobId" ≠ protoKey by decide),
    mapGet_stored_text h (show js "removedSources" ≠ protoKey by decide), hrecords]
  simp only [isText, isTextWith_map_stored]

theorem recordSourceId_storedMembers {envelope : List (JsString × Json)}
    (h : (Json.obj envelope).Ordered) :
    (removedRecords (storedMembers envelope)).map recordSourceId =
      (removedRecords envelope).map recordSourceId := by
  rw [removedRecords, mapGet_stored_text h (show js "removedSources" ≠ protoKey by decide),
    itemsOf_map_stored, List.map_map]
  apply List.map_congr_left
  intro record hrecord
  rw [Function.comp_apply, recordSourceId, recordSourceId,
    textField_stored (ordered_items h record hrecord) (by decide)]

theorem ordered_mapSet {members : List (JsString × Json)} (h : (Json.obj members).Ordered)
    {key : JsString} (hkey : (mapGet members key).isSome) {v : Json} (hv : v.Ordered) :
    (Json.obj (mapSet members key v)).Ordered := by
  obtain ⟨w, hw⟩ := Option.isSome_iff_exists.mp hkey
  obtain ⟨henum, hvalues⟩ := Json.ordered_obj.mp h
  have hmem : key ∈ members.map Prod.fst := List.mem_map_of_mem (mem_of_mapGet hw)
  have hkeys : (mapSet members key v).map Prod.fst = members.map Prod.fst := by
    rw [keys_mapSet, setAdd, if_pos hmem]
  rw [Json.ordered_obj, Enumerated, hkeys]
  refine ⟨henum, fun p hp ↦ ?_⟩
  rcases mem_mapSet hp with rfl | hp
  · exact hv
  · exact hvalues p hp

def RemovalInput.fields (input : RemovalInput) : List (JsString × Option Json) :=
  [(js "sourceId", some (.str input.sourceId)),
    (js "removedAt", some (.str input.removedAt)),
    (js "removedBy", input.removedBy.map .str)]

theorem enumerated_removalFields (input : RemovalInput) : Enumerated input.fields := by
  change (List.map js ["sourceId", "removedAt", "removedBy"]).Nodup ∧
    (List.map js ["sourceId", "removedAt", "removedBy"]).Pairwise fun k k' ↦ keyBefore k k' = true
  decide

theorem ordered_record (input : RemovalInput) : input.record.Ordered := by
  apply ordered_presentMembers (enumerated_removalFields input)
  simp [RemovalInput.fields]

theorem mapGet_record (input : RemovalInput) :
    ∀ field ∈ input.fields, mapGet (presentMembers input.fields) field.1 = field.2 := by
  intro field hfield
  have hkeys := (enumerated_removalFields input).1
  rw [mapGet_presentMembers hkeys, mapGet_eq_some_of_mem hkeys hfield, Option.join_some]

theorem isRemovedSourceRecord_record (input : RemovalInput) :
    isRemovedSourceRecord input.record = isSafeId input.sourceId := by
  have hget := mapGet_record input
  change isRemovedSourceRecord (.obj (presentMembers input.fields)) = _
  generalize presentMembers input.fields = members at hget ⊢
  simp only [RemovalInput.fields, List.forall_mem_cons] at hget
  obtain ⟨hid, hat, hby, -⟩ := hget
  rw [isRemovedSourceRecord, hid, hat, hby]
  cases input.removedBy <;> simp [isText, isTextWith]

theorem recordSourceId_record (input : RemovalInput) :
    recordSourceId input.record = input.sourceId := by
  have hid := mapGet_record input (js "sourceId", some (.str input.sourceId)) List.mem_cons_self
  change (textOf (mapGet (presentMembers input.fields) (js "sourceId"))).getD [] = _
  rw [hid]
  rfl

section

variable {localeCompare : JsString → JsString → ℤ} {envelope envelope' : List (JsString × Json)}
  {input : RemovalInput}

theorem RemovedEnvelope.isSafeId_of_mem (h : RemovedEnvelope envelope) {id : JsString}
    (hid : id ∈ (removedRecords envelope).map recordSourceId) : isSafeId id = true := by
  have hvalid := h.valid
  simp only [isRemovedSourcesEnvelope, Bool.and_eq_true] at hvalid
  obtain ⟨record, hrecord, rfl⟩ := List.mem_map.mp hid
  rw [removedRecords] at hrecord
  rcases hget : mapGet envelope (js "removedSources") with _ | (_ | _ | _ | _ | items | _)
  case some.arr =>
    rw [hget] at hrecord hvalid
    have hcheck := List.all_eq_true.mp hvalid.2 record hrecord
    cases record with
    | obj members =>
        simp only [isRemovedSourceRecord, Bool.and_eq_true, isTextWith_iff] at hcheck
        obtain ⟨⟨⟨s, hs, hsafe⟩, -⟩, -⟩ := hcheck
        simpa only [recordSourceId, textField, hs, textOf_str, Option.getD_some] using hsafe
    | _ => cases hcheck
  all_goals
    rw [hget] at hrecord
    cases hrecord

theorem removalUpdate_eq_none_iff :
    removalUpdate localeCompare envelope input = none ↔
      input.sourceId ∈ (removedRecords envelope).map recordSourceId := by
  rw [removalUpdate]
  split
  · next h =>
      simp only [true_iff]
      simpa using h
  · next h =>
      simp only [reduceCtorEq, false_iff]
      simpa using h

/-- The envelope that a removal writes passes the check exactly when the id is safe. -/
theorem RemovedEnvelope.update (h : RemovedEnvelope envelope)
    (hupdate : removalUpdate localeCompare envelope input = some envelope') :
    (Json.obj envelope').Ordered ∧
      isRemovedSourcesEnvelope envelope' = isSafeId input.sourceId ∧
      ((removedRecords envelope').map recordSourceId).Perm
        ((removedRecords envelope).map recordSourceId ++ [input.sourceId]) := by
  have hvalid := h.valid
  simp only [isRemovedSourcesEnvelope, Bool.and_eq_true] at hvalid
  obtain ⟨⟨hversion, hjobId⟩, hrecords⟩ := hvalid
  obtain ⟨jobId, hjobId, -⟩ := isTextWith_iff.mp hjobId
  obtain ⟨items, hitems⟩ : ∃ items, mapGet envelope (js "removedSources") = some (.arr items) := by
    rcases hget : mapGet envelope (js "removedSources") with _ | (_ | _ | _ | _ | items | _)
    case some.arr => exact ⟨items, rfl⟩
    all_goals
      rw [hget] at hrecords
      cases hrecords
  rw [hitems] at hrecords
  have hremoved : removedRecords envelope = items := by rw [removedRecords, hitems, itemsOf]
  have hperm : (sortedRecords localeCompare (items ++ [input.record])).Perm
      (items ++ [input.record]) := sortBy_perm _ _
  rw [removalUpdate, hremoved] at hupdate
  split at hupdate
  · cases hupdate
  obtain rfl := Option.some.inj hupdate
  refine ⟨?_, ?_, ?_⟩
  · apply ordered_mapSet
    · apply ordered_mapSet h.ordered
      · rw [hjobId]
        rfl
      · exact Json.ordered_str _
    · rw [mapGet_mapSet, if_neg (by decide), hitems]
      rfl
    · rw [Json.ordered_arr]
      intro record hrecord
      rcases List.mem_append.mp (hperm.mem_iff.mp hrecord) with hrecord | hrecord
      · exact ordered_items h.ordered record (by rwa [hitems])
      · obtain rfl := List.mem_singleton.mp hrecord
        exact ordered_record input
  · have hall : (sortedRecords localeCompare (items ++ [input.record])).all isRemovedSourceRecord =
        isSafeId input.sourceId := by
      rw [hperm.all_eq, List.all_append, show items.all isRemovedSourceRecord = true from hrecords]
      simp [isRemovedSourceRecord_record]
    rw [isRemovedSourcesEnvelope, mapGet_mapSet, mapGet_mapSet, if_neg (by decide),
      if_neg (by decide), mapGet_mapSet, if_neg (by decide), mapGet_mapSet_self,
      mapGet_mapSet_self, isArrayOf, hall, hversion]
    simp [isText, isTextWith]
  · rw [removedRecords, mapGet_mapSet_self, itemsOf, hremoved, ← recordSourceId_record input]
    have hmap := hperm.map recordSourceId
    rwa [List.map_append] at hmap

theorem mem_readRemovedSourceIds {file : Option JsString} {id : JsString} :
    id ∈ readRemovedSourceIds file ↔
      id ∈ (removedRecords (readRemovedSourcesEnvelope file)).map recordSourceId := mem_setOf

/-- What is read back after a removal was written. -/
theorem mem_readRemovedSourceIds_written (h : RemovedEnvelope envelope)
    (hupdate : removalUpdate localeCompare envelope input = some envelope') {id : JsString} :
    id ∈ readRemovedSourceIds (some (canonicalJson (.obj envelope'))) ↔
      isSafeId input.sourceId = true ∧
        (id ∈ (removedRecords envelope).map recordSourceId ∨ id = input.sourceId) := by
  obtain ⟨hordered, hvalid, hperm⟩ := h.update hupdate
  rw [mem_readRemovedSourceIds, readRemovedSourcesEnvelope, readObject_canonicalJson hordered,
    isRemovedSourcesEnvelope_stored hordered, hvalid]
  cases hsafe : isSafeId input.sourceId with
  | true =>
      rw [if_pos rfl, Option.getD_some, recordSourceId_storedMembers hordered, hperm.mem_iff]
      simp
  | false => simp [removedRecords_noRemovedSources]

/-- A removal under an unsafe id makes the file unreadable, and with it every earlier one. -/
theorem mem_readRemovedSourceIds_mark (dir : RunDir) (input : RemovalInput) {id : JsString} :
    id ∈ readRemovedSourceIds (markInspectorSourceRemoved localeCompare dir input).removedSources ↔
      isSafeId input.sourceId = true ∧
        (id ∈ readRemovedSourceIds dir.removedSources ∨ id = input.sourceId) := by
  have henvelope := removedEnvelope_read dir.removedSources
  rw [markInspectorSourceRemoved]
  cases hupdate : removalUpdate localeCompare (readRemovedSourcesEnvelope dir.removedSources)
    input with
  | some envelope' =>
      rw [mem_readRemovedSourceIds_written henvelope hupdate, ← mem_readRemovedSourceIds]
  | none =>
      have hmem := removalUpdate_eq_none_iff.mp hupdate
      have hsafe : isSafeId input.sourceId = true := henvelope.isSafeId_of_mem hmem
      rw [← mem_readRemovedSourceIds] at hmem
      constructor
      · exact fun hid ↦ ⟨hsafe, Or.inl hid⟩
      · rintro ⟨-, hid | rfl⟩
        · exact hid
        · exact hmem

/-- The ids marked after the last one that is not safe. -/
def readableMarks (marks : List RemovalInput) : List JsString :=
  ((marks.map (·.sourceId)).reverse).takeWhile isSafeId

theorem mem_readRemovedSourceIds_marks {dir : RunDir} (hfresh : dir.removedSources = none)
    (marks : List RemovalInput) {id : JsString} :
    id ∈ readRemovedSourceIds
        (marks.foldl (markInspectorSourceRemoved localeCompare) dir).removedSources ↔
      id ∈ readableMarks marks := by
  induction marks using List.reverseRecOn generalizing id with
  | nil =>
      rw [List.foldl_nil, hfresh, mem_readRemovedSourceIds]
      exact iff_of_false (by simp [removedRecords_noRemovedSources, readRemovedSourcesEnvelope,
        readObject]) List.not_mem_nil
  | append_singleton marks input ih =>
      rw [List.foldl_append, List.foldl_cons, List.foldl_nil, mem_readRemovedSourceIds_mark, ih,
        readableMarks, readableMarks, List.map_append, List.reverse_append]
      simp only [List.map_cons, List.map_nil, List.reverse_cons, List.reverse_nil, List.nil_append,
        List.singleton_append, List.takeWhile_cons]
      cases hsafe : isSafeId input.sourceId with
      | true => simp [or_comm]
      | false => simp

theorem marks_businessIntent (dir : RunDir) (marks : List RemovalInput) :
    (marks.foldl (markInspectorSourceRemoved localeCompare) dir).businessIntent =
      dir.businessIntent := by
  induction marks generalizing dir with
  | nil => rfl
  | cons input marks ih =>
      rw [List.foldl_cons, ih, markInspectorSourceRemoved]
      split <;> rfl

end

/-! ## The envelope that is returned -/

section

variable {sha256 : Bytes → JsString}

theorem mapM_sourceOfStored {raws : List Json} {refs : List TestIntentSourceRef}
    (h : List.Forall₂ (fun raw ref ↦ ∃ members, raw = Json.obj members ∧
      acceptedSourceRef members = some ref) raws refs) :
    raws.mapM sourceOfStored = some refs := by
  induction h with
  | nil => rfl
  | @cons raw ref raws refs hraw _ ih =>
      obtain ⟨members, rfl, haccepted⟩ := hraw
      rw [List.mapM_cons, sourceOfStored, haccepted, ih]
      rfl

/-- A stored candidate that the validator accepts is read as what it accepts. -/
theorem storedSourceEnvelope_of_validate {intent : List (JsString × Json)} {candidate : Json}
    {envelope : MultiSourceTestIntentEnvelope}
    (hstored : mapGet intent (js "sourceEnvelope") = some candidate)
    (h : validateMultiSourceTestIntentEnvelope sha256 candidate = .ok envelope) :
    storedSourceEnvelope intent = some envelope := by
  obtain ⟨members, rfl, haccepted⟩ := validate_eq_ok_iff.mp h
  obtain ⟨raws, entries, hraws, hcollect, hentries⟩ := haccepted.sources
  have hforall := (collectSources_eq_nil (congrArg Prod.fst hcollect)).1
  rw [hcollect, hentries] at hforall
  have hplan : objectOf (mapGet members (js "sourceMixPlan")) = envelope.sourceMixPlan := by
    rw [haccepted.plan]
    cases envelope.sourceMixPlan <;> rfl
  have hobject : objectOf (some (.obj members)) = some members := rfl
  simp only [storedSourceEnvelope, hstored, hobject, hraws, itemsOf, mapM_sourceOfStored hforall,
    haccepted.hash, textOf_str, policyOf_eq_some.mpr haccepted.policy, haccepted.order,
    priorityKinds_map, hplan, Option.pure_def, Option.bind_eq_bind, Option.bind_some]

theorem SourcesRules.filter {sources : List TestIntentSourceRef} (h : SourcesRules sources)
    {keep : TestIntentSourceRef → Bool}
    (hprimary : ∃ ref ∈ sources.filter keep, ref.kind.isPrimary = true) :
    SourcesRules (sources.filter keep) where
  primary := hprimary
  each := fun ref href ↦ h.each ref (List.mem_of_mem_filter href)
  sourceIds := h.sourceIds.sublist (List.filter_sublist.map _)
  issueKeys := h.issueKeys.sublist (List.filter_sublist.filterMap _)

/-- The sources of a stored envelope that are not marked. -/
def remaining (stored : MultiSourceTestIntentEnvelope) (marks : List RemovalInput) :
    List TestIntentSourceRef :=
  stored.sources.filter (·.sourceId ∉ marks.map (·.sourceId))

/-- Every source of a kind that the priority order lists has a remaining source of its
kind, and no marked source is marked only before or under an id that is not safe. -/
structure RemovalsRespected (stored : MultiSourceTestIntentEnvelope) (marks : List RemovalInput) :
    Prop where
  kinds : stored.conflictResolutionPolicy = .priority →
    ∀ ref ∈ stored.sources, ∃ ref' ∈ remaining stored marks, ref'.kind = ref.kind
  readable : ∀ ref ∈ stored.sources, ref.sourceId ∈ marks.map (·.sourceId) →
    ref.sourceId ∈ readableMarks marks

variable {localeCompare : JsString → JsString → ℤ}

theorem mem_of_mem_readableMarks {marks : List RemovalInput} {id : JsString}
    (h : id ∈ readableMarks marks) : id ∈ marks.map (·.sourceId) :=
  List.mem_reverse.mp ((List.takeWhile_sublist _).subset h)

/-- The sources that the reader keeps, against those that are not marked. -/
theorem filter_readable_eq_remaining_iff {stored : MultiSourceTestIntentEnvelope}
    {marks : List RemovalInput} :
    stored.sources.filter (·.sourceId ∉ readableMarks marks) = remaining stored marks ↔
      ∀ ref ∈ stored.sources, ref.sourceId ∈ marks.map (·.sourceId) →
        ref.sourceId ∈ readableMarks marks := by
  constructor
  · intro h ref href hmarked
    by_contra hread
    have hmem : ref ∈ stored.sources.filter (·.sourceId ∉ readableMarks marks) :=
      List.mem_filter.mpr ⟨href, by simpa using hread⟩
    rw [h, remaining, List.mem_filter] at hmem
    simp only [decide_eq_true_eq] at hmem
    exact hmem.2 hmarked
  · intro h
    apply List.filter_congr
    intro ref href
    rw [decide_eq_decide, not_iff_not]
    exact ⟨mem_of_mem_readableMarks, h ref href⟩

/-- What the reader returns after the removals, while a primary source remains. -/
theorem readInspectorSourceEnvelope_marks {dir : RunDir} {intent : List (JsString × Json)}
    {candidate : Json} {stored : MultiSourceTestIntentEnvelope}
    (hintent : readBusinessIntent dir.businessIntent = some intent)
    (hcandidate : mapGet intent (js "sourceEnvelope") = some candidate)
    (hvalid : validateMultiSourceTestIntentEnvelope sha256 candidate = .ok stored)
    (hfresh : dir.removedSources = none) {marks : List RemovalInput}
    (hprimary : ∃ ref ∈ remaining stored marks, ref.kind.isPrimary = true) :
    readInspectorSourceEnvelope sha256
        (marks.foldl (markInspectorSourceRemoved localeCompare) dir) =
      some (buildMultiSourceTestIntentEnvelope sha256
        { sources := stored.sources.filter (·.sourceId ∉ readableMarks marks)
          conflictResolutionPolicy := stored.conflictResolutionPolicy
          priorityOrder := stored.priorityOrder
          sourceMixPlan := stored.sourceMixPlan }) := by
  have hkept : stored.sources.filter (fun ref ↦ ref.sourceId ∉ readRemovedSourceIds
      (marks.foldl (markInspectorSourceRemoved localeCompare) dir).removedSources) =
        stored.sources.filter (·.sourceId ∉ readableMarks marks) := by
    apply List.filter_congr
    intro ref _
    rw [decide_eq_decide, mem_readRemovedSourceIds_marks hfresh]
  obtain ⟨ref, href, hkind⟩ := hprimary
  rw [remaining, List.mem_filter] at href
  have hmem : ref ∈ stored.sources.filter (·.sourceId ∉ readableMarks marks) := by
    refine List.mem_filter.mpr ⟨href.1, ?_⟩
    simp only [decide_eq_true_eq] at href ⊢
    exact fun hread ↦ href.2 (mem_of_mem_readableMarks hread)
  have hne : stored.sources.filter (·.sourceId ∉ readableMarks marks) ≠ [] :=
    List.ne_nil_of_mem hmem
  have hany : (stored.sources.filter (·.sourceId ∉ readableMarks marks)).any (·.kind.isPrimary) =
      true := List.any_eq_true.mpr ⟨ref, hmem, hkind⟩
  simp only [readInspectorSourceEnvelope, marks_businessIntent, hintent,
    storedSourceEnvelope_of_validate hcandidate hvalid, hkept, Option.bind_eq_bind,
    Option.bind_some]
  rw [if_neg (by rw [not_or, not_not]; exact ⟨hne, hany⟩)]

/-- Restricting the sources keeps the order only while no kind of the order disappears. -/
theorem coversKinds_remaining_iff {order : List TestIntentSourceKind}
    {stored : MultiSourceTestIntentEnvelope} {marks : List RemovalInput}
    (h : CoversKinds order stored.sources) :
    CoversKinds order (remaining stored marks) ↔
      ∀ ref ∈ stored.sources, ∃ ref' ∈ remaining stored marks, ref'.kind = ref.kind := by
  constructor
  · intro hcovers ref href
    exact (hcovers.2 ref.kind).mp ((h.2 ref.kind).mpr ⟨ref, href, rfl⟩)
  · intro hkinds
    refine ⟨h.1, fun kind ↦ ⟨fun hkind ↦ ?_, ?_⟩⟩
    · obtain ⟨ref, href, rfl⟩ := (h.2 kind).mp hkind
      exact hkinds ref href
    · rintro ⟨ref, href, rfl⟩
      exact (h.2 ref.kind).mpr ⟨ref, List.mem_of_mem_filter href, rfl⟩

theorem conforms_remaining_iff {stored : MultiSourceTestIntentEnvelope}
    (h : stored.Rules sha256) {marks : List RemovalInput}
    (hprimary : ∃ ref ∈ remaining stored marks, ref.kind.isPrimary = true) :
    EnvelopeInput.Conforms ⟨remaining stored marks, stored.conflictResolutionPolicy,
        stored.priorityOrder, stored.sourceMixPlan⟩ ↔
      (stored.conflictResolutionPolicy = .priority →
        ∀ ref ∈ stored.sources, ∃ ref' ∈ remaining stored marks, ref'.kind = ref.kind) := by
  have horder := h.order
  rw [OrderRules] at horder
  constructor
  · intro hconforms hpolicy
    obtain ⟨order, hsome, hcovers⟩ := hconforms.order hpolicy
    rw [if_pos hpolicy] at horder
    obtain ⟨order', hsome', hcovers'⟩ := horder
    obtain rfl : order = order' := Option.some.inj (hsome ▸ hsome')
    exact (coversKinds_remaining_iff hcovers').mp hcovers
  · intro hkinds
    refine ⟨h.sources.filter hprimary, fun hpolicy ↦ ?_, h.plan⟩
    rw [if_pos hpolicy] at horder
    obtain ⟨order, hsome, hcovers⟩ := horder
    exact ⟨order, hsome, (coversKinds_remaining_iff hcovers).mpr (hkinds hpolicy)⟩

/-- After any removals that leave a primary source, the reader returns an accepted
envelope of exactly the sources that are not marked if and only if the removals take no
kind of the priority order away and stay readable. -/
theorem readInspectorSourceEnvelope_valid_iff {dir : RunDir} {intent : List (JsString × Json)}
    {candidate : Json} {stored : MultiSourceTestIntentEnvelope}
    (hintent : readBusinessIntent dir.businessIntent = some intent)
    (hcandidate : mapGet intent (js "sourceEnvelope") = some candidate)
    (hvalid : validateMultiSourceTestIntentEnvelope sha256 candidate = .ok stored)
    (hfresh : dir.removedSources = none) (marks : List RemovalInput)
    (hprimary : ∃ ref ∈ remaining stored marks, ref.kind.isPrimary = true) :
    (∃ envelope accepted, readInspectorSourceEnvelope sha256
          (marks.foldl (markInspectorSourceRemoved localeCompare) dir) = some envelope ∧
        validateMultiSourceTestIntentEnvelope sha256 envelope.toJson = .ok accepted ∧
        envelope.sources = remaining stored marks) ↔
      RemovalsRespected stored marks := by
  have hrules := rules_of_validate hvalid
  rw [readInspectorSourceEnvelope_marks hintent hcandidate hvalid hfresh hprimary]
  constructor
  · rintro ⟨envelope, accepted, henvelope, haccepted, hsources⟩
    obtain rfl := Option.some.inj henvelope
    have hkept : stored.sources.filter (·.sourceId ∉ readableMarks marks) =
        remaining stored marks := (build_sources _).symm.trans hsources
    have hbuilt := eq_of_validate_toJson haccepted ▸ rules_of_validate haccepted
    rw [rules_build_iff, hkept, conforms_remaining_iff hrules hprimary] at hbuilt
    exact ⟨hbuilt, filter_readable_eq_remaining_iff.mp hkept⟩
  · intro h
    rw [filter_readable_eq_remaining_iff.mpr h.readable]
    refine ⟨_, _, rfl, validate_toJson_iff.mpr ?_, build_sources _⟩
    rw [rules_build_iff, conforms_remaining_iff hrules hprimary]
    exact h.kinds

end

/-! ## A stored envelope -/

theorem toJson_sourceRef (ref : TestIntentSourceRef) :
    ref.toJson.Ordered ∧ ref.toJson.PlainNumbers := by
  have henum : Enumerated ref.fields := by
    let names := ["sourceId", "kind", "contentHash", "capturedAt", "authorHandle", "inputFormat",
      "noteEntryId", "markdownSectionPath", "canonicalIssueKey", "redactedMarkdownHash",
      "plainTextDerivativeHash"]
    change (names.map js).Nodup ∧ (names.map js).Pairwise fun k k' ↦ keyBefore k k' = true
    decide
  have hplain : ∀ s, (Json.str s).PlainNumbers := fun _ ↦ trivial
  constructor
  · apply ordered_presentMembers henum
    simp [TestIntentSourceRef.fields]
  · apply plainNumbers_presentMembers
    simp [TestIntentSourceRef.fields, hplain]

theorem toJson_envelope {envelope : MultiSourceTestIntentEnvelope}
    (hplan : envelope.sourceMixPlan = none) :
    envelope.toJson.Ordered ∧ envelope.toJson.PlainNumbers := by
  have henum : Enumerated envelope.fields := by
    let names := ["version", "sources", "aggregateContentHash", "conflictResolutionPolicy",
      "priorityOrder", "sourceMixPlan"]
    change (names.map js).Nodup ∧ (names.map js).Pairwise fun k k' ↦ keyBefore k k' = true
    decide
  have hplain : ∀ s, (Json.str s).PlainNumbers := fun _ ↦ trivial
  constructor
  · apply ordered_presentMembers henum
    simp [MultiSourceTestIntentEnvelope.fields, hplan, kindTexts,
      fun ref ↦ (toJson_sourceRef ref).1]
  · apply plainNumbers_presentMembers
    simp [MultiSourceTestIntentEnvelope.fields, hplan, kindTexts, hplain,
      fun ref ↦ (toJson_sourceRef ref).2]

/-- A run directory whose business intent holds the envelope. -/
def intentDir (envelope : MultiSourceTestIntentEnvelope) : RunDir where
  businessIntent := some (Json.stringify (.obj [(js "sourceEnvelope", envelope.toJson)]))
  conflictReport := none
  decisions := none
  removedSources := none

theorem readBusinessIntent_intentDir {envelope : MultiSourceTestIntentEnvelope}
    (hplan : envelope.sourceMixPlan = none) :
    readBusinessIntent (intentDir envelope).businessIntent =
      some [(js "sourceEnvelope", envelope.toJson)] := by
  obtain ⟨hordered, hplain⟩ := toJson_envelope hplan
  rw [readBusinessIntent, readObject, intentDir, Option.bind_some, Json.parse_stringify]
  · rfl
  · rw [Json.ordered_obj]
    exact ⟨⟨List.nodup_singleton _, List.pairwise_singleton _ _⟩, by simpa using hordered⟩
  · rw [Json.plainNumbers_obj]
    simpa using hplain

def removeJira : RemovalInput where
  jobId := js "job-1"
  sourceId := js "src.1"
  removedBy := some (js "alice")
  removedAt := js "2026-04-27T12:00:00.000Z"

def keepBothInput : EnvelopeInput :=
  { priorityInput [figmaSource, jiraSource] with
    conflictResolutionPolicy := .keepBoth, priorityOrder := none }

theorem conforms_keepBothInput : keepBothInput.Conforms where
  sources := (conforms_priorityInput (List.Perm.refl _)).sources
  order := fun h ↦ by cases h
  plan := by rintro - ⟨⟩

theorem remaining_removeJira {stored : MultiSourceTestIntentEnvelope}
    (h : stored.sources = [figmaSource, jiraSource]) :
    remaining stored [removeJira] = [figmaSource] := by
  rw [remaining, h]
  have hfigma : figmaSource.sourceId ∉ [removeJira].map (·.sourceId) := by decide
  have hjira : ¬ jiraSource.sourceId ∉ [removeJira].map (·.sourceId) := by decide
  simp only [List.filter_cons, hfigma, hjira, decide_false, List.filter_nil]
  rfl

theorem readInspectorSourceEnvelope_valid_keepBoth :
    let sha256 := tabledSha256 envelopeDigests
    let stored := buildMultiSourceTestIntentEnvelope sha256 keepBothInput
    ∃ envelope accepted, readInspectorSourceEnvelope sha256
        ([removeJira].foldl (markInspectorSourceRemoved codeUnitCompare) (intentDir stored)) =
          some envelope ∧
      validateMultiSourceTestIntentEnvelope sha256 envelope.toJson = .ok accepted ∧
      envelope.sources = remaining stored [removeJira] := by
  intro sha256 stored
  have hvalid : validateMultiSourceTestIntentEnvelope sha256 stored.toJson = .ok stored :=
    validate_toJson_iff.mpr (rules_build_iff.mpr conforms_keepBothInput)
  have hremaining := remaining_removeJira (@build_sources sha256 keepBothInput)
  refine (readInspectorSourceEnvelope_valid_iff (readBusinessIntent_intentDir rfl)
    (by rw [mapGet_cons, if_pos rfl]) hvalid rfl [removeJira] ?_).mpr ⟨?_, ?_⟩
  · rw [hremaining]
    exact ⟨figmaSource, List.mem_cons_self, rfl⟩
  · intro hpolicy
    cases hpolicy
  · intro ref _ hmarked
    exact hmarked

/-- Without the Jira source, the priority order still lists its kind. -/
theorem readInspectorSourceEnvelope_refused :
    ¬ ∀ (sha256 : Bytes → JsString) (localeCompare : JsString → JsString → ℤ) (dir : RunDir)
        (intent : List (JsString × Json)) (candidate : Json)
        (stored : MultiSourceTestIntentEnvelope) (marks : List RemovalInput),
      readBusinessIntent dir.businessIntent = some intent →
      mapGet intent (js "sourceEnvelope") = some candidate →
      validateMultiSourceTestIntentEnvelope sha256 candidate = .ok stored →
      dir.removedSources = none →
      (∃ ref ∈ remaining stored marks, ref.kind.isPrimary = true) →
      ∃ envelope accepted, readInspectorSourceEnvelope sha256
          (marks.foldl (markInspectorSourceRemoved localeCompare) dir) = some envelope ∧
        validateMultiSourceTestIntentEnvelope sha256 envelope.toJson = .ok accepted ∧
        envelope.sources = remaining stored marks := by
  intro h
  let sha256 := tabledSha256 envelopeDigests
  let input := priorityInput [figmaSource, jiraSource]
  let stored := buildMultiSourceTestIntentEnvelope sha256 input
  have hrules : stored.Rules sha256 :=
    rules_build_iff.mpr (conforms_priorityInput (List.Perm.refl _))
  have hsources : stored.sources = [figmaSource, jiraSource] := build_sources input
  have hremaining := remaining_removeJira hsources
  have hprimary : ∃ ref ∈ remaining stored [removeJira], ref.kind.isPrimary = true := by
    rw [hremaining]
    exact ⟨figmaSource, List.mem_cons_self, rfl⟩
  have hintent := @readBusinessIntent_intentDir stored rfl
  have hcandidate : mapGet [(js "sourceEnvelope", stored.toJson)] (js "sourceEnvelope") =
      some stored.toJson := by rw [mapGet_cons, if_pos rfl]
  have hvalid := validate_toJson_iff.mpr hrules
  have hread := h sha256 codeUnitCompare (intentDir stored) _ _ stored [removeJira] hintent
    hcandidate hvalid rfl hprimary
  have hrespected := (readInspectorSourceEnvelope_valid_iff hintent hcandidate hvalid rfl
    [removeJira] hprimary).mp hread
  obtain ⟨ref, href, hkind⟩ := hrespected.kinds rfl jiraSource (by rw [hsources]; simp)
  rw [hremaining, List.mem_singleton] at href
  subst href
  cases hkind

end TestIntelligence.MultiSource
