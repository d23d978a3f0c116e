import TestIntelligence.MultiSource.InspectorSources

/-!
# The file of conflict decisions

What is read back after a decision was written on top of the ones before it.
-/

namespace TestIntelligence.MultiSource

open Js Security

/-! ## Numbers read back from a file -/

def numberOf : Option Json → JsNumber
  | some (.num x) => x
  | _ => .nan

def sequenceOf : Json → JsNumber
  | .obj event => numberOf (mapGet event (js "sequence"))
  | _ => .nan

theorem stored_num {x : JsNumber} (hx : x.isFinite = true) : stored (.num x) = .num x.unsigned :=
  sortValue_printed_num hx

theorem nextSequence_eq (envelope : List (JsString × Json)) :
    nextSequence envelope = numberOf (mapGet envelope (js "nextSequence")) := by
  rw [nextSequence]
  rcases mapGet envelope (js "nextSequence") with _ | (_ | _ | _ | _ | _ | _) <;> rfl

theorem isNumber_iff {value : Option Json} : isNumber value = true ↔ ∃ x, value = some (.num x) := by
  rcases value with _ | (_ | _ | _ | _ | _ | _) <;> simp [isNumber, isNumberWith]

theorem isFinite_of_eqNat {x : JsNumber} {n : ℕ} (h : x.eqNat n = true) : x.isFinite = true :=
  (JsNumber.eqNat_iff.mp h).1

theorem map_stored_of_numberOf {value : Option Json} {n : ℕ} (h : (numberOf value).eqNat n = true) :
    isNumber (value.map stored) = true ∧ (numberOf (value.map stored)).eqNat n = true := by
  rcases value with _ | (_ | _ | x | _ | _ | _)
  case some.num =>
    have hx : x.eqNat n = true := h
    rw [Option.map_some, stored_num (isFinite_of_eqNat hx)]
    refine ⟨rfl, ?_⟩
    rw [numberOf, JsNumber.eqNat_unsigned]
    exact hx
  all_goals cases isFinite_of_eqNat h

/-! ## Events -/

def DecisionInput.fields (sha256 : Bytes → JsString) (input : DecisionInput)
    (sequence : JsNumber) : List (JsString × Option Json) :=
  [(js "id", some (.str (input.eventId sha256 sequence))),
    (js "sequence", some (.num sequence)),
    (js "jobId", some (.str input.jobId)),
    (js "conflictId", some (.str input.conflictId)),
    (js "action", some (.str input.action.text)),
    (js "at", some (.str input.at')),
    (js "actor", some (.str input.actor)),
    (js "selectedSourceId", input.selectedSourceId.map .str),
    (js "selectedNormalizedValue", input.selectedNormalizedValue.map .str),
    (js "note", input.note.map .str)]

variable {sha256 : Bytes → JsString}

theorem enumerated_eventFields (input : DecisionInput) (sequence : JsNumber) :
    Enumerated (input.fields sha256 sequence) := by
  let names := ["id", "sequence", "jobId", "conflictId", "action", "at", "actor",
    "selectedSourceId", "selectedNormalizedValue", "note"]
  change (names.map js).Nodup ∧ (names.map js).Pairwise fun k k' ↦ keyBefore k k' = true
  decide

theorem ordered_event (input : DecisionInput) (sequence : JsNumber) :
    (input.event sha256 sequence).Ordered := by
  apply ordered_presentMembers (enumerated_eventFields input sequence)
  simp [DecisionInput.fields]

theorem mapGet_event (input : DecisionInput) (sequence : JsNumber) :
    ∀ field ∈ input.fields sha256 sequence,
      mapGet (presentMembers (input.fields sha256 sequence)) field.1 = field.2 := by
  intro field hfield
  have hkeys := (@enumerated_eventFields sha256 input sequence).1
  rw [mapGet_presentMembers hkeys, mapGet_eq_some_of_mem hkeys hfield, Option.join_some]

theorem sequenceOf_event (input : DecisionInput) (sequence : JsNumber) :
    sequenceOf (input.event sha256 sequence) = sequence := by
  have hget := @mapGet_event sha256 input sequence (js "sequence", some (.num sequence))
    (by simp [DecisionInput.fields])
  change numberOf (mapGet (presentMembers (input.fields sha256 sequence)) (js "sequence")) = _
  rw [hget]
  rfl

theorem isConflictDecisionEvent_event (input : DecisionInput) (sequence : JsNumber) :
    isConflictDecisionEvent (input.event sha256 sequence) = true := by
  have hget := @mapGet_event sha256 input sequence
  change isConflictDecisionEvent (.obj (presentMembers (input.fields sha256 sequence))) = _
  generalize presentMembers (input.fields sha256 sequence) = members at hget ⊢
  simp only [DecisionInput.fields, List.forall_mem_cons] at hget
  obtain ⟨hid, hsequence, hjobId, hconflictId, haction, hat, hactor, -⟩ := hget
  have htext : isTextWith (fun s ↦ s == js "approve" || s == js "reject")
      (some (.str input.action.text)) = true := by
    cases input.action <;> decide
  rw [isConflictDecisionEvent, hid, hsequence, hjobId, hconflictId, haction, hat, hactor, htext]
  rfl

/-- An event with a sequence number reads back with it. -/
theorem stored_event {event : Json} (hordered : event.Ordered) {n : ℕ}
    (hsequence : (sequenceOf event).eqNat n = true) (h : isConflictDecisionEvent event = true) :
    isConflictDecisionEvent (stored event) = true ∧
      (sequenceOf (stored event)).eqNat n = true := by
  cases event with
  | obj members =>
      obtain ⟨hnumber, hsame⟩ := map_stored_of_numberOf hsequence
      simp only [isConflictDecisionEvent, Bool.and_eq_true] at h
      obtain ⟨⟨⟨⟨⟨⟨hid, -⟩, hjobId⟩, hconflictId⟩, haction⟩, hat⟩, hactor⟩ := h
      rw [stored_obj, sequenceOf, isConflictDecisionEvent,
        mapGet_stored_text hordered (show js "id" ≠ protoKey by decide),
        mapGet_stored_text hordered (show js "sequence" ≠ protoKey by decide),
        mapGet_stored_text hordered (show js "jobId" ≠ protoKey by decide),
        mapGet_stored_text hordered (show js "conflictId" ≠ protoKey by decide),
        mapGet_stored_text hordered (show js "action" ≠ protoKey by decide),
        mapGet_stored_text hordered (show js "at" ≠ protoKey by decide),
        mapGet_stored_text hordered (show js "actor" ≠ protoKey by decide)]
      simp only [isText, isTextWith_map_stored] at hid hjobId hconflictId hat hactor ⊢
      simp only [hid, hjobId, hconflictId, haction, hat, hactor, hnumber, Bool.and_self]
      exact ⟨trivial, hsame⟩
  | _ => cases h

/-! ## One decision on top of the others -/

/-- The envelope of a job holds `n` decisions, numbered from one. -/
structure Decided (jobId : JsString) (envelope : List (JsString × Json)) (n : ℕ) : Prop where
  ordered : (Json.obj envelope).Ordered
  valid : isDecisionEnvelopeOf jobId envelope = true
  next : (nextSequence envelope).eqNat (min (n + 1) (2 ^ 53)) = true
  count : (decisionEvents envelope).length = n
  sequences : ∀ k event, (decisionEvents envelope)[k]? = some event →
    (sequenceOf event).eqNat (k + 1) = true

theorem decided_noDecisions (jobId : JsString) : Decided jobId (noDecisions jobId) 0 := by
  have hget : ∀ field ∈ noDecisions jobId, mapGet (noDecisions jobId) field.1 = some field.2 := by
    intro field hfield
    apply mapGet_eq_some_of_mem
    · change (List.map js ["version", "jobId", "nextSequence", "events"]).Nodup
      decide
    · exact hfield
  have henum : Enumerated (noDecisions jobId) := by
    let names := ["version", "jobId", "nextSequence", "events"]
    change (names.map js).Nodup ∧ (names.map js).Pairwise fun k k' ↦ keyBefore k k' = true
    decide
  have hordered : (Json.obj (noDecisions jobId)).Ordered :=
    Json.ordered_obj.mpr ⟨henum, by simp [noDecisions]⟩
  have hversion := hget (js "version", .str inspectorFileVersion) (by simp [noDecisions])
  have hjobId := hget (js "jobId", .str jobId) (by simp [noDecisions])
  have hnext := hget (js "nextSequence", .num 1) (by simp [noDecisions])
  have hevents := hget (js "events", .arr []) (by simp [noDecisions])
  have hnone : decisionEvents (noDecisions jobId) = [] := by rw [decisionEvents, hevents, itemsOf]
  refine ⟨hordered, ?_, ?_, ?_, ?_⟩
  · rw [isDecisionEnvelopeOf, isConflictDecisionEnvelope, hversion, hjobId, hnext, hevents]
    simp [isText, isTextWith, isNumber, isNumberWith, isArrayOf]
  · rw [nextSequence_eq, hnext]
    decide +kernel
  · rw [hnone, List.length_nil]
  · simp [hnone]

section

variable {jobId : JsString} {envelope : List (JsString × Json)} {n : ℕ} {input : DecisionInput}

theorem mapGet_decisionUpdate (key : JsString) :
    mapGet (decisionUpdate sha256 envelope input) key =
      if key = js "events" then
        some (.arr (decisionEvents envelope ++ [input.event sha256 (nextSequence envelope)]))
      else if key = js "nextSequence" then some (.num ((nextSequence envelope).add 1))
      else mapGet envelope key := by
  rw [decisionUpdate, mapGet_mapSet, mapGet_mapSet]

theorem Decided.event_spec (h : Decided jobId envelope n) {k : ℕ} {event : Json}
    (hevent : (decisionEvents envelope)[k]? = some event) :
    event.Ordered ∧ isConflictDecisionEvent event = true := by
  have hmem := List.mem_of_getElem? hevent
  refine ⟨ordered_items h.ordered event hmem, ?_⟩
  have hvalid := h.valid
  simp only [isDecisionEnvelopeOf, isConflictDecisionEnvelope, Bool.and_eq_true] at hvalid
  obtain ⟨⟨-, hevents⟩, -⟩ := hvalid
  rw [decisionEvents] at hmem
  rcases hget : mapGet envelope (js "events") with _ | (_ | _ | _ | _ | items | _)
  case some.arr =>
    rw [hget] at hevents hmem
    exact List.all_eq_true.mp hevents event hmem
  all_goals
    rw [hget] at hmem
    cases hmem

theorem Decided.next_add_one (h : Decided jobId envelope n) (hn : n < 2 ^ 53) :
    (nextSequence envelope).eqNat (n + 1) = true ∧
      ((nextSequence envelope).add 1).eqNat (min (n + 2) (2 ^ 53)) = true := by
  have hnext := h.next
  rw [min_eq_left (by omega)] at hnext
  refine ⟨hnext, ?_⟩
  rcases Nat.lt_or_eq_of_le (show n + 1 ≤ 2 ^ 53 from hn) with hlt | heq
  · rw [min_eq_left (by omega)]
    exact JsNumber.eqNat_add_one hnext (by omega)
  · rw [min_eq_right (by omega)]
    rw [heq] at hnext
    exact JsNumber.eqNat_add_one_of_limit hnext

theorem Decided.sequences_append (h : Decided jobId envelope n) (hn : n < 2 ^ 53) {k : ℕ}
    {event : Json} (hevent : (decisionEvents envelope ++
      [input.event sha256 (nextSequence envelope)])[k]? = some event) :
    event.Ordered ∧ isConflictDecisionEvent event = true ∧
      (sequenceOf event).eqNat (k + 1) = true := by
  rw [List.getElem?_append, h.count] at hevent
  split at hevent
  · obtain ⟨hordered, hvalid⟩ := h.event_spec hevent
    exact ⟨hordered, hvalid, h.sequences k event hevent⟩
  · next hk =>
      obtain ⟨hzero, rfl⟩ := List.getElem?_eq_some_iff.mp hevent
      have hkn : k = n := by
        simp only [List.length_singleton] at hzero
        omega
      subst hkn
      simp only [Nat.sub_self, List.getElem_cons_zero]
      refine ⟨ordered_event input _, isConflictDecisionEvent_event input _, ?_⟩
      rw [sequenceOf_event]
      exact (h.next_add_one hn).1

theorem Decided.ordered_update (h : Decided jobId envelope n) :
    (Json.obj (decisionUpdate sha256 envelope input)).Ordered := by
  have hvalid := h.valid
  simp only [isDecisionEnvelopeOf, isConflictDecisionEnvelope, Bool.and_eq_true] at hvalid
  obtain ⟨⟨⟨-, hnumber⟩, hevents⟩, -⟩ := hvalid
  have hsome : (mapGet envelope (js "events")).isSome := by
    cases hget : mapGet envelope (js "events") with
    | none =>
        rw [hget] at hevents
        cases hevents
    | some value => rfl
  apply ordered_mapSet
  · apply ordered_mapSet h.ordered
    · obtain ⟨x, hx⟩ := isNumber_iff.mp hnumber
      rw [hx]
      rfl
    · exact Json.ordered_num _
  · rw [mapGet_mapSet, if_neg (by decide)]
    exact hsome
  · rw [Json.ordered_arr]
    intro event hevent
    rcases List.mem_append.mp hevent with hevent | hevent
    · exact ordered_items h.ordered event hevent
    · obtain rfl := List.mem_singleton.mp hevent
      exact ordered_event input _

/-- The decision is written as the next one, and the ones before it read back. -/
theorem Decided.update (h : Decided jobId envelope n) (hn : n < 2 ^ 53) :
    Decided jobId (storedMembers (decisionUpdate sha256 envelope input)) (n + 1) ∧
      decisionEvents (storedMembers (decisionUpdate sha256 envelope input)) =
        (decisionEvents envelope ++ [input.event sha256 (nextSequence envelope)]).map stored := by
  have hordered := @Decided.ordered_update sha256 jobId envelope n input h
  have hget : ∀ name, js name ≠ protoKey →
      mapGet (storedMembers (decisionUpdate sha256 envelope input)) (js name) =
        (mapGet (decisionUpdate sha256 envelope input) (js name)).map stored :=
    fun name hname ↦ mapGet_stored_text hordered hname
  have hversion := hget "version" (by decide)
  have hjobId := hget "jobId" (by decide)
  have hnext := hget "nextSequence" (by decide)
  have hevents := hget "events" (by decide)
  rw [mapGet_decisionUpdate, if_neg (by decide), if_neg (by decide)]
    at hversion hjobId
  rw [mapGet_decisionUpdate, if_neg (by decide), if_pos rfl] at hnext
  rw [mapGet_decisionUpdate, if_pos rfl] at hevents
  have hread : decisionEvents (storedMembers (decisionUpdate sha256 envelope input)) =
      (decisionEvents envelope ++ [input.event sha256 (nextSequence envelope)]).map stored := by
    rw [decisionEvents, hevents, itemsOf_map_stored, itemsOf]
  have hnumber : (numberOf (some (.num ((nextSequence envelope).add 1)))).eqNat
      (min (n + 2) (2 ^ 53)) = true := (h.next_add_one hn).2
  obtain ⟨hisNumber, hvalue⟩ := map_stored_of_numberOf hnumber
  have hvalid := h.valid
  simp only [isDecisionEnvelopeOf, isConflictDecisionEnvelope, Bool.and_eq_true] at hvalid
  obtain ⟨⟨⟨⟨hversionOk, hjobIdOk⟩, -⟩, -⟩, hjobOk⟩ := hvalid
  refine ⟨⟨?_, ?_, ?_, ?_, ?_⟩, hread⟩
  · have hstored := ordered_stored hordered
    rwa [stored_obj] at hstored
  · have hall : isArrayOf isConflictDecisionEvent
        ((some (Json.arr (decisionEvents envelope ++
          [input.event sha256 (nextSequence envelope)]))).map stored) = true := by
      rw [Option.map_some, stored_arr, isArrayOf, List.all_eq_true]
      intro event hevent
      obtain ⟨event', hevent', rfl⟩ := List.mem_map.mp hevent
      obtain ⟨k, hk⟩ := List.getElem?_of_mem hevent'
      obtain ⟨heventOrdered, heventValid, hsequence⟩ := h.sequences_append hn hk
      exact (stored_event heventOrdered hsequence heventValid).1
    simp only [isText] at hjobIdOk
    rw [isDecisionEnvelopeOf, isConflictDecisionEnvelope, hversion, hjobId, hnext, hevents,
      isText, isTextWith_map_stored, isTextWith_map_stored, isTextWith_map_stored, hversionOk,
      hjobIdOk, hisNumber, hall, hjobOk]
    rfl
  · rw [nextSequence_eq, hnext]
    exact hvalue
  · rw [hread, List.length_map, List.length_append, h.count, List.length_singleton]
  · intro k event hevent
    rw [hread, List.getElem?_map, Option.map_eq_some_iff] at hevent
    obtain ⟨event', hevent', rfl⟩ := hevent
    obtain ⟨heventOrdered, heventValid, hsequence⟩ := h.sequences_append hn hevent'
    exact (stored_event heventOrdered hsequence heventValid).2

theorem Decided.read_update (h : Decided jobId envelope n) (hn : n < 2 ^ 53) :
    readDecisionEnvelope
        (some (canonicalJson (.obj (decisionUpdate sha256 envelope input)))) jobId =
      storedMembers (decisionUpdate sha256 envelope input) := by
  have hvalid := (@Decided.update sha256 jobId envelope n input h hn).1.valid
  rw [readDecisionEnvelope, readObject_canonicalJson h.ordered_update, if_pos hvalid,
    Option.getD_some]

/-- The sequence numbers of the events are pairwise distinct. -/
theorem Decided.nodup_sequences (h : Decided jobId envelope n) :
    ((decisionEvents envelope).map sequenceOf).Nodup := by
  rw [List.nodup_iff_getElem?_ne_getElem?]
  intro i j hij hj heq
  rw [List.length_map] at hj
  rw [List.getElem?_map, List.getElem?_map, List.getElem?_eq_getElem hj,
    List.getElem?_eq_getElem (hij.trans hj)] at heq
  have hi' := h.sequences i _ (List.getElem?_eq_getElem (hij.trans hj))
  have hj' := h.sequences j _ (List.getElem?_eq_getElem hj)
  rw [Option.some.inj heq] at hi'
  have hcast : ((i + 1 : ℕ) : ℚ) = ((j + 1 : ℕ) : ℚ) :=
    (JsNumber.eqNat_iff.mp hi').2.symm.trans (JsNumber.eqNat_iff.mp hj').2
  have hnat : i + 1 = j + 1 := by exact_mod_cast hcast
  omega

end

end TestIntelligence.MultiSource
