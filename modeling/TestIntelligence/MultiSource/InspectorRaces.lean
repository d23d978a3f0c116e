import TestIntelligence.MultiSource.InspectorDecisions
import TestIntelligence.Systems.ReadModifyWrite

/-!
# Concurrent decisions and removals

The file operations of any number of `resolveInspectorConflict` and
`markInspectorSourceRemoved` calls on one job, in any order.
-/

namespace TestIntelligence.MultiSource

open Js Security Systems ReadModifyWrite

inductive InspectorFile
  | decisions
  | removedSources
  deriving DecidableEq

inductive InspectorCall
  | resolve (input : DecisionInput)
  | remove (input : RemovalInput)

def InspectorCall.file : InspectorCall → InspectorFile
  | .resolve _ => .decisions
  | .remove _ => .removedSources

section

variable {ι : Type} (sha256 : Bytes → JsString) (localeCompare : JsString → JsString → ℤ)
  (report : Option JsString) (calls : ι → InspectorCall)

/-- The new text of the file, or nothing where the source is already marked. -/
def InspectorCall.update (file : Option JsString) : InspectorCall → Option (Option JsString)
  | .resolve input =>
      let envelope := readDecisionEnvelope file input.jobId
      some (some (canonicalJson (.obj (decisionUpdate sha256 envelope input))))
  | .remove input =>
      (removalUpdate localeCompare (readRemovedSourcesEnvelope file) input).map fun envelope ↦
        some (canonicalJson (.obj envelope))

/-- Only a decision begins with a look at the conflicts. -/
def InspectorCall.check : InspectorCall → Option Bool
  | .resolve input =>
      some (match checkDecision report input with
        | .ok () => true
        | .error _ => false)
  | .remove _ => none

/-- A call writes its text to a temporary file of its own and renames that file. -/
def inspectorCalls : Calls ι InspectorFile (Option JsString) where
  cell := fun i ↦ (calls i).file
  check := fun i ↦ (calls i).check report
  update := fun i file ↦ (calls i).update sha256 localeCompare file

/-- The event that a decision returns, from the file that it read. -/
def InspectorCall.event (file : Option JsString) : InspectorCall → Option Json
  | .resolve input =>
      some (input.event sha256 (nextSequence (readDecisionEnvelope file input.jobId)))
  | .remove _ => none

/-- The event that a call has returned. -/
def returnedEvent (s : Store ι InspectorFile (Option JsString)) (i : ι) : Option Json :=
  match s.phase i with
  | .returned seen => (calls i).event sha256 seen
  | _ => none

def storedEvents (jobId : JsString) (s : Store ι InspectorFile (Option JsString)) : List Json :=
  decisionEvents (readDecisionEnvelope (s.cells .decisions) jobId)

/-- The stored events are those of the successful decisions, in the order in which they
took effect, under distinct sequence numbers, and every successful removal is stored. -/
structure NothingLost (jobId : JsString) (s : Store ι InspectorFile (Option JsString)) : Prop where
  landed : ∀ i seen, s.phase i = .returned seen → i ∈ s.landed
  decisions : (storedEvents jobId s).map canonicalJson =
    s.landed.filterMap fun i ↦ (returnedEvent sha256 calls s i).map canonicalJson
  sequences : ((storedEvents jobId s).map sequenceOf).Nodup
  removals : ∀ i input seen, calls i = .remove input → s.phase i = .returned seen →
    input.sourceId ∈ readRemovedSourceIds (s.cells .removedSources)

/-- A decision finds fewer events than numbers can count, and a removal is under a safe id. -/
def Fits (i : ι) (file : Option JsString) : Prop :=
  match calls i with
  | .resolve input => (decisionEvents (readDecisionEnvelope file input.jobId)).length < 2 ^ 53
  | .remove input => isSafeId input.sourceId = true

end

theorem canonicalJson_stored {v : Json} (hv : v.Ordered) :
    canonicalJson (stored v) = canonicalJson v :=
  canonicalJson_of_parse hv (parse_canonicalJson_stored hv)

section

variable {ι : Type} [DecidableEq ι] {sha256 : Bytes → JsString}
  {localeCompare : JsString → JsString → ℤ} {report : Option JsString} {calls : ι → InspectorCall}
  {jobId : JsString}

/-- The value of a file after the listed calls, each run to its end before the next. -/
def serialFile (sha256 : Bytes → JsString) (localeCompare : JsString → JsString → ℤ)
    (report : Option JsString) (calls : ι → InspectorCall) (file : InspectorFile)
    (order : List ι) : Option JsString :=
  serial (inspectorCalls sha256 localeCompare report calls) (fun _ ↦ none) file order

omit [DecidableEq ι] in
theorem serialFile_append (file : InspectorFile) (order : List ι) (i : ι) :
    serialFile sha256 localeCompare report calls file (order ++ [i]) =
      if (calls i).file = file then
        ((calls i).update sha256 localeCompare
          (serialFile sha256 localeCompare report calls file order)).getD
            (serialFile sha256 localeCompare report calls file order)
      else serialFile sha256 localeCompare report calls file order :=
  serial_append file order i

omit [DecidableEq ι] in
theorem getD_update_remove (file : Option JsString) (input : RemovalInput) :
    ((InspectorCall.remove input).update sha256 localeCompare file).getD file =
      (markInspectorSourceRemoved localeCompare ⟨none, none, none, file⟩ input).removedSources := by
  rw [InspectorCall.update, markInspectorSourceRemoved]
  cases removalUpdate localeCompare (readRemovedSourcesEnvelope file) input <;> rfl

omit [DecidableEq ι] in
/-- Decisions one after the other are all stored. -/
theorem decided_serialFile (hjob : ∀ i input, calls i = .resolve input → input.jobId = jobId)
    {order : List ι} {eventOf : ι → Option JsString}
    (hevents : ∀ before i after, order = before ++ i :: after →
      eventOf i = ((calls i).event sha256
        (serialFile sha256 localeCompare report calls (calls i).file before)).map canonicalJson)
    (hfits : ∀ before i after, order = before ++ i :: after →
      Fits calls i (serialFile sha256 localeCompare report calls (calls i).file before)) :
    ∃ n, Decided jobId (readDecisionEnvelope
        (serialFile sha256 localeCompare report calls .decisions order) jobId) n ∧
      (decisionEvents (readDecisionEnvelope
        (serialFile sha256 localeCompare report calls .decisions order) jobId)).map canonicalJson =
          order.filterMap eventOf := by
  induction order using List.reverseRecOn with
  | nil =>
      refine ⟨0, decided_noDecisions jobId, ?_⟩
      have hcount := (decided_noDecisions jobId).count
      rw [List.length_eq_zero_iff] at hcount
      change (decisionEvents (noDecisions jobId)).map canonicalJson = _
      rw [hcount]
      rfl
  | append_singleton order i ih =>
      obtain ⟨n, hdecided, hstored⟩ := ih
        (fun before j after h ↦ hevents before j (after ++ [i]) (by rw [h]; simp))
        (fun before j after h ↦ hfits before j (after ++ [i]) (by rw [h]; simp))
      have hevent := hevents order i [] rfl
      have hfit := hfits order i [] rfl
      rw [serialFile_append, List.filterMap_append, List.filterMap_cons, List.filterMap_nil, hevent]
      cases hcall : calls i with
      | remove input =>
          rw [if_neg (by simp [InspectorCall.file]), hstored]
          exact ⟨n, hdecided, by simp [InspectorCall.event]⟩
      | resolve input =>
          obtain rfl := hjob i input hcall
          simp only [Fits, hcall, InspectorCall.file] at hfit
          rw [hdecided.count] at hfit
          obtain ⟨hnext, hread⟩ := @Decided.update sha256 _ _ _ input hdecided hfit
          have hwritten := @Decided.read_update sha256 _ _ _ input hdecided hfit
          simp only [InspectorCall.file, InspectorCall.update, InspectorCall.event, if_true,
            Option.getD_some, Option.map_some]
          rw [hwritten]
          refine ⟨n + 1, hnext, ?_⟩
          rw [hread, List.map_map, ← hstored]
          have hsame : ∀ event ∈ decisionEvents (readDecisionEnvelope
              (serialFile sha256 localeCompare report calls .decisions order) input.jobId) ++
                [input.event sha256 (nextSequence (readDecisionEnvelope
                  (serialFile sha256 localeCompare report calls .decisions order) input.jobId))],
              (canonicalJson ∘ stored) event = canonicalJson event := by
            intro event hevent
            obtain ⟨k, hk⟩ := List.getElem?_of_mem hevent
            exact canonicalJson_stored (hdecided.sequences_append hfit hk).1
          rw [List.map_congr_left hsame, List.map_append]
          rfl

omit [DecidableEq ι] in
/-- Removals under safe ids one after the other are all stored. -/
theorem removed_serialFile {order : List ι}
    (hfits : ∀ before i after, order = before ++ i :: after →
      Fits calls i (serialFile sha256 localeCompare report calls (calls i).file before))
    {i : ι} (hi : i ∈ order) {input : RemovalInput} (hcall : calls i = .remove input) :
    input.sourceId ∈ readRemovedSourceIds
      (serialFile sha256 localeCompare report calls .removedSources order) := by
  induction order using List.reverseRecOn with
  | nil => cases hi
  | append_singleton order j ih =>
      have ih := ih fun before k after h ↦ hfits before k (after ++ [j]) (by rw [h]; simp)
      have hfit := hfits order j [] rfl
      rw [serialFile_append]
      cases hcall' : calls j with
      | resolve input' =>
          rw [if_neg (by simp [InspectorCall.file])]
          rcases List.mem_append.mp hi with hi | hi
          · exact ih hi
          · rw [List.mem_singleton.mp hi, hcall'] at hcall
            cases hcall
      | remove input' =>
          simp only [Fits, hcall'] at hfit
          have hfile : (InspectorCall.remove input').file = .removedSources := rfl
          rw [if_pos hfile, getD_update_remove, mem_readRemovedSourceIds_mark]
          refine ⟨hfit, ?_⟩
          rcases List.mem_append.mp hi with hi | hi
          · exact .inl (ih hi)
          · rw [List.mem_singleton.mp hi, hcall'] at hcall
            exact .inr (by rw [InspectorCall.remove.inj hcall])

omit [DecidableEq ι] in
theorem nothingLost_of_inv (hjob : ∀ i input, calls i = .resolve input → input.jobId = jobId)
    {s : Store ι InspectorFile (Option JsString)}
    (h : Inv (inspectorCalls sha256 localeCompare report calls) (fun _ ↦ none) (Fits calls) s) :
    NothingLost sha256 calls jobId s := by
  have hfits : ∀ before i after, s.landed = before ++ i :: after →
      Fits calls i (serialFile sha256 localeCompare report calls (calls i).file before) :=
    fun before i after hlanded ↦ (h.landed before i after hlanded).2
  have hevents : ∀ before i after, s.landed = before ++ i :: after →
      (returnedEvent sha256 calls s i).map canonicalJson = ((calls i).event sha256
        (serialFile sha256 localeCompare report calls (calls i).file before)).map canonicalJson := by
    intro before i after hlanded
    rw [returnedEvent, (h.landed before i after hlanded).1]
    rfl
  obtain ⟨n, hdecided, hstored⟩ := decided_serialFile hjob hevents hfits
  have hcell : ∀ file, s.cells file =
      serialFile sha256 localeCompare report calls file s.landed := h.serial
  refine ⟨h.returned, ?_, ?_, fun i input seen hcall hreturned ↦ ?_⟩
  · rw [storedEvents, hcell]
    exact hstored
  · rw [storedEvents, hcell]
    exact hdecided.nodup_sequences
  · rw [hcell]
    exact removed_serialFile hfits (h.returned i seen hreturned) hcall

/-- In every run in which a call reads its file only while no other call is about to
replace it, finds room for another number and removes under safe ids, nothing is lost. -/
theorem nothingLost_of_readsAlone
    (hjob : ∀ i input, calls i = .resolve input → input.jobId = jobId) {actions : List ι}
    (halone : MeetsAlong (step (inspectorCalls sha256 localeCompare report calls))
      (ReadsAlone (inspectorCalls sha256 localeCompare report calls) (Fits calls))
      (.begin (inspectorCalls sha256 localeCompare report calls) fun _ ↦ none) actions) :
    Always (step (inspectorCalls sha256 localeCompare report calls))
      (NothingLost sha256 calls jobId)
      (.begin (inspectorCalls sha256 localeCompare report calls) fun _ ↦ none) actions :=
  fun done hdone ↦ nothingLost_of_inv hjob (always_inv halone done hdone)

end

/-! ## Two calls at once -/

/-- Of two decisions that both read before either writes, the second one alone is stored. -/
theorem run_overlap_resolve {ι : Type} [DecidableEq ι] {sha256 : Bytes → JsString}
    {localeCompare : JsString → JsString → ℤ} {report : Option JsString}
    {calls : ι → InspectorCall} {i j : ι} (hij : i ≠ j) {input input' : DecisionInput}
    (hi : calls i = .resolve input) (hj : calls j = .resolve input')
    (hcheck : (calls i).check report = some true) (hcheck' : (calls j).check report = some true) :
    let s := run (step (inspectorCalls sha256 localeCompare report calls))
      (.begin (inspectorCalls sha256 localeCompare report calls) fun _ ↦ none)
      [i, j, i, j, i, j, i, j]
    s.cells .decisions = some (canonicalJson (.obj
        (decisionUpdate sha256 (readDecisionEnvelope none input'.jobId) input'))) ∧
      s.landed = [i, j] ∧ s.phase i = .returned none ∧ s.phase j = .returned none := by
  have hcell : (inspectorCalls sha256 localeCompare report calls).cell i = .decisions :=
    congrArg InspectorCall.file hi
  have hcell' : (inspectorCalls sha256 localeCompare report calls).cell j = .decisions :=
    congrArg InspectorCall.file hj
  have hupdate : ∀ k input, calls k = .resolve input →
      (inspectorCalls sha256 localeCompare report calls).update k none =
        some (some (canonicalJson (.obj
          (decisionUpdate sha256 (readDecisionEnvelope none input.jobId) input)))) := by
    intro k input hk
    exact congrArg (InspectorCall.update sha256 localeCompare none) hk
  have h := @run_overlap ι InspectorFile (Option JsString) _ _
    (inspectorCalls sha256 localeCompare report calls) (fun _ ↦ none) i j hij
    (hcell'.trans hcell.symm) hcheck hcheck' _ _ (hupdate i input hi) (hupdate j input' hj)
  rwa [hcell] at h

def conflictJson (conflictId : JsString) : Json :=
  .obj [(js "conflictId", .str conflictId), (js "participatingSourceIds", .arr [.str (js "src.0")]),
    (js "normalizedValues", .arr [])]

def twoConflicts : Json := .obj [(js "conflicts", .arr [conflictJson (js "c-1"), conflictJson (js "c-2")])]

def approval (conflictId actor : JsString) : DecisionInput where
  jobId := js "job-1"
  conflictId := conflictId
  actor := actor
  at' := js "2026-04-27T12:00:00.000Z"
  action := .approve
  selectedSourceId := some (js "src.0")
  selectedNormalizedValue := none
  note := none

def twoApprovals : Bool → InspectorCall
  | false => .resolve (approval (js "c-1") (js "alice"))
  | true => .resolve (approval (js "c-2") (js "bob"))

theorem ordered_conflictJson (conflictId : JsString) : (conflictJson conflictId).Ordered := by
  rw [conflictJson, Json.ordered_obj]
  refine ⟨?_, by simp⟩
  let names := ["conflictId", "participatingSourceIds", "normalizedValues"]
  change (names.map js).Nodup ∧ (names.map js).Pairwise fun k k' ↦ keyBefore k k' = true
  decide

theorem plainNumbers_conflictJson (conflictId : JsString) :
    (conflictJson conflictId).PlainNumbers := by
  have htext : ∀ text : JsString, (Json.str text).PlainNumbers := fun _ ↦ trivial
  simp [conflictJson, htext]

theorem readReport_twoConflicts :
    readInspectorReconciliationReport (some twoConflicts.stringify) =
      some [conflictJson (js "c-1"), conflictJson (js "c-2")] := by
  rw [readInspectorReconciliationReport, Option.bind_some, Json.parse_stringify]
  · rw [twoConflicts]
    simp only [mapGet_cons]
    rfl
  · rw [twoConflicts, Json.ordered_obj]
    refine ⟨⟨List.nodup_singleton _, List.pairwise_singleton _ _⟩, ?_⟩
    simp [ordered_conflictJson]
  · simp [twoConflicts, plainNumbers_conflictJson]

theorem check_twoApprovals (i : Bool) :
    (twoApprovals i).check (some twoConflicts.stringify) = some true := by
  cases i
  all_goals
    rw [twoApprovals, InspectorCall.check, checkDecision, readReport_twoConflicts, Option.getD_some]
    decide

def decisionAndRemoval : Bool → InspectorCall
  | false => .resolve (approval (js "c-1") (js "alice"))
  | true => .remove removeJira

theorem nothingLost_decisionAndRemoval :
    Always (step (inspectorCalls (fun _ ↦ []) (fun _ _ ↦ 0) (some twoConflicts.stringify)
        decisionAndRemoval))
      (NothingLost (fun _ ↦ []) decisionAndRemoval (js "job-1"))
      (.begin (inspectorCalls (fun _ ↦ []) (fun _ _ ↦ 0) (some twoConflicts.stringify)
        decisionAndRemoval) fun _ ↦ none) [false, true, false, true, false, true, false] := by
  apply nothingLost_of_readsAlone
  · intro i input hcall
    cases i with
    | false => exact InspectorCall.resolve.inj hcall ▸ rfl
    | true => cases hcall
  · apply meetsAlong_of_injective
    · rintro (_ | _) (_ | _) hsame
      all_goals first | rfl | cases hsame
    · rintro (_ | _)
      · change (decisionEvents (noDecisions (js "job-1"))).length < 2 ^ 53
        rw [(decided_noDecisions (js "job-1")).count]
        decide
      · change isSafeId (js "src.1") = true
        decide

/-- The decision that is written into an empty store is the only one there. -/
theorem length_decisionEvents_first (sha256 : Bytes → JsString) (input : DecisionInput) :
    (decisionEvents (readDecisionEnvelope (some (canonicalJson (.obj
      (decisionUpdate sha256 (readDecisionEnvelope none input.jobId) input))))
        input.jobId)).length = 1 := by
  have hnone := decided_noDecisions input.jobId
  have hread := @Decided.read_update sha256 _ _ _ input hnone (by omega)
  have hfirst := (@Decided.update sha256 _ _ _ input hnone (by omega)).1
  change (decisionEvents (readDecisionEnvelope (some (canonicalJson (.obj
    (decisionUpdate sha256 (noDecisions input.jobId) input)))) input.jobId)).length = 1
  rw [hread]
  exact hfirst.count

/-- Both calls read the empty store, and the second write replaces the first. -/
theorem decision_overwritten :
    ¬ ∀ (ι : Type) [DecidableEq ι] (sha256 : Bytes → JsString)
        (localeCompare : JsString → JsString → ℤ) (report : Option JsString)
        (calls : ι → InspectorCall) (jobId : JsString) (actions : List ι),
      (∀ i input, calls i = .resolve input → input.jobId = jobId) →
      Always (step (inspectorCalls sha256 localeCompare report calls))
        (NothingLost sha256 calls jobId)
        (.begin (inspectorCalls sha256 localeCompare report calls) fun _ ↦ none) actions := by
  intro h
  have hjob : ∀ i input, twoApprovals i = .resolve input → input.jobId = js "job-1" := by
    intro i input hcall
    cases i <;> exact InspectorCall.resolve.inj hcall ▸ rfl
  obtain ⟨s, hlost, hcell, hlanded, hfirst, hsecond⟩ :
      ∃ s : Store Bool InspectorFile (Option JsString),
        NothingLost (fun _ ↦ []) twoApprovals (js "job-1") s ∧
        s.cells .decisions = some (canonicalJson (.obj (decisionUpdate (fun _ ↦ [])
          (readDecisionEnvelope none (js "job-1")) (approval (js "c-2") (js "bob"))))) ∧
        s.landed = [false, true] ∧ s.phase false = .returned none ∧
        s.phase true = .returned none :=
    ⟨_, h Bool (fun _ ↦ []) (fun _ _ ↦ 0) (some twoConflicts.stringify) twoApprovals
        (js "job-1") [false, true, false, true, false, true, false, true] hjob _ (List.prefix_refl _),
      run_overlap_resolve (by decide) rfl rfl (check_twoApprovals false)
        (check_twoApprovals true)⟩
  have hone := length_decisionEvents_first (fun _ ↦ []) (approval (js "c-2") (js "bob"))
  have hlength := congrArg List.length hlost.decisions
  rw [hlanded, List.length_map, storedEvents, hcell] at hlength
  simp only [List.filterMap_cons, List.filterMap_nil, returnedEvent, hfirst, hsecond,
    twoApprovals, InspectorCall.event, Option.map_some, List.length_cons, List.length_nil]
    at hlength
  exact absurd (hone.symm.trans hlength) (by decide)

end TestIntelligence.MultiSource
