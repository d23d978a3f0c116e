import TestIntelligence.Js.Outcome
import TestIntelligence.Js.Sorting
import TestIntelligence.Js.Text
import TestIntelligence.Search.BreadthFirst
import TestIntelligence.Search.LeastWalks

/-!
# Workflow state machines

The typed workflow machine of a form: its constructor with every check, the
lookup index built from it and the breadth-first search for a path of
transitions between two states.  `localeCompare` is a parameter; it only decides
the order of the sorted lists.
-/

namespace TestIntelligence.CoreEngine

open TestIntelligence.Js TestIntelligence.Search

structure WorkflowStateMachineState where
  stateId : JsString
  label : Option JsString
  entry : Option Bool
  terminal : Option Bool
  deriving DecidableEq

structure WorkflowStateMachineTransition where
  transitionId : JsString
  fromState : JsString
  toState : JsString
  guard : JsString
  action : JsString
  label : Option JsString
  deriving DecidableEq

inductive WorkflowStateMachineProvenance where
  | manual
  | workflowTopology
  | manualOverride
  deriving DecidableEq

structure WorkflowStateMachine where
  id : JsString
  label : JsString
  states : List WorkflowStateMachineState
  transitions : List WorkflowStateMachineTransition
  provenance : WorkflowStateMachineProvenance
  deriving DecidableEq

/-- The argument of `createWorkflowStateMachine`. -/
structure WorkflowStateMachineInput where
  id : JsString
  label : JsString
  states : List WorkflowStateMachineState
  transitions : List WorkflowStateMachineTransition
  provenance : Option WorkflowStateMachineProvenance

/-! ## Construction -/

/-- The loop over the declared states; it collects their ids. -/
def declareStates (id : JsString) :
    List WorkflowStateMachineState → List JsString → Except JsString (List JsString)
  | [], stateIds => .ok stateIds
  | state :: states, stateIds =>
      if (trim state.stateId).length = 0 then
        .error (js "WorkflowStateMachine \"" ++ id ++ js "\" has a state with an empty id.")
      else if state.stateId ∈ stateIds then
        .error (js "WorkflowStateMachine \"" ++ id ++ js "\" declares duplicate state \"" ++
          state.stateId ++ js "\".")
      else declareStates id states (setAdd stateIds state.stateId)

/-- The loop over the declared transitions. -/
def declareTransitions (id : JsString) (stateIds : List JsString) :
    List WorkflowStateMachineTransition → List JsString → Except JsString Unit
  | [], _ => .ok ()
  | transition :: transitions, transitionIds =>
      if (trim transition.transitionId).length = 0 then
        .error (js "WorkflowStateMachine \"" ++ id ++ js "\" has a transition with an empty id.")
      else if transition.transitionId ∈ transitionIds then
        .error (js "WorkflowStateMachine \"" ++ id ++ js "\" declares duplicate transition \"" ++
          transition.transitionId ++ js "\".")
      else if transition.fromState ∉ stateIds then
        .error (js "WorkflowStateMachine \"" ++ id ++ js "\" transition \"" ++
          transition.transitionId ++ js "\" references unknown source state \"" ++
          transition.fromState ++ js "\".")
      else if transition.toState ∉ stateIds then
        .error (js "WorkflowStateMachine \"" ++ id ++ js "\" transition \"" ++
          transition.transitionId ++ js "\" references unknown target state \"" ++
          transition.toState ++ js "\".")
      else declareTransitions id stateIds transitions (setAdd transitionIds transition.transitionId)

section Model

variable (localeCompare : JsString → JsString → ℤ)

def createWorkflowStateMachine (input : WorkflowStateMachineInput) :
    Except JsString WorkflowStateMachine :=
  if (trim input.id).length = 0 then
    .error (js "WorkflowStateMachine.id must be a non-empty string.")
  else if (trim input.label).length = 0 then
    .error (js "WorkflowStateMachine.label must be a non-empty string.")
  else if input.states.length = 0 then
    .error (js "WorkflowStateMachine \"" ++ input.id ++ js "\" must declare at least one state.")
  else do
    let stateIds ← declareStates input.id input.states []
    if (input.states.filter (·.entry = some true)).length = 0 then
      .error (js "WorkflowStateMachine \"" ++ input.id ++
        js "\" must declare at least one entry state.")
    else
      declareTransitions input.id stateIds input.transitions []
      return {
        id := input.id
        label := input.label
        states := input.states.insertionSort
          fun left right ↦ localeCompare left.stateId right.stateId ≤ 0
        transitions := input.transitions.insertionSort
          fun left right ↦ localeCompare left.transitionId right.transitionId ≤ 0
        provenance := input.provenance.getD .manual }

/-- What the constructor guarantees. -/
structure WorkflowStateMachine.Accepted (machine : WorkflowStateMachine) : Prop where
  states_nodup : (machine.states.map (·.stateId)).Nodup
  transitions_nodup : (machine.transitions.map (·.transitionId)).Nodup
  from_declared : ∀ t ∈ machine.transitions, t.fromState ∈ machine.states.map (·.stateId)
  to_declared : ∀ t ∈ machine.transitions, t.toState ∈ machine.states.map (·.stateId)

/-! ## Lookup index -/

structure WorkflowStateMachineIndex where
  stateMachine : WorkflowStateMachine
  statesById : List (JsString × WorkflowStateMachineState)
  transitionsById : List (JsString × WorkflowStateMachineTransition)
  outgoingByState : List (JsString × List WorkflowStateMachineTransition)

/-- Appends a transition to the bucket of its source state. -/
def addToBucket (buckets : List (JsString × List WorkflowStateMachineTransition))
    (transition : WorkflowStateMachineTransition) :
    List (JsString × List WorkflowStateMachineTransition) :=
  mapSet buckets transition.fromState
    ((mapGet buckets transition.fromState).getD [] ++ [transition])

def indexWorkflowStateMachine (stateMachine : WorkflowStateMachine) :
    WorkflowStateMachineIndex where
  stateMachine := stateMachine
  statesById := stateMachine.states.foldl (fun m state ↦ mapSet m state.stateId state) []
  transitionsById :=
    stateMachine.transitions.foldl (fun m transition ↦ mapSet m transition.transitionId transition)
      []
  outgoingByState :=
    (stateMachine.transitions.foldl addToBucket []).foldl
      (fun m bucket ↦ mapSet m bucket.1 (bucket.2.insertionSort
        fun left right ↦ localeCompare left.transitionId right.transitionId ≤ 0)) []

end Model

/-- `outgoingByState.get(state) ?? []`. -/
def WorkflowStateMachineIndex.outgoing (index : WorkflowStateMachineIndex) (state : JsString) :
    List WorkflowStateMachineTransition :=
  (mapGet index.outgoingByState state).getD []

/-! ## Reachability search -/

inductive TransitionPath where
  | same
  | path (transitionIds : List JsString)
  | none
  deriving DecidableEq

/-- Each turn of the loop takes a state off the queue, and no state is queued twice, so the
number of states is fuel enough. -/
def findShortestTransitionPath (index : WorkflowStateMachineIndex) (fromState toState : JsString) :
    TransitionPath :=
  if mapGet index.statesById fromState = none ∨ mapGet index.statesById toState = none then .none
  else if fromState = toState then .same
  else
    match breadthFirst index.outgoing (·.toState) (·.transitionId) fromState toState
        (index.statesById.length + 1) ⟨[fromState], [], [fromState]⟩ with
    | some (some transitionIds) => .path transitionIds
    | some none | none => .none

/-! ## What the constructor accepts -/

theorem declareStates_ok {id : JsString} {states : List WorkflowStateMachineState}
    {seen stateIds : List JsString} (hseen : seen.Nodup)
    (h : declareStates id states seen = .ok stateIds) :
    stateIds = seen ++ states.map (·.stateId) ∧ stateIds.Nodup := by
  induction states generalizing seen with
  | nil =>
      rw [declareStates] at h
      cases h
      exact ⟨by simp, hseen⟩
  | cons state states ih =>
      rw [declareStates] at h
      split at h
      · cases h
      · split at h
        · cases h
        · next hnew =>
            obtain ⟨heq, hnodup⟩ := ih (nodup_setAdd hseen _) h
            refine ⟨?_, hnodup⟩
            rw [heq, setAdd, if_neg hnew, List.append_assoc, List.singleton_append, List.map_cons]

theorem declareTransitions_ok {id : JsString} {stateIds : List JsString}
    {transitions : List WorkflowStateMachineTransition} {seen : List JsString} (hseen : seen.Nodup)
    (h : declareTransitions id stateIds transitions seen = .ok ()) :
    (seen ++ transitions.map (·.transitionId)).Nodup ∧
      ∀ t ∈ transitions, t.fromState ∈ stateIds ∧ t.toState ∈ stateIds := by
  induction transitions generalizing seen with
  | nil => exact ⟨by simpa using hseen, by simp⟩
  | cons transition transitions ih =>
      rw [declareTransitions] at h
      split at h
      · cases h
      · split at h
        · cases h
        · next hnew =>
            split at h
            · cases h
            · next hfrom =>
                split at h
                · cases h
                · next hto =>
                    obtain ⟨hnodup, hdeclared⟩ := ih (nodup_setAdd hseen _) h
                    rw [setAdd, if_neg hnew, List.append_assoc, List.singleton_append] at hnodup
                    refine ⟨by rwa [List.map_cons], ?_⟩
                    rintro t (_ | ⟨_, ht⟩)
                    · exact ⟨not_not.mp hfrom, not_not.mp hto⟩
                    · exact hdeclared t ht

theorem accepted_of_create {localeCompare : JsString → JsString → ℤ}
    {input : WorkflowStateMachineInput} {machine : WorkflowStateMachine}
    (h : createWorkflowStateMachine localeCompare input = .ok machine) : machine.Accepted := by
  unfold createWorkflowStateMachine at h
  split at h
  · cases h
  · split at h
    · cases h
    · split at h
      · cases h
      · obtain ⟨stateIds, hstates, h⟩ := bind_eq_ok h
        split at h
        · cases h
        · obtain ⟨_, htransitions, h⟩ := bind_eq_ok h
          cases h
          obtain ⟨rfl, hnodup⟩ := declareStates_ok List.nodup_nil hstates
          obtain ⟨hids, hdeclared⟩ := declareTransitions_ok List.nodup_nil htransitions
          have hperm := (List.perm_insertionSort
            (fun left right : WorkflowStateMachineState ↦
              localeCompare left.stateId right.stateId ≤ 0) input.states).map (·.stateId)
          have hperm' := (List.perm_insertionSort
            (fun left right : WorkflowStateMachineTransition ↦
              localeCompare left.transitionId right.transitionId ≤ 0) input.transitions).map
              (·.transitionId)
          refine ⟨hperm.nodup_iff.mpr hnodup, hperm'.nodup_iff.mpr hids, ?_, ?_⟩
          · intro t ht
            exact hperm.mem_iff.mpr (hdeclared t ((List.mem_insertionSort _).mp ht)).1
          · intro t ht
            exact hperm.mem_iff.mpr (hdeclared t ((List.mem_insertionSort _).mp ht)).2

/-! ## What the index holds -/

theorem getD_foldl_addToBucket (transitions : List WorkflowStateMachineTransition)
    (buckets : List (JsString × List WorkflowStateMachineTransition)) (state : JsString) :
    (mapGet (transitions.foldl addToBucket buckets) state).getD [] =
      (mapGet buckets state).getD [] ++ transitions.filter (·.fromState = state) := by
  induction transitions generalizing buckets with
  | nil => simp
  | cons t transitions ih =>
      rw [List.foldl_cons, ih, addToBucket, mapGet_mapSet, List.filter_cons]
      by_cases hstate : state = t.fromState
      · simp [hstate]
      · simp [hstate, Ne.symm hstate]

theorem keys_nodup_foldl_addToBucket (transitions : List WorkflowStateMachineTransition)
    {buckets : List (JsString × List WorkflowStateMachineTransition)}
    (h : (buckets.map Prod.fst).Nodup) :
    ((transitions.foldl addToBucket buckets).map Prod.fst).Nodup := by
  induction transitions generalizing buckets with
  | nil => exact h
  | cons t transitions ih =>
      apply ih
      rw [addToBucket, keys_mapSet]
      exact nodup_setAdd h _

section Index

variable {localeCompare : JsString → JsString → ℤ} {machine : WorkflowStateMachine}

theorem mapGet_statesById (h : machine.Accepted) (state : JsString) :
    mapGet (indexWorkflowStateMachine localeCompare machine).statesById state =
      machine.states.find? (·.stateId = state) := by
  have hget := mapGet_foldl_mapSet WorkflowStateMachineState.stateId id h.states_nodup [] state
  simpa [indexWorkflowStateMachine] using hget

theorem mapGet_transitionsById (h : machine.Accepted) (transitionId : JsString) :
    mapGet (indexWorkflowStateMachine localeCompare machine).transitionsById transitionId =
      machine.transitions.find? (·.transitionId = transitionId) := by
  have hget := mapGet_foldl_mapSet WorkflowStateMachineTransition.transitionId id
    h.transitions_nodup [] transitionId
  simpa [indexWorkflowStateMachine] using hget

/-- The transitions that leave a state, sorted again. -/
theorem outgoing_eq_insertionSort (state : JsString) :
    (indexWorkflowStateMachine localeCompare machine).outgoing state =
      (machine.transitions.filter (·.fromState = state)).insertionSort
        fun left right ↦ localeCompare left.transitionId right.transitionId ≤ 0 := by
  set buckets := machine.transitions.foldl addToBucket [] with hbuckets
  have hnodup : (buckets.map Prod.fst).Nodup := keys_nodup_foldl_addToBucket _ List.nodup_nil
  have hget := mapGet_foldl_mapSet Prod.fst
    (fun bucket ↦ bucket.2.insertionSort
      fun left right : WorkflowStateMachineTransition ↦
        localeCompare left.transitionId right.transitionId ≤ 0) hnodup [] state
  have hfilter := getD_foldl_addToBucket machine.transitions [] state
  rw [← hbuckets] at hfilter
  rw [WorkflowStateMachineIndex.outgoing, indexWorkflowStateMachine, hget]
  simp only [mapGet_nil, Option.or_none, Option.getD_none, List.nil_append] at hfilter ⊢
  cases hfind : buckets.find? (·.1 = state) with
  | none =>
      have hnone : mapGet buckets state = none := by
        rw [mapGet_eq_none_iff, List.mem_map]
        rintro ⟨bucket, hmem, hstate⟩
        exact List.find?_eq_none.mp hfind bucket hmem (decide_eq_true hstate)
      rw [hnone, Option.getD_none] at hfilter
      rw [← hfilter]
      rfl
  | some bucket =>
      obtain ⟨key, members⟩ := bucket
      obtain rfl : key = state := by simpa using List.find?_some hfind
      rw [mapGet_eq_some_of_mem hnodup (List.mem_of_find?_eq_some hfind),
        Option.getD_some] at hfilter
      rw [← hfilter]
      rfl

theorem mem_outgoing {state : JsString} {t : WorkflowStateMachineTransition} :
    t ∈ (indexWorkflowStateMachine localeCompare machine).outgoing state ↔
      t ∈ machine.transitions ∧ t.fromState = state := by
  rw [outgoing_eq_insertionSort, List.mem_insertionSort, List.mem_filter, decide_eq_true_eq]

/-! ## What the search finds -/

/-- A walk of the machine along its transitions. -/
def WorkflowStateMachine.Walk (machine : WorkflowStateMachine) :
    JsString → List WorkflowStateMachineTransition → JsString → Prop :=
  IsWalk (fun state ↦ machine.transitions.filter (·.fromState = state)) (·.toState)

theorem walk_cons {a b : JsString} {t : WorkflowStateMachineTransition}
    {ts : List WorkflowStateMachineTransition} :
    machine.Walk a (t :: ts) b ↔
      t ∈ machine.transitions ∧ t.fromState = a ∧ machine.Walk t.toState ts b := by
  rw [WorkflowStateMachine.Walk, IsWalk, List.mem_filter, decide_eq_true_eq, and_assoc]

theorem isWalk_outgoing_iff {a b : JsString} {ts : List WorkflowStateMachineTransition} :
    IsWalk (indexWorkflowStateMachine localeCompare machine).outgoing (·.toState) a ts b ↔
      machine.Walk a ts b := by
  apply isWalk_congr
  intro state t
  rw [mem_outgoing, List.mem_filter, decide_eq_true_eq]

theorem mem_statesById_iff (h : machine.Accepted) {state : JsString} :
    mapGet (indexWorkflowStateMachine localeCompare machine).statesById state ≠ none ↔
      state ∈ machine.states.map (·.stateId) := by
  rw [mapGet_statesById h, ne_eq, List.find?_eq_none, List.mem_map]
  simp

/-- Between two different declared states the search finds a walk, or there is none. -/
theorem findShortestTransitionPath_spec (h : machine.Accepted) {a b : JsString}
    (ha : a ∈ machine.states.map (·.stateId)) (hb : b ∈ machine.states.map (·.stateId))
    (hne : a ≠ b) :
    (∃ ts, findShortestTransitionPath (indexWorkflowStateMachine localeCompare machine) a b =
        .path (ts.map (·.transitionId)) ∧ machine.Walk a ts b) ∨
    (findShortestTransitionPath (indexWorkflowStateMachine localeCompare machine) a b = .none ∧
      ∀ ts, ¬ machine.Walk a ts b) := by
  set index := indexWorkflowStateMachine localeCompare machine with hindex
  have hknown : ∀ state ∈ machine.states.map (·.stateId),
      mapGet index.statesById state ≠ none := fun state hstate ↦ (mem_statesById_iff h).mpr hstate
  have hkeys : ∀ state ∈ machine.states.map (·.stateId), state ∈ index.statesById.map Prod.fst :=
    fun state hstate ↦ by_contra fun hnot ↦
      hknown state hstate (mapGet_eq_none_iff.mpr hnot)
  have hcarrier : ∀ x, ∀ t ∈ index.outgoing x, t.toState ∈ index.statesById.map Prod.fst :=
    fun x t ht ↦ hkeys _ (h.to_declared t (mem_outgoing.mp ht).1)
  have hwork : (⟨[a], [], [a]⟩ : Frontier JsString JsString).work (index.statesById.map Prod.fst) <
      index.statesById.length + 1 := by
    have hpos : 0 < index.statesById.length := by
      rw [← List.length_map (f := Prod.fst)]
      exact List.length_pos_of_mem (hkeys a ha)
    simp only [Frontier.work, List.length_map, List.length_singleton]
    omega
  have hgoal : b ∉ [a] := by simpa using hne.symm
  rw [findShortestTransitionPath, if_neg (not_or.mpr ⟨hknown a ha, hknown b hb⟩), if_neg hne]
  have hstart : Searched index.outgoing (·.toState) (·.transitionId) a
      (index.statesById.map Prod.fst) ⟨[a], [], [a]⟩ none [] := searched_start (hkeys a ha)
  rcases breadthFirst_spec hcarrier hstart hgoal hwork with ⟨ts, hfound, hwalk⟩ | ⟨hnone, hno⟩
  · refine Or.inl ⟨ts, ?_, isWalk_outgoing_iff.mp hwalk⟩
    rw [hfound]
  · refine Or.inr ⟨?_, fun ts hwalk ↦ hno ts (isWalk_outgoing_iff.mpr hwalk)⟩
    rw [hnone]

end Index

end TestIntelligence.CoreEngine

/-!
## The path between two workflow states

The path that is found is the shortest one, and of the shortest ones the first by the ids of
its transitions.
-/

namespace TestIntelligence.CoreEngine

open TestIntelligence.Js TestIntelligence.Search

section

variable {localeCompare : JsString → JsString → ℤ} {machine : WorkflowStateMachine}

/-! ## The order of the transitions -/

variable (localeCompare machine) in
/-- The id comes first; of two ids that compare as equal, the one that was given first does. -/
def IdBefore (t t' : WorkflowStateMachineTransition) : Prop :=
  localeCompare t.transitionId t'.transitionId ≤ 0 ∧
    machine.transitions.idxOf t < machine.transitions.idxOf t'

theorem isTrans_idBefore (hcompare : Consistent localeCompare) :
    IsTrans WorkflowStateMachineTransition (IdBefore localeCompare machine) :=
  ⟨fun _ _ _ h h' ↦ ⟨hcompare.trans _ _ _ h.1 h'.1, h.2.trans h'.2⟩⟩

theorem pairwise_idxOf_lt {α : Type*} [DecidableEq α] {xs : List α} (h : xs.Nodup) :
    xs.Pairwise fun x y ↦ xs.idxOf x < xs.idxOf y := by
  rw [List.pairwise_iff_getElem]
  intro i j hi hj hij
  rwa [h.idxOf_getElem, h.idxOf_getElem]

theorem transitions_of_create {input : WorkflowStateMachineInput}
    (h : createWorkflowStateMachine localeCompare input = .ok machine) :
    machine.transitions = sortBy
      (fun left right ↦ localeCompare left.transitionId right.transitionId) input.transitions := by
  unfold createWorkflowStateMachine at h
  split at h
  · cases h
  split at h
  · cases h
  split at h
  · cases h
  obtain ⟨stateIds, -, h⟩ := bind_eq_ok h
  split at h
  · cases h
  obtain ⟨-, -, h⟩ := bind_eq_ok h
  obtain rfl := Except.ok.inj h
  rfl

theorem sorted_of_create (hcompare : Consistent localeCompare) {input : WorkflowStateMachineInput}
    (h : createWorkflowStateMachine localeCompare input = .ok machine) :
    machine.transitions.Pairwise (IdBefore localeCompare machine) := by
  have hnodup := List.Nodup.of_map _ (accepted_of_create h).transitions_nodup
  have hsorted : machine.transitions.Pairwise fun t t' ↦
      localeCompare t.transitionId t'.transitionId ≤ 0 := by
    rw [transitions_of_create h]
    exact (hcompare.comap WorkflowStateMachineTransition.transitionId).pairwise_sortBy _
  exact hsorted.imp₂ (fun _ _ h h' ↦ ⟨h, h'⟩) (pairwise_idxOf_lt hnodup)

/-- The transitions that leave a state are in the order of the machine. -/
theorem outgoing_eq (hsorted : machine.transitions.Pairwise (IdBefore localeCompare machine))
    (state : JsString) : (indexWorkflowStateMachine localeCompare machine).outgoing state =
      machine.transitions.filter (·.fromState = state) := by
  rw [outgoing_eq_insertionSort]
  exact ((hsorted.filter _).imp fun h ↦ h.1).insertionSort_eq

/-! ## The path -/

variable (localeCompare machine) in
/-- The walk is a shortest one and, of those, the first by its ids. -/
structure IsFirstPath (a b : JsString) (ts : List WorkflowStateMachineTransition) : Prop where
  walk : machine.Walk a ts b
  shortest : ∀ ts', machine.Walk a ts' b → ts.length ≤ ts'.length
  first : ∀ ts', machine.Walk a ts' b → ts'.length = ts.length →
    ts' = ts ∨ List.Lex (IdBefore localeCompare machine) ts ts'

theorem isFirstPath_of_isLeastWalk {a b : JsString} {ts : List WorkflowStateMachineTransition}
    (h : IsLeastWalk (indexWorkflowStateMachine localeCompare machine).outgoing (·.toState)
      (IdBefore localeCompare machine) a ts b) : IsFirstPath localeCompare machine a b ts where
  walk := isWalk_outgoing_iff.mp h.1
  shortest := by
    intro ts' hwalk
    rcases h.2 ts' (isWalk_outgoing_iff.mpr hwalk) with rfl | hless
    · exact le_rfl
    · rcases List.shortlex_def.mp hless with hlt | ⟨heq, -⟩
      · exact hlt.le
      · exact heq.le
  first := by
    intro ts' hwalk hlen
    rcases h.2 ts' (isWalk_outgoing_iff.mpr hwalk) with rfl | hless
    · exact .inl rfl
    · exact .inr ((List.shortlex_iff_lex hlen.symm).mp hless)

/-- From a declared state the search ends, with the first of the shortest paths or with none. -/
theorem search_exact (h : machine.Accepted) (hcompare : Consistent localeCompare)
    (hsorted : machine.transitions.Pairwise (IdBefore localeCompare machine)) {a b : JsString}
    (ha : a ∈ machine.states.map (·.stateId)) (hne : a ≠ b) :
    (∃ ts, breadthFirst (indexWorkflowStateMachine localeCompare machine).outgoing (·.toState)
        (·.transitionId) a b
        ((indexWorkflowStateMachine localeCompare machine).statesById.length + 1)
        ⟨[a], [], [a]⟩ = some (some (ts.map (·.transitionId))) ∧
      IsFirstPath localeCompare machine a b ts) ∨
    (breadthFirst (indexWorkflowStateMachine localeCompare machine).outgoing (·.toState)
        (·.transitionId) a b
        ((indexWorkflowStateMachine localeCompare machine).statesById.length + 1)
        ⟨[a], [], [a]⟩ = some none ∧ ∀ ts, ¬ machine.Walk a ts b) := by
  set index := indexWorkflowStateMachine localeCompare machine with hindex
  have hkeys : ∀ state ∈ machine.states.map (·.stateId),
      state ∈ index.statesById.map Prod.fst :=
    fun state hstate ↦ by_contra fun hnot ↦
      (mem_statesById_iff h).mpr hstate (mapGet_eq_none_iff.mpr hnot)
  have hcarrier : ∀ x, ∀ t ∈ index.outgoing x, t.toState ∈ index.statesById.map Prod.fst :=
    fun x t ht ↦ hkeys _ (h.to_declared t (mem_outgoing.mp ht).1)
  have hwork : (⟨[a], [], [a]⟩ : Frontier JsString JsString).work (index.statesById.map Prod.fst) <
      index.statesById.length + 1 := by
    have hpos := List.length_pos_of_mem (hkeys a ha)
    rw [List.length_map] at hpos
    simp only [Frontier.work, List.length_map, List.length_singleton]
    omega
  have hpairwise : ∀ x, (index.outgoing x).Pairwise (IdBefore localeCompare machine) := by
    intro x
    rw [hindex, outgoing_eq hsorted]
    exact hsorted.filter _
  have : IsTrans WorkflowStateMachineTransition (IdBefore localeCompare machine) :=
    isTrans_idBefore hcompare
  rcases breadthFirst_least hpairwise hcarrier levelled_start (searched_start (hkeys a ha))
    (by simpa using hne.symm) hwork with ⟨ts, hfound, hleast⟩ | ⟨hnone, hno⟩
  · exact .inl ⟨ts, hfound, isFirstPath_of_isLeastWalk hleast⟩
  · exact .inr ⟨hnone, fun ts hwalk ↦ hno ts (isWalk_outgoing_iff.mpr hwalk)⟩

/-- Same states, no walk or the first of the shortest paths, and the search ends. -/
theorem findShortestTransitionPath_exact (hcompare : Consistent localeCompare)
    {input : WorkflowStateMachineInput}
    (hcreate : createWorkflowStateMachine localeCompare input = .ok machine) (a b : JsString) :
    let index := indexWorkflowStateMachine localeCompare machine
    let known := fun state ↦ state ∈ machine.states.map (·.stateId)
    (findShortestTransitionPath index a b = .same ↔ known a ∧ a = b) ∧
    (findShortestTransitionPath index a b = .none ↔
      ¬ known a ∨ ¬ known b ∨ ∀ ts, ¬ machine.Walk a ts b) ∧
    (∀ transitionIds, findShortestTransitionPath index a b = .path transitionIds →
      ∃ ts, transitionIds = ts.map (·.transitionId) ∧
        IsFirstPath localeCompare machine a b ts) ∧
    (known a → a ≠ b → breadthFirst index.outgoing (·.toState) (·.transitionId) a b
      (index.statesById.length + 1) ⟨[a], [], [a]⟩ ≠ none) := by
  intro index known
  have haccepted := accepted_of_create hcreate
  have hsearch := fun ha hne ↦ @search_exact _ _ haccepted hcompare
    (sorted_of_create hcompare hcreate) a b ha hne
  have hknown : ∀ state, mapGet index.statesById state = none ↔ ¬ known state := by
    intro state
    rw [← not_iff_not, not_not]
    exact mem_statesById_iff haccepted
  have hunknown_iff := or_congr (hknown a) (hknown b)
  by_cases hunknown : ¬ known a ∨ ¬ known b
  · have hnone : findShortestTransitionPath index a b = .none := by
      rw [findShortestTransitionPath, if_pos (hunknown_iff.mpr hunknown)]
    rw [hnone]
    refine ⟨⟨fun h ↦ (by cases h), ?_⟩, ⟨fun _ ↦ ?_, fun _ ↦ rfl⟩, fun _ h ↦ (by cases h), ?_⟩
    · rintro ⟨ha, rfl⟩
      exact absurd ha (hunknown.elim id id)
    · exact hunknown.imp_right .inl
    · intro ha hne hfuel
      rcases hsearch ha hne with ⟨ts, hfound, -⟩ | ⟨hno, -⟩
      · cases hfuel.symm.trans hfound
      · cases hfuel.symm.trans hno
  · have hneither := mt hunknown_iff.mp hunknown
    rw [not_or, not_not, not_not] at hunknown
    obtain ⟨ha, hb⟩ := hunknown
    by_cases hne : a = b
    · have hsame : findShortestTransitionPath index a b = .same := by
        rw [findShortestTransitionPath, if_neg hneither, if_pos hne]
      rw [hsame]
      refine ⟨⟨fun _ ↦ ⟨ha, hne⟩, fun _ ↦ rfl⟩, ⟨fun h ↦ (by cases h), ?_⟩,
        fun _ h ↦ (by cases h), fun _ h ↦ absurd hne h⟩
      rintro (hnot | hnot | hnot)
      · exact absurd ha hnot
      · exact absurd hb hnot
      · exact absurd hne (hnot [])
    · rcases hsearch ha hne with ⟨ts, hfound, hfirst⟩ | ⟨hno, hnone⟩
      · have hpath : findShortestTransitionPath index a b =
            .path (ts.map (·.transitionId)) := by
          rw [findShortestTransitionPath, if_neg hneither, if_neg hne, hfound]
        rw [hpath, hfound]
        refine ⟨⟨fun h ↦ (by cases h), fun h ↦ absurd h.2 hne⟩, ⟨fun h ↦ (by cases h), ?_⟩, ?_,
          fun _ _ h ↦ by cases h⟩
        · rintro (hnot | hnot | hnot)
          · exact absurd ha hnot
          · exact absurd hb hnot
          · exact absurd hfirst.walk (hnot ts)
        · intro transitionIds heq
          exact ⟨ts, (TransitionPath.path.inj heq).symm, hfirst⟩
      · have hpath : findShortestTransitionPath index a b = .none := by
          rw [findShortestTransitionPath, if_neg hneither, if_neg hne, hno]
        rw [hpath, hno]
        exact ⟨⟨fun h ↦ (by cases h), fun h ↦ absurd h.2 hne⟩,
          ⟨fun _ ↦ .inr (.inr hnone), fun _ ↦ rfl⟩, fun _ h ↦ (by cases h), fun _ _ h ↦ by cases h⟩

/-! ## Two ways to a state -/

def sampleState (id : String) (entry : Bool) : WorkflowStateMachineState :=
  ⟨js id, none, some entry, none⟩

def sampleTransition (id source target : String) : WorkflowStateMachineTransition :=
  ⟨js id, js source, js target, [], [], none⟩

/-- Two paths of one length lead from `a` to `d`, and a transition leads back. -/
def sampleMachine : WorkflowStateMachineInput where
  id := js "m"
  label := js "M"
  states := [sampleState "a" true, sampleState "b" false, sampleState "c" false,
    sampleState "d" false]
  transitions := [sampleTransition "t4" "b" "d", sampleTransition "t3" "c" "d",
    sampleTransition "t2" "a" "b", sampleTransition "t1" "a" "c", sampleTransition "t5" "d" "a"]
  provenance := none

theorem findShortestTransitionPath_exact_sample :
    ∃ machine, createWorkflowStateMachine codeUnitCompare sampleMachine = .ok machine ∧
      ∃ ts, [js "t1", js "t3"] = ts.map (·.transitionId) ∧
        IsFirstPath codeUnitCompare machine (js "a") (js "d") ts := by
  have hcreate : ∃ machine, createWorkflowStateMachine codeUnitCompare sampleMachine =
      .ok machine ∧ findShortestTransitionPath (indexWorkflowStateMachine codeUnitCompare machine)
        (js "a") (js "d") = .path [js "t1", js "t3"] := by
    refine ⟨⟨js "m", js "M", [sampleState "a" true, sampleState "b" false, sampleState "c" false,
      sampleState "d" false], [sampleTransition "t1" "a" "c", sampleTransition "t2" "a" "b",
      sampleTransition "t3" "c" "d", sampleTransition "t4" "b" "d",
      sampleTransition "t5" "d" "a"], .manual⟩, ?_, ?_⟩
    · decide
    · decide
  obtain ⟨machine, hmachine, hpath⟩ := hcreate
  exact ⟨machine, hmachine, (findShortestTransitionPath_exact consistent_codeUnitCompare hmachine
    (js "a") (js "d")).2.2.1 _ hpath⟩

end

end TestIntelligence.CoreEngine
