import Mathlib.Data.List.Chain
import TestIntelligence.CoreEngine.StepSequence

/-!
# Realisable step sequences

The validator against its purpose: a list of step claims is realisable when some
walk of the machine, from an entry state, starts with the first claimed
transition, contains the claimed ones in order and ends with the last.  The walk
loop is shown to report an error exactly when there is no such walk.
-/

namespace TestIntelligence.CoreEngine

open TestIntelligence.Js TestIntelligence.Search

/-! ## The specification -/

/-- The step indices are positive and strictly increasing. -/
structure IndicesIncrease (steps : List WorkflowStateMachineStepClaim) : Prop where
  positive : ∀ s ∈ steps, JsNumber.lt 0 s.stepIndex = true
  increasing : steps.Pairwise fun s s' ↦ s.stepIndex.lt s'.stepIndex = true

namespace WorkflowStateMachine

variable (machine : WorkflowStateMachine)

def IsEntry (state : JsString) : Prop :=
  ∃ s ∈ machine.states, s.stateId = state ∧ s.entry = some true

def IsTerminal (state : JsString) : Prop :=
  ∃ s ∈ machine.states, s.stateId = state ∧ s.terminal = some true

/-- A walk that a test case may take: it starts at an entry state and, when asked to, ends in
a terminal one. -/
def CaseWalk (terminal : Bool) (ts : List WorkflowStateMachineTransition) : Prop :=
  ∃ a b, machine.Walk a ts b ∧ machine.IsEntry a ∧ (terminal = true → machine.IsTerminal b)

/-- Some walk starts with the first claimed transition, contains the claimed ones in order and
ends with the last. -/
def Realisable (terminal : Bool) (steps : List WorkflowStateMachineStepClaim) : Prop :=
  ∃ ts, machine.CaseWalk terminal ts ∧
    (ts.map (·.transitionId)).head? = (steps.map (·.transitionId)).head? ∧
    (steps.map (·.transitionId)).Sublist (ts.map (·.transitionId)) ∧
    (ts.map (·.transitionId)).getLast? = (steps.map (·.transitionId)).getLast?

/-- The claimed transitions are such a walk themselves. -/
def Performable (terminal : Bool) (steps : List WorkflowStateMachineStepClaim) : Prop :=
  ∃ ts, machine.CaseWalk terminal ts ∧ ts.map (·.transitionId) = steps.map (·.transitionId)

/-- The issue reports a gap between two consecutive steps and a path that closes it. -/
def Bridges (steps : List WorkflowStateMachineStepClaim) (issue : WorkflowStateMachineIssue) :
    Prop :=
  ∃ s s' t t' ts, [s, s'] <:+: steps ∧
    t ∈ machine.transitions ∧ t.transitionId = s.transitionId ∧
    t' ∈ machine.transitions ∧ t'.transitionId = s'.transitionId ∧
    issue.stepIndex = some s'.stepIndex ∧ issue.statePath = [t.toState, t'.fromState] ∧
    ts ≠ [] ∧ machine.Walk t.toState ts t'.fromState ∧
    issue.transitionPath = ts.map (·.transitionId)

end WorkflowStateMachine

/-! ## Step indices -/

/-- What the index loop accepts: no index is repeated, and none is at most its predecessor. -/
structure OrderAccepted (steps : List WorkflowStateMachineStepClaim) : Prop where
  distinct : (steps.map (·.stepIndex.unsigned)).Nodup
  ascending : List.IsChain (fun x y : JsNumber ↦ y.le x = false) (0 :: steps.map (·.stepIndex))

theorem checkOrder_eq_nil_iff (input : StepSequenceInput)
    (steps : List WorkflowStateMachineStepClaim) (seen : List JsNumber) (last : JsNumber) :
    input.checkOrder steps seen last = [] ↔
      (steps.map (·.stepIndex.unsigned)).Nodup ∧ (∀ s ∈ steps, s.stepIndex.unsigned ∉ seen) ∧
      List.IsChain (fun x y : JsNumber ↦ y.le x = false) (last :: steps.map (·.stepIndex)) := by
  induction steps generalizing seen last with
  | nil => simp [StepSequenceInput.checkOrder]
  | cons step steps ih =>
      rw [StepSequenceInput.checkOrder, List.append_eq_nil_iff, ih, List.map_cons, List.map_cons,
        List.nodup_cons, List.isChain_cons_cons]
      have hnotMem : step.stepIndex.unsigned ∉ steps.map (·.stepIndex.unsigned) ↔
          ∀ s ∈ steps, s.stepIndex.unsigned ≠ step.stepIndex.unsigned := by
        simp [List.mem_map]
      have hhead : (if step.stepIndex.unsigned ∈ seen then [input.duplicateIssue step]
          else if step.stepIndex.le last then [input.outOfOrderIssue step last] else []) = [] ↔
          step.stepIndex.unsigned ∉ seen ∧ step.stepIndex.le last = false := by
        split
        · next h => simp [h]
        · next h => split <;> simp_all
      rw [hhead, hnotMem]
      simp only [mem_setAdd, not_or, List.mem_cons, forall_eq_or_imp]
      constructor
      · rintro ⟨⟨hnew, hle⟩, hnodup, hseen, hchain⟩
        exact ⟨⟨fun s hs ↦ (hseen s hs).2, hnodup⟩, ⟨hnew, fun s hs ↦ (hseen s hs).1⟩, hle, hchain⟩
      · rintro ⟨⟨hfresh, hnodup⟩, ⟨hnew, hseen⟩, hle, hchain⟩
        exact ⟨⟨hnew, hle⟩, hnodup, fun s hs ↦ ⟨hseen s hs, hfresh s hs⟩, hchain⟩

theorem checkOrder_start_eq_nil_iff (input : StepSequenceInput)
    (steps : List WorkflowStateMachineStepClaim) :
    input.checkOrder steps [] 0 = [] ↔ OrderAccepted steps := by
  rw [checkOrder_eq_nil_iff]
  constructor
  · rintro ⟨hnodup, -, hchain⟩
    exact ⟨hnodup, hchain⟩
  · rintro ⟨hnodup, hchain⟩
    exact ⟨hnodup, by simp, hchain⟩

instance : IsTrans JsNumber (fun x y ↦ x.lt y = true) := ⟨fun _ _ _ ↦ JsNumber.lt_trans⟩

theorem indicesIncrease_iff_pairwise {steps : List WorkflowStateMachineStepClaim} :
    IndicesIncrease steps ↔
      (0 :: steps.map (·.stepIndex)).Pairwise fun x y : JsNumber ↦ x.lt y = true := by
  rw [List.pairwise_cons, List.pairwise_map, List.forall_mem_map]
  exact ⟨fun h ↦ ⟨h.positive, h.increasing⟩, fun h ↦ ⟨h.1, h.2⟩⟩

theorem ne_nan_of_zero_lt {x : JsNumber} (h : JsNumber.lt 0 x = true) : x ≠ .nan := by
  rintro rfl
  revert h
  decide

/-- Without `NaN` the loop accepts exactly the positive, strictly increasing indices. -/
theorem orderAccepted_iff {steps : List WorkflowStateMachineStepClaim}
    (hnan : ∀ s ∈ steps, s.stepIndex ≠ .nan) : OrderAccepted steps ↔ IndicesIncrease steps := by
  rw [indicesIncrease_iff_pairwise]
  have hall : ∀ x ∈ (0 : JsNumber) :: steps.map (·.stepIndex), x ≠ .nan := by
    rintro x (_ | ⟨_, hx⟩)
    · exact JsNumber.zero_ne_nan
    · obtain ⟨s, hs, rfl⟩ := List.mem_map.mp hx
      exact hnan s hs
  constructor
  · rintro ⟨-, hchain⟩
    rw [← List.isChain_iff_pairwise]
    refine hchain.imp_of_mem_imp ?_
    intro x y hx hy hle
    exact JsNumber.lt_of_le_eq_false (hall y hy) (hall x hx) hle
  · intro hpairwise
    refine ⟨?_, ?_⟩
    · have htail := (List.pairwise_cons.mp hpairwise).2
      rw [List.pairwise_map] at htail
      rw [List.Nodup, List.pairwise_map]
      refine htail.imp ?_
      intro s s' hlt heq
      rw [← JsNumber.unsigned_lt, heq, JsNumber.unsigned_lt] at hlt
      have hirrefl := JsNumber.le_eq_false_of_lt hlt
      rw [JsNumber.le, hlt, Bool.true_or] at hirrefl
      cases hirrefl
    · rw [← List.isChain_iff_pairwise] at hpairwise
      exact hpairwise.imp fun x y hlt ↦ JsNumber.le_eq_false_of_lt hlt

/-- Steps with increasing indices are walked in the order in which they are listed. -/
theorem orderedSteps_eq_self {steps : List WorkflowStateMachineStepClaim}
    (h : IndicesIncrease steps) : StepSequenceInput.orderedSteps steps = steps := by
  apply List.Pairwise.insertionSort_eq
  exact h.increasing.imp fun hlt ↦ JsNumber.zero_lt_sub_eq_false hlt

/-! ## What the lookups find -/

section Walk

variable {localeCompare : JsString → JsString → ℤ} {machine : WorkflowStateMachine}
  {input : StepSequenceInput}

theorem resolve_iff (h : machine.Accepted)
    (hindex : input.index = indexWorkflowStateMachine localeCompare machine)
    {transitionId : JsString} {t : WorkflowStateMachineTransition} :
    mapGet input.index.transitionsById transitionId = some t ↔
      t ∈ machine.transitions ∧ t.transitionId = transitionId := by
  rw [hindex, mapGet_transitionsById h, find?_key_eq_some_iff h.transitions_nodup]

/-- A flag of a declared state, read through the index. -/
theorem flag_iff (h : machine.Accepted)
    (hindex : input.index = indexWorkflowStateMachine localeCompare machine)
    (flag : WorkflowStateMachineState → Option Bool) {state : JsString} :
    (mapGet input.index.statesById state).bind flag = some true ↔
      ∃ s ∈ machine.states, s.stateId = state ∧ flag s = some true := by
  rw [hindex, mapGet_statesById h, Option.bind_eq_some_iff]
  simp only [find?_key_eq_some_iff h.states_nodup, and_assoc]

theorem entryIssues_eq_nil_iff (h : machine.Accepted)
    (hindex : input.index = indexWorkflowStateMachine localeCompare machine)
    {step : WorkflowStateMachineStepClaim} {t : WorkflowStateMachineTransition} :
    input.entryIssues step t = [] ↔ machine.IsEntry t.fromState := by
  rw [WorkflowStateMachine.IsEntry, ← flag_iff h hindex, StepSequenceInput.entryIssues]
  split
  · next hentry => exact iff_of_true rfl hentry
  · next hentry => exact iff_of_false (List.cons_ne_nil _ _) hentry

theorem severity_of_mem_entryIssues {step : WorkflowStateMachineStepClaim}
    {t : WorkflowStateMachineTransition} {i : WorkflowStateMachineIssue}
    (hi : i ∈ input.entryIssues step t) :
    i.severity = .error ∧ i.code ≠ .missingIntermediateStep := by
  rw [StepSequenceInput.entryIssues] at hi
  split at hi
  · simp at hi
  · rw [List.mem_singleton.mp hi]
    exact ⟨rfl, fun h ↦ by cases h⟩

theorem terminalIssues_eq_nil_iff (h : machine.Accepted)
    (hindex : input.index = indexWorkflowStateMachine localeCompare machine)
    {w : StepSequenceInput.Walker} {c : JsString} (hc : w.cursorState = some c)
    (finalStepIndex : Option JsNumber) :
    input.terminalIssues w finalStepIndex = [] ↔
      (input.requiresTerminal = true → machine.IsTerminal c) := by
  rw [WorkflowStateMachine.IsTerminal, ← flag_iff h hindex, StepSequenceInput.terminalIssues, hc]
  dsimp only
  split
  · next hnot =>
      refine iff_of_false (List.cons_ne_nil _ _) ?_
      exact fun hterminal ↦ hnot.2 (hterminal hnot.1)
  · next hterminal =>
      refine iff_of_true rfl fun hrequired ↦ ?_
      exact by_contra fun hnot ↦ hterminal ⟨hrequired, hnot⟩

theorem severity_of_mem_terminalIssues {w : StepSequenceInput.Walker}
    {finalStepIndex : Option JsNumber} {i : WorkflowStateMachineIssue}
    (hi : i ∈ input.terminalIssues w finalStepIndex) :
    i.severity = .error ∧ i.code ≠ .missingIntermediateStep := by
  rw [StepSequenceInput.terminalIssues] at hi
  split at hi
  · simp at hi
  · split at hi
    · rw [List.mem_singleton.mp hi]
      exact ⟨rfl, fun h ↦ by cases h⟩
    · simp at hi

theorem mem_checkOrder {steps : List WorkflowStateMachineStepClaim} {seen : List JsNumber}
    {last : JsNumber} {i : WorkflowStateMachineIssue} (hi : i ∈ input.checkOrder steps seen last) :
    i.severity = .error ∧ i.code ≠ .missingIntermediateStep := by
  induction steps generalizing seen last with
  | nil => simp [StepSequenceInput.checkOrder] at hi
  | cons step steps ih =>
      rw [StepSequenceInput.checkOrder] at hi
      rcases List.mem_append.mp hi with hi | hi
      · split at hi
        · rw [List.mem_singleton.mp hi]
          exact ⟨rfl, nofun⟩
        · split at hi
          · rw [List.mem_singleton.mp hi]
            exact ⟨rfl, nofun⟩
          · simp at hi
      · exact ih hi

/-! ## Gaps -/

/-- What the gap check reports between the post-state of a step and the next transition. -/
theorem gapIssues_cases (h : machine.Accepted)
    (hindex : input.index = indexWorkflowStateMachine localeCompare machine)
    (step : WorkflowStateMachineStepClaim) {c : JsString} {t : WorkflowStateMachineTransition}
    (hc : c ∈ machine.states.map (·.stateId)) (ht : t ∈ machine.transitions) :
    (c = t.fromState ∧ input.gapIssues step c t = []) ∨
    (c ≠ t.fromState ∧ ∃ i ts, input.gapIssues step c t = [i] ∧ machine.Walk c ts t.fromState ∧
      ts ≠ [] ∧ i.severity = .warning ∧ i.code = .missingIntermediateStep ∧
      i.stepIndex = some step.stepIndex ∧ i.statePath = [c, t.fromState] ∧
      i.transitionPath = ts.map (·.transitionId)) ∨
    (c ≠ t.fromState ∧ (∀ ts, ¬ machine.Walk c ts t.fromState) ∧
      ∃ i, input.gapIssues step c t = [i] ∧ i.severity = .error ∧
        i.code ≠ .missingIntermediateStep) := by
  rw [StepSequenceInput.gapIssues]
  by_cases heq : c = t.fromState
  · exact Or.inl ⟨heq, if_pos heq⟩
  · rw [if_neg heq, hindex]
    rcases findShortestTransitionPath_spec h hc (h.from_declared t ht) heq with
      ⟨ts, hfound, hwalk⟩ | ⟨hnone, hno⟩
    · refine Or.inr (Or.inl ⟨heq, _, ts, by rw [hfound], hwalk, ?_, rfl, rfl, rfl, rfl, rfl⟩)
      rintro rfl
      exact heq hwalk
    · refine Or.inr (Or.inr ⟨heq, hno, _, by rw [hnone], rfl, ?_⟩)
      exact nofun

/-! ## The walk loop -/

/-- The transitions that the steps claim. -/
def Resolves (machine : WorkflowStateMachine) (steps : List WorkflowStateMachineStepClaim)
    (ts : List WorkflowStateMachineTransition) : Prop :=
  (∀ t ∈ ts, t ∈ machine.transitions) ∧ ts.map (·.transitionId) = steps.map (·.transitionId)

/-- Each transition starts across an admissible gap from where the one before it ended. -/
def Linked (gap : JsString → JsString → Prop) :
    JsString → List WorkflowStateMachineTransition → Prop
  | _, [] => True
  | c, t :: ts => gap c t.fromState ∧ Linked gap t.toState ts

/-- The state after the transitions. -/
def endState (c : JsString) (ts : List WorkflowStateMachineTransition) : JsString :=
  ts.foldl (fun _ t ↦ t.toState) c

theorem resolves_cons {step : WorkflowStateMachineStepClaim}
    {steps : List WorkflowStateMachineStepClaim} {ts : List WorkflowStateMachineTransition} :
    Resolves machine (step :: steps) ts ↔ ∃ t ts', ts = t :: ts' ∧ t ∈ machine.transitions ∧
      t.transitionId = step.transitionId ∧ Resolves machine steps ts' := by
  constructor
  · rintro ⟨hmem, hids⟩
    cases ts with
    | nil => cases hids
    | cons t ts =>
        obtain ⟨hid, hids⟩ := List.cons_eq_cons.mp hids
        exact ⟨t, ts, rfl, hmem t List.mem_cons_self, hid,
          fun u hu ↦ hmem u (List.mem_cons_of_mem _ hu), hids⟩
  · rintro ⟨t, ts', rfl, ht, hid, hmem, hids⟩
    refine ⟨?_, by rw [List.map_cons, List.map_cons, hid, hids]⟩
    rintro u (_ | ⟨_, hu⟩)
    · exact ht
    · exact hmem u hu

theorem walkStep_unknown {w : StepSequenceInput.Walker} {step : WorkflowStateMachineStepClaim}
    (hnone : mapGet input.index.transitionsById step.transitionId = none) :
    (input.walkStep w step).issues = w.issues ++ [input.unknownIssue step] ∧
      (input.walkStep w step).cursorState = none := by
  simp [StepSequenceInput.walkStep, hnone]

theorem walkStep_known {w : StepSequenceInput.Walker} {step : WorkflowStateMachineStepClaim}
    {t : WorkflowStateMachineTransition}
    (hsome : mapGet input.index.transitionsById step.transitionId = some t) :
    (input.walkStep w step).issues = (input.approach w step t).issues ∧
      (input.walkStep w step).cursorState = some t.toState := by
  simp [StepSequenceInput.walkStep, hsome]

theorem firstStepHandled_walkStep (w : StepSequenceInput.Walker)
    (step : WorkflowStateMachineStepClaim) :
    (input.walkStep w step).firstStepHandled = true := by
  unfold StepSequenceInput.walkStep StepSequenceInput.approach
  split
  · rfl
  · dsimp only
    split
    · rfl
    · next hhandled => split <;> simpa using hhandled

theorem approach_issues {w : StepSequenceInput.Walker} (hw : w.firstStepHandled = true)
    {c : JsString} (hc : w.cursorState = some c) (step : WorkflowStateMachineStepClaim)
    (t : WorkflowStateMachineTransition) :
    (input.approach w step t).issues = w.issues ++ input.gapIssues step c t := by
  simp [StepSequenceInput.approach, hw, hc]

/-- The walk only adds issues. -/
theorem issues_prefix_walkStep (w : StepSequenceInput.Walker)
    (step : WorkflowStateMachineStepClaim) : w.issues <+: (input.walkStep w step).issues := by
  unfold StepSequenceInput.walkStep StepSequenceInput.approach
  split
  · exact List.prefix_append _ _
  · dsimp only
    split
    · exact List.prefix_append _ _
    · split
      · exact List.prefix_rfl
      · exact List.prefix_append _ _

theorem issues_prefix_foldl (w : StepSequenceInput.Walker)
    (steps : List WorkflowStateMachineStepClaim) :
    w.issues <+: (steps.foldl input.walkStep w).issues := by
  induction steps generalizing w with
  | nil => exact List.prefix_rfl
  | cons step steps ih => exact (issues_prefix_walkStep w step).trans (ih _)

section Judged

variable {bad : WorkflowStateMachineIssue → Prop} {gap : JsString → JsString → Prop}

/-- From a known state, the walk reports nothing bad exactly when the claims name transitions
of the machine that follow each other across admissible gaps. -/
theorem foldl_passes_iff (h : machine.Accepted)
    (hindex : input.index = indexWorkflowStateMachine localeCompare machine)
    (hunknown : ∀ step, bad (input.unknownIssue step))
    (hgap : ∀ step c t, c ∈ machine.states.map (·.stateId) → t ∈ machine.transitions →
      ((∀ i ∈ input.gapIssues step c t, ¬ bad i) ↔ gap c t.fromState))
    (steps : List WorkflowStateMachineStepClaim) {w : StepSequenceInput.Walker}
    (hw : w.firstStepHandled = true) {c : JsString} (hcursor : w.cursorState = some c)
    (hc : c ∈ machine.states.map (·.stateId)) :
    (∀ i ∈ (steps.foldl input.walkStep w).issues, ¬ bad i) ↔
      (∀ i ∈ w.issues, ¬ bad i) ∧ ∃ ts, Resolves machine steps ts ∧ Linked gap c ts := by
  induction steps generalizing w c with
  | nil =>
      constructor
      · exact fun hpass ↦ ⟨hpass, [], ⟨by simp, rfl⟩, trivial⟩
      · exact fun hpass ↦ hpass.1
  | cons step steps ih =>
      rw [List.foldl_cons]
      simp only [resolves_cons]
      cases hget : mapGet input.index.transitionsById step.transitionId with
      | none =>
          refine iff_of_false (fun hpass ↦ ?_) ?_
          · refine hpass _ ((issues_prefix_foldl _ steps).subset ?_) (hunknown step)
            rw [(walkStep_unknown hget).1]
            exact List.mem_append_right _ (List.mem_singleton_self _)
          · rintro ⟨-, _, ⟨t, _, -, ht, hid, -⟩, -⟩
            rw [(resolve_iff h hindex).mpr ⟨ht, hid⟩] at hget
            cases hget
      | some t =>
          obtain ⟨ht, hid⟩ := (resolve_iff h hindex).mp hget
          obtain ⟨hissues, hnext⟩ := walkStep_known (w := w) hget
          rw [ih (firstStepHandled_walkStep w step) hnext (h.to_declared t ht), hissues,
            approach_issues hw hcursor, List.forall_mem_append, hgap step c t hc ht]
          constructor
          · rintro ⟨⟨hpass, hopen⟩, ts, hts, hlinked⟩
            exact ⟨hpass, t :: ts, ⟨t, ts, rfl, ht, hid, hts⟩, hopen, hlinked⟩
          · rintro ⟨hpass, _, ⟨t', ts, rfl, ht', hid', hts⟩, hopen, hlinked⟩
            obtain rfl : t' = t := by
              have hget' := (resolve_iff h hindex).mpr ⟨ht', hid'⟩
              exact Option.some.inj (hget'.symm.trans hget)
            exact ⟨⟨hpass, hopen⟩, ts, hts, hlinked⟩

/-- Claims that name transitions of the machine leave the cursor at the end of the last one. -/
theorem cursorState_foldl (h : machine.Accepted)
    (hindex : input.index = indexWorkflowStateMachine localeCompare machine)
    {steps : List WorkflowStateMachineStepClaim} {ts : List WorkflowStateMachineTransition}
    (hts : Resolves machine steps ts) {w : StepSequenceInput.Walker} {c : JsString}
    (hcursor : w.cursorState = some c) :
    (steps.foldl input.walkStep w).cursorState = some (endState c ts) := by
  induction steps generalizing w c ts with
  | nil =>
      obtain rfl : ts = [] := List.map_eq_nil_iff.mp hts.2
      exact hcursor
  | cons step steps ih =>
      obtain ⟨t, ts, rfl, ht, hid, hts⟩ := resolves_cons.mp hts
      exact ih hts (walkStep_known ((resolve_iff h hindex).mpr ⟨ht, hid⟩)).2

/-- The issues of the walk and of the terminal check. -/
def walkIssues (input : StepSequenceInput) (steps : List WorkflowStateMachineStepClaim)
    (finalStepIndex : Option JsNumber) : List WorkflowStateMachineIssue :=
  let w := steps.foldl input.walkStep StepSequenceInput.Walker.start
  w.issues ++ input.terminalIssues w finalStepIndex

theorem walkIssues_pass_iff (h : machine.Accepted)
    (hindex : input.index = indexWorkflowStateMachine localeCompare machine)
    (hbad : ∀ i : WorkflowStateMachineIssue, i.severity = .error → bad i)
    (hgap : ∀ step c t, c ∈ machine.states.map (·.stateId) → t ∈ machine.transitions →
      ((∀ i ∈ input.gapIssues step c t, ¬ bad i) ↔ gap c t.fromState))
    {steps : List WorkflowStateMachineStepClaim} (hsteps : steps ≠ [])
    (finalStepIndex : Option JsNumber) :
    (∀ i ∈ walkIssues input steps finalStepIndex, ¬ bad i) ↔
      ∃ t ts, Resolves machine steps (t :: ts) ∧ machine.IsEntry t.fromState ∧
        Linked gap t.toState ts ∧
        (input.requiresTerminal = true → machine.IsTerminal (endState t.toState ts)) := by
  obtain ⟨step, steps, rfl⟩ := List.exists_cons_of_ne_nil hsteps
  have hnil : ∀ {issues : List WorkflowStateMachineIssue},
      (∀ i ∈ issues, i.severity = .error ∧ i.code ≠ .missingIntermediateStep) →
      ((∀ i ∈ issues, ¬ bad i) ↔ issues = []) := by
    intro issues hissues
    rw [List.eq_nil_iff_forall_not_mem]
    constructor
    · exact fun hpass i hi ↦ hpass i hi (hbad i (hissues i hi).1)
    · exact fun hempty i hi ↦ absurd hi (hempty i)
  rw [walkIssues, List.forall_mem_append,
    hnil (fun i hi ↦ severity_of_mem_terminalIssues hi), List.foldl_cons]
  cases hget : mapGet input.index.transitionsById step.transitionId with
  | none =>
      refine iff_of_false (fun hpass ↦ ?_) ?_
      · refine hpass.1 _ ((issues_prefix_foldl _ steps).subset ?_) (hbad (input.unknownIssue step) rfl)
        rw [(walkStep_unknown hget).1]
        exact List.mem_append_right _ (List.mem_singleton_self _)
      · rintro ⟨t, ts, hts, -⟩
        obtain ⟨t', ts', -, ht, hid, -⟩ := resolves_cons.mp hts
        rw [(resolve_iff h hindex).mpr ⟨ht, hid⟩] at hget
        cases hget
  | some t =>
      obtain ⟨ht, hid⟩ := (resolve_iff h hindex).mp hget
      obtain ⟨hissues, hcursor⟩ := walkStep_known (w := StepSequenceInput.Walker.start) hget
      have hentry : (input.approach StepSequenceInput.Walker.start step t).issues =
          input.entryIssues step t := rfl
      rw [foldl_passes_iff h hindex (fun step ↦ hbad (input.unknownIssue step) rfl) hgap steps
        (firstStepHandled_walkStep _ step) hcursor (h.to_declared t ht), hissues, hentry,
        hnil (fun i hi ↦ severity_of_mem_entryIssues hi), entryIssues_eq_nil_iff h hindex]
      constructor
      · rintro ⟨⟨hstart, ts, hts, hlinked⟩, hend⟩
        refine ⟨t, ts, resolves_cons.mpr ⟨t, ts, rfl, ht, hid, hts⟩, hstart, hlinked, ?_⟩
        exact (terminalIssues_eq_nil_iff h hindex (cursorState_foldl h hindex hts hcursor) _).mp hend
      · rintro ⟨t', ts, hts, hstart, hlinked, hend⟩
        obtain ⟨u, us, heq, hu, huid, hts⟩ := resolves_cons.mp hts
        obtain ⟨rfl, rfl⟩ := List.cons_eq_cons.mp heq
        obtain rfl : t' = t := by
          have hget' := (resolve_iff h hindex).mpr ⟨hu, huid⟩
          exact Option.some.inj (hget'.symm.trans hget)
        refine ⟨⟨hstart, ts, hts, hlinked⟩, ?_⟩
        exact (terminalIssues_eq_nil_iff h hindex (cursorState_foldl h hindex hts hcursor) _).mpr hend

end Judged

/-! ## Linked transitions and walks -/

theorem endState_eq_of_walk {a b : JsString} {ts : List WorkflowStateMachineTransition}
    (hwalk : machine.Walk a ts b) : endState a ts = b := by
  induction ts generalizing a with
  | nil => exact hwalk
  | cons t ts ih => exact ih (walk_cons.mp hwalk).2.2

theorem mem_transitions_of_walk {a b : JsString} {ts : List WorkflowStateMachineTransition}
    (hwalk : machine.Walk a ts b) {t : WorkflowStateMachineTransition} (ht : t ∈ ts) :
    t ∈ machine.transitions := by
  induction ts generalizing a with
  | nil => simp at ht
  | cons u ts ih =>
      obtain ⟨hu, -, hrest⟩ := walk_cons.mp hwalk
      rcases List.mem_cons.mp ht with rfl | ht
      · exact hu
      · exact ih hrest ht

theorem endState_eq_of_getLast? {c c' : JsString} {ts us : List WorkflowStateMachineTransition}
    {t u : WorkflowStateMachineTransition} (h : (t :: ts).getLast? = (u :: us).getLast?) :
    endState c (t :: ts) = endState c' (u :: us) := by
  have hend : ∀ (c : JsString) (t : WorkflowStateMachineTransition)
      (ts : List WorkflowStateMachineTransition),
      some (endState c (t :: ts)) = (t :: ts).getLast?.map (·.toState) := by
    intro c t ts
    induction ts generalizing c t with
    | nil => rfl
    | cons v ts ih =>
        rw [List.getLast?_cons_cons]
        exact ih t.toState v
  exact Option.some.inj ((hend c t ts).trans (h ▸ (hend c' u us).symm))

/-- Transitions found in order along a walk follow each other across walks. -/
theorem linked_of_sublist {c b : JsString} {ts ws : List WorkflowStateMachineTransition}
    (hwalk : machine.Walk c ws b) (hsub : ts.Sublist ws) :
    Linked (fun a a' ↦ ∃ es, machine.Walk a es a') c ts := by
  induction ts generalizing c ws with
  | nil => trivial
  | cons t ts ih =>
      obtain ⟨before, after, rfl, ht, hrest⟩ := List.cons_sublist_iff.mp hsub
      obtain ⟨es, rest, rfl⟩ := List.append_of_mem ht
      rw [List.append_assoc, List.cons_append] at hwalk
      obtain ⟨mid, hes, hmid⟩ := isWalk_append.mp hwalk
      obtain ⟨-, rfl, htail⟩ := walk_cons.mp hmid
      exact ⟨⟨es, hes⟩, ih htail (hrest.trans (List.sublist_append_right _ _))⟩

/-- Transitions that follow each other across walks are found in order along one walk, which
ends with the last of them. -/
theorem exists_walk_of_linked {c : JsString} {ts : List WorkflowStateMachineTransition}
    (hmem : ∀ t ∈ ts, t ∈ machine.transitions)
    (hlinked : Linked (fun a a' ↦ ∃ es, machine.Walk a es a') c ts) :
    ∃ ws, machine.Walk c ws (endState c ts) ∧ ts.Sublist ws ∧
      ∀ u : WorkflowStateMachineTransition, (u :: ws).getLast? = (u :: ts).getLast? := by
  induction ts generalizing c with
  | nil => exact ⟨[], rfl, List.Sublist.refl _, fun _ ↦ rfl⟩
  | cons t ts ih =>
      obtain ⟨⟨es, hes⟩, hlinked⟩ := hlinked
      obtain ⟨ws, hws, hsub, hlast⟩ := ih (fun u hu ↦ hmem u (List.mem_cons_of_mem _ hu)) hlinked
      refine ⟨es ++ t :: ws, isWalk_append.mpr ⟨t.fromState, hes, ?_⟩, ?_, ?_⟩
      · exact walk_cons.mpr ⟨hmem t List.mem_cons_self, rfl, hws⟩
      · exact (hsub.cons_cons t).trans (List.sublist_append_right _ _)
      · intro u
        rw [← List.cons_append, List.getLast?_append_cons, hlast t, List.getLast?_cons_cons]

theorem linked_eq_iff {c : JsString} {ts : List WorkflowStateMachineTransition}
    (hmem : ∀ t ∈ ts, t ∈ machine.transitions) :
    Linked (· = ·) c ts ↔ machine.Walk c ts (endState c ts) := by
  induction ts generalizing c with
  | nil => exact iff_of_true trivial rfl
  | cons t ts ih =>
      rw [Linked, walk_cons, ih fun u hu ↦ hmem u (List.mem_cons_of_mem _ hu)]
      constructor
      · rintro ⟨rfl, hwalk⟩
        exact ⟨hmem t List.mem_cons_self, rfl, hwalk⟩
      · rintro ⟨-, rfl, hwalk⟩
        exact ⟨rfl, hwalk⟩

theorem realisable_iff (h : machine.Accepted) {steps : List WorkflowStateMachineStepClaim}
    (hsteps : steps ≠ []) {terminal : Bool} :
    machine.Realisable terminal steps ↔
      ∃ t ts, Resolves machine steps (t :: ts) ∧ machine.IsEntry t.fromState ∧
        Linked (fun a a' ↦ ∃ es, machine.Walk a es a') t.toState ts ∧
        (terminal = true → machine.IsTerminal (endState t.toState ts)) := by
  obtain ⟨step, steps, rfl⟩ := List.exists_cons_of_ne_nil hsteps
  constructor
  · rintro ⟨ws, ⟨a, b, hwalk, hentry, hend⟩, hhead, hsub, hlast⟩
    cases ws with
    | nil => cases hhead
    | cons t ws =>
        have hid : t.transitionId = step.transitionId := Option.some.inj hhead
        obtain ⟨ht, rfl, hrest⟩ := walk_cons.mp hwalk
        have htail : (steps.map (·.transitionId)).Sublist (ws.map (·.transitionId)) := hsub.tail
        obtain ⟨ts, hts, hids⟩ := List.sublist_map_iff.mp htail
        have hmem : ∀ u ∈ t :: ts, u ∈ machine.transitions := by
          intro u hu
          apply mem_transitions_of_walk hwalk
          exact (hts.cons_cons t).subset hu
        refine ⟨t, ts, ⟨hmem, ?_⟩, hentry, linked_of_sublist hrest hts, fun hterminal ↦ ?_⟩
        · rw [List.map_cons, List.map_cons, hid, hids]
        · have hlastIds : (t :: ts).getLast?.map (·.transitionId) =
              (t :: ws).getLast?.map (·.transitionId) := by
            rw [← List.getLast?_map, ← List.getLast?_map, hlast, List.map_cons, List.map_cons, hid,
              hids]
          have hlasts : (t :: ts).getLast? = (t :: ws).getLast? := by
            have hu := List.getLast?_eq_some_getLast (List.cons_ne_nil t ts)
            have hv := List.getLast?_eq_some_getLast (List.cons_ne_nil t ws)
            rw [hu, hv] at hlastIds ⊢
            congr 1
            apply List.inj_on_of_nodup_map h.transitions_nodup
            · exact hmem _ (List.mem_of_getLast? hu)
            · exact mem_transitions_of_walk hwalk (List.mem_of_getLast? hv)
            · exact Option.some.inj hlastIds
          have heq : endState t.toState ts = b := by
            rw [← endState_eq_of_walk hwalk]
            exact endState_eq_of_getLast? (c := t.fromState) hlasts
          rw [heq]
          exact hend hterminal
  · rintro ⟨t, ts, hts, hentry, hlinked, hend⟩
    obtain ⟨hmem, hids⟩ := hts
    obtain ⟨ws, hws, hsub, hlast⟩ :=
      exists_walk_of_linked (fun u hu ↦ hmem u (List.mem_cons_of_mem _ hu)) hlinked
    refine ⟨t :: ws, ⟨t.fromState, _, ?_, hentry, hend⟩, ?_, ?_, ?_⟩
    · exact walk_cons.mpr ⟨hmem t List.mem_cons_self, rfl, hws⟩
    · rw [← hids, List.map_cons, List.map_cons, List.head?_cons, List.head?_cons]
    · rw [← hids]
      exact (hsub.cons_cons t).map _
    · rw [← hids, List.getLast?_map, List.getLast?_map, hlast t]

theorem performable_iff {steps : List WorkflowStateMachineStepClaim} (hsteps : steps ≠ [])
    {terminal : Bool} :
    machine.Performable terminal steps ↔
      ∃ t ts, Resolves machine steps (t :: ts) ∧ machine.IsEntry t.fromState ∧
        Linked (· = ·) t.toState ts ∧
        (terminal = true → machine.IsTerminal (endState t.toState ts)) := by
  constructor
  · rintro ⟨ts, ⟨a, b, hwalk, hentry, hend⟩, hids⟩
    cases ts with
    | nil => exact absurd (List.map_eq_nil_iff.mp hids.symm) hsteps
    | cons t ts =>
        obtain ⟨ht, rfl, hrest⟩ := walk_cons.mp hwalk
        have heq := endState_eq_of_walk hrest
        have hmem : ∀ u ∈ t :: ts, u ∈ machine.transitions :=
          fun u hu ↦ mem_transitions_of_walk hwalk hu
        refine ⟨t, ts, ⟨hmem, hids⟩, hentry, ?_, heq ▸ hend⟩
        rw [linked_eq_iff fun u hu ↦ hmem u (List.mem_cons_of_mem _ hu), heq]
        exact hrest
  · rintro ⟨t, ts, ⟨hmem, hids⟩, hentry, hlinked, hend⟩
    refine ⟨t :: ts, ⟨t.fromState, _, ?_, hentry, hend⟩, hids⟩
    rw [linked_eq_iff fun u hu ↦ hmem u (List.mem_cons_of_mem _ hu)] at hlinked
    exact walk_cons.mpr ⟨hmem t List.mem_cons_self, rfl, hlinked⟩

theorem realisable_of_performable {steps : List WorkflowStateMachineStepClaim} {terminal : Bool}
    (h : machine.Performable terminal steps) : machine.Realisable terminal steps := by
  obtain ⟨ts, hwalk, hids⟩ := h
  exact ⟨ts, hwalk, by rw [hids], by rw [hids], by rw [hids]⟩

/-! ## Bridged gaps -/

/-- An issue about a missing step was there before, or is about the gap in front of the first
step, or about the gap between two consecutive steps. -/
theorem missing_of_mem_foldl (h : machine.Accepted)
    (hindex : input.index = indexWorkflowStateMachine localeCompare machine)
    {steps : List WorkflowStateMachineStepClaim} {w : StepSequenceInput.Walker}
    {i : WorkflowStateMachineIssue} (hi : i ∈ (steps.foldl input.walkStep w).issues)
    (hcode : i.code = .missingIntermediateStep) :
    i ∈ w.issues ∨
    (∃ c s rest t, w.cursorState = some c ∧ steps = s :: rest ∧ t ∈ machine.transitions ∧
      t.transitionId = s.transitionId ∧ i ∈ input.gapIssues s c t) ∨
    (∃ s s' t t', [s, s'] <:+: steps ∧ t ∈ machine.transitions ∧
      t.transitionId = s.transitionId ∧ t' ∈ machine.transitions ∧
      t'.transitionId = s'.transitionId ∧ i ∈ input.gapIssues s' t.toState t') := by
  induction steps generalizing w with
  | nil => exact Or.inl hi
  | cons step steps ih =>
      rw [List.foldl_cons] at hi
      cases hget : mapGet input.index.transitionsById step.transitionId with
      | none =>
          obtain ⟨hissues, hcursor⟩ := walkStep_unknown (w := w) hget
          rcases ih hi with hi | ⟨c, _, _, _, hc, -⟩ | ⟨s, s', t, t', hinfix, hrest⟩
          · rw [hissues, List.mem_append, List.mem_singleton] at hi
            rcases hi with hi | rfl
            · exact Or.inl hi
            · cases hcode
          · rw [hcursor] at hc
            cases hc
          · exact Or.inr (Or.inr ⟨s, s', t, t', hinfix.trans (List.suffix_cons _ _).isInfix, hrest⟩)
      | some t =>
          obtain ⟨ht, hid⟩ := (resolve_iff h hindex).mp hget
          obtain ⟨hissues, hcursor⟩ := walkStep_known (w := w) hget
          rcases ih hi with hi | ⟨c, s, rest, t', hc, rfl, ht', hid', hgap⟩ |
            ⟨s, s', t, t', hinfix, hrest⟩
          · rw [hissues, StepSequenceInput.approach] at hi
            split at hi
            · rcases List.mem_append.mp hi with hi | hi
              · exact Or.inl hi
              · exact absurd hcode (severity_of_mem_entryIssues hi).2
            · split at hi
              · exact Or.inl hi
              · next c hc =>
                  rcases List.mem_append.mp hi with hi | hi
                  · exact Or.inl hi
                  · exact Or.inr (Or.inl ⟨c, step, steps, t, hc, rfl, ht, hid, hi⟩)
          · obtain rfl : t.toState = c := Option.some.inj (hcursor.symm.trans hc)
            refine Or.inr (Or.inr ⟨step, s, t, t', ?_, ht, hid, ht', hid', hgap⟩)
            exact (List.prefix_append [step, s] rest).isInfix
          · exact Or.inr (Or.inr ⟨s, s', t, t', hinfix.trans (List.suffix_cons _ _).isInfix, hrest⟩)

theorem bridges_of_mem_walkIssues (h : machine.Accepted)
    (hindex : input.index = indexWorkflowStateMachine localeCompare machine)
    {steps : List WorkflowStateMachineStepClaim} {finalStepIndex : Option JsNumber}
    {i : WorkflowStateMachineIssue} (hi : i ∈ walkIssues input steps finalStepIndex)
    (hcode : i.code = .missingIntermediateStep) : machine.Bridges steps i := by
  rcases List.mem_append.mp hi with hi | hi
  · rcases missing_of_mem_foldl h hindex hi hcode with hi | ⟨c, _, _, _, hc, -⟩ |
      ⟨s, s', t, t', hinfix, ht, hid, ht', hid', hgap⟩
    · simp [StepSequenceInput.Walker.start] at hi
    · cases hc
    · rcases gapIssues_cases h hindex s' (h.to_declared t ht) ht' with
        ⟨-, hnil⟩ | ⟨-, j, ts, heq, hwalk, hne, -, -, hstep, hpath, htransitions⟩ |
          ⟨-, -, j, heq, -, hother⟩
      · simp [hnil] at hgap
      · rw [heq, List.mem_singleton] at hgap
        subst hgap
        exact ⟨s, s', t, t', ts, hinfix, ht, hid, ht', hid', hstep, hpath, hne, hwalk, htransitions⟩
      · rw [heq, List.mem_singleton] at hgap
        exact absurd (hgap ▸ hcode) hother
  · exact absurd hcode (severity_of_mem_terminalIssues hi).2

/-! ## The report -/

theorem mem_issues_iff {i : WorkflowStateMachineIssue} (hsteps : input.steps ≠ []) :
    i ∈ (validateStepSequenceAgainstStateMachine localeCompare input).issues ↔
      i ∈ input.checkOrder input.steps [] 0 ∨
        (OrderAccepted input.steps ∧
          i ∈ walkIssues input (StepSequenceInput.orderedSteps input.steps)
            ((StepSequenceInput.orderedSteps input.steps).getLast?.map (·.stepIndex))) := by
  have hlength : 0 < input.steps.length := List.length_pos_iff.mpr hsteps
  unfold validateStepSequenceAgainstStateMachine
  dsimp only
  rw [List.mem_insertionSort, List.append_assoc, List.mem_append]
  by_cases horder : OrderAccepted input.steps
  · rw [if_pos ⟨(checkOrder_start_eq_nil_iff input _).mpr horder, hlength⟩]
    simp only [horder, true_and]
    exact Iff.rfl
  · rw [if_neg fun hnil ↦ horder ((checkOrder_start_eq_nil_iff input _).mp hnil.1)]
    simp [horder, StepSequenceInput.Walker.start, StepSequenceInput.terminalIssues]

theorem orderedSteps_ne_nil {steps : List WorkflowStateMachineStepClaim} (hsteps : steps ≠ []) :
    StepSequenceInput.orderedSteps steps ≠ [] := by
  intro hnil
  apply hsteps
  rw [← List.length_eq_zero_iff] at hnil ⊢
  simpa [StepSequenceInput.orderedSteps] using hnil

/-- No issue of a judged kind is reported exactly when the indices are accepted and the steps,
in the order of the indices, follow each other across admissible gaps. -/
theorem issues_pass_iff (h : machine.Accepted)
    (hindex : input.index = indexWorkflowStateMachine localeCompare machine)
    (bad : WorkflowStateMachineIssue → Prop) {gap : JsString → JsString → Prop}
    (hbad : ∀ i : WorkflowStateMachineIssue, i.severity = .error → bad i)
    (hgap : ∀ step c t, c ∈ machine.states.map (·.stateId) → t ∈ machine.transitions →
      ((∀ i ∈ input.gapIssues step c t, ¬ bad i) ↔ gap c t.fromState))
    (hsteps : input.steps ≠ []) :
    (∀ i ∈ (validateStepSequenceAgainstStateMachine localeCompare input).issues, ¬ bad i) ↔
      OrderAccepted input.steps ∧ ∃ t ts,
        Resolves machine (StepSequenceInput.orderedSteps input.steps) (t :: ts) ∧
        machine.IsEntry t.fromState ∧ Linked gap t.toState ts ∧
        (input.requiresTerminal = true → machine.IsTerminal (endState t.toState ts)) := by
  rw [← walkIssues_pass_iff h hindex hbad hgap (orderedSteps_ne_nil hsteps)
    ((StepSequenceInput.orderedSteps input.steps).getLast?.map (·.stepIndex))]
  simp only [mem_issues_iff hsteps]
  constructor
  · intro hpass
    have horder : OrderAccepted input.steps := by
      rw [← checkOrder_start_eq_nil_iff input, List.eq_nil_iff_forall_not_mem]
      exact fun i hi ↦ hpass i (Or.inl hi) (hbad i (mem_checkOrder hi).1)
    exact ⟨horder, fun i hi ↦ hpass i (Or.inr ⟨horder, hi⟩)⟩
  · rintro ⟨horder, hpass⟩ i (hi | ⟨-, hi⟩)
    · rw [(checkOrder_start_eq_nil_iff input _).mpr horder] at hi
      simp at hi
    · exact hpass i hi

theorem blocked_eq_false_iff (h : machine.Accepted)
    (hindex : input.index = indexWorkflowStateMachine localeCompare machine)
    (hsteps : input.steps ≠ []) :
    (validateStepSequenceAgainstStateMachine localeCompare input).blocked = false ↔
      OrderAccepted input.steps ∧ machine.Realisable input.requiresTerminal
        (StepSequenceInput.orderedSteps input.steps) := by
  rw [realisable_iff h (orderedSteps_ne_nil hsteps),
    ← issues_pass_iff h hindex (fun i ↦ i.severity = .error) (fun _ hi ↦ hi) _ hsteps]
  · have hblocked : (validateStepSequenceAgainstStateMachine localeCompare input).blocked =
        (validateStepSequenceAgainstStateMachine localeCompare input).issues.any
          (·.severity = .error) := rfl
    rw [hblocked, List.any_eq_false]
    simp
  · intro step c t hc ht
    rcases gapIssues_cases h hindex step hc ht with ⟨rfl, hnil⟩ |
      ⟨-, j, ts, heq, hwalk, -, hwarning, -⟩ | ⟨-, hno, j, heq, herror, -⟩
    · rw [hnil]
      exact iff_of_true (by simp) ⟨[], rfl⟩
    · rw [heq]
      exact iff_of_true (by simp [hwarning]) ⟨ts, hwalk⟩
    · rw [heq]
      exact iff_of_false (by simp [herror]) fun ⟨ts, hwalk⟩ ↦ hno ts hwalk

theorem clean_eq_true_iff (h : machine.Accepted)
    (hindex : input.index = indexWorkflowStateMachine localeCompare machine)
    (hsteps : input.steps ≠ []) :
    (validateStepSequenceAgainstStateMachine localeCompare input).clean = true ↔
      OrderAccepted input.steps ∧ machine.Performable input.requiresTerminal
        (StepSequenceInput.orderedSteps input.steps) := by
  rw [performable_iff (orderedSteps_ne_nil hsteps),
    ← issues_pass_iff h hindex (fun _ ↦ True) (fun _ _ ↦ trivial) _ hsteps]
  · have hclean : (validateStepSequenceAgainstStateMachine localeCompare input).clean = true ↔
        (validateStepSequenceAgainstStateMachine localeCompare input).issues = [] := by
      rw [← List.length_eq_zero_iff]
      exact decide_eq_true_iff
    rw [hclean, List.eq_nil_iff_forall_not_mem]
    simp
  · intro step c t hc ht
    rcases gapIssues_cases h hindex step hc ht with ⟨rfl, hnil⟩ | ⟨hne, j, ts, heq, -⟩ |
      ⟨hne, -, j, heq, -⟩
    · simp [hnil]
    · simp [heq, hne]
    · simp [heq, hne]

/-! ## Deciding realisability -/

/-- What the validator is for: it blocks exactly the unrealisable claims, calls clean exactly
those that are a walk as they stand, and every missing step it reports closes its gap. -/
structure DecidesRealisability (localeCompare : JsString → JsString → ℤ)
    (machine : WorkflowStateMachine) (input : StepSequenceInput) : Prop where
  blocked_iff : (validateStepSequenceAgainstStateMachine localeCompare input).blocked = false ↔
    IndicesIncrease input.steps ∧ machine.Realisable input.requiresTerminal input.steps
  clean_iff : (validateStepSequenceAgainstStateMachine localeCompare input).clean = true ↔
    IndicesIncrease input.steps ∧ machine.Performable input.requiresTerminal input.steps
  bridged : ∀ i ∈ (validateStepSequenceAgainstStateMachine localeCompare input).issues,
    i.code = .missingIntermediateStep →
      machine.Bridges (StepSequenceInput.orderedSteps input.steps) i

theorem bridges_of_mem_issues (h : machine.Accepted)
    (hindex : input.index = indexWorkflowStateMachine localeCompare machine)
    (hsteps : input.steps ≠ []) {i : WorkflowStateMachineIssue}
    (hi : i ∈ (validateStepSequenceAgainstStateMachine localeCompare input).issues)
    (hcode : i.code = .missingIntermediateStep) :
    machine.Bridges (StepSequenceInput.orderedSteps input.steps) i := by
  rcases (mem_issues_iff hsteps).mp hi with hi | ⟨-, hi⟩
  · exact absurd hcode (mem_checkOrder hi).2
  · exact bridges_of_mem_walkIssues h hindex hi hcode

/-- Only `NaN` indices can mislead the validator, and they do whenever it accepts them. -/
theorem decidesRealisability_iff (input : WorkflowStateMachineInput)
    (machine : WorkflowStateMachine)
    (hmachine : createWorkflowStateMachine localeCompare input = .ok machine)
    (testCaseId : JsString) (steps : List WorkflowStateMachineStepClaim) (hsteps : steps ≠ [])
    (requireTerminalExit : Option Bool) :
    DecidesRealisability localeCompare machine
        ⟨indexWorkflowStateMachine localeCompare machine, testCaseId, steps, requireTerminalExit⟩ ↔
      (∀ s ∈ steps, s.stepIndex ≠ .nan) ∨
        ¬ (OrderAccepted steps ∧
          machine.Realisable (requireTerminalExit = some true)
            (StepSequenceInput.orderedSteps steps)) := by
  have h := accepted_of_create hmachine
  set case : StepSequenceInput :=
    ⟨indexWorkflowStateMachine localeCompare machine, testCaseId, steps, requireTerminalExit⟩
  have hindex : case.index = indexWorkflowStateMachine localeCompare machine := rfl
  have hblocked := blocked_eq_false_iff h hindex hsteps
  have hclean := clean_eq_true_iff h hindex hsteps
  constructor
  · intro hdecides
    by_contra hnot
    rw [not_or, not_not] at hnot
    apply hnot.1
    intro s hs
    have hincrease := (hdecides.blocked_iff.mp (hblocked.mpr hnot.2)).1
    exact ne_nan_of_zero_lt (hincrease.positive s hs)
  · intro hcond
    by_cases hnan : ∀ s ∈ steps, s.stepIndex ≠ .nan
    · rw [orderAccepted_iff hnan] at hblocked hclean
      refine ⟨hblocked.trans ?_, hclean.trans ?_, fun i ↦ bridges_of_mem_issues h hindex hsteps⟩
      · exact and_congr_right fun hincrease ↦ by rw [orderedSteps_eq_self hincrease]
      · exact and_congr_right fun hincrease ↦ by rw [orderedSteps_eq_self hincrease]
    · have hrefused := hcond.resolve_left hnan
      have hincrease : ¬ IndicesIncrease steps :=
        fun hincrease ↦ hnan fun s hs ↦ ne_nan_of_zero_lt (hincrease.positive s hs)
      refine ⟨?_, ?_, fun i ↦ bridges_of_mem_issues h hindex hsteps⟩
      · exact iff_of_false (mt hblocked.mp hrefused) fun hand ↦ hincrease hand.1
      · refine iff_of_false (fun htrue ↦ ?_) fun hand ↦ hincrease hand.1
        obtain ⟨horder, hperform⟩ := hclean.mp htrue
        exact hrefused ⟨horder, realisable_of_performable hperform⟩

end Walk

/-! ## A machine with a step to skip -/

/-- `localeCompare` on lower-case letters. -/
def letterCompare (left right : JsString) : ℤ :=
  if left < right then -1 else if right < left then 1 else 0

def formInput : WorkflowStateMachineInput where
  id := js "form"
  label := js "Form"
  states := [⟨js "draft", none, some true, none⟩, ⟨js "checked", none, none, none⟩,
    ⟨js "sent", none, none, some true⟩]
  transitions := [⟨js "fill", js "draft", js "draft", [], [], none⟩,
    ⟨js "check", js "draft", js "checked", [], [], none⟩,
    ⟨js "send", js "checked", js "sent", [], [], none⟩]
  provenance := none

def formMachine : WorkflowStateMachine where
  id := js "form"
  label := js "Form"
  states := [⟨js "checked", none, none, none⟩, ⟨js "draft", none, some true, none⟩,
    ⟨js "sent", none, none, some true⟩]
  transitions := [⟨js "check", js "draft", js "checked", [], [], none⟩,
    ⟨js "fill", js "draft", js "draft", [], [], none⟩,
    ⟨js "send", js "checked", js "sent", [], [], none⟩]
  provenance := .manual

/-- The steps leave out `check`; the validator warns and names it. -/
theorem decidesRealisability_form :
    createWorkflowStateMachine letterCompare formInput = .ok formMachine ∧
    DecidesRealisability letterCompare formMachine
      ⟨indexWorkflowStateMachine letterCompare formMachine, js "case",
        [⟨1, js "fill"⟩, ⟨2, js "send"⟩], some true⟩ ∧
    (validateStepSequenceAgainstStateMachine letterCompare
      ⟨indexWorkflowStateMachine letterCompare formMachine, js "case",
        [⟨1, js "fill"⟩, ⟨2, js "send"⟩], some true⟩).issues.map (·.transitionPath) =
      [[js "check"]] := by
  have hcreate : createWorkflowStateMachine letterCompare formInput = .ok formMachine := by
    decide
  refine ⟨hcreate, ?_, by decide +kernel⟩
  apply (decidesRealisability_iff formInput formMachine hcreate _ _ (by simp) _).mpr
  apply Or.inl
  decide +kernel

/-- A single step with index `NaN` passes although its index is not positive. -/
theorem not_decidesRealisability_nan :
    createWorkflowStateMachine letterCompare formInput = .ok formMachine ∧
    (validateStepSequenceAgainstStateMachine letterCompare
      ⟨indexWorkflowStateMachine letterCompare formMachine, js "case",
        [⟨.nan, js "fill"⟩], none⟩).blocked = false ∧
    ¬ IndicesIncrease [⟨.nan, js "fill"⟩] ∧
    ¬ DecidesRealisability letterCompare formMachine
      ⟨indexWorkflowStateMachine letterCompare formMachine, js "case",
        [⟨.nan, js "fill"⟩], none⟩ := by
  have hblocked : (validateStepSequenceAgainstStateMachine letterCompare
      ⟨indexWorkflowStateMachine letterCompare formMachine, js "case",
        [⟨.nan, js "fill"⟩], none⟩).blocked = false := by
    decide
  have hincrease : ¬ IndicesIncrease [⟨.nan, js "fill"⟩] :=
    fun h ↦ ne_nan_of_zero_lt (h.positive _ List.mem_cons_self) rfl
  refine ⟨by decide, hblocked, hincrease, fun hdecides ↦ ?_⟩
  exact hincrease (hdecides.blocked_iff.mp hblocked).1

end TestIntelligence.CoreEngine
