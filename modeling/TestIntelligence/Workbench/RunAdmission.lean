import TestIntelligence.Workbench.RunRegistry

/-!
# One run at a time

Admission looks at the status of the active run, not at whether it has left `executeRun`.
Both agree as long as no run becomes terminal before it leaves, and a terminal status stays
as long as nothing is written over it.
-/

namespace TestIntelligence.Workbench

open Js Systems

namespace Registry

def Ended (r : Registry) (jobId : JsString) : Prop :=
  ∃ status, r.statusOf jobId = some status ∧ isTerminal status = true

instance (r : Registry) (jobId : JsString) : Decidable (r.Ended jobId) :=
  decidable_of_iff ((r.statusOf jobId).any isTerminal = true) (Option.any_eq_true _ _)

instance (r : Registry) (jobId : JsString) : Decidable (r.Inside jobId) :=
  inferInstanceAs (Decidable (_ ∨ _))

def OneAtATime (r : Registry) : Prop := ∀ j k, r.Inside j → r.Inside k → j = k

/-- A start finds no active run that is terminal and still inside; an event that writes a
status, and a completion, find their run not terminal, or write the status that it has. -/
def Permitted (r : Registry) : RegistryAction → Prop
  | .start _ => ∀ jobId, r.store.activeJobId = some jobId → r.Inside jobId → ¬ r.Ended jobId
  | .event jobId event => r.executions jobId ≠ none → r.Ended jobId →
      ∀ update, eventUpdate event = some update → r.statusOf jobId = some update.1
  | .finish jobId _ _ => r.executions jobId = some .executing → ¬ r.Ended jobId
  | .fail _ _ => True
  | .leave _ => True

/-- The job ids of started runs are new. -/
def Fresh (r : Registry) (action : RegistryAction) : Prop :=
  ∀ prepared, action = .start prepared → mapGet r.store.jobs prepared.jobId = none

structure Invariant (r : Registry) : Prop where
  active : ∀ jobId, r.Inside jobId → r.store.activeJobId = some jobId
  known : ∀ jobId, r.executions jobId ≠ none → ∃ state, mapGet r.store.jobs jobId = some state
  failed : ∀ jobId status, r.executions jobId = some .executing → r.statusOf jobId = some status →
    isTerminal status = true → status = .failed

theorem Invariant.oneAtATime {r : Registry} (h : Invariant r) : OneAtATime r := by
  intro j k hj hk
  exact Option.some.inj ((h.active j hj).symm.trans (h.active k hk))

theorem Inside.ne_none {r : Registry} {jobId : JsString} (h : r.Inside jobId) :
    r.executions jobId ≠ none := by
  rcases h with h | h <;> simp [h]

end Registry

/-! ## Writing records -/

theorem mapGet_updateRecord (store : WorkbenchRunStore) (jobId other : JsString)
    (updater : RunState → RunState) :
    mapGet (updateRecord store jobId updater).jobs other =
      if other = jobId then (mapGet store.jobs jobId).map updater else mapGet store.jobs other := by
  unfold updateRecord
  split
  · next hnone =>
    split
    · next heq => rw [heq, hnone, Option.map_none]
    · rfl
  · next state hstate => rw [mapGet_mapSet, hstate, Option.map_some]

@[simp] theorem activeJobId_updateRecord (store : WorkbenchRunStore) (jobId : JsString)
    (updater : RunState → RunState) :
    (updateRecord store jobId updater).activeJobId = store.activeJobId := by
  unfold updateRecord
  split <;> rfl

@[simp] theorem jobs_releaseActive (store : WorkbenchRunStore) (jobId : JsString) :
    (releaseActive store jobId).jobs = store.jobs := by
  unfold releaseActive
  split <;> rfl

theorem activeJobId_releaseActive_of_ne {store : WorkbenchRunStore} {jobId other : JsString}
    (hactive : store.activeJobId = some other) (hne : other ≠ jobId) :
    (releaseActive store jobId).activeJobId = some other := by
  unfold releaseActive
  rw [if_neg (by simpa [hactive] using hne), hactive]

theorem status_handleRunnerEvent (event : ProductionRunnerEvent) (state : RunState) :
    (handleRunnerEvent event state).status =
      ((eventUpdate event).map (·.1)).getD state.status := by
  unfold handleRunnerEvent
  cases heq : eventUpdate event with
  | none => rfl
  | some update => rfl

/-- The only terminal status that an event writes is `failed`. -/
theorem eq_failed_of_eventUpdate {event : ProductionRunnerEvent}
    {update : RunStatus × StageName × StageOutcome} (h : eventUpdate event = some update)
    (hterminal : isTerminal update.1 = true) : update.1 = .failed := by
  cases event <;> simp only [eventUpdate, Option.some.injEq, reduceCtorEq] at h <;>
    subst h <;> first | rfl | simp [isTerminal] at hterminal

/-! ## Admission -/

/-- What a start may do. -/
theorem startWorkbenchRun_cases (store : WorkbenchRunStore) (prepared : PreparedWorkbenchRun) :
    (isActive store = true ∧
      startWorkbenchRun store prepared = (store, .error .runAlreadyActive)) ∨
    (isActive store = false ∧ mapGet store.jobs prepared.jobId ≠ none ∧
      startWorkbenchRun store prepared =
        ({ store with activeJobId := none }, .error .runJobIdExists)) ∨
    (isActive store = false ∧ mapGet store.jobs prepared.jobId = none ∧
      startWorkbenchRun store prepared =
        (⟨some prepared.jobId, mapSet store.jobs prepared.jobId (createQueuedRun prepared)⟩,
          .ok (createQueuedRun prepared))) := by
  unfold startWorkbenchRun
  split
  · next hactive => exact .inl ⟨hactive, rfl⟩
  · next hactive =>
    split
    · next hsome =>
      exact .inr (.inl ⟨by simpa using hactive, Option.isSome_iff_ne_none.mp hsome, rfl⟩)
    · next hnone => exact .inr (.inr ⟨by simpa using hactive, by simpa using hnone, rfl⟩)

namespace Registry

/-- An active run that does not keep others out is terminal. -/
theorem ended_of_isActive_eq_false {r : Registry} (hr : Invariant r)
    (hactive : isActive r.store = false) {jobId : JsString} (hinside : r.Inside jobId) :
    r.store.activeJobId = some jobId ∧ r.Ended jobId := by
  have hjob := hr.active jobId hinside
  obtain ⟨state, hstate⟩ := hr.known jobId hinside.ne_none
  refine ⟨hjob, state.status, by rw [statusOf, hstate, Option.map_some], ?_⟩
  simpa [isActive, hjob, hstate] using hactive

theorem not_inside_of_permitted {r : Registry} (hr : Invariant r)
    (hactive : isActive r.store = false) {prepared : PreparedWorkbenchRun}
    (hpermitted : r.Permitted (.start prepared)) (jobId : JsString) : ¬ r.Inside jobId := by
  intro hinside
  obtain ⟨hjob, hended⟩ := ended_of_isActive_eq_false hr hactive hinside
  exact hpermitted jobId hjob hinside hended

/-! ## One step -/

theorem statusOf_start {r : Registry} {prepared : PreparedWorkbenchRun} {jobId : JsString}
    {status : RunStatus} (h : r.statusOf jobId = some status) :
    (r.step (.start prepared)).statusOf jobId = some status := by
  rcases startWorkbenchRun_cases r.store prepared with
    ⟨-, hstart⟩ | ⟨-, -, hstart⟩ | ⟨-, hnone, hstart⟩
  · simp only [step, hstart]
    exact h
  · simp only [step, hstart]
    exact h
  · simp only [step, hstart]
    have hne : jobId ≠ prepared.jobId := by
      rintro rfl
      rw [statusOf, hnone] at h
      cases h
    rw [statusOf, mapGet_mapSet, if_neg hne]
    exact h

theorem statusOf_updateRecord (r : Registry) (executions : JsString → Option Execution)
    (jobId other : JsString) (updater : RunState → RunState) :
    (Registry.mk (updateRecord r.store jobId updater) executions).statusOf other =
      if other = jobId then (mapGet r.store.jobs jobId).map fun state ↦ (updater state).status
      else r.statusOf other := by
  rw [statusOf, mapGet_updateRecord]
  split
  · rw [Option.map_map]
    rfl
  · rfl

/-- Where the run stands now, action by action. -/
theorem statusOf_event {r : Registry} {jobId : JsString} {event : ProductionRunnerEvent}
    (hstarted : r.executions jobId ≠ none) (other : JsString) :
    (r.step (.event jobId event)).statusOf other =
      if other = jobId then
        (r.statusOf jobId).map fun status ↦ ((eventUpdate event).map (·.1)).getD status
      else r.statusOf other := by
  rw [step, if_neg hstarted, statusOf_updateRecord]
  simp only [status_handleRunnerEvent, statusOf, Option.map_map]
  rfl

theorem statusOf_finish {r : Registry} {jobId : JsString} {blocked : Bool}
    {found : FinishedArtifacts} (hexecuting : r.executions jobId = some .executing)
    (other : JsString) :
    (r.step (.finish jobId blocked found)).statusOf other =
      if other = jobId then
        (r.statusOf jobId).map fun _ ↦ if blocked then .blocked else .sealed
      else r.statusOf other := by
  rw [step, if_pos hexecuting, statusOf_updateRecord]
  simp only [finishWithArtifacts, statusOf, Option.map_map]
  rfl

theorem statusOf_fail {r : Registry} {jobId message : JsString}
    (hexecuting : r.executions jobId = some .executing) (other : JsString) :
    (r.step (.fail jobId message)).statusOf other =
      if other = jobId then (r.statusOf jobId).map fun _ ↦ .failed else r.statusOf other := by
  have hrecord := statusOf_updateRecord r r.executions jobId other (failRun message)
  rw [step, if_pos hexecuting, statusOf, jobs_releaseActive]
  rw [statusOf] at hrecord
  rw [hrecord]
  simp only [failRun, statusOf, Option.map_map]
  rfl

theorem statusOf_leave (r : Registry) (jobId other : JsString) :
    (r.step (.leave jobId)).statusOf other = r.statusOf other := by
  rw [step]
  split
  · rw [statusOf, jobs_releaseActive, statusOf]
  · rfl

/-- A permitted action leaves terminal statuses as they are. -/
theorem statusOf_step {r : Registry} (hr : Invariant r) {action : RegistryAction}
    (hpermitted : r.Permitted action) {jobId : JsString} {status : RunStatus}
    (hstatus : r.statusOf jobId = some status) (hterminal : isTerminal status = true) :
    (r.step action).statusOf jobId = some status := by
  cases action with
  | start prepared => exact statusOf_start hstatus
  | event other event =>
      by_cases hstarted : r.executions other = none
      · rwa [step, if_pos hstarted]
      · rw [statusOf_event hstarted]
        split
        · next heq =>
          subst heq
          rw [hstatus, Option.map_some]
          cases hupdate : eventUpdate event with
          | none => rfl
          | some update =>
              have hsame := hpermitted hstarted ⟨status, hstatus, hterminal⟩ update hupdate
              rw [Option.map_some, Option.getD_some, ← hsame, hstatus]
        · exact hstatus
  | finish other blocked found =>
      by_cases hexecuting : r.executions other = some .executing
      · rw [statusOf_finish hexecuting]
        split
        · next heq =>
          subst heq
          exact absurd ⟨status, hstatus, hterminal⟩ (hpermitted hexecuting)
        · exact hstatus
      · rwa [step, if_neg hexecuting]
  | fail other message =>
      by_cases hexecuting : r.executions other = some .executing
      · rw [statusOf_fail hexecuting]
        split
        · next heq =>
          subst heq
          rw [hstatus, Option.map_some, hr.failed jobId status hexecuting hstatus hterminal]
        · exact hstatus
      · rwa [step, if_neg hexecuting]
  | leave other => rwa [statusOf_leave]

theorem executions_event (r : Registry) (jobId : JsString) (event : ProductionRunnerEvent) :
    (r.step (.event jobId event)).executions = r.executions := by
  rw [step]
  split <;> rfl

theorem exists_mapGet_iff {r : Registry} {jobId : JsString} :
    (∃ state, mapGet r.store.jobs jobId = some state) ↔ r.statusOf jobId ≠ none := by
  rw [statusOf]
  cases mapGet r.store.jobs jobId <;> simp

/-- The invariant in terms of statuses, for a step whose effect on them is known. -/
theorem Invariant.of_statusOf {r : Registry}
    (hactive : ∀ jobId, r.Inside jobId → r.store.activeJobId = some jobId)
    (hknown : ∀ jobId, r.executions jobId ≠ none → r.statusOf jobId ≠ none)
    (hfailed : ∀ jobId status, r.executions jobId = some .executing →
      r.statusOf jobId = some status → isTerminal status = true → status = .failed) :
    Invariant r :=
  ⟨hactive, fun jobId h ↦ exists_mapGet_iff.mpr (hknown jobId h), hfailed⟩

theorem Invariant.statusOf_ne_none {r : Registry} (hr : Invariant r) {jobId : JsString}
    (h : r.executions jobId ≠ none) : r.statusOf jobId ≠ none :=
  exists_mapGet_iff.mp (hr.known jobId h)

theorem Invariant.start {r : Registry} (hr : Invariant r) {prepared : PreparedWorkbenchRun}
    (hpermitted : r.Permitted (.start prepared)) : Invariant (r.step (.start prepared)) := by
  rcases startWorkbenchRun_cases r.store prepared with
    ⟨-, hstart⟩ | ⟨hactive, -, hstart⟩ | ⟨hactive, -, hstart⟩
  · simp only [step, hstart]
    exact hr
  · have hnone := not_inside_of_permitted hr hactive hpermitted
    simp only [step, hstart]
    exact ⟨fun jobId hinside ↦ absurd hinside (hnone jobId), hr.known, hr.failed⟩
  · have hnone := not_inside_of_permitted hr hactive hpermitted
    simp only [step, hstart]
    constructor
    · intro jobId hinside
      by_contra hne
      have hne' : jobId ≠ prepared.jobId := fun heq ↦ hne (heq ▸ rfl)
      apply hnone jobId
      simpa [Inside, Function.update_of_ne hne'] using hinside
    · intro jobId hstarted
      rw [mapGet_mapSet]
      split
      · exact ⟨_, rfl⟩
      · next hne => exact hr.known jobId (by simpa [Function.update_of_ne hne] using hstarted)
    · intro jobId status hexecuting hstatus hterminal
      rw [statusOf, mapGet_mapSet] at hstatus
      split at hstatus
      · obtain rfl := Option.some.inj hstatus
        exact absurd hterminal (by simp [createQueuedRun, isTerminal])
      · next hne =>
        exact hr.failed jobId status (by simpa [Function.update_of_ne hne] using hexecuting)
          hstatus hterminal

theorem Invariant.event {r : Registry} (hr : Invariant r) {jobId : JsString}
    {event : ProductionRunnerEvent} : Invariant (r.step (.event jobId event)) := by
  by_cases hstarted : r.executions jobId = none
  · rwa [step, if_pos hstarted]
  · have hexecutions := executions_event r jobId event
    apply Invariant.of_statusOf
    · intro other hinside
      rw [Inside, hexecutions] at hinside
      rw [step, if_neg hstarted, activeJobId_updateRecord]
      exact hr.active other hinside
    · intro other hother
      rw [hexecutions] at hother
      have hold := hr.statusOf_ne_none hother
      rw [statusOf_event hstarted]
      split
      · next heq =>
        subst heq
        simpa using hold
      · exact hold
    · intro other status hexecuting hstatus hterminal
      rw [hexecutions] at hexecuting
      rw [statusOf_event hstarted] at hstatus
      split at hstatus
      · next heq =>
        subst heq
        obtain ⟨before, hbefore, hwritten⟩ := Option.map_eq_some_iff.mp hstatus
        cases hupdate : eventUpdate event with
        | none =>
            rw [hupdate] at hwritten
            obtain rfl : before = status := hwritten
            exact hr.failed other before hexecuting hbefore hterminal
        | some update =>
            rw [hupdate] at hwritten
            obtain rfl : update.1 = status := hwritten
            exact eq_failed_of_eventUpdate hupdate hterminal
      · exact hr.failed other status hexecuting hstatus hterminal

theorem Invariant.finish {r : Registry} (hr : Invariant r) {jobId : JsString} {blocked : Bool}
    {found : FinishedArtifacts} : Invariant (r.step (.finish jobId blocked found)) := by
  by_cases hexecuting : r.executions jobId = some .executing
  · have hexecutions : (r.step (.finish jobId blocked found)).executions =
        Function.update r.executions jobId (some .finished) := by rw [step, if_pos hexecuting]
    apply Invariant.of_statusOf
    · intro other hinside
      rw [step, if_pos hexecuting, activeJobId_updateRecord]
      by_cases heq : other = jobId
      · exact hr.active other (.inl (heq ▸ hexecuting))
      · rw [Inside, hexecutions, Function.update_of_ne heq] at hinside
        exact hr.active other hinside
    · intro other hother
      rw [statusOf_finish hexecuting]
      split
      · next heq => simpa using hr.statusOf_ne_none (by rw [hexecuting]; simp)
      · next hne =>
        rw [hexecutions, Function.update_of_ne hne] at hother
        exact hr.statusOf_ne_none hother
    · intro other status hother hstatus hterminal
      by_cases heq : other = jobId
      · rw [heq, hexecutions, Function.update_self] at hother
        cases hother
      · rw [hexecutions, Function.update_of_ne heq] at hother
        rw [statusOf_finish hexecuting, if_neg heq] at hstatus
        exact hr.failed other status hother hstatus hterminal
  · rwa [step, if_neg hexecuting]

/-- A run that leaves lets the active job go only if it is its own. -/
theorem Invariant.left {r s : Registry} (hr : Invariant r) (jobId : JsString)
    (hexecutions : s.executions = Function.update r.executions jobId (some .left))
    (hactive : s.store.activeJobId = (releaseActive r.store jobId).activeJobId)
    (hother : ∀ other, other ≠ jobId → s.statusOf other = r.statusOf other)
    (hself : s.statusOf jobId ≠ none) : Invariant s := by
  apply Invariant.of_statusOf
  · intro other hinside
    have hne : other ≠ jobId := by
      rintro rfl
      rw [Inside, hexecutions, Function.update_self] at hinside
      simp at hinside
    rw [Inside, hexecutions, Function.update_of_ne hne] at hinside
    rw [hactive]
    exact activeJobId_releaseActive_of_ne (hr.active other hinside) hne
  · intro other hstarted
    by_cases heq : other = jobId
    · rwa [heq]
    · rw [hexecutions, Function.update_of_ne heq] at hstarted
      rw [hother other heq]
      exact hr.statusOf_ne_none hstarted
  · intro other status hexecuting hstatus hterminal
    have hne : other ≠ jobId := by
      rintro rfl
      rw [hexecutions, Function.update_self] at hexecuting
      cases hexecuting
    rw [hexecutions, Function.update_of_ne hne] at hexecuting
    rw [hother other hne] at hstatus
    exact hr.failed other status hexecuting hstatus hterminal

theorem Invariant.fail {r : Registry} (hr : Invariant r) {jobId message : JsString} :
    Invariant (r.step (.fail jobId message)) := by
  by_cases hexecuting : r.executions jobId = some .executing
  · have hstatus : ∀ other, (r.step (.fail jobId message)).statusOf other =
        if other = jobId then (r.statusOf jobId).map fun _ ↦ .failed else r.statusOf other :=
      statusOf_fail hexecuting
    apply hr.left jobId
    · rw [step, if_pos hexecuting]
    · rw [step, if_pos hexecuting]
      simp only [releaseActive, activeJobId_updateRecord]
      split <;> simp
    · intro other hne
      rw [hstatus, if_neg hne]
    · rw [hstatus, if_pos rfl]
      simpa using hr.statusOf_ne_none (by rw [hexecuting]; simp)
  · rwa [step, if_neg hexecuting]

theorem Invariant.leave {r : Registry} (hr : Invariant r) {jobId : JsString} :
    Invariant (r.step (.leave jobId)) := by
  by_cases hfinished : r.executions jobId = some .finished
  · apply hr.left jobId
    · rw [step, if_pos hfinished]
    · rw [step, if_pos hfinished]
    · exact fun other _ ↦ statusOf_leave r jobId other
    · rw [statusOf_leave]
      exact hr.statusOf_ne_none (by rw [hfinished]; simp)
  · rwa [step, if_neg hfinished]

theorem Invariant.step {r : Registry} (hr : Invariant r) {action : RegistryAction}
    (hpermitted : r.Permitted action) : Invariant (r.step action) := by
  cases action with
  | start prepared => exact hr.start hpermitted
  | event jobId event => exact hr.event
  | finish jobId blocked found => exact hr.finish
  | fail jobId message => exact hr.fail
  | leave jobId => exact hr.leave

theorem invariant_restarted (jobs : List (JsString × RunState)) : Invariant (restarted jobs) :=
  ⟨by simp [restarted, Inside], by simp [restarted], by simp [restarted]⟩

/-! ## What a step that is not permitted breaks -/

/-- Terminal statuses are as they were. -/
def Keeps (r s : Registry) : Prop :=
  ∀ jobId status, r.statusOf jobId = some status → isTerminal status = true →
    s.statusOf jobId = some status

theorem permitted_of_keeps {r : Registry} (hr : Invariant r) {action : RegistryAction}
    (hfresh : r.Fresh action) (hone : (r.step action).OneAtATime)
    (hkeeps : r.Keeps (r.step action)) : r.Permitted action := by
  cases action with
  | start prepared =>
      intro jobId hactive hinside hended
      have hnew := hfresh prepared rfl
      have hfree : isActive r.store = false := by
        obtain ⟨status, hstatus, hterminal⟩ := hended
        obtain ⟨state, hstate, rfl⟩ := Option.map_eq_some_iff.mp hstatus
        simpa [isActive, hactive, hstate] using hterminal
      have hne : jobId ≠ prepared.jobId := by
        rintro rfl
        obtain ⟨state, hstate⟩ := hr.known _ hinside.ne_none
        rw [hnew] at hstate
        cases hstate
      have hstart : startWorkbenchRun r.store prepared = (⟨some prepared.jobId,
          mapSet r.store.jobs prepared.jobId (createQueuedRun prepared)⟩,
          .ok (createQueuedRun prepared)) := by
        rw [startWorkbenchRun, if_neg (by simp [hfree]), if_neg (by simp [hnew])]
      apply hne
      apply hone
      · simpa only [Registry.step, hstart, Inside, Function.update_of_ne hne] using hinside
      · left
        simp only [Registry.step, hstart, Function.update_self]
  | event jobId event =>
      rintro hstarted ⟨status, hstatus, hterminal⟩ update hupdate
      have hafter := hkeeps jobId status hstatus hterminal
      rw [statusOf_event hstarted, if_pos rfl, hupdate, hstatus] at hafter
      rw [hstatus, ← Option.some.inj hafter]
      rfl
  | finish jobId blocked found =>
      rintro hexecuting ⟨status, hstatus, hterminal⟩
      have hafter := hkeeps jobId status hstatus hterminal
      have hfailed := hr.failed jobId status hexecuting hstatus hterminal
      rw [statusOf_finish hexecuting, if_pos rfl, hstatus, hfailed] at hafter
      cases blocked <;> simp at hafter
  | fail jobId message => trivial
  | leave jobId => trivial

theorem Keeps.refl (r : Registry) : Keeps r r := fun _ _ h _ ↦ h

theorem Keeps.trans {r s t : Registry} (h : Keeps r s) (h' : Keeps s t) : Keeps r t :=
  fun jobId status hstatus hterminal ↦ h' jobId status (h jobId status hstatus hterminal) hterminal

/-! ## Whole runs -/

theorem keeps_run {r : Registry} (hr : Invariant r) {actions : List RegistryAction}
    (hpermitted : MeetsAlong Registry.step Permitted r actions) :
    Keeps r (run Registry.step r actions) := by
  induction actions generalizing r with
  | nil => exact .refl r
  | cons action actions ih =>
      have hstep : Keeps r (r.step action) :=
        fun jobId status ↦ statusOf_step hr hpermitted.1
      exact hstep.trans (ih (hr.step hpermitted.1) hpermitted.2)

theorem meetsAlong_permitted {r : Registry} (hr : Invariant r) {actions : List RegistryAction}
    (hfresh : MeetsAlong Registry.step Fresh r actions)
    (hone : Always Registry.step OneAtATime r actions)
    (hkeeps : ∀ before after, before ++ after <+: actions →
      Keeps (run Registry.step r before) (run Registry.step r (before ++ after))) :
    MeetsAlong Registry.step Permitted r actions := by
  induction actions generalizing r with
  | nil => trivial
  | cons action actions ih =>
      obtain ⟨-, hrest⟩ := always_cons.mp hone
      have hfirst : r.Permitted action := by
        apply permitted_of_keeps hr hfresh.1
        · exact hrest [] List.nil_prefix
        · exact hkeeps [] [action] (by simp)
      refine ⟨hfirst, ih (hr.step hfirst) hfresh.2 hrest ?_⟩
      intro before after hparts
      exact hkeeps (action :: before) after (by simpa using hparts)

/-- One run at a time, and terminal statuses that stay, are the same as permitted actions. -/
theorem oneAtATime_and_terminal_iff (jobs : List (JsString × RunState))
    (actions : List RegistryAction)
    (hfresh : MeetsAlong Registry.step Fresh (restarted jobs) actions) :
    (Always Registry.step OneAtATime (restarted jobs) actions ∧
      ∀ before after, before ++ after <+: actions →
        Keeps (run Registry.step (restarted jobs) before)
          (run Registry.step (restarted jobs) (before ++ after))) ↔
      MeetsAlong Registry.step Permitted (restarted jobs) actions := by
  have hr := invariant_restarted jobs
  constructor
  · rintro ⟨hone, hkeeps⟩
    exact meetsAlong_permitted hr hfresh hone hkeeps
  · intro hpermitted
    have hinvariant : Always Registry.step Invariant (restarted jobs) actions :=
      always_of_meetsAlong (fun _ _ (_ : True) h hs ↦ hs.step h) hr
        (fun _ _ ↦ trivial) hpermitted
    refine ⟨fun done hdone ↦ (hinvariant done hdone).oneAtATime, ?_⟩
    intro before after hparts
    obtain ⟨rest, rfl⟩ := hparts
    have hbefore := hinvariant before (by simp)
    rw [List.append_assoc] at hpermitted
    have hafter := (meetsAlong_append.mp (meetsAlong_append.mp hpermitted).2).1
    rw [run_append]
    exact keeps_run hbefore hafter

/-! ## Samples -/

def sampleRun (jobId : JsString) : PreparedWorkbenchRun := ⟨jobId, [], [], []⟩

/-- A run that is sealed and leaves before the next one starts. -/
def oneAfterTheOther : List RegistryAction :=
  [.start (sampleRun [0x61]), .event [0x61] (.policyDecision false),
    .finish [0x61] false ⟨[], [], [], []⟩, .leave [0x61], .start (sampleRun [0x62])]

theorem permitted_oneAfterTheOther :
    MeetsAlong Registry.step Permitted (restarted []) oneAfterTheOther := by
  refine ⟨?_, ?_, ?_, trivial, ?_, trivial⟩
  · intro jobId hactive
    cases hactive
  · intro _ hended
    exact absurd hended (by decide)
  · intro _ hended
    exact absurd hended (by decide)
  · intro jobId hactive
    cases hactive

theorem oneAfterTheOther_oneAtATime :
    Always Registry.step OneAtATime (restarted []) oneAfterTheOther ∧
      ∀ before after, before ++ after <+: oneAfterTheOther →
        Keeps (run Registry.step (restarted []) before)
          (run Registry.step (restarted []) (before ++ after)) := by
  apply (oneAtATime_and_terminal_iff [] oneAfterTheOther ?_).mpr permitted_oneAfterTheOther
  refine ⟨?_, ?_, ?_, ?_, ?_, trivial⟩
  · rintro _ h
    cases h
    rfl
  · rintro _ h
    cases h
  · rintro _ h
    cases h
  · rintro _ h
    cases h
  · rintro _ h
    cases h
    decide

def cancelledThenNext : List RegistryAction :=
  [.start (sampleRun [0x61]), .event [0x61] .cancelled, .start (sampleRun [0x62])]

/-- A cancelled run is still executing when the next one is admitted, and a completion then
takes it from `failed` to `sealed`. -/
theorem cancelled_run_inside :
    ((run Registry.step (restarted []) cancelledThenNext).Inside [0x61] ∧
      (run Registry.step (restarted []) cancelledThenNext).Inside [0x62]) ∧
    (run Registry.step (restarted []) cancelledThenNext).statusOf [0x61] = some .failed ∧
    ((run Registry.step (restarted []) cancelledThenNext).step
      (.finish [0x61] false ⟨[], [], [], []⟩)).statusOf [0x61] = some .sealed := by
  refine ⟨⟨?_, ?_⟩, ?_, ?_⟩ <;> decide

end Registry

end TestIntelligence.Workbench
