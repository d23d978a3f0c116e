import TestIntelligence.ModelGateway.CircuitBreaker

/-!
# The announced transitions

The events that `onStateTransition` receives lead from the state in which a breaker was created
to its current one, each along an edge of the state machine.
-/

namespace TestIntelligence.ModelGateway.CircuitBreaker

open Js Systems

/-- The edges, with the triggers they are announced under. -/
def isEdge : LlmCircuitState → LlmCircuitState → LlmCircuitTransitionTrigger → Bool
  | .closed, .opened, .failureThresholdReached
  | .opened, .halfOpen, .resetTimeoutElapsed
  | .opened, .closed, .nonTransientOutcome
  | .halfOpen, .opened, .probeFailed
  | .halfOpen, .closed, .probeSucceeded
  | .halfOpen, .closed, .nonTransientOutcome => true
  | _, _, _ => false

/-- The state the events lead to, each of them from the state that the one before announced. -/
def replay (start : LlmCircuitState) (events : List LlmCircuitTransitionEvent) :
    Option LlmCircuitState :=
  events.foldlM (fun state event ↦
    if event.fromState = state ∧ isEdge state event.toState event.trigger ∧
      event.snapshot.state = event.toState then some event.toState else none) start

def Announced (start : LlmCircuitState) (b : Breaker) : Prop :=
  replay start b.transitions = some b.current.state

variable {start : LlmCircuitState} {b : Breaker}

/-- A transition to another state is announced along an edge. -/
theorem Announced.transitionTo (h : Announced start b) (next : UnversionedState)
    (announced : Option (JsNumber × LlmCircuitTransitionTrigger))
    (hedge : b.current.state ≠ next.state → ∃ atMs trigger, announced = some (atMs, trigger) ∧
      isEdge b.current.state next.state trigger = true) :
    ∃ b', transitionTo b b.current.version next announced =
      ⟨true, toSnapshot b.options b'.current, b'⟩ ∧ Moved b next b' ∧ Announced start b' := by
  obtain ⟨b', htransition, hmoved⟩ := transitionTo_current b next announced
  refine ⟨b', htransition, hmoved, ?_⟩
  unfold CircuitBreaker.transitionTo at htransition
  rw [if_neg (not_not.mpr rfl)] at htransition
  split at htransition
  · obtain rfl := (TransitionResult.mk.inj htransition).2.2
    exact h
  · obtain rfl := (TransitionResult.mk.inj htransition).2.2
    by_cases hstate : b.current.state = next.state
    · simpa [Announced, hstate] using h
    · obtain ⟨atMs, trigger, rfl, htrigger⟩ := hedge hstate
      rw [Announced, replay] at h
      simp [Announced, replay, List.foldlM_append, hstate, h, htrigger, toSnapshot]

theorem Announced.reset (h : Announced start b) (nowMs : JsNumber)
    {resolveTrigger : InternalState → LlmCircuitTransitionTrigger}
    (htrigger : b.current.state ≠ .closed →
      isEdge b.current.state .closed (resolveTrigger b.current) = true) (n : ℕ) :
    ∃ r, reset resolveTrigger b nowMs (n + 1) = some r ∧ Announced start r.2 := by
  obtain ⟨b', htransition, -, hannounced⟩ := h.transitionTo ⟨.closed, 0, none, false⟩
    (some (nowMs, resolveTrigger b.current)) fun hstate ↦ ⟨_, _, rfl, htrigger hstate⟩
  exact ⟨⟨_, b'⟩, by rw [CircuitBreaker.reset, htransition]; rfl, hannounced⟩

theorem Announced.recordTransientFailure (h : Announced start b) (nowMs : JsNumber) (n : ℕ) :
    ∃ r, recordTransientFailure b nowMs (n + 1) = some r ∧ Announced start r.2 := by
  have hopen := h.transitionTo ⟨.opened, b.current.consecutiveFailures.add 1, some nowMs, false⟩
  rw [CircuitBreaker.recordTransientFailure]
  split
  · next hhalf =>
      obtain ⟨b', htransition, -, hannounced⟩ := hopen (some (nowMs, .probeFailed))
        fun _ ↦ ⟨_, _, rfl, by rw [hhalf]; rfl⟩
      exact ⟨⟨_, b'⟩, by rw [htransition]; rfl, hannounced⟩
  · next hhalf =>
      split
      · obtain ⟨b', htransition, -, hannounced⟩ := hopen (some (nowMs, .failureThresholdReached))
          fun hclosed ↦ ⟨_, _, rfl, by
            cases hstate : b.current.state with
            | closed => rfl
            | opened => exact absurd hstate hclosed
            | halfOpen => exact absurd hstate hhalf⟩
        exact ⟨⟨_, b'⟩, by rw [htransition]; rfl, hannounced⟩
      · obtain ⟨b', htransition, -, hannounced⟩ := h.transitionTo ⟨b.current.state,
          b.current.consecutiveFailures.add 1, b.current.openedAt, false⟩ none
          fun hstate ↦ absurd rfl hstate
        exact ⟨⟨_, b'⟩, by rw [htransition]; rfl, hannounced⟩

theorem Announced.beforeRequest_halfOpen (h : Announced start b)
    (hstate : b.current.state = .halfOpen) (nowMs : JsNumber) (n : ℕ) :
    ∃ r, beforeRequest b nowMs (n + 1) = some r ∧ Announced start r.2 := by
  rw [CircuitBreaker.beforeRequest]
  simp only [hstate]
  split
  · exact ⟨_, rfl, h⟩
  · obtain ⟨b', htransition, -, hannounced⟩ := h.transitionTo
      { b.current.toUnversionedState with state := .halfOpen, probeInFlight := true } none
      fun hne ↦ absurd hstate hne
    exact ⟨⟨_, b'⟩, by rw [htransition]; rfl, hannounced⟩

theorem Announced.beforeRequest (h : Announced start b) (nowMs : JsNumber) (n : ℕ) :
    ∃ r, beforeRequest b nowMs (n + 2) = some r ∧ Announced start r.2 := by
  cases hstate : b.current.state with
  | closed => exact ⟨_, by simp only [CircuitBreaker.beforeRequest, hstate]; rfl, h⟩
  | halfOpen => exact h.beforeRequest_halfOpen hstate nowMs (n + 1)
  | opened =>
      rw [CircuitBreaker.beforeRequest]
      simp only [hstate]
      split
      · obtain ⟨mid, htransition, hmoved, hannounced⟩ := h.transitionTo
          { b.current.toUnversionedState with state := .halfOpen, probeInFlight := false }
          (some (nowMs, .resetTimeoutElapsed)) fun _ ↦ ⟨_, _, rfl, by rw [hstate]; rfl⟩
        rw [htransition]
        exact hannounced.beforeRequest_halfOpen hmoved.state nowMs n
      · exact ⟨_, rfl, h⟩

theorem Announced.call (h : Announced start b) (operation : Operation × JsNumber) :
    ∃ b', call 3 b operation = some b' ∧ Announced start b' := by
  obtain ⟨operation, nowMs⟩ := operation
  have hreturn : ∀ {τ : Type} {call : Option (τ × Breaker)},
      (∃ r, call = some r ∧ Announced start r.2) →
        ∃ b', call.map Prod.snd = some b' ∧ Announced start b' := by
    rintro τ _ ⟨r, rfl, hr⟩
    exact ⟨r.2, rfl, hr⟩
  cases operation with
  | beforeRequest => exact hreturn (h.beforeRequest nowMs 1)
  | recordSuccess =>
      refine hreturn (h.reset nowMs (fun hne ↦ ?_) 2)
      cases hstate : b.current.state <;> simp_all [isEdge]
  | recordTransientFailure => exact hreturn (h.recordTransientFailure nowMs 2)
  | recordNonTransientOutcome =>
      refine hreturn (h.reset nowMs (fun hne ↦ ?_) 2)
      cases hstate : b.current.state <;> simp_all [isEdge]

/-- However the calls follow on each other, the announced transitions replay to the state of the
breaker. -/
theorem transitions_replay {options : BreakerOptions}
    {initialState : Option LlmCircuitPersistentState}
    (hcreate : createLlmCircuitBreaker options initialState = .ok b)
    (calls : List (Operation × JsNumber)) :
    ∃ reached, guardedRun (call 3) b calls = some reached ∧
      replay b.current.state reached.transitions = some reached.current.state := by
  have hstart : b.transitions = [] := by
    unfold createLlmCircuitBreaker at hcreate
    iterate 2
      split at hcreate
      · cases hcreate
    obtain rfl := Except.ok.inj hcreate
    rfl
  have hannounced : Announced b.current.state b := by
    rw [Announced, hstart]
    rfl
  exact guardedRun_total (fun _ operation h ↦ h.call operation) hannounced calls

theorem transitions_replay_sample : ∃ reached, guardedRun (call 3) sampleBreaker
    [(.recordTransientFailure, 10), (.recordTransientFailure, 20), (.beforeRequest, 2000)] =
      some reached ∧ replay .closed reached.transitions = some reached.current.state :=
  transitions_replay createLlmCircuitBreaker_sample _

end TestIntelligence.ModelGateway.CircuitBreaker
