import TestIntelligence.Js.Number
import TestIntelligence.Systems.Runs
import Mathlib.Tactic.Linarith

/-!
# The circuit breaker of the model gateway

`llm-circuit-breaker.ts`.  The operations are translated with their retry loops:
the fuel argument is the number of loop iterations, and `none` means that the
loop has not returned by then.  A call reads the clock at most once, so the
action carries that reading.  Calls of `onStateTransition` are collected in
`transitions`.
-/

namespace TestIntelligence.ModelGateway.CircuitBreaker

open Js Systems

/-- `opened` is the state `"open"`. -/
inductive LlmCircuitState
  | closed
  | opened
  | halfOpen
  deriving DecidableEq, Repr

inductive LlmCircuitTransitionTrigger
  | failureThresholdReached
  | resetTimeoutElapsed
  | probeFailed
  | probeSucceeded
  | nonTransientOutcome
  deriving DecidableEq, Repr

structure LlmCircuitSnapshot where
  state : LlmCircuitState
  consecutiveFailures : JsNumber
  failureThreshold : JsNumber
  resetTimeoutMs : JsNumber
  nextProbeAt : Option JsNumber
  probeInFlight : Bool
  deriving DecidableEq

structure LlmCircuitDecision where
  allowRequest : Bool
  snapshot : LlmCircuitSnapshot
  deriving DecidableEq

structure LlmCircuitTransitionEvent where
  fromState : LlmCircuitState
  toState : LlmCircuitState
  trigger : LlmCircuitTransitionTrigger
  atMs : JsNumber
  snapshot : LlmCircuitSnapshot
  deriving DecidableEq

structure LlmCircuitPersistentState where
  state : LlmCircuitState
  consecutiveFailures : JsNumber
  openedAtMs : Option JsNumber
  deriving DecidableEq

/-- `Omit<InternalState, "version">`. -/
structure UnversionedState where
  state : LlmCircuitState
  consecutiveFailures : JsNumber
  openedAt : Option JsNumber
  probeInFlight : Bool
  deriving DecidableEq

structure InternalState extends UnversionedState where
  version : ℕ
  deriving DecidableEq

structure BreakerOptions where
  failureThreshold : JsNumber
  resetTimeoutMs : JsNumber
  deriving DecidableEq

/-- The variables that the closures of a breaker share. -/
structure Breaker where
  options : BreakerOptions
  current : InternalState
  transitions : List LlmCircuitTransitionEvent
  deriving DecidableEq

inductive BreakerError
  | failureThresholdNotPositiveInteger
  | resetTimeoutNotNonNegativeFinite
  deriving DecidableEq, Repr

def BreakerError.message : BreakerError → String
  | .failureThresholdNotPositiveInteger =>
      "createLlmCircuitBreaker: failureThreshold must be a positive integer"
  | .resetTimeoutNotNonNegativeFinite =>
      "createLlmCircuitBreaker: resetTimeoutMs must be a non-negative finite number"

def createLlmCircuitBreaker (options : BreakerOptions)
    (initialState : Option LlmCircuitPersistentState) : Except BreakerError Breaker :=
  if !options.failureThreshold.isInteger || options.failureThreshold.lt 1 then
    .error .failureThresholdNotPositiveInteger
  else if !options.resetTimeoutMs.isFinite || options.resetTimeoutMs.lt 0 then
    .error .resetTimeoutNotNonNegativeFinite
  else
    .ok {
      options := options
      current := {
        state := (initialState.map (·.state)).getD .closed
        consecutiveFailures :=
          JsNumber.max 0 ((initialState.map (·.consecutiveFailures)).getD 0)
        openedAt := initialState.bind (·.openedAtMs)
        probeInFlight := false
        version := 0 }
      transitions := [] }

def toNextProbeAt (options : BreakerOptions) (candidate : InternalState) : Option JsNumber :=
  candidate.openedAt.map (·.add options.resetTimeoutMs)

def toSnapshot (options : BreakerOptions) (candidate : InternalState) : LlmCircuitSnapshot where
  state := candidate.state
  consecutiveFailures := candidate.consecutiveFailures
  failureThreshold := options.failureThreshold
  resetTimeoutMs := options.resetTimeoutMs
  nextProbeAt := toNextProbeAt options candidate
  probeInFlight := candidate.probeInFlight

/-- `a === b` for optional numbers. -/
def sameInstant : Option JsNumber → Option JsNumber → Bool
  | none, none => true
  | some a, some b => a.strictEq b
  | _, _ => false

def stateChanged (previous next : UnversionedState) : Bool :=
  previous.state != next.state ||
    !previous.consecutiveFailures.strictEq next.consecutiveFailures ||
    !sameInstant previous.openedAt next.openedAt ||
    previous.probeInFlight != next.probeInFlight

structure TransitionResult where
  committed : Bool
  snapshot : LlmCircuitSnapshot
  breaker : Breaker

/-- Every caller passes `atMs` together with `trigger` or neither. -/
def transitionTo (b : Breaker) (expectedVersion : ℕ) (nextState : UnversionedState)
    (announced : Option (JsNumber × LlmCircuitTransitionTrigger)) : TransitionResult :=
  if b.current.version ≠ expectedVersion then
    ⟨false, toSnapshot b.options b.current, b⟩
  else if !stateChanged b.current.toUnversionedState nextState then
    ⟨true, toSnapshot b.options b.current, b⟩
  else
    let current : InternalState := { nextState with version := b.current.version + 1 }
    let snapshot := toSnapshot b.options current
    let announcements := if b.current.state ≠ current.state then
        (announced.map fun (atMs, trigger) ↦
          (⟨b.current.state, current.state, trigger, atMs, snapshot⟩ :
            LlmCircuitTransitionEvent)).toList
      else []
    ⟨true, snapshot, { b with current, transitions := b.transitions ++ announcements }⟩

def reset (resolveTrigger : InternalState → LlmCircuitTransitionTrigger) (b : Breaker)
    (nowMs : JsNumber) : ℕ → Option (LlmCircuitSnapshot × Breaker)
  | 0 => none
  | iterations + 1 =>
      let observed := b.current
      let transition := transitionTo b observed.version ⟨.closed, 0, none, false⟩
        (some (nowMs, resolveTrigger observed))
      if transition.committed then some (transition.snapshot, transition.breaker)
      else reset resolveTrigger transition.breaker nowMs iterations

def beforeRequest (b : Breaker) (nowMs : JsNumber) :
    ℕ → Option (LlmCircuitDecision × Breaker)
  | 0 => none
  | iterations + 1 =>
      let observed := b.current
      match observed.state with
      | .opened =>
          if (toNextProbeAt b.options observed).any fun nextProbeAt ↦ nextProbeAt.le nowMs then
            let transition := transitionTo b observed.version
              { observed.toUnversionedState with state := .halfOpen, probeInFlight := false }
              (some (nowMs, .resetTimeoutElapsed))
            beforeRequest transition.breaker nowMs iterations
          else some (⟨false, toSnapshot b.options observed⟩, b)
      | .halfOpen =>
          if observed.probeInFlight then some (⟨false, toSnapshot b.options observed⟩, b)
          else
            let transition := transitionTo b observed.version
              { observed.toUnversionedState with probeInFlight := true } none
            if transition.committed then
              some (⟨true, transition.snapshot⟩, transition.breaker)
            else beforeRequest transition.breaker nowMs iterations
      | .closed => some (⟨true, toSnapshot b.options observed⟩, b)

def recordSuccess : Breaker → JsNumber → ℕ → Option (LlmCircuitSnapshot × Breaker) :=
  reset fun observed ↦
    if observed.state = .halfOpen then .probeSucceeded else .nonTransientOutcome

def recordTransientFailure (b : Breaker) (nowMs : JsNumber) :
    ℕ → Option (LlmCircuitSnapshot × Breaker)
  | 0 => none
  | iterations + 1 =>
      let observed := b.current
      let consecutiveFailures := observed.consecutiveFailures.add 1
      let transition :=
        if observed.state = .halfOpen then
          transitionTo b observed.version ⟨.opened, consecutiveFailures, some nowMs, false⟩
            (some (nowMs, .probeFailed))
        else if b.options.failureThreshold.le consecutiveFailures then
          transitionTo b observed.version ⟨.opened, consecutiveFailures, some nowMs, false⟩
            (some (nowMs, .failureThresholdReached))
        else
          transitionTo b observed.version
            ⟨observed.state, consecutiveFailures, observed.openedAt, false⟩ none
      if transition.committed then some (transition.snapshot, transition.breaker)
      else recordTransientFailure transition.breaker nowMs iterations

def recordNonTransientOutcome : Breaker → JsNumber → ℕ → Option (LlmCircuitSnapshot × Breaker) :=
  reset fun _ ↦ .nonTransientOutcome

inductive Operation
  | beforeRequest
  | recordSuccess
  | recordTransientFailure
  | recordNonTransientOutcome
  deriving DecidableEq, Repr

/-- One call at a clock reading, `none` when a loop needs more iterations. -/
def call (iterations : ℕ) (b : Breaker) : Operation × JsNumber → Option Breaker
  | (.beforeRequest, nowMs) => (beforeRequest b nowMs iterations).map Prod.snd
  | (.recordSuccess, nowMs) => (recordSuccess b nowMs iterations).map Prod.snd
  | (.recordTransientFailure, nowMs) => (recordTransientFailure b nowMs iterations).map Prod.snd
  | (.recordNonTransientOutcome, nowMs) =>
      (recordNonTransientOutcome b nowMs iterations).map Prod.snd

/-! ## What one call can do -/

/-- The breaker `b'` is `b` after a committed transition to `next`; an unchanged
state is kept with its version. -/
structure Moved (b : Breaker) (next : UnversionedState) (b' : Breaker) : Prop where
  options : b'.options = b.options
  fields : b'.current.toUnversionedState = next ∨
    b' = b ∧ stateChanged b.current.toUnversionedState next = false

theorem transitionTo_current (b : Breaker) (next : UnversionedState)
    (announced : Option (JsNumber × LlmCircuitTransitionTrigger)) :
    ∃ b', transitionTo b b.current.version next announced =
      ⟨true, toSnapshot b.options b'.current, b'⟩ ∧ Moved b next b' := by
  unfold transitionTo
  rw [if_neg (not_not.mpr rfl)]
  split
  · next hsame => exact ⟨b, rfl, rfl, Or.inr ⟨rfl, by simpa using hsame⟩⟩
  · refine ⟨{ b with current := { next with version := b.current.version + 1 }, transitions := _ },
      rfl, rfl, Or.inl rfl⟩

theorem stateChanged_eq_false {previous next : UnversionedState}
    (h : stateChanged previous next = false) :
    previous.state = next.state ∧ previous.openedAt.isSome = next.openedAt.isSome ∧
      previous.probeInFlight = next.probeInFlight := by
  simp only [stateChanged, Bool.or_eq_false_iff, bne_eq_false_iff_eq, Bool.not_eq_false'] at h
  obtain ⟨⟨⟨hstate, -⟩, hopened⟩, hprobe⟩ := h
  refine ⟨hstate, ?_, hprobe⟩
  revert hopened
  cases previous.openedAt <;> cases next.openedAt <;> simp [sameInstant]

namespace Moved

variable {b b' : Breaker} {next : UnversionedState}

theorem state (h : Moved b next b') : b'.current.state = next.state := by
  rcases h.fields with hnext | ⟨rfl, hsame⟩
  · rw [hnext]
  · exact (stateChanged_eq_false hsame).1

theorem openedAt (h : Moved b next b') :
    b'.current.openedAt.isSome = next.openedAt.isSome := by
  rcases h.fields with hnext | ⟨rfl, hsame⟩
  · rw [hnext]
  · exact (stateChanged_eq_false hsame).2.1

theorem probeInFlight (h : Moved b next b') :
    b'.current.probeInFlight = next.probeInFlight := by
  rcases h.fields with hnext | ⟨rfl, hsame⟩
  · rw [hnext]
  · exact (stateChanged_eq_false hsame).2.2

theorem consecutiveFailures (h : Moved b next b') :
    b'.current.consecutiveFailures = next.consecutiveFailures ∨ b' = b := by
  rcases h.fields with hnext | ⟨rfl, -⟩
  · exact Or.inl (congrArg UnversionedState.consecutiveFailures hnext)
  · exact Or.inr rfl

end Moved

theorem reset_moved (resolveTrigger : InternalState → LlmCircuitTransitionTrigger) (b : Breaker)
    (nowMs : JsNumber) (n : ℕ) :
    ∃ snapshot b', reset resolveTrigger b nowMs (n + 1) = some (snapshot, b') ∧
      Moved b ⟨.closed, 0, none, false⟩ b' := by
  obtain ⟨b', htransition, hmoved⟩ := transitionTo_current b ⟨.closed, 0, none, false⟩
    (some (nowMs, resolveTrigger b.current))
  refine ⟨toSnapshot b.options b'.current, b', ?_, hmoved⟩
  rw [reset, htransition]
  rfl

/-- The state that `recordTransientFailure` moves to. -/
def afterFailure (b : Breaker) (nowMs : JsNumber) : UnversionedState :=
  let consecutiveFailures := b.current.consecutiveFailures.add 1
  if b.current.state = .halfOpen ∨ b.options.failureThreshold.le consecutiveFailures then
    ⟨.opened, consecutiveFailures, some nowMs, false⟩
  else ⟨b.current.state, consecutiveFailures, b.current.openedAt, false⟩

theorem recordTransientFailure_moved (b : Breaker) (nowMs : JsNumber) (n : ℕ) :
    ∃ snapshot b', recordTransientFailure b nowMs (n + 1) = some (snapshot, b') ∧
      Moved b (afterFailure b nowMs) b' := by
  have hopen := transitionTo_current b
    ⟨.opened, b.current.consecutiveFailures.add 1, some nowMs, false⟩
  rw [recordTransientFailure]
  unfold afterFailure
  split
  · next hhalf =>
      obtain ⟨b', htransition, hmoved⟩ := hopen (some (nowMs, .probeFailed))
      refine ⟨_, b', by rw [htransition]; rfl, ?_⟩
      rwa [if_pos (Or.inl hhalf)]
  · next hhalf =>
      split
      · next hreached =>
          obtain ⟨b', htransition, hmoved⟩ := hopen (some (nowMs, .failureThresholdReached))
          refine ⟨_, b', by rw [htransition]; rfl, ?_⟩
          rwa [if_pos (Or.inr hreached)]
      · next hbelow =>
          obtain ⟨b', htransition, hmoved⟩ := transitionTo_current b
            ⟨b.current.state, b.current.consecutiveFailures.add 1, b.current.openedAt, false⟩ none
          refine ⟨_, b', by rw [htransition]; rfl, ?_⟩
          rwa [if_neg (not_or.mpr ⟨hhalf, hbelow⟩)]

/-- The reset timeout of an open breaker has elapsed. -/
def Elapsed (b : Breaker) (nowMs : JsNumber) : Prop :=
  ∃ openedAt, b.current.openedAt = some openedAt ∧
    (openedAt.add b.options.resetTimeoutMs).le nowMs = true

/-- The three ways in which `beforeRequest` returns. -/
inductive Decided (b : Breaker) (nowMs : JsNumber) : LlmCircuitDecision → Breaker → Prop
  | rejected (h : b.current.state = .opened ∧ ¬ Elapsed b nowMs ∨
      b.current.state = .halfOpen ∧ b.current.probeInFlight = true) :
      Decided b nowMs ⟨false, toSnapshot b.options b.current⟩ b
  | passed (h : b.current.state = .closed) :
      Decided b nowMs ⟨true, toSnapshot b.options b.current⟩ b
  | probed {b' : Breaker} (h : b.current.state = .opened ∧ Elapsed b nowMs ∨
        b.current.state = .halfOpen ∧ b.current.probeInFlight = false)
      (options : b'.options = b.options)
      (fields : b'.current.toUnversionedState =
        { b.current.toUnversionedState with state := .halfOpen, probeInFlight := true }) :
      Decided b nowMs ⟨true, toSnapshot b'.options b'.current⟩ b'

/-- A transition that changes the flag or the state replaces every field. -/
theorem Moved.fields_eq {b b' : Breaker} {next : UnversionedState} (h : Moved b next b')
    (hne : b.current.state ≠ next.state ∨ b.current.probeInFlight ≠ next.probeInFlight) :
    b'.current.toUnversionedState = next := by
  rcases h.fields with hnext | ⟨-, hsame⟩
  · exact hnext
  · obtain ⟨hstate, -, hprobe⟩ := stateChanged_eq_false hsame
    rcases hne with hne | hne
    · exact absurd hstate hne
    · exact absurd hprobe hne

theorem beforeRequest_halfOpen {b : Breaker} (hstate : b.current.state = .halfOpen)
    (nowMs : JsNumber) (n : ℕ) :
    ∃ decision b', beforeRequest b nowMs (n + 1) = some (decision, b') ∧
      Decided b nowMs decision b' := by
  rw [beforeRequest]
  simp only [hstate]
  split
  · next hprobe => exact ⟨_, _, rfl, .rejected (Or.inr ⟨hstate, hprobe⟩)⟩
  · next hprobe =>
      have hidle : b.current.probeInFlight = false := Bool.eq_false_of_not_eq_true hprobe
      obtain ⟨b', htransition, hmoved⟩ := transitionTo_current b
        { b.current.toUnversionedState with state := .halfOpen, probeInFlight := true } none
      have hfields := hmoved.fields_eq (Or.inr (by simp [hidle]))
      refine ⟨_, b', by rw [htransition]; rfl, ?_⟩
      rw [← hmoved.options]
      exact .probed (Or.inr ⟨hstate, hidle⟩) hmoved.options hfields

theorem any_toNextProbeAt (b : Breaker) (nowMs : JsNumber) :
    ((toNextProbeAt b.options b.current).any fun nextProbeAt ↦ nextProbeAt.le nowMs) = true ↔
      Elapsed b nowMs := by
  unfold toNextProbeAt Elapsed
  cases b.current.openedAt with
  | none => simp
  | some openedAt => simp

/-- Two iterations are enough: the first may open the half-open state. -/
theorem beforeRequest_decided (b : Breaker) (nowMs : JsNumber) (n : ℕ) :
    ∃ decision b', beforeRequest b nowMs (n + 2) = some (decision, b') ∧
      Decided b nowMs decision b' := by
  cases hstate : b.current.state with
  | halfOpen => exact beforeRequest_halfOpen hstate nowMs (n + 1)
  | closed =>
      refine ⟨_, b, ?_, .passed hstate⟩
      rw [beforeRequest]
      simp only [hstate]
  | opened =>
      rw [beforeRequest]
      simp only [hstate]
      split
      · next helapsed =>
          obtain ⟨mid, htransition, hmoved⟩ := transitionTo_current b
            { b.current.toUnversionedState with state := .halfOpen, probeInFlight := false }
            (some (nowMs, .resetTimeoutElapsed))
          have hmid := hmoved.fields_eq (Or.inl (by simp [hstate]))
          rw [htransition]
          obtain ⟨decision, b', hdecision, hdecided⟩ :=
            beforeRequest_halfOpen (b := mid) (by rw [hmid]) nowMs n
          refine ⟨decision, b', hdecision, ?_⟩
          cases hdecided with
          | rejected h => simp [hmid] at h
          | passed h => simp [hmid] at h
          | probed h options fields =>
              apply Decided.probed (Or.inl ⟨hstate, (any_toNextProbeAt b nowMs).mp helapsed⟩)
              · exact options.trans hmoved.options
              · rw [fields, hmid]
      · next hwaiting =>
          rw [any_toNextProbeAt] at hwaiting
          exact ⟨_, b, rfl, .rejected (Or.inl ⟨hstate, hwaiting⟩)⟩

/-! ## The invariant of the reachable states -/

structure Sound (b : Breaker) : Prop where
  closed : b.current.state = .closed →
    b.current.consecutiveFailures.lt b.options.failureThreshold = true ∧
      b.current.openedAt = none ∧ b.current.probeInFlight = false
  opened : b.current.state = .opened →
    b.current.openedAt.isSome = true ∧ b.current.probeInFlight = false
  halfOpen : b.current.state = .halfOpen → b.current.openedAt.isSome = true

structure Kept (options : BreakerOptions) (b : Breaker) : Prop extends Sound b where
  options_eq : b.options = options
  counted : b.current.consecutiveFailures ≠ .nan

theorem accepts_of_create {options : BreakerOptions} {b : Breaker}
    {initialState : Option LlmCircuitPersistentState}
    (h : createLlmCircuitBreaker options initialState = .ok b) :
    options.failureThreshold.isInteger = true ∧ options.failureThreshold.lt 1 = false ∧
      b.options = options ∧ b.current.probeInFlight = false := by
  unfold createLlmCircuitBreaker at h
  split at h
  · cases h
  · next hthreshold =>
      split at h
      · cases h
      · injection h with h
        subst h
        simpa using hthreshold

theorem kept_of_create {options : BreakerOptions} {b : Breaker}
    (h : createLlmCircuitBreaker options none = .ok b) : Kept options b := by
  obtain ⟨hinteger, hpositive, hoptions, -⟩ := accepts_of_create h
  have hcurrent : b.current = ⟨⟨.closed, 0, none, false⟩, 0⟩ := by
    unfold createLlmCircuitBreaker at h
    split at h
    · cases h
    · split at h
      · cases h
      · injection h with h
        subst h
        simp [JsNumber.max_zero_zero]
  have hzero := JsNumber.zero_lt_of_not_lt_one hinteger hpositive
  refine ⟨⟨?_, ?_, ?_⟩, hoptions, ?_⟩
  · rw [hcurrent, hoptions]
    exact fun _ ↦ ⟨hzero, rfl, rfl⟩
  · rw [hcurrent]
    exact nofun
  · rw [hcurrent]
    exact nofun
  · rw [hcurrent]
    exact JsNumber.zero_ne_nan

variable {options : BreakerOptions} {b b' : Breaker}

theorem Kept.reset (hkept : Kept options b)
    (hpositive : JsNumber.lt 0 options.failureThreshold = true)
    (hmoved : Moved b ⟨.closed, 0, none, false⟩ b') : Kept options b' := by
  have hstate := hmoved.state
  refine ⟨⟨fun _ ↦ ⟨?_, ?_, hmoved.probeInFlight⟩, ?_, ?_⟩, ?_, ?_⟩
  · rcases hmoved.consecutiveFailures with hzero | rfl
    · rw [hzero, hmoved.options, hkept.options_eq]
      exact hpositive
    · exact (hkept.closed hstate).1
  · exact Option.not_isSome_iff_eq_none.mp (by simp [hmoved.openedAt])
  · simp [hstate]
  · simp [hstate]
  · exact hmoved.options.trans hkept.options_eq
  · rcases hmoved.consecutiveFailures with hzero | rfl
    · rw [hzero]
      exact JsNumber.zero_ne_nan
    · exact hkept.counted

theorem Kept.failure (hkept : Kept options b) (hthreshold : options.failureThreshold ≠ .nan)
    {nowMs : JsNumber} (hmoved : Moved b (afterFailure b nowMs) b') : Kept options b' := by
  have hoptions := hmoved.options.trans hkept.options_eq
  have hnumber := JsNumber.add_one_ne_nan hkept.counted
  have hcounted : b'.current.consecutiveFailures ≠ .nan := by
    rcases hmoved.consecutiveFailures with hcount | rfl
    · rw [hcount, afterFailure]
      split <;> exact hnumber
    · exact hkept.counted
  by_cases hopens : b.current.state = .halfOpen ∨
      b.options.failureThreshold.le (b.current.consecutiveFailures.add 1) = true
  · have hnext : afterFailure b nowMs =
        ⟨.opened, b.current.consecutiveFailures.add 1, some nowMs, false⟩ := if_pos hopens
    rw [hnext] at hmoved
    have hstate := hmoved.state
    refine ⟨⟨?_, fun _ ↦ ⟨hmoved.openedAt, hmoved.probeInFlight⟩, ?_⟩, hoptions, hcounted⟩
    · simp [hstate]
    · simp [hstate]
  · have hnext : afterFailure b nowMs = ⟨b.current.state, b.current.consecutiveFailures.add 1,
        b.current.openedAt, false⟩ := if_neg hopens
    rw [hnext] at hmoved
    obtain ⟨hhalf, hbelow⟩ := not_or.mp hopens
    have hstate : b'.current.state = b.current.state := hmoved.state
    refine ⟨⟨fun hclosed ↦ ⟨?_, ?_, hmoved.probeInFlight⟩,
      fun hopened ↦ ⟨?_, hmoved.probeInFlight⟩, fun hhalf' ↦ ?_⟩, hoptions, hcounted⟩
    · rcases hmoved.consecutiveFailures with hcount | rfl
      · rw [hcount, hoptions]
        rw [hkept.options_eq] at hbelow
        exact JsNumber.lt_of_le_eq_false hthreshold hnumber (Bool.eq_false_of_not_eq_true hbelow)
      · exact (hkept.closed hclosed).1
    · rw [← Option.not_isSome_iff_eq_none, hmoved.openedAt]
      simp [(hkept.closed (hstate.symm.trans hclosed)).2.1]
    · rw [hmoved.openedAt]
      exact (hkept.opened (hstate.symm.trans hopened)).1
    · exact absurd (hstate.symm.trans hhalf') hhalf

theorem Kept.decided (hkept : Kept options b) {nowMs : JsNumber} {decision : LlmCircuitDecision}
    (hdecided : Decided b nowMs decision b') : Kept options b' := by
  cases hdecided with
  | rejected h => exact hkept
  | passed h => exact hkept
  | probed h hoptions hfields =>
      have hopened : b.current.openedAt.isSome = true := by
        rcases h with ⟨hstate, -⟩ | ⟨hstate, -⟩
        · exact (hkept.opened hstate).1
        · exact hkept.halfOpen hstate
      refine ⟨⟨?_, ?_, fun _ ↦ ?_⟩, hoptions.trans hkept.options_eq, ?_⟩
      · simp [hfields]
      · simp [hfields]
      · rw [hfields]
        exact hopened
      · rw [hfields]
        exact hkept.counted

theorem Kept.call (hkept : Kept options b)
    (hpositive : JsNumber.lt 0 options.failureThreshold = true)
    (hthreshold : options.failureThreshold ≠ .nan) (operation : Operation × JsNumber) :
    ∃ b', call 3 b operation = some b' ∧ Kept options b' := by
  obtain ⟨operation, nowMs⟩ := operation
  cases operation with
  | beforeRequest =>
      obtain ⟨decision, b', hcall, hdecided⟩ := beforeRequest_decided b nowMs 1
      exact ⟨b', by simp [CircuitBreaker.call, hcall], hkept.decided hdecided⟩
  | recordSuccess =>
      obtain ⟨snapshot, b', hcall, hmoved⟩ := reset_moved _ b nowMs 2
      exact ⟨b', congrArg (Option.map Prod.snd) hcall, hkept.reset hpositive hmoved⟩
  | recordTransientFailure =>
      obtain ⟨snapshot, b', hcall, hmoved⟩ := recordTransientFailure_moved b nowMs 2
      exact ⟨b', by simp [CircuitBreaker.call, hcall], hkept.failure hthreshold hmoved⟩
  | recordNonTransientOutcome =>
      obtain ⟨snapshot, b', hcall, hmoved⟩ := reset_moved _ b nowMs 2
      exact ⟨b', congrArg (Option.map Prod.snd) hcall, hkept.reset hpositive hmoved⟩

/-- After any calls on a fresh breaker, at any clock readings, the state is
sound, every loop has returned within three iterations, and an open breaker
admits nothing before its reset timeout has elapsed. -/
theorem breaker_sound (h : createLlmCircuitBreaker options none = .ok b)
    (calls : List (Operation × JsNumber)) :
    ∃ reached, guardedRun (call 3) b calls = some reached ∧ Sound reached ∧
      ∀ nowMs, ∃ decision after, beforeRequest reached nowMs 3 = some (decision, after) ∧
        (reached.current.state = .opened → ∀ openedAt, reached.current.openedAt = some openedAt →
          nowMs.lt (openedAt.add options.resetTimeoutMs) = true →
            decision.allowRequest = false) := by
  obtain ⟨hinteger, hpositive, -, -⟩ := accepts_of_create h
  have hzero := JsNumber.zero_lt_of_not_lt_one hinteger hpositive
  have hthreshold : options.failureThreshold ≠ .nan := by
    intro hnan
    simp [hnan, JsNumber.isInteger] at hinteger
  obtain ⟨reached, hrun, hkept⟩ := guardedRun_total
    (fun _ operation hkept ↦ Kept.call hkept hzero hthreshold operation) (kept_of_create h) calls
  refine ⟨reached, hrun, hkept.toSound, fun nowMs ↦ ?_⟩
  obtain ⟨decision, after, hcall, hdecided⟩ := beforeRequest_decided reached nowMs 1
  refine ⟨decision, after, hcall, fun hstate openedAt hopenedAt hearly ↦ ?_⟩
  cases hdecided with
  | rejected _ => rfl
  | passed hclosed => simp [hstate] at hclosed
  | probed hprobed _ _ =>
      rcases hprobed with ⟨-, at', hat, helapsed⟩ | ⟨hhalf, -⟩
      · obtain rfl : openedAt = at' := Option.some.inj (hopenedAt.symm.trans hat)
        rw [hkept.options_eq, JsNumber.le_eq_false_of_lt hearly] at helapsed
        cases helapsed
      · simp [hstate] at hhalf

def sampleOptions : BreakerOptions := ⟨2, 1000⟩

def sampleBreaker : Breaker := ⟨sampleOptions, ⟨⟨.closed, 0, none, false⟩, 0⟩, []⟩

theorem createLlmCircuitBreaker_sample :
    createLlmCircuitBreaker sampleOptions none = .ok sampleBreaker := by
  decide +kernel

theorem breaker_sound_sample :
    ∃ reached, guardedRun (call 3) sampleBreaker
        [(.recordTransientFailure, 10), (.recordTransientFailure, 20), (.beforeRequest, 30)] =
          some reached ∧ Sound reached ∧
      ∀ nowMs, ∃ decision after, beforeRequest reached nowMs 3 = some (decision, after) ∧
        (reached.current.state = .opened → ∀ openedAt, reached.current.openedAt = some openedAt →
          nowMs.lt (openedAt.add sampleOptions.resetTimeoutMs) = true →
            decision.allowRequest = false) :=
  breaker_sound createLlmCircuitBreaker_sample _

end TestIntelligence.ModelGateway.CircuitBreaker
