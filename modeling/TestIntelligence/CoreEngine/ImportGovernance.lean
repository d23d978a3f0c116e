import TestIntelligence.Js.Collections
import TestIntelligence.Js.Dates
import TestIntelligence.Js.Number
import TestIntelligence.Systems.Answers
import Mathlib.Tactic.Positivity

/-!
# The request budget of the Figma imports

The imports with one credential share one entry of the table of budget windows.  A window is
told apart from the windows opened before it by its number, as the code tells them apart by the
identity of the object.  Times are whole milliseconds.
-/

namespace TestIntelligence.CoreEngine

open Js Systems

inductive BudgetResourceType
  | fileBootstrap
  | nodeBatch
  | imageMetadata
  deriving DecidableEq, Repr

namespace BudgetResourceType

def text : BudgetResourceType → JsString
  | fileBootstrap => js "file_bootstrap"
  | nodeBatch => js "node_batch"
  | imageMetadata => js "image_metadata"

/-- `DEFAULT_RESOURCE_MAX_REQUESTS` -/
def defaultMaxRequests : BudgetResourceType → ℕ
  | fileBootstrap => 4
  | nodeBatch => 80
  | imageMetadata => 80

theorem defaultMaxRequests_pos (resourceType : BudgetResourceType) :
    0 < resourceType.defaultMaxRequests := by
  cases resourceType <;> decide

end BudgetResourceType

namespace ImportGovernance

/-- The version label is given after `sanitizeOptionalLabel`. -/
structure BudgetPolicyInput where
  policyVersion : Option JsString := none
  windowSeconds : Option JsNumber := none
  maxRequestsPerWindow : Option JsNumber := none
  resourceMaxRequestsPerWindow : BudgetResourceType → Option JsNumber := fun _ ↦ none
  minimumDelayMs : Option JsNumber := none

structure ResolvedBudgetPolicy where
  policyVersion : JsString
  windowSeconds : ℕ
  maxRequestsPerWindow : ℕ
  resourceMaxRequestsPerWindow : BudgetResourceType → ℕ
  minimumDelayMs : ℕ
  windowSeconds_pos : 0 < windowSeconds
  maxRequestsPerWindow_pos : 0 < maxRequestsPerWindow
  resourceMaxRequestsPerWindow_pos : ∀ resourceType, 0 < resourceMaxRequestsPerWindow resourceType

def resolvePositiveInteger (value : Option JsNumber) (fallback : ℕ) : ℕ :=
  match value with
  | some value => if value.isInteger && 0 < value.toRat then value.toRat.num.toNat else fallback
  | none => fallback

def resolveNonNegativeInteger (value : Option JsNumber) (fallback : ℕ) : ℕ :=
  match value with
  | some value => if value.isInteger && 0 ≤ value.toRat then value.toRat.num.toNat else fallback
  | none => fallback

theorem resolvePositiveInteger_pos (value : Option JsNumber) {fallback : ℕ} (h : 0 < fallback) :
    0 < resolvePositiveInteger value fallback := by
  rw [resolvePositiveInteger.eq_def]
  split
  · split
    · next hvalue =>
        simp only [Bool.and_eq_true, decide_eq_true_eq] at hvalue
        have hnum := Rat.num_pos.mpr hvalue.2
        omega
    · exact h
  · exact h

def resolveBudgetPolicy (input : BudgetPolicyInput) : ResolvedBudgetPolicy where
  policyVersion := input.policyVersion.getD (js "figma-import-budget/v1")
  windowSeconds := resolvePositiveInteger input.windowSeconds 60
  maxRequestsPerWindow := resolvePositiveInteger input.maxRequestsPerWindow 120
  resourceMaxRequestsPerWindow resourceType :=
    resolvePositiveInteger (input.resourceMaxRequestsPerWindow resourceType)
      resourceType.defaultMaxRequests
  minimumDelayMs := resolveNonNegativeInteger input.minimumDelayMs 0
  windowSeconds_pos := resolvePositiveInteger_pos _ (by decide)
  maxRequestsPerWindow_pos := resolvePositiveInteger_pos _ (by decide)
  resourceMaxRequestsPerWindow_pos resourceType :=
    resolvePositiveInteger_pos _ resourceType.defaultMaxRequests_pos

structure SharedBudgetWindow where
  number : ℕ
  startedAtMs : ℤ
  totalCount : ℕ
  resourceCounts : List (BudgetResourceType × ℕ)
  lastScheduledRequestAtMs : Option ℤ
  deriving DecidableEq, Repr

namespace SharedBudgetWindow

/-- `window.resourceCounts.get(resourceType) ?? 0` -/
def resourceCount (window : SharedBudgetWindow) (resourceType : BudgetResourceType) : ℕ :=
  (mapGet window.resourceCounts resourceType).getD 0

end SharedBudgetWindow

/-- The part of the input that the calls of an import read: a governor made without
`windowStartedAt` reads the clock on every call, and without `sleepMs` never waits. -/
structure Governor where
  windowStartedAt : Option ℤ
  sleeps : Bool
  deriving DecidableEq, Repr

structure BudgetMetadata where
  policyVersion : JsString
  resourceType : Option BudgetResourceType
  windowSeconds : ℕ
  maxRequestsPerWindow : ℕ
  usedRequests : ℕ
  remainingRequests : ℕ
  resetAt : JsString
  deriving DecidableEq

inductive Outcome
  | released (atMs : ℤ)
  | budgetExhausted (message : JsString) (budget : BudgetMetadata)
  | budget (budget : BudgetMetadata)
  /-- `toISOString` of a time out of range. -/
  | rangeError
  deriving DecidableEq

variable (policy : ResolvedBudgetPolicy)

namespace Governor

/-- `currentBudgetNowMs` -/
def currentBudgetNowMs (governor : Governor) (nowMs : ℤ) : ℤ :=
  governor.windowStartedAt.getD nowMs

end Governor

def windowMs : ℤ := (policy.windowSeconds : ℤ) * 1000

/-- Whether the window is still the current one for a call that judges the time so. -/
def SharedBudgetWindow.currentAt (window : SharedBudgetWindow) (judgedMs : ℤ) : Bool :=
  judgedMs < window.startedAtMs + windowMs policy

def openedWindow (number : ℕ) (startedAtMs : ℤ) : SharedBudgetWindow :=
  ⟨number, startedAtMs, 0, [], none⟩

/-- `budgetWindow`: the window that the table holds afterwards. -/
def budgetWindow (current : Option SharedBudgetWindow) (judgedMs : ℤ) : SharedBudgetWindow :=
  match current with
  | none => openedWindow 0 judgedMs
  | some window =>
      if window.currentAt policy judgedMs then window else openedWindow (window.number + 1) judgedMs

/-- The largest time value of the language. -/
def maxTimeMs : ℤ := 8640000000000000

def buildBudgetMetadata (window : SharedBudgetWindow) (usedRequests maxRequestsPerWindow : ℕ)
    (resourceType : Option BudgetResourceType) : Option BudgetMetadata :=
  let resetAtMs := window.startedAtMs + windowMs policy
  if resetAtMs.natAbs ≤ maxTimeMs then
    some ⟨policy.policyVersion, resourceType, policy.windowSeconds, maxRequestsPerWindow,
      usedRequests, maxRequestsPerWindow - usedRequests, toISOString resetAtMs⟩
  else none

/-- `snapshotBudget` of the window that `budgetWindow` gave. -/
def snapshotOf (window : SharedBudgetWindow) (resourceType : Option BudgetResourceType) :
    Option BudgetMetadata :=
  match resourceType with
  | none => buildBudgetMetadata policy window window.totalCount policy.maxRequestsPerWindow none
  | some resourceType =>
      buildBudgetMetadata policy window (window.resourceCount resourceType)
        (policy.resourceMaxRequestsPerWindow resourceType) resourceType

/-- `remainingDelayMs` -/
def remainingDelay (window : SharedBudgetWindow) (nowMs : ℤ) : ℤ :=
  if policy.minimumDelayMs > 0 then
    match window.lastScheduledRequestAtMs with
    | some last => max 0 (last + policy.minimumDelayMs - nowMs)
    | none => 0
  else 0

theorem remainingDelay_eq_zero {window : SharedBudgetWindow}
    (h : window.lastScheduledRequestAtMs = none) (nowMs : ℤ) :
    remainingDelay policy window nowMs = 0 := by
  rw [remainingDelay, h, ite_self]

/-- What an admitted request does to the window. -/
def afterAdmission (window : SharedBudgetWindow) (resourceType : BudgetResourceType) (nowMs : ℤ) :
    SharedBudgetWindow :=
  { window with
    totalCount := window.totalCount + 1
    resourceCounts :=
      mapSet window.resourceCounts resourceType (window.resourceCount resourceType + 1)
    lastScheduledRequestAtMs := some (nowMs + remainingDelay policy window nowMs) }

def totalExhaustedMessage : JsString :=
  js "Figma import token budget is exhausted for the current import window."

def resourceExhaustedMessage (resourceType : BudgetResourceType) : JsString :=
  js "Figma import " ++ resourceType.text ++
    js " budget is exhausted for the current import window."

/-- `beforeRequest` up to its last snapshot, which is a call of its own when the wait is over. -/
def beforeRequest (governor : Governor) (resourceType : BudgetResourceType) (nowMs : ℤ)
    (current : Option SharedBudgetWindow) : SharedBudgetWindow × Outcome :=
  let window := budgetWindow policy current (governor.currentBudgetNowMs nowMs)
  match snapshotOf policy window none with
  | none => (window, .rangeError)
  | some totalBudget =>
      if totalBudget.remainingRequests ≤ 0 then
        (window, .budgetExhausted totalExhaustedMessage totalBudget)
      else
        match snapshotOf policy window (some resourceType) with
        | none => (window, .rangeError)
        | some resourceBudget =>
            if resourceBudget.remainingRequests ≤ 0 then
              (window, .budgetExhausted (resourceExhaustedMessage resourceType) resourceBudget)
            else
              let waits := governor.sleeps && 0 < remainingDelay policy window nowMs
              (afterAdmission policy window resourceType nowMs,
                .released (if waits then nowMs + remainingDelay policy window nowMs else nowMs))

/-- `snapshotBudget` -/
def snapshotBudget (governor : Governor) (resourceType : Option BudgetResourceType) (nowMs : ℤ)
    (current : Option SharedBudgetWindow) : SharedBudgetWindow × Outcome :=
  let window := budgetWindow policy current (governor.currentBudgetNowMs nowMs)
  match snapshotOf policy window resourceType with
  | none => (window, .rangeError)
  | some budget => (window, .budget budget)

inductive Call
  | beforeRequest (resourceType : BudgetResourceType)
  | snapshotBudget (resourceType : Option BudgetResourceType)
  deriving DecidableEq, Repr

/-- A call by one of the imports at a time of the wall clock. -/
structure Event where
  governor : Governor
  call : Call
  nowMs : ℤ
  deriving DecidableEq, Repr

def step (current : Option SharedBudgetWindow) (event : Event) :
    Option SharedBudgetWindow × Outcome :=
  let (window, outcome) :=
    match event.call with
    | .beforeRequest resourceType =>
        beforeRequest policy event.governor resourceType event.nowMs current
    | .snapshotBudget resourceType =>
        snapshotBudget policy event.governor resourceType event.nowMs current
  (some window, outcome)

/-! ## Runs -/

/-- The entry of the table after the calls. -/
def windowAfter (events : List Event) : Option SharedBudgetWindow :=
  stateAfter (step policy) none events

structure Admission where
  window : ℕ
  resourceType : BudgetResourceType
  admittedAtMs : ℤ
  releasedAtMs : ℤ
  deriving DecidableEq, Repr

def admissionOf (current : Option SharedBudgetWindow) (event : Event) : List Admission :=
  match event.call, step policy current event with
  | .beforeRequest resourceType, (some window, .released atMs) =>
      [⟨window.number, resourceType, event.nowMs, atMs⟩]
  | _, _ => []

def admissionsFrom : Option SharedBudgetWindow → List Event → List Admission
  | _, [] => []
  | current, event :: events =>
      admissionOf policy current event ++ admissionsFrom (step policy current event).1 events

/-- The admitted requests of the run. -/
def admissions (events : List Event) : List Admission := admissionsFrom policy none events

theorem admissionsFrom_append (current : Option SharedBudgetWindow) (before after : List Event) :
    admissionsFrom policy current (before ++ after) = admissionsFrom policy current before ++
      admissionsFrom policy (stateAfter (step policy) current before) after := by
  induction before generalizing current with
  | nil => rfl
  | cons event before ih =>
      rw [List.cons_append, admissionsFrom, ih, admissionsFrom, List.append_assoc]
      rfl

theorem admissions_concat (events : List Event) (event : Event) :
    admissions policy (events ++ [event]) =
      admissions policy events ++ admissionOf policy (windowAfter policy events) event := by
  rw [admissions, admissionsFrom_append, admissionsFrom, admissionsFrom, List.append_nil,
    admissions, windowAfter]

theorem windowAfter_concat (events : List Event) (event : Event) :
    windowAfter policy (events ++ [event]) =
      (step policy (windowAfter policy events) event).1 :=
  stateAfter_concat none events event

/-- The imports have started before they call, and the wall clock does not go back. -/
structure Timed (events : List Event) : Prop where
  sorted : events.Pairwise fun earlier later ↦ earlier.nowMs ≤ later.nowMs
  started : ∀ event ∈ events, ∀ startedAt ∈ event.governor.windowStartedAt,
    startedAt ≤ event.nowMs

end ImportGovernance

end TestIntelligence.CoreEngine
