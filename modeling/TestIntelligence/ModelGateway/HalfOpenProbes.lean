import TestIntelligence.ModelGateway.CircuitBreaker

/-!
# Probes of the half-open breaker

Requests share one breaker.  Each asks for admission once and, when admitted,
reports one outcome later, in any order relative to the others.  The breaker is
told the outcome but not the request it belongs to.
-/

namespace TestIntelligence.ModelGateway.CircuitBreaker

open Js Systems

inductive Outcome
  | success
  | transientFailure
  | nonTransientOutcome
  deriving DecidableEq, Repr

def recordOutcome : Outcome → Breaker → JsNumber → ℕ → Option (LlmCircuitSnapshot × Breaker)
  | .success => recordSuccess
  | .transientFailure => recordTransientFailure
  | .nonTransientOutcome => recordNonTransientOutcome

/-- An admitted request, and whether the half-open state admitted it. -/
structure Admission where
  request : ℕ
  probe : Bool
  deriving DecidableEq, Repr

structure Traffic where
  breaker : Breaker
  issued : ℕ
  unreported : List Admission
  deriving DecidableEq

def Traffic.start (b : Breaker) : Traffic := ⟨b, 0, []⟩

inductive TrafficAction
  | request (nowMs : JsNumber)
  | report (request : ℕ) (outcome : Outcome) (nowMs : JsNumber)
  deriving DecidableEq

def Traffic.admit (t : Traffic) (decision : LlmCircuitDecision) (b : Breaker) : Traffic where
  breaker := b
  issued := t.issued + 1
  unreported :=
    if decision.allowRequest then
      t.unreported ++ [⟨t.issued, decision.snapshot.state = .halfOpen⟩]
    else t.unreported

def Traffic.settle (t : Traffic) (request : ℕ) (b : Breaker) : Traffic :=
  { t with breaker := b, unreported := t.unreported.filter (·.request ≠ request) }

/-- A report is enabled for the requests that are admitted and unreported. -/
def Traffic.next (t : Traffic) : TrafficAction → Option Traffic
  | .request nowMs =>
      (beforeRequest t.breaker nowMs 3).map fun (decision, b) ↦ t.admit decision b
  | .report request outcome nowMs =>
      if t.unreported.any (·.request == request) then
        (recordOutcome outcome t.breaker nowMs 3).map fun (_, b) ↦ t.settle request b
      else none

def Traffic.probes (t : Traffic) : List Admission := t.unreported.filter (·.probe)

def Traffic.SingleProbe (t : Traffic) : Prop := t.probes.length ≤ 1

instance (t : Traffic) : Decidable t.SingleProbe := inferInstanceAs (Decidable (_ ≤ _))

/-- While a probe is in flight, only a probe reports. -/
def ReportsOwnProbe (t : Traffic) : TrafficAction → Prop
  | .request _ => True
  | .report request _ _ => t.breaker.current.probeInFlight = true →
      ∃ admission ∈ t.unreported, admission.request = request ∧ admission.probe = true

instance (t : Traffic) : DecidablePred (ReportsOwnProbe t)
  | .request _ => inferInstanceAs (Decidable True)
  | .report _ _ _ => inferInstanceAs (Decidable (_ → ∃ _, _))

/-- The flag counts the unreported probes. -/
structure Flagged (t : Traffic) : Prop where
  idle : t.breaker.current.state ≠ .halfOpen → t.breaker.current.probeInFlight = false
  count : t.probes.length = if t.breaker.current.probeInFlight then 1 else 0

theorem flagged_start {options : BreakerOptions} {b : Breaker}
    {initialState : Option LlmCircuitPersistentState}
    (h : createLlmCircuitBreaker options initialState = .ok b) : Flagged (Traffic.start b) := by
  obtain ⟨-, -, -, hprobe⟩ := accepts_of_create h
  refine ⟨fun _ ↦ hprobe, ?_⟩
  rw [Traffic.start, hprobe]
  rfl

theorem flagged_admit {t : Traffic} (ht : Flagged t) {nowMs : JsNumber}
    {decision : LlmCircuitDecision} {b : Breaker} (h : Decided t.breaker nowMs decision b) :
    Flagged ( t.admit decision b) := by
  cases h with
  | rejected hrejected => exact ⟨ht.idle, ht.count⟩
  | passed hclosed =>
      refine ⟨ht.idle, ?_⟩
      have hplain : ( t.admit ⟨true, toSnapshot t.breaker.options t.breaker.current⟩
          t.breaker).probes = t.probes := by
        simp [Traffic.probes, Traffic.admit, toSnapshot, hclosed]
      rw [hplain]
      exact ht.count
  | probed hprobed hoptions hfields =>
      have hidle : t.breaker.current.probeInFlight = false := by
        rcases hprobed with ⟨hopened, -⟩ | ⟨-, hidle⟩
        · exact ht.idle (by simp [hopened])
        · exact hidle
      have hnone : t.probes.length = 0 := by simpa [hidle] using ht.count
      refine ⟨fun hstate ↦ ?_, ?_⟩
      · simp [ Traffic.admit, hfields] at hstate
      · have hlast : ( t.admit ⟨true, toSnapshot b.options b.current⟩ b).probes =
            t.probes ++ [⟨t.issued, true⟩] := by
          simp [Traffic.probes, Traffic.admit, toSnapshot, hfields]
        rw [hlast]
        simp [hnone, Traffic.admit, hfields]

theorem recordOutcome_probeInFlight {outcome : Outcome} {b b' : Breaker} {nowMs : JsNumber}
    {snapshot : LlmCircuitSnapshot}
    (h : recordOutcome outcome b nowMs 3 = some (snapshot, b')) :
    b'.current.probeInFlight = false := by
  have hreset : ∀ resolveTrigger, reset resolveTrigger b nowMs 3 = some (snapshot, b') →
      b'.current.probeInFlight = false := by
    intro resolveTrigger hcall
    obtain ⟨snapshot', b'', hcall', hmoved⟩ := reset_moved resolveTrigger b nowMs 2
    obtain ⟨-, rfl⟩ := Prod.mk.inj (Option.some.inj (hcall'.symm.trans hcall))
    exact hmoved.probeInFlight
  cases outcome with
  | success =>
      rw [recordOutcome, recordSuccess] at h
      exact hreset _ h
  | nonTransientOutcome =>
      rw [recordOutcome, recordNonTransientOutcome] at h
      exact hreset _ h
  | transientFailure =>
      obtain ⟨snapshot', b'', hcall, hmoved⟩ := recordTransientFailure_moved b nowMs 2
      obtain ⟨-, rfl⟩ := Prod.mk.inj (Option.some.inj (hcall.symm.trans h))
      rw [hmoved.probeInFlight, afterFailure]
      split <;> rfl

theorem flagged_settle {t : Traffic} (ht : Flagged t) {request : ℕ} {b : Breaker}
    (hflag : b.current.probeInFlight = false)
    (hown : t.breaker.current.probeInFlight = true →
      ∃ admission ∈ t.unreported, admission.request = request ∧ admission.probe = true) :
    Flagged (t.settle request b) := by
  refine ⟨fun _ ↦ hflag, ?_⟩
  have hprobes : (t.settle request b).probes = t.probes.filter (·.request ≠ request) := by
    simp [Traffic.probes, Traffic.settle, List.filter_filter, Bool.and_comm]
  have hnone : (t.settle request b).probes = [] := by
    rw [hprobes]
    cases hbusy : t.breaker.current.probeInFlight with
    | false =>
        have hempty : t.probes.length = 0 := by simpa [hbusy] using ht.count
        rw [List.length_eq_zero_iff.mp hempty]
        rfl
    | true =>
        have hone : t.probes.length = 1 := by simpa [hbusy] using ht.count
        obtain ⟨only, honly⟩ := List.length_eq_one_iff.mp hone
        obtain ⟨admission, hmem, hrequest, hprobe⟩ := hown hbusy
        have hin : admission ∈ t.probes := List.mem_filter.mpr ⟨hmem, hprobe⟩
        rw [honly, List.mem_singleton] at hin
        rw [honly, ← hin]
        simp [hrequest]
  rw [hnone]
  simp [Traffic.settle, hflag]

theorem flagged_next {t t' : Traffic} {a : TrafficAction} (hown : ReportsOwnProbe t a)
    (h : t.next a = some t') (ht : Flagged t) : Flagged t' := by
  cases a with
  | request nowMs =>
      obtain ⟨decision, b, hcall, hdecided⟩ := beforeRequest_decided t.breaker nowMs 1
      rw [Traffic.next, hcall] at h
      obtain rfl := Option.some.inj h
      exact flagged_admit ht hdecided
  | report request outcome nowMs =>
      rw [Traffic.next] at h
      split at h
      · obtain ⟨⟨snapshot, b⟩, hcall, rfl⟩ := Option.map_eq_some_iff.mp h
        exact flagged_settle ht (recordOutcome_probeInFlight hcall) hown
      · cases h

/-- In every run in which, while a probe is in flight, only the probe reports,
at most one probe is unreported. -/
theorem single_probe_of_reportsOwnProbe {options : BreakerOptions} {b : Breaker}
    {initialState : Option LlmCircuitPersistentState}
    (h : createLlmCircuitBreaker options initialState = .ok b) {actions : List TrafficAction}
    {t : Traffic} (hrun : guardedRun Traffic.next (Traffic.start b) actions = some t)
    (hown : GuardedMeets Traffic.next ReportsOwnProbe (Traffic.start b) actions) :
    t.SingleProbe := by
  have hflagged : Flagged t :=
    guardedRun_induction_of_meets (fun _ _ _ ↦ flagged_next) hrun hown (flagged_start h)
  rw [Traffic.SingleProbe, hflagged.count]
  split <;> simp

/-- A breaker that opens at the first failure and stays open for ten milliseconds. -/
def touchyOptions : BreakerOptions := ⟨1, 10⟩

def touchyBreaker : Breaker := ⟨touchyOptions, ⟨⟨.closed, 0, none, false⟩, 0⟩, []⟩

theorem createLlmCircuitBreaker_touchy :
    createLlmCircuitBreaker touchyOptions none = .ok touchyBreaker := by
  decide +kernel

def ownReports : List TrafficAction :=
  [.request 0, .report 0 .transientFailure 1, .request 11, .report 1 .success 12]

theorem single_probe_ownReports :
    ∃ t, guardedRun Traffic.next (Traffic.start touchyBreaker) ownReports = some t ∧
      t.SingleProbe := by
  obtain ⟨t, ht⟩ := Option.isSome_iff_exists.mp
    (show (guardedRun Traffic.next (Traffic.start touchyBreaker) ownReports).isSome = true by
      decide +kernel)
  exact ⟨t, ht, single_probe_of_reportsOwnProbe createLlmCircuitBreaker_touchy ht
    (by decide +kernel)⟩

/-- Requests 0 and 1 are admitted by the closed breaker, request 2 is the probe.
The late failure of request 1 opens the breaker again, and request 3 becomes a
second probe. -/
def lateFailure : List TrafficAction :=
  [.request 0, .request 0, .report 0 .transientFailure 1, .request 11,
    .report 1 .transientFailure 12, .request 22]

theorem two_probes_after_lateFailure :
    ¬ ∀ (options : BreakerOptions) (b : Breaker) (actions : List TrafficAction) (t : Traffic),
      createLlmCircuitBreaker options none = .ok b →
        guardedRun Traffic.next (Traffic.start b) actions = some t → t.SingleProbe := by
  intro hall
  have hsome : (guardedRun Traffic.next (Traffic.start touchyBreaker) lateFailure).isSome = true ∧
      ¬ (guardedRun Traffic.next (Traffic.start touchyBreaker) lateFailure).all
        (fun t ↦ decide t.SingleProbe) = true := by
    decide +kernel
  obtain ⟨t, ht⟩ := Option.isSome_iff_exists.mp hsome.1
  have hsingle := hall _ _ _ t createLlmCircuitBreaker_touchy ht
  apply hsome.2
  rw [ht]
  exact decide_eq_true hsingle

end TestIntelligence.ModelGateway.CircuitBreaker
