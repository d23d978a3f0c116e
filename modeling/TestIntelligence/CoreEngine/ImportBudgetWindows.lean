import TestIntelligence.CoreEngine.ImportGovernance
import Mathlib.Tactic.Linarith

/-!
# The law of the import budget

No window admits more requests than the budget, whatever the imports do.  That a refusal follows
a full window of the clock, and that the released requests keep their distance, holds of the
runs in which no full window is used past its end, no window is replaced while its last request
is still too recent, and every import that has to wait does so.
-/

namespace TestIntelligence.CoreEngine.ImportGovernance

open Js Systems

section

variable (policy : ResolvedBudgetPolicy)

/-- The requests admitted within the last `windowSeconds`. -/
def recent (nowMs : ℤ) (admitted : List Admission) : List Admission :=
  admitted.filter fun admission ↦
    nowMs - windowMs policy < admission.admittedAtMs ∧ admission.admittedAtMs ≤ nowMs

def ofWindow (number : ℕ) (admitted : List Admission) : List Admission :=
  admitted.filter (·.window = number)

def ofResource (resourceType : BudgetResourceType) (admitted : List Admission) : List Admission :=
  admitted.filter (·.resourceType = resourceType)

/-- The total or the resource maximum is reached. -/
def Exhausts (resourceType : BudgetResourceType) (admitted : List Admission) : Prop :=
  policy.maxRequestsPerWindow ≤ admitted.length ∨
    policy.resourceMaxRequestsPerWindow resourceType ≤ (ofResource resourceType admitted).length

instance (resourceType : BudgetResourceType) (admitted : List Admission) :
    Decidable (Exhausts policy resourceType admitted) :=
  inferInstanceAs (Decidable (_ ∨ _))

namespace Outcome

def Refused (outcome : Outcome) : Prop :=
  ∃ message budget, outcome = .budgetExhausted message budget

end Outcome

/-- The budget is a budget per window. -/
structure PerWindow (events : List Event) : Prop where
  refused : ∀ before governor resourceType nowMs,
    before ++ [⟨governor, .beforeRequest resourceType, nowMs⟩] <+: events →
    (beforeRequest policy governor resourceType nowMs (windowAfter policy before)).2.Refused →
    Exhausts policy resourceType (recent policy nowMs (admissions policy before))
  total : ∀ number,
    (ofWindow number (admissions policy events)).length ≤ policy.maxRequestsPerWindow
  resource : ∀ number resourceType,
    (ofResource resourceType (ofWindow number (admissions policy events))).length ≤
      policy.resourceMaxRequestsPerWindow resourceType
  spaced : (admissions policy events).Pairwise fun earlier later ↦
    earlier.releasedAtMs + (policy.minimumDelayMs : ℤ) ≤ later.releasedAtMs

/-- A maximum of the window is reached. -/
def Full (window : SharedBudgetWindow) (resourceType : BudgetResourceType) : Prop :=
  policy.maxRequestsPerWindow ≤ window.totalCount ∨
    policy.resourceMaxRequestsPerWindow resourceType ≤ window.resourceCount resourceType

/-- The last request of the window is released, and the minimum delay after it is over. -/
def Settled (window : SharedBudgetWindow) (nowMs : ℤ) : Prop :=
  ∀ last ∈ window.lastScheduledRequestAtMs, last + policy.minimumDelayMs ≤ nowMs

/-- What a call must meet, of the window that it finds. -/
structure Meets (current : Option SharedBudgetWindow) (event : Event) : Prop where
  full : ∀ window ∈ current, ∀ resourceType, event.call = .beforeRequest resourceType →
    window.currentAt policy (event.governor.currentBudgetNowMs event.nowMs) = true →
    Full policy window resourceType → window.currentAt policy event.nowMs = true
  replaced : ∀ window ∈ current,
    window.currentAt policy (event.governor.currentBudgetNowMs event.nowMs) = false →
    Settled policy window event.nowMs
  waits : ∀ window ∈ current, ∀ resourceType, event.call = .beforeRequest resourceType →
    window.currentAt policy (event.governor.currentBudgetNowMs event.nowMs) = true →
    ¬ Full policy window resourceType → event.governor.sleeps = false →
    Settled policy window event.nowMs

end

variable {policy : ResolvedBudgetPolicy} {admitted : List Admission} {window : SharedBudgetWindow}
  {current : Option SharedBudgetWindow} {event : Event} {resourceType : BudgetResourceType}
  {nowMs : ℤ}

/-! ## One call -/

/-- The time at which an admitted request is released. -/
def releaseTime (policy : ResolvedBudgetPolicy) (governor : Governor)
    (window : SharedBudgetWindow) (nowMs : ℤ) : ℤ :=
  if governor.sleeps && 0 < remainingDelay policy window nowMs then
    nowMs + remainingDelay policy window nowMs
  else nowMs

/-- The window that a call uses. -/
def windowOf (policy : ResolvedBudgetPolicy) (current : Option SharedBudgetWindow)
    (event : Event) : SharedBudgetWindow :=
  budgetWindow policy current (event.governor.currentBudgetNowMs event.nowMs)

theorem snapshotOf_none_remaining {budget : BudgetMetadata}
    (h : snapshotOf policy window none = some budget) :
    budget.remainingRequests = policy.maxRequestsPerWindow - window.totalCount := by
  simp only [snapshotOf, buildBudgetMetadata] at h
  split at h
  · cases h
    rfl
  · cases h

theorem snapshotOf_some_remaining {budget : BudgetMetadata}
    (h : snapshotOf policy window (some resourceType) = some budget) :
    budget.remainingRequests =
      policy.resourceMaxRequestsPerWindow resourceType - window.resourceCount resourceType := by
  simp only [snapshotOf, buildBudgetMetadata] at h
  split at h
  · cases h
    rfl
  · cases h

/-- What a request does: it is admitted where no maximum is reached, it is refused where one is,
or it fails. -/
theorem beforeRequest_cases (policy : ResolvedBudgetPolicy) (governor : Governor)
    (resourceType : BudgetResourceType) (nowMs : ℤ) (current : Option SharedBudgetWindow)
    (hwindow : window = budgetWindow policy current (governor.currentBudgetNowMs nowMs)) :
    (¬ Full policy window resourceType ∧
      beforeRequest policy governor resourceType nowMs current =
        (afterAdmission policy window resourceType nowMs,
          .released (releaseTime policy governor window nowMs))) ∨
    ∃ outcome, beforeRequest policy governor resourceType nowMs current = (window, outcome) ∧
      (∀ atMs, outcome ≠ .released atMs) ∧
      (outcome.Refused → Full policy window resourceType) := by
  subst hwindow
  simp only [beforeRequest]
  split
  · exact .inr ⟨_, rfl, nofun, nofun⟩
  · next totalBudget htotal =>
      have htotal := snapshotOf_none_remaining htotal
      split
      · next hzero => exact .inr ⟨_, rfl, nofun, fun _ ↦ .inl (by omega)⟩
      · next hleft =>
          split
          · exact .inr ⟨_, rfl, nofun, nofun⟩
          · next resourceBudget hresource =>
              have hresource := snapshotOf_some_remaining hresource
              split
              · next hzero => exact .inr ⟨_, rfl, nofun, fun _ ↦ .inr (by omega)⟩
              · next hleft' =>
                  refine .inl ⟨?_, rfl⟩
                  rintro (h | h) <;> omega

/-- What a call does to the entry and to the admissions. -/
theorem step_cases (policy : ResolvedBudgetPolicy) (current : Option SharedBudgetWindow)
    (event : Event) :
    (∃ resourceType, event.call = .beforeRequest resourceType ∧
      ¬ Full policy (windowOf policy current event) resourceType ∧
      (step policy current event).1 =
        some (afterAdmission policy (windowOf policy current event) resourceType event.nowMs) ∧
      admissionOf policy current event = [⟨(windowOf policy current event).number, resourceType,
        event.nowMs, releaseTime policy event.governor (windowOf policy current event)
          event.nowMs⟩]) ∨
    ((step policy current event).1 = some (windowOf policy current event) ∧
      admissionOf policy current event = []) := by
  obtain ⟨governor, call, nowMs⟩ := event
  cases call with
  | beforeRequest resourceType =>
      rcases beforeRequest_cases policy governor resourceType nowMs current rfl with
        ⟨hfull, heq⟩ | ⟨outcome, heq, hout, -⟩
      · refine .inl ⟨resourceType, rfl, hfull, ?_, ?_⟩
        · simp only [step, heq]
          rfl
        · simp only [admissionOf, step, heq]
          rfl
      · refine .inr ⟨?_, ?_⟩
        · simp only [step, heq]
          rfl
        · simp only [admissionOf, step, heq]
          cases outcome with
          | released atMs => exact absurd rfl (hout atMs)
          | _ => rfl
  | snapshotBudget resourceType =>
      refine .inr ⟨?_, rfl⟩
      simp only [step, snapshotBudget]
      split <;> rfl

theorem windowOf_cases (policy : ResolvedBudgetPolicy) (current : Option SharedBudgetWindow)
    (event : Event) :
    (current = none ∧ windowOf policy current event =
      openedWindow 0 (event.governor.currentBudgetNowMs event.nowMs)) ∨
    ∃ window, current = some window ∧
      ((window.currentAt policy (event.governor.currentBudgetNowMs event.nowMs) = true ∧
        windowOf policy current event = window) ∨
      (window.currentAt policy (event.governor.currentBudgetNowMs event.nowMs) = false ∧
        windowOf policy current event = openedWindow (window.number + 1)
          (event.governor.currentBudgetNowMs event.nowMs))) := by
  cases current with
  | none => exact .inl ⟨rfl, rfl⟩
  | some window =>
      refine .inr ⟨window, rfl, ?_⟩
      rw [windowOf, budgetWindow]
      cases window.currentAt policy (event.governor.currentBudgetNowMs event.nowMs) with
      | true => exact .inl ⟨rfl, if_pos rfl⟩
      | false => exact .inr ⟨rfl, if_neg Bool.false_ne_true⟩

/-! ## The counts of the windows -/

/-- What the entry says about the admitted requests, at a time no earlier than the calls. -/
structure Counted (policy : ResolvedBudgetPolicy) (admitted : List Admission)
    (current : Option SharedBudgetWindow) (nowMs : ℤ) : Prop where
  numbered : ∀ admission ∈ admitted, ∃ window ∈ current, admission.window ≤ window.number
  past : ∀ admission ∈ admitted, admission.admittedAtMs ≤ nowMs
  opened : ∀ window ∈ current, window.startedAtMs ≤ nowMs
  started : ∀ window ∈ current, ∀ admission ∈ admitted, admission.window = window.number →
    window.startedAtMs ≤ admission.admittedAtMs
  totalCount : ∀ window ∈ current, (ofWindow window.number admitted).length = window.totalCount
  resourceCount : ∀ window ∈ current, ∀ resourceType,
    (ofResource resourceType (ofWindow window.number admitted)).length =
      window.resourceCount resourceType
  total : ∀ number, (ofWindow number admitted).length ≤ policy.maxRequestsPerWindow
  resource : ∀ number resourceType,
    (ofResource resourceType (ofWindow number admitted)).length ≤
      policy.resourceMaxRequestsPerWindow resourceType

theorem counted_nil (policy : ResolvedBudgetPolicy) (nowMs : ℤ) :
    Counted policy [] none nowMs := by
  refine ⟨nofun, nofun, nofun, nofun, nofun, nofun, fun _ ↦ ?_, fun _ _ ↦ ?_⟩ <;>
    exact Nat.zero_le _

theorem Counted.mono {later : ℤ} (h : Counted policy admitted current nowMs)
    (hlater : nowMs ≤ later) : Counted policy admitted current later :=
  { h with
    past := fun admission hmem ↦ (h.past admission hmem).trans hlater
    opened := fun window hwindow ↦ (h.opened window hwindow).trans hlater }

theorem ofWindow_eq_nil {number : ℕ} (h : ∀ admission ∈ admitted, admission.window < number) :
    ofWindow number admitted = [] := by
  rw [ofWindow, List.filter_eq_nil_iff]
  intro admission hmem
  have := h admission hmem
  simp only [decide_eq_true_eq]
  omega

/-- A window that was just opened has admitted nothing. -/
theorem Counted.opens {number : ℕ} {startedAtMs : ℤ} (h : Counted policy admitted current nowMs)
    (hnumber : ∀ admission ∈ admitted, admission.window < number) (hstart : startedAtMs ≤ nowMs) :
    Counted policy admitted (some (openedWindow number startedAtMs)) nowMs where
  numbered := fun admission hmem ↦ ⟨_, rfl, (hnumber admission hmem).le⟩
  past := h.past
  opened := by
    rintro window ⟨⟩
    exact hstart
  started := by
    rintro window ⟨⟩ admission hmem hwindow
    exact absurd hwindow (hnumber admission hmem).ne
  totalCount := by
    rintro window ⟨⟩
    change (ofWindow number admitted).length = 0
    rw [ofWindow_eq_nil hnumber, List.length_nil]
  resourceCount := by
    rintro window ⟨⟩ resourceType
    change (ofResource resourceType (ofWindow number admitted)).length = 0
    rw [ofWindow_eq_nil hnumber]
    rfl
  total := h.total
  resource := h.resource

theorem Counted.windowOf (h : Counted policy admitted current event.nowMs)
    (hstart : ∀ startedAt ∈ event.governor.windowStartedAt, startedAt ≤ event.nowMs) :
    Counted policy admitted (some (windowOf policy current event)) event.nowMs := by
  have hjudged : event.governor.currentBudgetNowMs event.nowMs ≤ event.nowMs := by
    rw [Governor.currentBudgetNowMs]
    cases hwhen : event.governor.windowStartedAt with
    | none => exact le_rfl
    | some startedAt => exact hstart startedAt hwhen
  rcases windowOf_cases policy current event with
    ⟨rfl, heq⟩ | ⟨window, rfl, ⟨-, heq⟩ | ⟨-, heq⟩⟩
  · rw [heq]
    refine h.opens (fun admission hmem ↦ ?_) hjudged
    obtain ⟨_, hnone, -⟩ := h.numbered admission hmem
    cases hnone
  · rw [heq]
    exact h
  · rw [heq]
    refine h.opens (fun admission hmem ↦ ?_) hjudged
    obtain ⟨_, ⟨⟩, hle⟩ := h.numbered admission hmem
    omega

theorem ofWindow_concat (number : ℕ) (admission : Admission) :
    ofWindow number (admitted ++ [admission]) =
      ofWindow number admitted ++ if admission.window = number then [admission] else [] := by
  rw [ofWindow, List.filter_append, List.filter_singleton, ofWindow]
  by_cases h : admission.window = number <;> simp [h]

theorem ofResource_concat (admission : Admission) :
    ofResource resourceType (admitted ++ [admission]) =
      ofResource resourceType admitted ++
        if admission.resourceType = resourceType then [admission] else [] := by
  rw [ofResource, List.filter_append, List.filter_singleton, ofResource]
  by_cases h : admission.resourceType = resourceType <;> simp [h]

theorem resourceCount_afterAdmission (policy : ResolvedBudgetPolicy) (window : SharedBudgetWindow)
    (resourceType resourceType' : BudgetResourceType) (nowMs : ℤ) :
    (afterAdmission policy window resourceType nowMs).resourceCount resourceType' =
      window.resourceCount resourceType' + if resourceType = resourceType' then 1 else 0 := by
  rw [afterAdmission, SharedBudgetWindow.resourceCount, mapGet_mapSet]
  by_cases h : resourceType' = resourceType
  · subst h
    simp
  · rw [if_neg h, if_neg (Ne.symm h)]
    rfl

/-- An admission counts in its own window and resource. -/
theorem Counted.admission {atMs : ℤ} (h : Counted policy admitted (some window) nowMs)
    (hfull : ¬ Full policy window resourceType) :
    Counted policy (admitted ++ [⟨window.number, resourceType, nowMs, atMs⟩])
      (some (afterAdmission policy window resourceType nowMs)) nowMs := by
  have htotal : ∀ number,
      (ofWindow number (admitted ++ [⟨window.number, resourceType, nowMs, atMs⟩])).length =
        (ofWindow number admitted).length + if window.number = number then 1 else 0 := by
    intro number
    rw [ofWindow_concat, List.length_append]
    split <;> rfl
  have hresource : ∀ number resourceType',
      (ofResource resourceType' (ofWindow number
        (admitted ++ [⟨window.number, resourceType, nowMs, atMs⟩]))).length =
        (ofResource resourceType' (ofWindow number admitted)).length +
          if window.number = number ∧ resourceType = resourceType' then 1 else 0 := by
    intro number resourceType'
    rw [ofWindow_concat]
    by_cases hnumber : window.number = number
    · rw [if_pos hnumber, ofResource_concat, List.length_append]
      by_cases hsame : resourceType = resourceType' <;> simp [hnumber, hsame]
    · rw [if_neg hnumber, List.append_nil, if_neg (fun hboth ↦ hnumber hboth.1), Nat.add_zero]
  rw [Full, not_or, not_le, not_le] at hfull
  have hcount := h.totalCount window rfl
  refine ⟨?_, ?_, ?_, ?_, ?_, ?_, ?_, ?_⟩
  · intro admission hmem
    refine ⟨_, rfl, ?_⟩
    rcases List.mem_append.mp hmem with hmem | hmem
    · obtain ⟨_, ⟨⟩, hle⟩ := h.numbered admission hmem
      exact hle
    · rw [List.mem_singleton.mp hmem]
      exact le_rfl
  · intro admission hmem
    rcases List.mem_append.mp hmem with hmem | hmem
    · exact h.past admission hmem
    · rw [List.mem_singleton.mp hmem]
  · rintro _ ⟨⟩
    exact h.opened window rfl
  · rintro _ ⟨⟩ admission hmem hwindow
    rcases List.mem_append.mp hmem with hmem | hmem
    · exact h.started window rfl admission hmem hwindow
    · rw [List.mem_singleton.mp hmem]
      exact h.opened window rfl
  · rintro _ ⟨⟩
    change (ofWindow window.number _).length = window.totalCount + 1
    rw [htotal, if_pos rfl, hcount]
  · rintro _ ⟨⟩ resourceType'
    rw [resourceCount_afterAdmission]
    change (ofResource resourceType' (ofWindow window.number _)).length = _
    rw [hresource, h.resourceCount window rfl resourceType']
    simp
  · intro number
    have hold := h.total number
    rw [htotal]
    split
    · next hnumber =>
        subst hnumber
        omega
    · exact hold
  · intro number resourceType'
    have hold := h.resource number resourceType'
    rw [hresource]
    split
    · next hsame =>
        obtain ⟨rfl, rfl⟩ := hsame
        have hcount := h.resourceCount window rfl resourceType
        omega
    · exact hold

theorem Counted.step (h : Counted policy admitted current event.nowMs)
    (hstart : ∀ startedAt ∈ event.governor.windowStartedAt, startedAt ≤ event.nowMs) :
    Counted policy (admitted ++ admissionOf policy current event) (step policy current event).1
      event.nowMs := by
  have hwindow := h.windowOf hstart
  rcases step_cases policy current event with ⟨resourceType, -, hfull, heq, hadm⟩ | ⟨heq, hadm⟩
  · rw [heq, hadm]
    exact hwindow.admission hfull
  · rw [heq, hadm, List.append_nil]
    exact hwindow

namespace Timed

variable {events before : List Event}

theorem latest (h : Timed events) (hrun : before ++ [event] <+: events) :
    ∀ earlier ∈ before, earlier.nowMs ≤ event.nowMs := by
  have hsorted := h.sorted.sublist hrun.sublist
  exact fun earlier hmem ↦
    (List.pairwise_append.mp hsorted).2.2 earlier hmem event (List.mem_singleton_self event)

theorem started_last (h : Timed events) (hrun : before ++ [event] <+: events) :
    ∀ startedAt ∈ event.governor.windowStartedAt, startedAt ≤ event.nowMs :=
  h.started event (hrun.subset (by simp))

end Timed

variable {events before : List Event}

theorem before_of_concat (h : before ++ [event] <+: events) : before <+: events :=
  (List.prefix_append before [event]).trans h

/-- In every run the entry counts the admissions. -/
theorem counted_windowAfter (htimed : Timed events) (hrun : before <+: events)
    (hlatest : ∀ event ∈ before, event.nowMs ≤ nowMs) :
    Counted policy (admissions policy before) (windowAfter policy before) nowMs := by
  induction before using List.reverseRecOn generalizing nowMs with
  | nil => exact counted_nil policy nowMs
  | append_singleton before event ih =>
      have hbefore := ih (before_of_concat hrun) (htimed.latest hrun)
      rw [admissions_concat, windowAfter_concat]
      exact (hbefore.step (htimed.started_last hrun)).mono (hlatest event (by simp))

/-! ## The distance between the releases -/

/-- Every released request is at its distance from the time, or no later than the last request
that the window knows of. -/
structure Apart (policy : ResolvedBudgetPolicy) (admitted : List Admission)
    (current : Option SharedBudgetWindow) (nowMs : ℤ) : Prop where
  spaced : admitted.Pairwise fun earlier later ↦
    earlier.releasedAtMs + (policy.minimumDelayMs : ℤ) ≤ later.releasedAtMs
  behind : ∀ admission ∈ admitted,
    admission.releasedAtMs + (policy.minimumDelayMs : ℤ) ≤ nowMs ∨
      ∃ window ∈ current, ∃ last ∈ window.lastScheduledRequestAtMs, admission.releasedAtMs ≤ last
  known : ∀ window ∈ current, ∀ last ∈ window.lastScheduledRequestAtMs,
    policy.minimumDelayMs = 0 → last ≤ nowMs

theorem Apart.mono {later : ℤ} (h : Apart policy admitted current nowMs)
    (hlater : nowMs ≤ later) : Apart policy admitted current later where
  spaced := h.spaced
  behind := fun admission hmem ↦ (h.behind admission hmem).imp_left (·.trans hlater)
  known := fun window hwindow last hlast hzero ↦
    (h.known window hwindow last hlast hzero).trans hlater

/-- A settled window may be replaced. -/
theorem Apart.opens {number : ℕ} {startedAtMs : ℤ} (h : Apart policy admitted current nowMs)
    (hsettled : ∀ window ∈ current, Settled policy window nowMs) :
    Apart policy admitted (some (openedWindow number startedAtMs)) nowMs where
  spaced := h.spaced
  behind := by
    intro admission hmem
    rcases h.behind admission hmem with hleft | ⟨window, hwindow, last, hlast, hle⟩
    · exact .inl hleft
    · have := hsettled window hwindow last hlast
      exact .inl (by omega)
  known := by
    rintro window ⟨⟩ last ⟨⟩

theorem Apart.windowOf (h : Apart policy admitted current event.nowMs)
    (hmeets : Meets policy current event) :
    Apart policy admitted (some (windowOf policy current event)) event.nowMs := by
  rcases windowOf_cases policy current event with
    ⟨rfl, heq⟩ | ⟨window, rfl, ⟨-, heq⟩ | ⟨hended, heq⟩⟩
  · rw [heq]
    exact h.opens nofun
  · rw [heq]
    exact h
  · rw [heq]
    refine h.opens ?_
    rintro _ ⟨⟩
    exact hmeets.replaced window rfl hended

theorem remainingDelay_eq (window : SharedBudgetWindow) (nowMs : ℤ) {last : ℤ}
    (hlast : window.lastScheduledRequestAtMs = some last)
    (hknown : policy.minimumDelayMs = 0 → last ≤ nowMs) :
    remainingDelay policy window nowMs = max 0 (last + policy.minimumDelayMs - nowMs) := by
  rw [remainingDelay, hlast]
  split
  · rfl
  · have := hknown (by omega)
    omega

/-- The request is scheduled at its distance from the released ones. -/
theorem Apart.scheduled (h : Apart policy admitted (some window) nowMs) :
    (∀ admission ∈ admitted, admission.releasedAtMs + (policy.minimumDelayMs : ℤ) ≤
      nowMs + remainingDelay policy window nowMs) ∧
    (policy.minimumDelayMs = 0 → remainingDelay policy window nowMs = 0) ∧
    0 ≤ remainingDelay policy window nowMs := by
  cases hlast : window.lastScheduledRequestAtMs with
  | none =>
      rw [remainingDelay_eq_zero policy hlast]
      refine ⟨fun admission hmem ↦ ?_, fun _ ↦ rfl, le_rfl⟩
      rcases h.behind admission hmem with hleft | ⟨_, ⟨⟩, last, hsome, -⟩
      · omega
      · rw [hlast] at hsome
        cases hsome
  | some last =>
      have hknown := h.known window rfl last hlast
      rw [remainingDelay_eq window nowMs hlast hknown]
      refine ⟨fun admission hmem ↦ ?_, fun hzero ↦ ?_, le_max_left _ _⟩
      · rcases h.behind admission hmem with hleft | ⟨_, ⟨⟩, last', hsome, hle⟩
        · omega
        · rw [hlast] at hsome
          cases hsome
          omega
      · have := hknown hzero
        omega

/-- Where an import that cannot wait need not wait, a request is released when scheduled. -/
theorem releaseTime_eq {governor : Governor} (hnonneg : 0 ≤ remainingDelay policy window nowMs)
    (h : governor.sleeps = false → remainingDelay policy window nowMs = 0) :
    releaseTime policy governor window nowMs = nowMs + remainingDelay policy window nowMs := by
  rw [releaseTime]
  split
  · rfl
  · next hwaits =>
      rw [Bool.and_eq_true, decide_eq_true_eq, not_and] at hwaits
      cases hsleeps : governor.sleeps with
      | true =>
          have := hwaits hsleeps
          omega
      | false => rw [h hsleeps, add_zero]

theorem Apart.admission {atMs : ℤ} {number : ℕ} (h : Apart policy admitted (some window) nowMs)
    (hrelease : atMs = nowMs + remainingDelay policy window nowMs) :
    Apart policy (admitted ++ [⟨number, resourceType, nowMs, atMs⟩])
      (some (afterAdmission policy window resourceType nowMs)) nowMs := by
  obtain ⟨hdistance, hzero, hnonneg⟩ := h.scheduled
  refine ⟨?_, ?_, ?_⟩
  · refine List.pairwise_append.mpr ⟨h.spaced, List.pairwise_singleton _ _, ?_⟩
    intro earlier hmem later hlater
    rw [List.mem_singleton.mp hlater]
    exact (hdistance earlier hmem).trans hrelease.ge
  · intro admission hmem
    refine .inr ⟨_, rfl, nowMs + remainingDelay policy window nowMs, rfl, ?_⟩
    rcases List.mem_append.mp hmem with hmem | hmem
    · have := hdistance admission hmem
      omega
    · rw [List.mem_singleton.mp hmem]
      exact hrelease.le
  · rintro _ ⟨⟩ last hlast hpolicy
    cases hlast
    rw [hzero hpolicy, add_zero]

theorem Apart.step (h : Apart policy admitted current event.nowMs)
    (hmeets : Meets policy current event) :
    Apart policy (admitted ++ admissionOf policy current event) (step policy current event).1
      event.nowMs := by
  have hwindow := h.windowOf hmeets
  rcases step_cases policy current event with
    ⟨resourceType, hcall, hfull, heq, hadm⟩ | ⟨heq, hadm⟩
  · rw [heq, hadm]
    refine hwindow.admission (releaseTime_eq hwindow.scheduled.2.2 fun hsleeps ↦ ?_)
    rcases windowOf_cases policy current event with
      ⟨rfl, hnew⟩ | ⟨window, rfl, ⟨hcurrent, hsame⟩ | ⟨-, hnew⟩⟩
    · rw [hnew, remainingDelay_eq_zero policy rfl]
    · rw [hsame] at hfull hwindow ⊢
      cases hlast : window.lastScheduledRequestAtMs with
      | none => exact remainingDelay_eq_zero policy hlast _
      | some last =>
          have hsettled := hmeets.waits window rfl resourceType hcall hcurrent hfull hsleeps
            last hlast
          rw [remainingDelay_eq window event.nowMs hlast (hwindow.known window rfl last hlast)]
          omega
    · rw [hnew, remainingDelay_eq_zero policy rfl]
  · rw [heq, hadm, List.append_nil]
    exact hwindow

theorem meets_at
    (hmeets : MeetsAlong (fun current event ↦ (step policy current event).1) (Meets policy) none
      events)
    (hrun : before ++ [event] <+: events) :
    Meets policy (windowAfter policy before) event := by
  obtain ⟨after, rfl⟩ := hrun
  rw [List.append_assoc, List.singleton_append] at hmeets
  exact hmeets.at_append

/-- In every run whose calls meet the condition the releases keep their distance. -/
theorem apart_windowAfter (htimed : Timed events)
    (hmeets : MeetsAlong (fun current event ↦ (step policy current event).1) (Meets policy) none
      events)
    (hrun : before <+: events) (hlatest : ∀ event ∈ before, event.nowMs ≤ nowMs) :
    Apart policy (admissions policy before) (windowAfter policy before) nowMs := by
  induction before using List.reverseRecOn generalizing nowMs with
  | nil => exact ⟨List.Pairwise.nil, nofun, nofun⟩
  | append_singleton before event ih =>
      have hbefore := ih (before_of_concat hrun) (htimed.latest hrun)
      rw [admissions_concat, windowAfter_concat]
      exact (hbefore.step (meets_at hmeets hrun)).mono (hlatest event (by simp))

/-! ## The refusals -/

/-- The admissions of a window that has not ended are recent. -/
theorem Counted.ofWindow_sublist_recent (h : Counted policy admitted (some window) nowMs)
    (hcurrent : window.currentAt policy nowMs = true) :
    (ofWindow window.number admitted).Sublist (recent policy nowMs admitted) := by
  rw [SharedBudgetWindow.currentAt, decide_eq_true_eq] at hcurrent
  have hrecent : recent policy nowMs (ofWindow window.number admitted) =
      ofWindow window.number admitted := by
    refine List.filter_eq_self.mpr fun admission hmem ↦ ?_
    rw [ofWindow, List.mem_filter, decide_eq_true_eq] at hmem
    have hstarted := h.started window rfl admission hmem.1 hmem.2
    exact decide_eq_true ⟨by omega, h.past admission hmem.1⟩
  rw [← hrecent]
  exact List.filter_sublist.filter _

theorem Counted.exhausts_of_full (h : Counted policy admitted (some window) nowMs)
    (hcurrent : window.currentAt policy nowMs = true) (hfull : Full policy window resourceType) :
    Exhausts policy resourceType (recent policy nowMs admitted) := by
  have hsub := h.ofWindow_sublist_recent hcurrent
  rcases hfull with hfull | hfull
  · rw [← h.totalCount window rfl] at hfull
    exact .inl (hfull.trans hsub.length_le)
  · rw [← h.resourceCount window rfl resourceType] at hfull
    exact .inr (hfull.trans (hsub.filter _).length_le)

theorem openedWindow_not_full (number : ℕ) (startedAtMs : ℤ) :
    ¬ Full policy (openedWindow number startedAtMs) resourceType := by
  have htotal := policy.maxRequestsPerWindow_pos
  have hresource := policy.resourceMaxRequestsPerWindow_pos resourceType
  rintro (h | h)
  · exact absurd h (not_le.mpr htotal)
  · exact absurd h (not_le.mpr hresource)

/-- A window that a call finds full has not ended. -/
theorem Meets.currentAt_of_full (h : Meets policy current event)
    (hcall : event.call = .beforeRequest resourceType)
    (hfull : Full policy (windowOf policy current event) resourceType) :
    (windowOf policy current event).currentAt policy event.nowMs = true := by
  rcases windowOf_cases policy current event with
    ⟨rfl, heq⟩ | ⟨window, rfl, ⟨hcurrent, heq⟩ | ⟨-, heq⟩⟩
  · rw [heq] at hfull
    exact absurd hfull (openedWindow_not_full _ _)
  · rw [heq] at hfull ⊢
    exact h.full window rfl resourceType hcall hcurrent hfull
  · rw [heq] at hfull
    exact absurd hfull (openedWindow_not_full _ _)

theorem Timed.exists_latest (h : Timed events) :
    ∃ nowMs, ∀ event ∈ events, event.nowMs ≤ nowMs := by
  induction events using List.reverseRecOn with
  | nil => exact ⟨0, nofun⟩
  | append_singleton before event _ =>
      refine ⟨event.nowMs, fun earlier hmem ↦ ?_⟩
      rcases List.mem_append.mp hmem with hmem | hmem
      · exact h.latest List.prefix_rfl earlier hmem
      · rw [List.mem_singleton.mp hmem]

/-- In a run whose calls meet the condition the budget is a budget per window. -/
theorem importBudget_perWindow (policy : ResolvedBudgetPolicy) (events : List Event)
    (htimed : Timed events)
    (hmeets : MeetsAlong (fun current event ↦ (step policy current event).1) (Meets policy) none
      events) :
    PerWindow policy events := by
  obtain ⟨latest, hlatest⟩ := htimed.exists_latest
  have hcounted : Counted policy (admissions policy events) (windowAfter policy events) latest :=
    counted_windowAfter htimed List.prefix_rfl hlatest
  refine ⟨?_, hcounted.total, hcounted.resource,
    (apart_windowAfter htimed hmeets List.prefix_rfl hlatest).spaced⟩
  intro before governor resourceType nowMs hrun hrefused
  have hcount : Counted policy (admissions policy before) (windowAfter policy before) nowMs :=
    counted_windowAfter htimed (before_of_concat hrun) (htimed.latest hrun)
  have hbefore := hcount.windowOf (htimed.started_last hrun)
  rcases beforeRequest_cases policy governor resourceType nowMs (windowAfter policy before) rfl with
    ⟨-, heq⟩ | ⟨outcome, heq, -, hfull⟩
  · rw [heq] at hrefused
    obtain ⟨_, _, h⟩ := hrefused
    cases h
  · rw [heq] at hrefused
    have hcurrent := (meets_at hmeets hrun).currentAt_of_full rfl (hfull hrefused)
    exact hbefore.exhausts_of_full hcurrent (hfull hrefused)

/-- Windows of a minute, with one more request than given. -/
def samplePolicy (maxRequests minimumDelayMs : ℕ) : ResolvedBudgetPolicy where
  policyVersion := js "figma-import-budget/v1"
  windowSeconds := 60
  maxRequestsPerWindow := maxRequests + 1
  resourceMaxRequestsPerWindow _ := maxRequests + 1
  minimumDelayMs := minimumDelayMs
  windowSeconds_pos := by decide
  maxRequestsPerWindow_pos := Nat.succ_pos _
  resourceMaxRequestsPerWindow_pos _ := Nat.succ_pos _

def requestAt (governor : Governor) (nowMs : ℤ) : Event :=
  ⟨governor, .beforeRequest .nodeBatch, nowMs⟩

/-- Two requests of one import, of which the second waits. -/
theorem importBudget_perWindow_sample :
    PerWindow (samplePolicy 1 100) [requestAt ⟨some 0, true⟩ 10, requestAt ⟨some 0, true⟩ 50] := by
  refine importBudget_perWindow (samplePolicy 1 100) _ ⟨by decide, by decide⟩ ⟨?_, ?_, trivial⟩
  · exact ⟨nofun, nofun, nofun⟩
  · refine ⟨?_, ?_, ?_⟩
    · rintro window ⟨⟩ resourceType - - -
      decide
    · rintro window ⟨⟩ hended
      exact absurd hended (by decide)
    · rintro window ⟨⟩ resourceType - - - hsleeps
      exact absurd hsleeps (by decide)

/-- An import that goes on after its minute is refused although nothing was admitted for nine
minutes, and the first request after a change of window does not wait. -/
theorem import_refused_past_window :
    ¬ PerWindow (samplePolicy 0 0)
      [requestAt ⟨some 0, true⟩ 0, requestAt ⟨some 0, true⟩ 600000] ∧
    ¬ PerWindow (samplePolicy 1 100)
      [requestAt ⟨some 0, true⟩ 59950, requestAt ⟨some 60000, true⟩ 60000] := by
  constructor
  · intro h
    have hrecent := h.refused [requestAt ⟨some 0, true⟩ 0] ⟨some 0, true⟩ .nodeBatch 600000
      List.prefix_rfl ⟨_, _, rfl⟩
    revert hrecent
    decide
  · intro h
    have hspaced := h.spaced
    revert hspaced
    decide

end TestIntelligence.CoreEngine.ImportGovernance
