import TestIntelligence.AgenticHarness.HarnessStep
import TestIntelligence.Js.Rounding

/-!
# What a harness step reports

Before every attempt all attempts made so far have called for another one, and the totals
are the sums over their records.  The step ends with the first attempt that does not call
for another, or with the cap.
-/

namespace TestIntelligence.AgenticHarness.HarnessStep

open Js

section

variable {ε : Type}

/-! ## How an attempt ends -/

/-- The attempt was accepted and ran without an error. -/
def Accepting (result : AgentHarnessAttemptResult) : Prop :=
  result.judgeAccepted = true ∧ result.errorKind = .none

def Terminal (result : AgentHarnessAttemptResult) : Prop :=
  result.errorKind = .permanent ∨ result.errorKind = .policyBlock

/-- The attempt calls for another one. -/
def Continues (result : AgentHarnessAttemptResult) : Prop := ¬ Accepting result ∧ ¬ Terminal result

variable (input : RunAgentHarnessStepInput ε)

def RunAgentHarnessStepInput.response (attempt : ℕ) : Except ε AgentHarnessAttemptResult :=
  input.executeAttempt attempt (input.roleRunId attempt)

/-- The attempt returned a result with well-formed hashes. -/
def Returned (attempt : ℕ) (result : AgentHarnessAttemptResult) : Prop :=
  input.response attempt = .ok result ∧
    ∀ hash ∈ attemptHashes result, isHexOfLength 64 hash.2 = true

/-- The attempt is within the cap. -/
def WithinCap (maxAttemptsAllowed : JsNumber) (attempt : ℕ) : Prop :=
  1 ≤ attempt ∧ (JsNumber.ofRat attempt).le maxAttemptsAllowed = true

/-- The figures are the sums over the records. -/
structure RolledUp (s : LoopState) : Prop where
  inputTokens : s.totalInputTokens = (s.attempts.map (·.inputTokens)).foldl JsNumber.add 0
  outputTokens : s.totalOutputTokens = (s.attempts.map (·.outputTokens)).foldl JsNumber.add 0
  latencyMs : s.totalLatencyMs = (s.attempts.map (·.latencyMs)).foldl JsNumber.add 0

theorem RolledUp.record {s : LoopState} (h : RolledUp s)
    (record : AgentHarnessStepAttemptRecord) : RolledUp (s.record record) := by
  constructor
  · simp [LoopState.record, ← h.inputTokens]
  · simp [LoopState.record, ← h.outputTokens]
  · simp [LoopState.record, ← h.latencyMs]

/-- The records are those of the attempts of the numbers. -/
def Records (numbers : List ℕ) (records : List AgentHarnessStepAttemptRecord) : Prop :=
  List.Forall₂ (fun attempt record ↦ ∃ result, Returned input attempt result ∧
    record = attemptRecord input attempt result) numbers records

theorem validateAttemptHashes_eq_ok {result : AgentHarnessAttemptResult} {attempt : ℕ} :
    validateAttemptHashes result attempt = (.ok () : Except (StepError ε) Unit) ↔
      ∀ hash ∈ attemptHashes result, isHexOfLength 64 hash.2 = true := by
  constructor
  · intro h hash hmem
    have hcheck := forall_of_forM_eq_ok h hash hmem
    split at hcheck
    · next hhex => exact hhex
    · cases hcheck
  · intro h
    rw [validateAttemptHashes]
    generalize attemptHashes result = hashes at h
    induction hashes with
    | nil => rfl
    | cons hash hashes ih =>
        obtain ⟨hhash, hhashes⟩ := List.forall_mem_cons.mp h
        rw [List.forM, if_pos hhash]
        exact ih hhashes

/-- The state after an attempt, up to what it says about the outcome. -/
structure Recorded (attempt : ℕ) (result : AgentHarnessAttemptResult) (s s' : LoopState) :
    Prop where
  attempts : s'.attempts = s.attempts ++ [attemptRecord input attempt result]
  rolledUp : RolledUp s → RolledUp s'

theorem recorded_of_totals {attempt : ℕ} {result : AgentHarnessAttemptResult} {s s' : LoopState}
    (h : s' = { s.record (attemptRecord input attempt result) with
      outcome := s'.outcome
      outcomeErrorClass := s'.outcomeErrorClass
      lastRetryableError := s'.lastRetryableError
      sawJudgeRejection := s'.sawJudgeRejection }) : Recorded input attempt result s s' := by
  refine ⟨by rw [h]; rfl, fun hrolled ↦ ?_⟩
  have hrecord := hrolled.record (attemptRecord input attempt result)
  rw [h]
  exact ⟨hrecord.inputTokens, hrecord.outputTokens, hrecord.latencyMs⟩

/-- An attempt that calls for another leaves the outcome open, and any other decides it. -/
theorem conclude_spec (attempt : ℕ) (result : AgentHarnessAttemptResult) (s : LoopState) :
    (Continues result ∧ ∃ s', (s.record (attemptRecord input attempt result)).conclude result =
        .next s' ∧ Recorded input attempt result s s' ∧ s'.outcome = s.outcome) ∨
      (¬ Continues result ∧ ∃ s', (s.record (attemptRecord input attempt result)).conclude result =
        .stop s' ∧ Recorded input attempt result s s' ∧ s'.outcome.isSome = true ∧
          (s'.outcome = some .accepted ↔ Accepting result)) := by
  unfold LoopState.conclude
  dsimp only
  split
  · next haccepted =>
    have haccepting : Accepting result := by simpa [Accepting] using haccepted
    refine .inr ⟨fun h ↦ h.1 haccepting, _, rfl, recorded_of_totals input rfl, rfl, ?_⟩
    exact iff_of_true rfl haccepting
  · next hrejected =>
    have hnot : ¬ Accepting result := by simpa [Accepting] using hrejected
    split
    · next hkind =>
      refine .inr ⟨fun h ↦ h.2 (.inr hkind), _, rfl, recorded_of_totals input rfl, rfl, ?_⟩
      exact iff_of_false (by simp) hnot
    · next hblock =>
      split
      · next hkind =>
        refine .inr ⟨fun h ↦ h.2 (.inl hkind), _, rfl, recorded_of_totals input rfl, rfl, ?_⟩
        exact iff_of_false (by simp) hnot
      · next hpermanent =>
        have hcontinues : Continues result := ⟨hnot, by simp [Terminal, hpermanent, hblock]⟩
        split
        · exact .inl ⟨hcontinues, _, rfl, recorded_of_totals input rfl, rfl⟩
        · exact .inl ⟨hcontinues, _, rfl, recorded_of_totals input rfl, rfl⟩

theorem runAttempt_eq_ok {attempt : ℕ} {s : LoopState} {turn : Turn}
    (h : runAttempt input attempt s = .ok turn) :
    ∃ result, Returned input attempt result ∧
      (s.record (attemptRecord input attempt result)).conclude result = turn := by
  unfold runAttempt at h
  split at h
  · cases h
  · next result hresponse =>
    obtain ⟨⟨⟩, hvalid, hturn⟩ := bind_eq_ok h
    exact ⟨result, ⟨hresponse, validateAttemptHashes_eq_ok.mp hvalid⟩, Except.ok.inj hturn⟩

theorem runAttempt_of_returned {attempt : ℕ} {s : LoopState} {result : AgentHarnessAttemptResult}
    (h : Returned input attempt result) :
    runAttempt input attempt s =
      .ok ((s.record (attemptRecord input attempt result)).conclude result) := by
  obtain ⟨hresponse, hhashes⟩ := h
  unfold runAttempt
  unfold RunAgentHarnessStepInput.response at hresponse
  rw [hresponse]
  dsimp only
  rw [validateAttemptHashes_eq_ok.mpr hhashes]
  rfl

/-! ## The loop -/

/-- The attempt before which the loop stands is needed: all earlier ones call for another. -/
structure Before (attempt : ℕ) (s : LoopState) : Prop where
  records : Records input (List.range' 1 (attempt - 1)) s.attempts
  rolledUp : RolledUp s
  undecided : s.outcome = none
  continued : ∀ j, 1 ≤ j → j < attempt → ∃ result, Returned input j result ∧ Continues result

/-- The loop has ended with `made` attempts. -/
structure Ended (maxAttemptsAllowed : JsNumber) (made : ℕ) (s : LoopState) : Prop where
  records : Records input (List.range' 1 made) s.attempts
  rolledUp : RolledUp s
  ending : (s.outcome = none ∧ (JsNumber.ofRat (made + 1 : ℕ)).le maxAttemptsAllowed = false ∧
      ∀ j, 1 ≤ j → j ≤ made → ∃ result, Returned input j result ∧ Continues result) ∨
    (s.outcome.isSome = true ∧ 1 ≤ made ∧ ∃ result, Returned input made result ∧
      ¬ Continues result ∧ (s.outcome = some .accepted ↔ Accepting result))

variable {input}

theorem Before.next {attempt : ℕ} {s s' : LoopState} {result : AgentHarnessAttemptResult}
    (h : Before input attempt s) (hattempt : 1 ≤ attempt) (hresult : Returned input attempt result)
    (hcontinues : Continues result) (hrecorded : Recorded input attempt result s s')
    (houtcome : s'.outcome = s.outcome) : Before input (attempt + 1) s' := by
  obtain ⟨k, rfl⟩ := Nat.exists_eq_add_of_le' hattempt
  constructor
  · rw [hrecorded.attempts, Nat.add_sub_cancel, List.range'_concat]
    refine List.rel_append h.records (.cons ⟨result, ?_, ?_⟩ .nil)
    · rwa [Nat.one_mul, Nat.add_comm]
    · rw [Nat.one_mul, Nat.add_comm]
  · exact hrecorded.rolledUp h.rolledUp
  · exact houtcome.trans h.undecided
  · intro j hj hlt
    rcases Nat.lt_succ_iff_lt_or_eq.mp hlt with hlt | rfl
    · exact h.continued j hj hlt
    · exact ⟨result, hresult, hcontinues⟩

theorem Before.ended {attempt : ℕ} {s s' : LoopState} {result : AgentHarnessAttemptResult}
    {maxAttemptsAllowed : JsNumber} (h : Before input attempt s) (hattempt : 1 ≤ attempt)
    (hresult : Returned input attempt result) (hstops : ¬ Continues result)
    (hrecorded : Recorded input attempt result s s') (hsome : s'.outcome.isSome = true)
    (haccepted : s'.outcome = some .accepted ↔ Accepting result) :
    Ended input maxAttemptsAllowed attempt s' := by
  refine ⟨?_, hrecorded.rolledUp h.rolledUp, .inr ⟨hsome, hattempt, result, hresult, hstops,
    haccepted⟩⟩
  obtain ⟨k, rfl⟩ := Nat.exists_eq_add_of_le' hattempt
  rw [hrecorded.attempts, List.range'_concat]
  refine List.rel_append h.records (.cons ⟨result, ?_, ?_⟩ .nil)
  · rwa [Nat.one_mul, Nat.add_comm]
  · rw [Nat.one_mul, Nat.add_comm]

/-- What the loop does from an attempt on. -/
structure LoopSpec (maxAttemptsAllowed : JsNumber) (attempt : ℕ)
    (run : List ℕ × Except (StepError ε) LoopState) (n : ℕ) : Prop where
  calls : run.1 = List.range' attempt n
  within : ∀ j, attempt ≤ j → j < attempt + n →
    (JsNumber.ofRat j).le maxAttemptsAllowed = true
  continued : ∀ j, attempt ≤ j → j + 1 < attempt + n →
    ∃ result, Returned input j result ∧ Continues result
  ended : ∀ s, run.2 = .ok s → Ended input maxAttemptsAllowed (attempt + n - 1) s
  completes : (∀ j, attempt ≤ j → j < attempt + n → ∃ result, Returned input j result) →
    ∃ s, run.2 = .ok s

theorem Before.loopSpec_nil {maxAttemptsAllowed : JsNumber} {attempt : ℕ} {s : LoopState}
    (h : Before input attempt s) (hattempt : 1 ≤ attempt)
    (hcap : (JsNumber.ofRat attempt).le maxAttemptsAllowed = false) :
    @LoopSpec _ input maxAttemptsAllowed attempt ([], .ok s) 0 := by
  refine ⟨rfl, fun j hj hlt ↦ by omega, fun j hj hlt ↦ by omega, ?_, fun _ ↦ ⟨s, rfl⟩⟩
  intro s' hs'
  obtain rfl := Except.ok.inj hs'
  refine ⟨h.records, h.rolledUp, .inl ⟨h.undecided, ?_, fun j hj hle ↦ ?_⟩⟩
  · have hsucc : attempt + 0 - 1 + 1 = attempt := by omega
    rwa [hsucc]
  · exact h.continued j hj (by omega)

theorem Before.loopSpec {maxAttemptsAllowed : JsNumber} {turns attempt : ℕ} {s : LoopState}
    (h : Before input attempt s) (hattempt : 1 ≤ attempt)
    (hbound : (JsNumber.ofRat (attempt + turns : ℕ)).le maxAttemptsAllowed = false) :
    ∃ n, @LoopSpec _ input maxAttemptsAllowed attempt
      (attemptLoop input maxAttemptsAllowed turns attempt s) n := by
  induction turns generalizing attempt s with
  | zero => exact ⟨0, h.loopSpec_nil hattempt hbound⟩
  | succ turns ih =>
      rw [attemptLoop]
      split
      · next hcap =>
        cases hrun : runAttempt input attempt s with
        | error error =>
            refine ⟨1, rfl, fun j hj hlt ↦ ?_, fun j hj hlt ↦ by omega, fun s hs ↦ ?_, ?_⟩
            · obtain rfl : j = attempt := by omega
              exact hcap
            · cases hs
            · intro hreturned
              obtain ⟨result, hresult⟩ := hreturned attempt le_rfl (by omega)
              rw [runAttempt_of_returned input hresult] at hrun
              cases hrun
        | ok turn =>
            obtain ⟨result, hresult, hconclude⟩ := runAttempt_eq_ok input hrun
            rcases conclude_spec input attempt result s with
              ⟨hcontinues, s', hturn, hrecorded, houtcome⟩ |
              ⟨hstops, s', hturn, hrecorded, hsome, haccepted⟩
            · obtain rfl := hconclude.symm.trans hturn
              have hnext := h.next hattempt hresult hcontinues hrecorded houtcome
              obtain ⟨n, hspec⟩ := ih hnext (by omega) (by rwa [Nat.add_right_comm])
              refine ⟨n + 1, ?_, fun j hj hlt ↦ ?_, fun j hj hlt ↦ ?_, fun s hs ↦ ?_, ?_⟩
              · exact (congrArg (attempt :: ·) hspec.calls).trans List.range'_succ.symm
              · rcases Nat.eq_or_lt_of_le hj with rfl | hj
                · exact hcap
                · exact hspec.within j hj (by omega)
              · rcases Nat.eq_or_lt_of_le hj with rfl | hj
                · exact ⟨result, hresult, hcontinues⟩
                · exact hspec.continued j hj (by omega)
              · have hended := hspec.ended s hs
                rwa [show attempt + 1 + n - 1 = attempt + (n + 1) - 1 by omega] at hended
              · exact fun hreturned ↦ hspec.completes fun j hj hlt ↦
                  hreturned j (by omega) (by omega)
            · obtain rfl := hconclude.symm.trans hturn
              refine ⟨1, rfl, fun j hj hlt ↦ ?_, fun j hj hlt ↦ by omega, fun s hs ↦ ?_,
                fun _ ↦ ⟨s', rfl⟩⟩
              · obtain rfl : j = attempt := by omega
                exact hcap
              · obtain rfl := Except.ok.inj hs
                exact h.ended hattempt hresult hstops hrecorded hsome haccepted
      · next hcap => exact ⟨0, h.loopSpec_nil hattempt (by simpa using hcap)⟩

/-! ## The step -/

theorem le_of_le_min {x a b : JsNumber} (h : x.le (a.min b) = true) : x.le b = true := by
  cases x <;> cases a <;> cases b <;>
    simp_all [JsNumber.min, JsNumber.le, JsNumber.lt, JsNumber.strictEq, JsNumber.toRat] <;> grind

theorem attemptCap_bound (input : RunAgentHarnessStepInput ε) (profile : AgentRoleProfile) :
    (JsNumber.ofRat (1 + (1 + resolveMaxRepairIterations input.depth) : ℕ)).le
      (input.attemptCap profile) = false := by
  rw [Bool.eq_false_iff]
  intro hle
  have hcap := le_of_le_min hle
  revert hcap
  cases input.depth <;> decide +kernel

/-- The step reports `accepted` exactly when an attempt within the cap was accepted before any
terminal error; it makes no attempt after the deciding one, and the roll-up is the sum over
the attempts made. -/
structure Reports (input : RunAgentHarnessStepInput ε) (maxAttemptsAllowed : JsNumber) (made : ℕ)
    (report : RunAgentHarnessStepResult) : Prop where
  accepted_iff : report.outcome = .accepted ↔
    ∃ k result, WithinCap maxAttemptsAllowed k ∧ input.response k = .ok result ∧
      Accepting result ∧ ∀ j earlier, 1 ≤ j → j < k → input.response j = .ok earlier →
        ¬ Terminal earlier
  records : Records input (List.range' 1 made) report.artifact.attempts
  outcome : report.artifact.outcome = report.outcome
  inputTokens : report.artifact.costsRollup.inputTokens =
    (report.artifact.attempts.map (·.inputTokens)).foldl JsNumber.add 0
  outputTokens : report.artifact.costsRollup.outputTokens =
    (report.artifact.attempts.map (·.outputTokens)).foldl JsNumber.add 0
  totalLatencyMs : report.artifact.costsRollup.totalLatencyMs =
    (report.artifact.attempts.map (·.latencyMs)).foldl JsNumber.add 0

theorem Returned.response_eq {attempt : ℕ} {result result' : AgentHarnessAttemptResult}
    (h : Returned input attempt result) (h' : input.response attempt = .ok result') :
    result = result' := Except.ok.inj (h.1.symm.trans h')

theorem concluded_ne_accepted {s : LoopState} (h : s.outcome = none) :
    s.concluded.1 ≠ .accepted := by
  obtain ⟨attempts, inputs, outputs, latency, outcome, errorClass, lastError, rejected⟩ := s
  obtain rfl : outcome = none := h
  cases lastError <;> cases rejected <;> simp [LoopState.concluded]

/-- The loop has ended as accepted exactly when some attempt within the cap decides so. -/
theorem Ended.accepted_iff {maxAttemptsAllowed : JsNumber} {made : ℕ} {s : LoopState}
    (h : Ended input maxAttemptsAllowed made s)
    (hcontinued : ∀ j, 1 ≤ j → j < made → ∃ result, Returned input j result ∧ Continues result)
    (hwithin : ∀ j, 1 ≤ j → j ≤ made → (JsNumber.ofRat j).le maxAttemptsAllowed = true) :
    s.concluded.1 = .accepted ↔
      ∃ k result, WithinCap maxAttemptsAllowed k ∧ input.response k = .ok result ∧
        Accepting result ∧ ∀ j earlier, 1 ≤ j → j < k → input.response j = .ok earlier →
          ¬ Terminal earlier := by
  constructor
  · intro haccepted
    rcases h.ending with ⟨hnone, -, -⟩ | ⟨hsome, hmade, result, hresult, -, hiff⟩
    · exact absurd haccepted (concluded_ne_accepted hnone)
    · have hdecided : s.outcome = some .accepted := by
        obtain ⟨outcome, houtcome⟩ := Option.isSome_iff_exists.mp hsome
        rw [LoopState.concluded, houtcome] at haccepted
        exact houtcome.trans (congrArg some haccepted)
      refine ⟨made, result, ⟨hmade, hwithin made hmade le_rfl⟩, hresult.1, hiff.mp hdecided, ?_⟩
      intro j earlier hj hlt hearlier
      obtain ⟨result', hresult', hcontinues⟩ := hcontinued j hj hlt
      rw [← hresult'.response_eq hearlier]
      exact hcontinues.2
  · rintro ⟨k, result, ⟨hk, hcap⟩, hresponse, haccepting, hearlier⟩
    rcases h.ending with ⟨-, hlast, hall⟩ | ⟨-, hmade, last, hreturned, hstops, hiff⟩
    · exfalso
      by_cases hle : k ≤ made
      · obtain ⟨result', hresult', hcontinues⟩ := hall k hk hle
        rw [hresult'.response_eq hresponse] at hcontinues
        exact hcontinues.1 haccepting
      · have hmono : (JsNumber.ofRat (made + 1 : ℕ)).le (.ofRat k) = true := by
          apply JsNumber.ofRat_mono (by positivity)
          exact_mod_cast not_le.mp hle
        rw [JsNumber.le_of_le_of_le hmono hcap] at hlast
        cases hlast
    · have hdecided : s.outcome = some .accepted := by
        rw [hiff]
        rcases Nat.lt_trichotomy k made with hlt | rfl | hlt
        · obtain ⟨result', hresult', hcontinues⟩ := hcontinued k hk hlt
          rw [hresult'.response_eq hresponse] at hcontinues
          exact absurd haccepting hcontinues.1
        · exact hreturned.response_eq hresponse ▸ haccepting
        · by_contra hnot
          exact hstops ⟨hnot, hearlier made last hmade hlt hreturned.1⟩
      rw [LoopState.concluded, hdecided]

theorem before_initial (input : RunAgentHarnessStepInput ε) : Before input 1 .initial :=
  ⟨.nil, ⟨rfl, rfl, rfl⟩, rfl, fun j hj hlt ↦ by omega⟩

variable (input)

/-- Whatever the attempts return, a step makes the attempts up to the deciding one and reports
what they amount to. -/
theorem runAgentHarnessStep_outcome
    (persistStepArtifact : JsString → AgentHarnessStepArtifact → Except ε JsString)
    {profile : AgentRoleProfile} (hprofile : checkInput input = .ok profile) :
    ∃ made, (runAgentHarnessStep input persistStepArtifact).1 = List.range' 1 made ∧
      (∀ j, 1 ≤ j → j ≤ made → WithinCap (input.attemptCap profile) j) ∧
      (∀ j result, 1 ≤ j → j < made → input.response j = .ok result →
        ¬ Accepting result ∧ ¬ Terminal result) ∧
      (∀ report, (runAgentHarnessStep input persistStepArtifact).2 = .ok report →
        Reports input (input.attemptCap profile) made report) ∧
      ((∀ j, 1 ≤ j → j ≤ made → ∃ result, Returned input j result) →
        (∀ artifact, ∃ path, persistStepArtifact input.runDir artifact = .ok path) →
        ∃ report, (runAgentHarnessStep input persistStepArtifact).2 = .ok report) := by
  obtain ⟨made, hspec⟩ := (before_initial input).loopSpec le_rfl
    (attemptCap_bound input profile)
  have hcontinued : ∀ j, 1 ≤ j → j < made →
      ∃ result, Returned input j result ∧ Continues result :=
    fun j hj hlt ↦ hspec.continued j hj (by omega)
  have hwithin : ∀ j, 1 ≤ j → j ≤ made →
      (JsNumber.ofRat j).le (input.attemptCap profile) = true :=
    fun j hj hle ↦ hspec.within j hj (by omega)
  unfold runAgentHarnessStep
  rw [hprofile]
  refine ⟨made, hspec.calls, fun j hj hle ↦ ⟨hj, hwithin j hj hle⟩, ?_, ?_, ?_⟩
  · intro j result hj hlt hresponse
    obtain ⟨result', hresult', hcontinues⟩ := hcontinued j hj hlt
    rwa [← hresult'.response_eq hresponse]
  · intro report hreport
    obtain ⟨s, hs, hreport⟩ := bind_eq_ok hreport
    have hended := hspec.ended s hs
    rw [Nat.add_sub_cancel_left] at hended
    dsimp only at hreport
    split at hreport
    · cases hreport
    · obtain rfl := Except.ok.inj hreport
      exact ⟨hended.accepted_iff hcontinued hwithin, hended.records, rfl,
        hended.rolledUp.inputTokens, hended.rolledUp.outputTokens, hended.rolledUp.latencyMs⟩
  · intro hreturned hpersist
    obtain ⟨s, hs⟩ := hspec.completes fun j hj hlt ↦ hreturned j hj (by omega)
    obtain ⟨path, hpath⟩ := hpersist (stepArtifact input (input.attemptCap profile) s)
    refine ⟨⟨s.concluded.1, mapAgentHarnessOutcomeToJobStatus s.concluded.1,
      stepArtifact input (input.attemptCap profile) s, path⟩, ?_⟩
    dsimp only
    rw [hs, ok_bind, hpath]
    rfl

end

/-! ## A run -/

def sampleHash : JsString := List.replicate 64 0x61

def sampleResult (judgeAccepted : Bool) : AgentHarnessAttemptResult where
  inputHash := sampleHash
  promptHash := sampleHash
  schemaHash := sampleHash
  cacheKeyDigest := sampleHash
  cacheablePrefixHash := sampleHash
  judgeAccepted
  errorKind := .none
  errorClass := none
  inputTokens := some 10
  outputTokens := some 5
  latencyMs := none

/-- The second attempt is accepted. -/
def sampleStep : RunAgentHarnessStepInput Unit where
  runDir := js "runs"
  jobId := js "job-1"
  role := js "generator"
  roleStepId := js "step-1"
  testDepth := none
  profile := none
  executeAttempt := fun attempt _ ↦ .ok (sampleResult (attempt == 2))

theorem runAgentHarnessStep_outcome_sample :
    ∃ made, (runAgentHarnessStep sampleStep fun _ _ ↦ .ok []).1 = List.range' 1 made ∧
      ∀ report, (runAgentHarnessStep sampleStep fun _ _ ↦ .ok []).2 = .ok report →
        Reports sampleStep (sampleStep.attemptCap ⟨js "generator", .ofRat 2⟩) made report := by
  obtain ⟨made, hcalls, -, -, hreports, -⟩ := @runAgentHarnessStep_outcome _ sampleStep
    (fun _ _ ↦ .ok []) ⟨js "generator", .ofRat 2⟩ rfl
  exact ⟨made, hcalls, hreports⟩

end TestIntelligence.AgenticHarness.HarnessStep
