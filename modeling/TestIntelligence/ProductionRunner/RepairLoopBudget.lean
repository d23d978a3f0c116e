import TestIntelligence.Js.Outcome
import TestIntelligence.Js.Rounding
import TestIntelligence.ProductionRunner.RepairLoopCoherence

/-!
# The generator budget of the repair loop

Before each regeneration the loop projects one more worst-case call against the limits of
the guard.  The counts of the guard and of the calls are taken without their fractions, and a
count that is negative or not finite as zero.
-/

namespace TestIntelligence.ProductionRunner.RepairLoop

open Js Security JudgeConsensus

/-! ## Counts -/

/-- The number is the count. -/
def Counts (x : JsNumber) (n : ℕ) : Prop := ∃ d : Double, x = .finite d ∧ d.val = n

theorem Counts.toRat {x : JsNumber} {n : ℕ} (h : Counts x n) : x.toRat = n := by
  obtain ⟨d, rfl, hd⟩ := h
  exact hd

theorem counts_zero : Counts 0 0 := JsNumber.ofRat_natCast (Nat.zero_le _)

theorem counts_one : Counts 1 1 := JsNumber.ofRat_natCast (by norm_num)

/-- Below `2 ^ 53` counts are added exactly. -/
theorem Counts.add {x y : JsNumber} {m n : ℕ} (hx : Counts x m) (hy : Counts y n) {limit : Double}
    (hlimit : limit.val < 2 ^ 53) (h : (JsNumber.finite limit).lt (x.add y) = false) :
    Counts (x.add y) (m + n) ∧ ((m + n : ℕ) : ℚ) ≤ limit.val := by
  obtain ⟨d, rfl, hd⟩ := hx
  obtain ⟨e, rfl, he⟩ := hy
  rw [JsNumber.add_finite, hd, he, ← Nat.cast_add] at h ⊢
  obtain ⟨hle, hsmall⟩ := JsNumber.natCast_le_of_lt_eq_false hlimit h
  exact ⟨JsNumber.ofRat_natCast hsmall, hle⟩

theorem floorNumber_finite {x : Double} (hx : 0 ≤ x.val) :
    ∃ d : Double, floorNumber (.finite x) = .finite d ∧ d.val = ⌊x.val⌋ := by
  have hfloor : (0 : ℚ) ≤ (⌊x.val⌋ : ℚ) := by exact_mod_cast Int.floor_nonneg.mpr hx
  have hround := round64_of_isBinary64
    (JsNumber.isBinary64_floor (isBinary64_of_round64 x.exact) hx)
  exact ⟨_, JsNumber.ofRat_of_round64 hround fun h ↦ absurd h.1 (not_lt.mpr hfloor), rfl⟩

theorem floorNumber_spec {x : Double} (hx : 0 ≤ x.val) : ∃ (d : Double) (n : ℕ),
    floorNumber (.finite x) = .finite d ∧ d.val = n ∧ d.val ≤ x.val := by
  obtain ⟨d, hd, hval⟩ := floorNumber_finite hx
  obtain ⟨n, hn⟩ := Int.eq_ofNat_of_zero_le (Int.floor_nonneg.mpr hx)
  refine ⟨d, n, hd, ?_, hval ▸ Int.floor_le x.val⟩
  rw [hval, hn]
  rfl

/-- A sanitized count is a count, and no more than what it is taken from where that is not
negative. -/
theorem sanitizeGuardCount_spec (value : Option JsNumber) : ∃ (d : Double) (n : ℕ),
    sanitizeGuardCount value = .finite d ∧ d.val = n ∧
      ∀ x : Double, value = some (.finite x) → 0 ≤ x.val → d.val ≤ x.val := by
  have hzero : ∃ d : Double, (0 : JsNumber) = .finite d ∧ d.val = 0 := by
    obtain ⟨d, hd, hval⟩ := JsNumber.ofRat_natCast (Nat.zero_le (2 ^ 53))
    exact ⟨d, hd, by simpa using hval⟩
  obtain ⟨zero, hzero, hval⟩ := hzero
  have hnone : ∃ (d : Double) (n : ℕ), (0 : JsNumber) = .finite d ∧ d.val = n ∧
      ∀ x : Double, value = some (.finite x) → 0 ≤ x.val → d.val ≤ x.val :=
    ⟨zero, 0, hzero, by simpa using hval, fun x _ hx ↦ hval ▸ hx⟩
  unfold sanitizeGuardCount
  split
  · next x =>
    split
    · next hcheck =>
      rw [Bool.and_eq_true] at hcheck
      cases x with
      | nan => cases hcheck.1
      | infinity negative => cases hcheck.1
      | negZero =>
          have hfloor : floorNumber .negZero = 0 := by
            unfold floorNumber
            congr 1
          obtain ⟨d, n, hd, hn, -⟩ := hnone
          rw [hfloor]
          exact ⟨d, n, hd, hn, fun x hx ↦ by cases hx⟩
      | finite x =>
          have hx : 0 ≤ x.val := by
            have hle := hcheck.2
            rw [hzero, JsNumber.le_finite_iff, hval] at hle
            exact hle
          obtain ⟨d, n, hd, hn, hle⟩ := floorNumber_spec hx
          refine ⟨d, n, hd, hn, fun y hy _ ↦ ?_⟩
          cases hy
          exact hle
    · exact hnone
  · exact hnone

theorem counts_sanitizeGuardCount (value : Option JsNumber) :
    ∃ n, Counts (sanitizeGuardCount value) n := by
  obtain ⟨d, n, hd, hn, -⟩ := sanitizeGuardCount_spec value
  exact ⟨n, d, hd, hn⟩

/-! ## What the calls spend -/

abbrev Call := Except Thrown RegenerateResult

/-- Attempts and output tokens. -/
abbrev Spent := JsNumber × JsNumber

def callTokens : Call → JsNumber
  | .ok regen => sanitizeGuardCount (some regen.outputTokens)
  | .error _ => 0

def spend (spent : Spent) (call : Call) : Spent :=
  (spent.1.add 1, spent.2.add (callTokens call))

def LoopState.spent (s : LoopState) : Spent :=
  (s.cumulativeGeneratorAttempts, s.cumulativeGeneratorOutputTokens)

def initialSpent (guard : RepairLoopBudgetGuard) : Spent :=
  (sanitizeGuardCount guard.initialGeneratorAttempts,
    sanitizeGuardCount guard.initialGeneratorOutputTokens)

/-- One more worst-case call stays within the limits. -/
def Allows (guard : RepairLoopBudgetGuard) (spent : Spent) : Prop :=
  (∀ limit ∈ guard.maxGeneratorAttempts, limit.lt (spent.1.add 1) = false) ∧
    ∀ limit ∈ guard.maxGeneratorOutputTokens,
      limit.lt (spent.2.add (expectedNextOutputTokens (some guard))) = false

theorem projectedBudgetTrigger_eq_none {guard : RepairLoopBudgetGuard} {s : LoopState} :
    projectedBudgetTrigger (some guard) s = none ↔ Allows guard s.spent := by
  unfold projectedBudgetTrigger Allows LoopState.spent
  dsimp only
  cases guard.maxGeneratorAttempts with
  | none => cases guard.maxGeneratorOutputTokens <;> simp
  | some attempts =>
      cases hattempts : attempts.lt (s.cumulativeGeneratorAttempts.add 1) <;>
        cases guard.maxGeneratorOutputTokens <;> simp [hattempts]

section

variable (sha256 : JsString → JsString) (localeCompare : JsString → JsString → ℤ)
  (input : RunRepairLoopInput)

/-- The call of an iteration, if it gets that far. -/
def callsIn (k : ℕ) (s : LoopState) : List Call :=
  match projectedBudgetTrigger input.budget s with
  | some _ => []
  | none =>
      match input.writeArtifact (artifactName "repair_planner_iter_" k) with
      | .error _ => []
      | .ok () => [input.regenerate (regenerateInput localeCompare s k)]

/-- The calls of the iterations from `k` on. -/
def callsFrom (max : ℕ) : (remaining k : ℕ) → LoopState → List Call
  | 0, _, _ => []
  | remaining + 1, k, s =>
      callsIn localeCompare input k s ++
        match iteration sha256 localeCompare input max k s with
        | .ok (.more s') => callsFrom max remaining (k + 1) s'
        | _ => []

/-- The calls of `regenerate` in a run. -/
def regenerateCalls : List Call :=
  match prepare sha256 input with
  | .error _ => []
  | .ok max =>
      if judgePanelAccepted input.initialLogicVerdict input.initialFaithfulnessVerdict then []
      else callsFrom sha256 localeCompare input max max 1 (initialState sha256 input)

/-! ## The calls of a run -/

variable {sha256 localeCompare input} {max : ℕ}

theorem length_callsIn_le (k : ℕ) (s : LoopState) :
    (callsIn localeCompare input k s).length ≤ 1 := by
  unfold callsIn
  split
  · simp
  · split <;> simp

theorem length_callsFrom_le (remaining k : ℕ) (s : LoopState) :
    (callsFrom sha256 localeCompare input max remaining k s).length ≤ remaining := by
  induction remaining generalizing k s with
  | zero => exact le_rfl
  | succ remaining ih =>
      rw [callsFrom, List.length_append]
      have hone : (callsIn localeCompare input k s).length ≤ 1 := length_callsIn_le k s
      split
      · next s' _ =>
        have hrest := ih (k + 1) s'
        omega
      · rw [List.length_nil]
        omega

/-! ### A turn -/

theorem softFail_spec {s : LoopState} {k : ℕ} {thrown : Thrown} {text : String} {done : Iteration}
    (h : softFailIfEnabled input max s k thrown text = .ok done) :
    ∃ result, done = .finish result ∧ result.outcome = .needsReview := by
  unfold softFailIfEnabled at h
  split at h
  · exact ⟨_, (Except.ok.inj h).symm, rfl⟩
  · cases thrown <;> cases h

theorem concluded_more {s : LoopState} {k : ℕ} {record : RepairLoopIterationRecord}
    {done : Iteration} (h : concluded input max k s record = .ok done) :
    (∃ s', done = .more s' ∧ s'.spent = s.spent) ∨
      ∃ result, done = .finish result ∧ result.outcome ≠ .budgetExhausted := by
  unfold concluded at h
  obtain ⟨-, -, h⟩ := bind_eq_ok h
  dsimp only at h
  split at h
  · exact .inr ⟨_, (Except.ok.inj h).symm, nofun⟩
  · split at h
    · exact .inr ⟨_, (Except.ok.inj h).symm, nofun⟩
    · split at h
      · obtain ⟨-, -, hdone⟩ := bind_eq_ok h
        exact .inr ⟨_, (Except.ok.inj hdone).symm, nofun⟩
      · exact .inl ⟨_, (Except.ok.inj h).symm, rfl⟩

/-- The judges spend nothing. -/
theorem judged_more {s : LoopState} {k : ℕ} {regen : RegenerateResult} {done : Iteration}
    (h : judged sha256 input max k s regen = .ok done) :
    (∃ s', done = .more s' ∧ s'.spent = spend s.spent (.ok regen)) ∨
      ∃ result, done = .finish result ∧ result.outcome ≠ .budgetExhausted := by
  have hfail : (∃ result, done = .finish result ∧ result.outcome = .needsReview) →
      ∃ result, done = .finish result ∧ result.outcome ≠ .budgetExhausted := by
    rintro ⟨result, rfl, houtcome⟩
    exact ⟨result, rfl, by rw [houtcome]; nofun⟩
  unfold judged at h
  dsimp only at h
  split at h
  · exact .inr (hfail (softFail_spec h))
  · split at h
    · exact .inr (hfail (softFail_spec h))
    · exact concluded_more h

/-- A turn goes on with the call it made, or the loop ends; with an exhausted budget only
where the next call is not allowed. -/
theorem iteration_more {s : LoopState} {k : ℕ} {done : Iteration}
    (h : iteration sha256 localeCompare input max k s = .ok done) :
    (∃ s' call, done = .more s' ∧ callsIn localeCompare input k s = [call] ∧
      s'.spent = spend s.spent call) ∨
    ∃ result, done = .finish result ∧ (result.outcome = .budgetExhausted →
      projectedBudgetTrigger input.budget s ≠ none) := by
  unfold iteration regenerated at h
  cases htrigger : projectedBudgetTrigger input.budget s with
  | some trigger =>
      rw [htrigger] at h
      cases hwrite : input.writeArtifact (js "repair-loop-budget-trace.json") with
      | error thrown =>
          rw [hwrite] at h
          cases h
      | ok written =>
          rw [hwrite] at h
          exact .inr ⟨_, (Except.ok.inj h).symm, fun _ ↦ nofun⟩
  | none =>
      rw [htrigger] at h
      unfold callsIn
      rw [htrigger]
      dsimp only
      cases hwrite : input.writeArtifact (artifactName "repair_planner_iter_" k) with
      | error thrown =>
          rw [hwrite] at h
          cases h
      | ok written =>
          rw [hwrite] at h
          cases hregenerate : input.regenerate (regenerateInput localeCompare s k) with
          | error thrown =>
              simp only [hregenerate, Except.bind, bind] at h
              cases hsoft : softFailIfEnabled input max s k thrown "regenerate" with
              | error thrown' =>
                  rw [hsoft] at h
                  cases h
              | ok done' =>
                  rw [hsoft] at h
                  obtain ⟨result, rfl, houtcome⟩ := softFail_spec hsoft
                  refine .inr ⟨result, (Except.ok.inj h).symm, fun hbudget ↦ ?_⟩
                  cases houtcome.symm.trans hbudget
          | ok regen =>
              simp only [hregenerate, Except.bind, bind] at h
              cases hwritten : input.writeArtifact
                  (artifactName "test_generation_repair_iter_" k) with
              | error thrown =>
                  rw [hwritten] at h
                  cases h
              | ok written' =>
                  rw [hwritten] at h
                  rcases judged_more h with ⟨s', rfl, hspent⟩ | ⟨result, rfl, houtcome⟩
                  · exact .inl ⟨s', _, rfl, rfl, hspent⟩
                  · exact .inr ⟨result, rfl, fun hbudget ↦ absurd hbudget houtcome⟩

/-- Each call of a turn was allowed. -/
theorem allows_of_mem_callsIn {guard : RepairLoopBudgetGuard} (hguard : input.budget = some guard)
    {k : ℕ} {s : LoopState} {call : Call} (h : call ∈ callsIn localeCompare input k s) :
    Allows guard s.spent ∧ callsIn localeCompare input k s = [call] := by
  unfold callsIn at h ⊢
  cases htrigger : projectedBudgetTrigger input.budget s with
  | some trigger =>
      rw [htrigger] at h
      cases h
  | none =>
      rw [htrigger] at h
      cases hwrite : input.writeArtifact (artifactName "repair_planner_iter_" k) with
      | error thrown =>
          rw [hwrite] at h
          cases h
      | ok written =>
          rw [hwrite] at h
          obtain rfl := List.mem_singleton.mp h
          rw [hguard] at htrigger
          exact ⟨projectedBudgetTrigger_eq_none.mp htrigger, rfl⟩

/-! ### All turns -/

/-- What every allowed call preserves holds after all calls. -/
theorem callsFrom_rule {guard : RepairLoopBudgetGuard} (hguard : input.budget = some guard)
    {P : List Call → Spent → Prop} {Q : Call → Prop}
    (hstep : ∀ calls spent call, P calls spent → Allows guard spent → Q call →
      P (calls ++ [call]) (spend spent call))
    {remaining k : ℕ} {s : LoopState} {before : List Call}
    (hQ : ∀ call ∈ callsFrom sha256 localeCompare input max remaining k s, Q call)
    (h : P before s.spent) :
    P (before ++ callsFrom sha256 localeCompare input max remaining k s)
      ((callsFrom sha256 localeCompare input max remaining k s).foldl spend s.spent) := by
  induction remaining generalizing k s before with
  | zero => simpa [callsFrom] using h
  | succ remaining ih =>
      rw [callsFrom] at hQ ⊢
      -- the call of a turn that does not go on is the last one
      have hlast : (∀ call ∈ callsIn localeCompare input k s, Q call) →
          P (before ++ (callsIn localeCompare input k s ++ []))
            ((callsIn localeCompare input k s ++ []).foldl spend s.spent) := by
        intro hQ
        cases hcalls : callsIn localeCompare input k s with
        | nil => simpa using h
        | cons call rest =>
            have hmem : call ∈ callsIn localeCompare input k s := by simp [hcalls]
            obtain ⟨hallows, hone⟩ := allows_of_mem_callsIn hguard hmem
            obtain ⟨-, rfl⟩ := List.cons.inj (hcalls.symm.trans hone)
            exact hstep before s.spent call h hallows (hQ call hmem)
      cases hiteration : iteration sha256 localeCompare input max k s with
      | error thrown =>
          rw [hiteration] at hQ
          exact hlast fun call hcall ↦ hQ call (List.mem_append_left _ hcall)
      | ok done =>
          rw [hiteration] at hQ
          rcases iteration_more hiteration with ⟨s', call, rfl, hcall, hspent⟩ | ⟨result, rfl, -⟩
          · have hmem : call ∈ callsIn localeCompare input k s := by simp [hcall]
            have hallows := (allows_of_mem_callsIn hguard hmem).1
            have hafter := hstep before s.spent call h hallows
              (hQ call (List.mem_append_left _ hmem))
            rw [← hspent] at hafter
            have hrest := ih (fun c hc ↦ hQ c (List.mem_append_right _ hc)) hafter
            rw [hspent] at hrest
            simpa [hcall] using hrest
          · exact hlast fun call hcall ↦ hQ call (List.mem_append_left _ hcall)

/-- The loop says that the budget is exhausted only where the next call is not allowed. -/
theorem repairFrom_exhausted {remaining k : ℕ} {s : LoopState} {result : RepairLoopResult}
    (h : repairFrom sha256 localeCompare input max remaining k s = .ok result)
    (houtcome : result.outcome = .budgetExhausted) : ∃ guard, input.budget = some guard ∧
      ¬ Allows guard ((callsFrom sha256 localeCompare input max remaining k s).foldl spend
        s.spent) := by
  induction remaining generalizing k s with
  | zero =>
      obtain rfl := Except.ok.inj h
      cases houtcome
  | succ remaining ih =>
      rw [repairFrom] at h
      rw [callsFrom]
      cases hiteration : iteration sha256 localeCompare input max k s with
      | error thrown =>
          rw [hiteration] at h
          cases h
      | ok done =>
          rw [hiteration] at h
          rcases iteration_more hiteration with
            ⟨s', call, rfl, hcall, hspent⟩ | ⟨finished, rfl, htrigger⟩
          · obtain ⟨guard, hguard, hnot⟩ := ih h
            refine ⟨guard, hguard, ?_⟩
            rw [hspent] at hnot
            simpa [hcall] using hnot
          · obtain rfl := Except.ok.inj h
            have htrigger := htrigger houtcome
            have hcalls : callsIn localeCompare input k s = [] := by
              unfold callsIn
              split
              · rfl
              · next hnone => exact absurd hnone htrigger
            rw [hcalls]
            cases hguard : input.budget with
            | none =>
                rw [hguard] at htrigger
                exact absurd rfl htrigger
            | some guard =>
                rw [hguard] at htrigger
                exact ⟨guard, rfl, fun hallows ↦
                  htrigger (projectedBudgetTrigger_eq_none.mpr hallows)⟩

/-! ## The limits -/

/-- The counted tokens of a call stay within the worst case. -/
def Within (guard : RepairLoopBudgetGuard) (call : Call) : Prop :=
  (expectedNextOutputTokens (some guard)).lt (callTokens call) = false

theorem counts_callTokens (call : Call) : ∃ n, Counts (callTokens call) n := by
  cases call with
  | ok regen => exact counts_sanitizeGuardCount (some regen.outputTokens)
  | error thrown => exact ⟨0, counts_zero⟩

theorem exists_of_positive {x : JsNumber} (h : (x.isFinite && JsNumber.lt 0 x) = true) :
    ∃ d : Double, x = .finite d ∧ 0 < d.val := by
  rw [Bool.and_eq_true] at h
  cases x with
  | nan => cases h.1
  | infinity negative => cases h.1
  | negZero => exact absurd (JsNumber.zero_lt_negZero.symm.trans h.2) Bool.false_ne_true
  | finite d =>
      refine ⟨d, rfl, ?_⟩
      have hlt := h.2
      change JsNumber.lt (.ofRat ((0 : ℕ) : ℚ)) (.finite d) = true at hlt
      rw [Nat.cast_zero, JsNumber.ofRat_zero] at hlt
      exact of_decide_eq_true hlt

theorem half_finite {d : Double} (hd : 0 < d.val) :
    ∃ e : Double, (JsNumber.finite d).div 2 = .finite e ∧ 0 ≤ e.val := by
  obtain ⟨two, htwo, hval⟩ := @JsNumber.ofRat_natCast 2 (by norm_num)
  have htwo : (2 : JsNumber) = .finite two := htwo
  have hval : two.val = 2 := by exact_mod_cast hval
  have hdiv : (JsNumber.finite d).div (.finite two) = .ofRat (d.val / 2) := by
    simp [JsNumber.div, JsNumber.toRat, hval, hd.ne']
  have hle : (JsNumber.ofRat (d.val / 2)).le (.finite d) = true := by
    rw [← JsNumber.ofRat_val d]
    exact JsNumber.ofRat_mono (by positivity) (by linarith)
  rw [htwo, hdiv]
  exact JsNumber.ofRat_finite_of_le (by positivity) rfl hle

theorem max_finite (d e : Double) : JsNumber.max (.finite d) (.finite e) = .finite d ∨
    JsNumber.max (.finite d) (.finite e) = .finite e := by
  unfold JsNumber.max
  dsimp only
  split
  · exact .inr rfl
  · exact .inl rfl

theorem expectedNextOutputTokens_spec (guard : Option RepairLoopBudgetGuard) :
    ∃ d : Double, expectedNextOutputTokens guard = .finite d ∧ 0 ≤ d.val := by
  have hcount : ∀ n : ℕ, n ≤ 2 ^ 53 → ∃ d : Double, JsNumber.ofRat n = .finite d ∧ 0 ≤ d.val := by
    intro n hn
    obtain ⟨d, hd, hval⟩ := JsNumber.ofRat_natCast hn
    exact ⟨d, hd, hval ▸ Nat.cast_nonneg n⟩
  have hfloor : ∀ d : Double, 0 ≤ d.val →
      ∃ e : Double, floorNumber (.finite d) = .finite e ∧ 0 ≤ e.val := by
    intro d hd
    obtain ⟨e, n, he, hn, -⟩ := floorNumber_spec hd
    exact ⟨e, he, hn ▸ Nat.cast_nonneg n⟩
  unfold expectedNextOutputTokens
  dsimp only
  split
  · next x hx =>
    obtain ⟨d, rfl, hd⟩ := exists_of_positive (Option.filter_eq_some_iff.mp hx).2
    exact hfloor d hd.le
  · split
    · next x hx =>
      obtain ⟨d, rfl, hd⟩ := exists_of_positive (Option.filter_eq_some_iff.mp hx).2
      obtain ⟨half, hhalf, hnonneg⟩ := half_finite hd
      obtain ⟨e, he, hnonneg⟩ := hfloor half hnonneg
      obtain ⟨one, hone, hone'⟩ := hcount 1 (by norm_num)
      have hone : (1 : JsNumber) = .finite one := hone
      rw [hhalf, he, hone]
      rcases max_finite one e with hmax | hmax
      · exact ⟨one, hmax, hone'⟩
      · exact ⟨e, hmax, hnonneg⟩
    · exact hcount 4096 (by norm_num)

theorem initialState_spent {guard : RepairLoopBudgetGuard} (hguard : input.budget = some guard) :
    (initialState sha256 input).spent = initialSpent guard := by
  simp [initialState, LoopState.spent, initialSpent, hguard]

variable (sha256 localeCompare input) in
theorem regenerateCalls_cases : regenerateCalls sha256 localeCompare input = [] ∨
    ∃ max, prepare sha256 input = .ok max ∧ regenerateCalls sha256 localeCompare input =
      callsFrom sha256 localeCompare input max max 1 (initialState sha256 input) := by
  unfold regenerateCalls
  cases prepare sha256 input with
  | error thrown => exact .inl rfl
  | ok max =>
      dsimp only
      split
      · exact .inl rfl
      · exact .inr ⟨max, rfl, rfl⟩

/-- What every allowed call preserves holds at the end of a run. -/
theorem regenerateCalls_rule {guard : RepairLoopBudgetGuard} (hguard : input.budget = some guard)
    {P : List Call → Spent → Prop} {Q : Call → Prop}
    (hstep : ∀ calls spent call, P calls spent → Allows guard spent → Q call →
      P (calls ++ [call]) (spend spent call))
    (hQ : ∀ call ∈ regenerateCalls sha256 localeCompare input, Q call)
    (h : P [] (initialSpent guard)) :
    P (regenerateCalls sha256 localeCompare input)
      ((regenerateCalls sha256 localeCompare input).foldl spend (initialSpent guard)) := by
  rcases regenerateCalls_cases sha256 localeCompare input with hnone | ⟨max, -, hcalls⟩
  · rw [hnone]
    exact h
  · rw [hcalls] at hQ ⊢
    rw [← @initialState_spent sha256 _ _ hguard] at h ⊢
    exact callsFrom_rule hguard hstep hQ h

/-! ### In the numbers of the code -/

theorem attempts_within {guard : RepairLoopBudgetGuard} (hguard : input.budget = some guard)
    {limit : JsNumber} (hlimit : limit ∈ guard.maxGeneratorAttempts)
    (h : limit.lt (initialSpent guard).1 = false) :
    limit.lt ((regenerateCalls sha256 localeCompare input).foldl spend
      (initialSpent guard)).1 = false :=
  regenerateCalls_rule (P := fun _ spent ↦ limit.lt spent.1 = false) (Q := fun _ ↦ True)
    hguard (fun _ _ _ _ hallows _ ↦ hallows.1 limit hlimit) (fun _ _ ↦ trivial) h

/-- What an allowed call brings stays within the limit where it is no more than expected. -/
theorem outputTokens_step {limit : JsNumber} (hlimit : limit.isFinite = true) {spent expected
    tokens : Double} (hspent : 0 ≤ spent.val) (htokens : 0 ≤ tokens.val)
    (hwithin : tokens.val ≤ expected.val)
    (hallowed : limit.lt ((JsNumber.finite spent).add (.finite expected)) = false) :
    ∃ d : Double, (JsNumber.finite spent).add (.finite tokens) = .finite d ∧ 0 ≤ d.val ∧
      (JsNumber.finite d).le limit = true := by
  rw [JsNumber.add_finite] at hallowed ⊢
  have hle := JsNumber.le_of_le_of_le
    (JsNumber.ofRat_mono (add_nonneg hspent htokens) (add_le_add_right hwithin spent.val))
    (JsNumber.le_of_lt_eq_false hlimit (JsNumber.ofRat_ne_nan _) hallowed)
  obtain ⟨d, hd, hnonneg⟩ :=
    JsNumber.ofRat_finite_of_le (add_nonneg hspent htokens) hlimit hle
  exact ⟨d, hd, hnonneg, hd ▸ hle⟩

/-- The same of a call within its worst case. -/
theorem outputTokens_allowed {guard : RepairLoopBudgetGuard} {limit : JsNumber}
    (hfinite : limit.isFinite = true) (hlimit : limit ∈ guard.maxGeneratorOutputTokens)
    {spent : Spent} {call : Call} {d : Double} (hd : spent.2 = .finite d) (hnonneg : 0 ≤ d.val)
    (hallows : Allows guard spent) (hcall : Within guard call) :
    ∃ e : Double, (spend spent call).2 = .finite e ∧ 0 ≤ e.val ∧
      (JsNumber.finite e).le limit = true := by
  obtain ⟨expected, hexpected, -⟩ := expectedNextOutputTokens_spec (some guard)
  obtain ⟨m, tokens, htokens, hm⟩ := counts_callTokens call
  have hallowed := hallows.2 limit hlimit
  rw [hd, hexpected] at hallowed
  rw [Within, hexpected, htokens] at hcall
  have hle : tokens.val ≤ expected.val := not_lt.mp (of_decide_eq_false hcall)
  have hstep := outputTokens_step hfinite hnonneg (hm ▸ Nat.cast_nonneg m) hle hallowed
  simpa only [spend, hd, htokens] using hstep

theorem outputTokens_within {guard : RepairLoopBudgetGuard} (hguard : input.budget = some guard)
    {limit : JsNumber} (hlimit : limit ∈ guard.maxGeneratorOutputTokens)
    (hwithin : ∀ call ∈ regenerateCalls sha256 localeCompare input, Within guard call)
    (h : limit.lt (initialSpent guard).2 = false) :
    limit.lt ((regenerateCalls sha256 localeCompare input).foldl spend
      (initialSpent guard)).2 = false := by
  obtain ⟨initial, n, hinitial, hn, -⟩ :=
    sanitizeGuardCount_spec guard.initialGeneratorOutputTokens
  have hinitial : (initialSpent guard).2 = .finite initial := hinitial
  cases hfinite : limit.isFinite with
  | false =>
      -- no number is above such a limit, or every one is
      cases limit with
      | nan => rfl
      | infinity negative =>
          cases negative with
          | true =>
              rw [hinitial] at h
              cases h
          | false =>
              generalize (List.foldl spend (initialSpent guard) _).2 = spent
              cases spent <;> rfl
      | negZero => cases hfinite
      | finite d => cases hfinite
  | true =>
      have hfirst : ∃ d : Double, (initialSpent guard).2 = .finite d ∧ 0 ≤ d.val ∧
          (JsNumber.finite d).le limit = true :=
        ⟨initial, hinitial, hn ▸ Nat.cast_nonneg n,
          JsNumber.le_of_lt_eq_false hfinite nofun (hinitial ▸ h)⟩
      obtain ⟨d, hd, -, hle⟩ := regenerateCalls_rule
        (P := fun _ spent ↦ ∃ d : Double, spent.2 = .finite d ∧ 0 ≤ d.val ∧
          (JsNumber.finite d).le limit = true) hguard
        (fun _ _ _ ⟨_, hd, hnonneg, _⟩ hallows hcall ↦
          outputTokens_allowed hfinite hlimit hd hnonneg hallows hcall) hwithin hfirst
      rw [hd]
      exact JsNumber.lt_eq_false_of_le hle

/-! ### Exactly -/

theorem attempts_exact {guard : RepairLoopBudgetGuard} (hguard : input.budget = some guard)
    {limit : Double} (hlimit : .finite limit ∈ guard.maxGeneratorAttempts)
    (hsmall : limit.val < 2 ^ 53) (h : (initialSpent guard).1.toRat ≤ limit.val) :
    (initialSpent guard).1.toRat + (regenerateCalls sha256 localeCompare input).length ≤
      limit.val := by
  obtain ⟨m, hm⟩ := counts_sanitizeGuardCount guard.initialGeneratorAttempts
  have hm : Counts (initialSpent guard).1 m := hm
  rw [hm.toRat] at h ⊢
  have hstep : ∀ calls spent call, (Counts spent.1 (m + calls.length) ∧
      ((m + calls.length : ℕ) : ℚ) ≤ limit.val) → Allows guard spent → True →
      Counts (spend spent call).1 (m + (calls ++ [call]).length) ∧
        ((m + (calls ++ [call]).length : ℕ) : ℚ) ≤ limit.val := by
    rintro calls spent call ⟨hcounts, -⟩ hallows -
    rw [List.length_append, ← Nat.add_assoc]
    exact hcounts.add counts_one hsmall (hallows.1 _ hlimit)
  have hrun := regenerateCalls_rule hguard hstep
    (fun call (_ : call ∈ regenerateCalls sha256 localeCompare input) ↦ trivial) ⟨hm, h⟩
  exact_mod_cast hrun.2

theorem outputTokens_exact {guard : RepairLoopBudgetGuard} (hguard : input.budget = some guard)
    {limit : Double} (hlimit : .finite limit ∈ guard.maxGeneratorOutputTokens)
    (hsmall : limit.val < 2 ^ 53)
    (hwithin : ∀ call ∈ regenerateCalls sha256 localeCompare input, Within guard call)
    (h : (initialSpent guard).2.toRat ≤ limit.val) :
    (initialSpent guard).2.toRat +
      ((regenerateCalls sha256 localeCompare input).map fun call ↦ (callTokens call).toRat).sum ≤
      limit.val := by
  obtain ⟨m, hm⟩ := counts_sanitizeGuardCount guard.initialGeneratorOutputTokens
  have hm : Counts (initialSpent guard).2 m := hm
  rw [hm.toRat] at h ⊢
  have hrun := regenerateCalls_rule (P := fun calls spent ↦ ∃ n : ℕ, Counts spent.2 n ∧
      (n : ℚ) = m + (calls.map fun call ↦ (callTokens call).toRat).sum ∧ (n : ℚ) ≤ limit.val)
    hguard ?_ hwithin ⟨m, hm, by simp, h⟩
  · obtain ⟨n, -, hn, hle⟩ := hrun
    rw [← hn]
    exact hle
  · rintro calls spent call ⟨n, hcounts, hn, -⟩ hallows hcall
    obtain ⟨d, hd, hval⟩ := id hcounts
    obtain ⟨e, he, -, hle⟩ :=
      outputTokens_allowed rfl hlimit hd (hval ▸ Nat.cast_nonneg n) hallows hcall
    obtain ⟨t, hcall⟩ := counts_callTokens call
    have hnot : (JsNumber.finite limit).lt (spent.2.add (callTokens call)) = false := by
      have hnot := JsNumber.lt_eq_false_of_le hle
      rwa [← he] at hnot
    obtain ⟨hsum, hle⟩ := hcounts.add hcall hsmall hnot
    refine ⟨n + t, hsum, ?_, hle⟩
    rw [List.map_append, List.sum_append, Nat.cast_add, hn, ← hcall.toRat]
    simp [add_assoc]

/-! ## A run -/

theorem resolveMaxRepairIterations_eq_ok {requested : Option JsNumber}
    (h : resolveMaxRepairIterations requested = .ok max) :
    max = min ⌊(requested.getD repairLoopDefaultMaxIterations).toRat⌋.toNat
      repairLoopMaxIterationsHardCap := by
  unfold resolveMaxRepairIterations at h
  dsimp only at h
  split at h
  · cases h
  · exact (Except.ok.inj h).symm

theorem prepare_eq_ok (h : prepare sha256 input = .ok max) :
    resolveMaxRepairIterations input.maxRepairIterations = .ok max := by
  by_cases hjob : trim input.jobId = []
  · rw [prepare, if_pos hjob] at h
    cases h
  by_cases hdir : trim input.runDir = []
  · rw [prepare, if_neg hjob, if_pos hdir] at h
    cases h
  rw [prepare, if_neg hjob, if_neg hdir] at h
  obtain ⟨resolved, hresolved, h⟩ := bind_eq_ok h
  obtain ⟨-, -, h⟩ := bind_eq_ok h
  obtain rfl := Except.ok.inj h
  exact hresolved

theorem length_regenerateCalls_le : (regenerateCalls sha256 localeCompare input).length ≤
    min ⌊(input.maxRepairIterations.getD repairLoopDefaultMaxIterations).toRat⌋.toNat
      repairLoopMaxIterationsHardCap := by
  rcases regenerateCalls_cases sha256 localeCompare input with hnone | ⟨max, hprepare, hcalls⟩
  · rw [hnone]
    exact Nat.zero_le _
  · rw [hcalls, ← resolveMaxRepairIterations_eq_ok (prepare_eq_ok hprepare)]
    exact length_callsFrom_le max 1 _

theorem runRepairLoop_exhausted {guard : RepairLoopBudgetGuard} (hguard : input.budget = some guard)
    {result : RepairLoopResult} (h : runRepairLoop sha256 localeCompare input = .ok result)
    (houtcome : result.outcome = .budgetExhausted) :
    ¬ Allows guard ((regenerateCalls sha256 localeCompare input).foldl spend
      (initialSpent guard)) := by
  unfold runRepairLoop at h
  unfold regenerateCalls
  cases hprepare : prepare sha256 input with
  | error thrown =>
      rw [hprepare] at h
      cases h
  | ok max =>
      rw [hprepare] at h
      dsimp only at h ⊢
      split at h
      · obtain rfl := Except.ok.inj h
        cases houtcome
      · next hpanel =>
        obtain ⟨guard', hguard', hnot⟩ := repairFrom_exhausted h houtcome
        obtain rfl := Option.some.inj (hguard.symm.trans hguard')
        rw [if_neg hpanel, ← initialState_spent hguard]
        exact hnot

/-- The calls stay within the limits that the initial counts are within: as the code adds and
compares, and exactly where the limit is below `2 ^ 53`. -/
structure RespectsBudget (guard : RepairLoopBudgetGuard) (calls : List Call) : Prop where
  attempts : ∀ limit ∈ guard.maxGeneratorAttempts, limit.lt (initialSpent guard).1 = false →
    limit.lt (calls.foldl spend (initialSpent guard)).1 = false
  outputTokens : ∀ limit ∈ guard.maxGeneratorOutputTokens,
    limit.lt (initialSpent guard).2 = false →
      limit.lt (calls.foldl spend (initialSpent guard)).2 = false
  attemptsExactly : ∀ limit : Double, .finite limit ∈ guard.maxGeneratorAttempts →
    limit.val < 2 ^ 53 → (initialSpent guard).1.toRat ≤ limit.val →
      (initialSpent guard).1.toRat + calls.length ≤ limit.val
  outputTokensExactly : ∀ limit : Double, .finite limit ∈ guard.maxGeneratorOutputTokens →
    limit.val < 2 ^ 53 → (initialSpent guard).2.toRat ≤ limit.val →
      (initialSpent guard).2.toRat + (calls.map fun call ↦ (callTokens call).toRat).sum ≤
        limit.val

/-- The calls of a run are as many as the iterations and stay within the budget, and the run
stops for it only before a call that would break it. -/
theorem runRepairLoop_respectsBudget {guard : RepairLoopBudgetGuard}
    (hguard : input.budget = some guard)
    (hwithin : ∀ call ∈ regenerateCalls sha256 localeCompare input, Within guard call) :
    (regenerateCalls sha256 localeCompare input).length ≤
        min ⌊(input.maxRepairIterations.getD repairLoopDefaultMaxIterations).toRat⌋.toNat
          repairLoopMaxIterationsHardCap ∧
      RespectsBudget guard (regenerateCalls sha256 localeCompare input) ∧
      ∀ result, runRepairLoop sha256 localeCompare input = .ok result →
        result.outcome = .budgetExhausted →
          ¬ Allows guard ((regenerateCalls sha256 localeCompare input).foldl spend
            (initialSpent guard)) := by
  refine ⟨length_regenerateCalls_le, ?_, fun _ ↦ runRepairLoop_exhausted hguard⟩
  exact {
    attempts := fun _ hlimit ↦ attempts_within hguard hlimit
    outputTokens := fun _ hlimit ↦ outputTokens_within hguard hlimit hwithin
    attemptsExactly := fun _ hlimit hsmall ↦ attempts_exact hguard hlimit hsmall
    outputTokensExactly := fun _ hlimit hsmall ↦
      outputTokens_exact hguard hlimit hsmall hwithin }

/-! ## A fraction of an attempt -/

/-- The judge accepts the list of the first call. -/
def budgetedInput (guard : RepairLoopBudgetGuard) : RunRepairLoopInput :=
  { sampleInput (.ok ⟨sampleVerdict .accept, 0, 0⟩) with budget := some guard }

def attemptsGuard (initial max : JsNumber) : RepairLoopBudgetGuard :=
  ⟨none, none, none, some initial, some max⟩

theorem regenerateCalls_budgetedInput {guard : RepairLoopBudgetGuard}
    (h : Allows guard (initialSpent guard)) :
    regenerateCalls (tabledDigest sampleDigests) codeUnitCompare (budgetedInput guard) =
      [.ok ⟨sampleList "job-2", 0, 0⟩] := by
  have hprepare : prepare (tabledDigest sampleDigests) (budgetedInput guard) = .ok 3 :=
    @prepare_sampleInput (tabledDigest sampleDigests) (.ok ⟨sampleVerdict .accept, 0, 0⟩)
  have hspent := @initialState_spent (tabledDigest sampleDigests) (budgetedInput guard) guard rfl
  rw [← hspent] at h
  have htrigger := projectedBudgetTrigger_eq_none.mpr h
  have hcall : callsIn codeUnitCompare (budgetedInput guard) 1
      (initialState (tabledDigest sampleDigests) (budgetedInput guard)) =
        [.ok ⟨sampleList "job-2", 0, 0⟩] := by
    unfold callsIn
    rw [show (budgetedInput guard).budget = some guard from rfl, htrigger]
    rfl
  have hfinish : ∃ result, iteration (tabledDigest sampleDigests) codeUnitCompare
      (budgetedInput guard) 3 1 (initialState (tabledDigest sampleDigests) (budgetedInput guard)) =
        .ok (.finish result) := by
    unfold iteration regenerated
    rw [show (budgetedInput guard).budget = some guard from rfl, htrigger]
    exact ⟨_, rfl⟩
  obtain ⟨result, hfinish⟩ := hfinish
  rw [regenerateCalls, hprepare]
  change callsFrom _ _ _ 3 3 1 _ = _
  rw [callsFrom, hcall, hfinish]
  rfl

theorem allows_attemptsGuard {initial max : JsNumber}
    (h : max.lt ((sanitizeGuardCount (some initial)).add 1) = false) :
    Allows (attemptsGuard initial max) (initialSpent (attemptsGuard initial max)) := by
  refine ⟨fun limit hlimit ↦ ?_, nofun⟩
  obtain rfl := Option.some.inj hlimit
  exact h

/-- One attempt is made, and a second call is allowed. -/
theorem runRepairLoop_respectsBudget_sample :
    (regenerateCalls (tabledDigest sampleDigests) codeUnitCompare
      (budgetedInput (attemptsGuard 1 3))).length = 1 ∧
    RespectsBudget (attemptsGuard 1 3) (regenerateCalls (tabledDigest sampleDigests)
      codeUnitCompare (budgetedInput (attemptsGuard 1 3))) := by
  have hcalls := regenerateCalls_budgetedInput
    (@allows_attemptsGuard 1 3 (by decide +kernel))
  refine ⟨by rw [hcalls]; rfl, ?_⟩
  apply (runRepairLoop_respectsBudget rfl _).2.1
  intro call hcall
  rw [hcalls] at hcall
  obtain rfl := List.mem_singleton.mp hcall
  unfold Within
  decide +kernel

def half : JsNumber := .ofRat (1 / 2)

/-- Half an attempt counts as none, and another one is made with a limit of one. -/
theorem attempts_exceeded : ¬ ∀ (input : RunRepairLoopInput) (guard : RepairLoopBudgetGuard),
    input.budget = some guard →
    (∀ regen, .ok regen ∈ regenerateCalls (tabledDigest sampleDigests) codeUnitCompare input →
      regen.outputTokens.le (expectedNextOutputTokens (some guard)) = true) →
    ∀ limit ∈ guard.maxGeneratorAttempts, ∀ initial ∈ guard.initialGeneratorAttempts,
      initial.le limit = true →
      (initial.add (.ofRat (regenerateCalls (tabledDigest sampleDigests) codeUnitCompare
        input).length)).le limit = true := by
  intro h
  have hcalls := regenerateCalls_budgetedInput
    (@allows_attemptsGuard half 1 (by decide +kernel))
  have hsum := h (budgetedInput (attemptsGuard half 1)) (attemptsGuard half 1) rfl ?_ 1 rfl half
    rfl (by decide +kernel)
  · rw [hcalls] at hsum
    exact absurd hsum (by decide +kernel)
  · intro regen hregen
    rw [hcalls] at hregen
    obtain rfl := Except.ok.inj (List.mem_singleton.mp hregen)
    decide +kernel

end

end TestIntelligence.ProductionRunner.RepairLoop
