import TestIntelligence.Js.Outcome
import TestIntelligence.ProductionRunner.RepairLoop
import TestIntelligence.Security.Digests

/-!
# Whether the result of the repair loop fits together

The list, the verdicts and the iteration records of a result are updated one after
another.  They fit together on every exit but one: a judge that fails on a list which
differs from the one judged before.
-/

namespace TestIntelligence.ProductionRunner.RepairLoop

open Js Security JudgeConsensus

variable (sha256 : JsString → JsString) (localeCompare : JsString → JsString → ℤ)
  (input : RunRepairLoopInput)

/-- In iteration `n` the logic judge gave the verdict for the list, in whatever order its
keys were; the caller did so before the first one. -/
def LogicGiven (n : ℕ) (list : GeneratedTestCaseList) (verdict : JudgeVerdict) : Prop :=
  (n = 0 ∧ list.canonical = input.initialList.canonical ∧ verdict = input.initialLogicVerdict) ∨
  (0 < n ∧ ∃ (same : GeneratedTestCaseList) (result : JudgeResult JudgeVerdict),
    same.canonical = list.canonical ∧
    input.runLogicJudge ⟨same, n⟩ = .ok result ∧ result.verdict = verdict)

def FaithfulnessGiven (n : ℕ) (list : GeneratedTestCaseList) (verdict : FaithfulnessVerdict) :
    Prop :=
  (n = 0 ∧ list.canonical = input.initialList.canonical ∧
    input.initialFaithfulnessVerdict = some verdict) ∨
  (0 < n ∧ ∃ (same : GeneratedTestCaseList) (run : _) (result : JudgeResult FaithfulnessVerdict),
    same.canonical = list.canonical ∧ input.runFaithfulnessJudge = some run ∧
    run ⟨same, n⟩ = .ok result ∧ result.verdict = verdict)

/-- The verdicts of a result are verdicts on its list, in the last iteration that is
recorded or in the one that was broken off after it; the last record is about that
list; the records are counted; and an accepted list was accepted. -/
structure Coherent (result : RepairLoopResult) : Prop where
  logic : ∃ n, (n = result.repairIterationCount ∨ n = result.repairIterationCount + 1) ∧
    LogicGiven input n result.finalList result.finalLogicVerdict
  faithfulness : ∀ verdict ∈ result.finalFaithfulnessVerdict,
    ∃ n, (n = result.repairIterationCount ∨ n = result.repairIterationCount + 1) ∧
      FaithfulnessGiven input n result.finalList verdict
  lastHash : result.iterations.getLast?.map (·.outputHash) =
    some (sha256 result.finalList.canonical)
  count : result.repairIterationCount + 1 = result.iterations.length
  accepted : result.outcome = .accepted → result.finalLogicVerdict.verdict = .accept ∧
    (∀ verdict ∈ result.finalFaithfulnessVerdict, verdict.verdict = .accept) ∧
    (result.finalFaithfulnessVerdict = none →
      result.repairIterationCount = 0 ∨ input.runFaithfulnessJudge = none)

/-! ## The condition -/

/-- One of the judges fails on the list. -/
def judgeFails (k : ℕ) (list : GeneratedTestCaseList) : Bool :=
  match input.runLogicJudge ⟨list, k⟩ with
  | .error _ => true
  | .ok result =>
      match judgeFaithfulness input k list result.verdict with
      | .error _ => true
      | .ok _ => false

/-- The generator returns another list and a judge fails on it. -/
def LateFailure (max k : ℕ) (s : LoopState) : Prop :=
  ∃ regen, regenerated localeCompare input max k s = .ok (.inl regen) ∧
    regen.list.canonical ≠ s.currentList.canonical ∧ judgeFails input k regen.list = true

/-- No iteration from `k` on has a late failure that is turned into a result. -/
def NoLateFailure (max : ℕ) : (remaining k : ℕ) → LoopState → Prop
  | 0, _, _ => True
  | remaining + 1, k, s =>
      (input.softFailOnIterationError = true → ¬ LateFailure localeCompare input max k s) ∧
        ∀ s', iteration sha256 localeCompare input max k s = .ok (.more s') →
          NoLateFailure max remaining (k + 1) s'

/-- Judges answer for every new list that the loop has them judge. -/
def JudgesAnswer : Prop :=
  ∀ max, prepare sha256 input = .ok max →
    judgePanelAccepted input.initialLogicVerdict input.initialFaithfulnessVerdict = false →
    NoLateFailure sha256 localeCompare input max max 1 (initialState sha256 input)

/-- Judges that never fail answer for every list. -/
theorem judgesAnswer_of_answers (h : ∀ k list, judgeFails input k list = false) :
    JudgesAnswer sha256 localeCompare input := by
  have hnone : ∀ max remaining k s,
      NoLateFailure sha256 localeCompare input max remaining k s := by
    intro max remaining
    induction remaining with
    | zero => exact fun _ _ ↦ trivial
    | succ remaining ih =>
        refine fun k s ↦ ⟨fun _ ↦ ?_, fun s' _ ↦ ih (k + 1) s'⟩
        rintro ⟨regen, -, -, hfails⟩
        exact absurd ((h k regen.list).symm.trans hfails) Bool.false_ne_true
  exact fun max _ _ ↦ hnone max max 1 _

/-! ## The state between iterations -/

/-- Before iteration `k` the current list is the one that was judged last. -/
structure Inv (k : ℕ) (s : LoopState) : Prop where
  logic : LogicGiven input (k - 1) s.currentList s.currentLogic
  faithfulness : ∀ verdict ∈ s.currentFaith,
    FaithfulnessGiven input (k - 1) s.currentList verdict
  lastHash : s.iterations.getLast?.map (·.outputHash) = some (sha256 s.currentList.canonical)
  count : s.iterations.length = k

theorem inv_initial : Inv sha256 input 1 (initialState sha256 input) :=
  ⟨.inl ⟨rfl, rfl, rfl⟩, fun _ hverdict ↦ .inl ⟨rfl, rfl, hverdict⟩, rfl, rfl⟩

variable {sha256 localeCompare input} {max k : ℕ} {s : LoopState}

/-- The loop may stop before any iteration. -/
theorem Inv.coherent (h : Inv sha256 input k s) (hk : 0 < k) {outcome : RepairLoopOutcome}
    (houtcome : outcome ≠ .accepted) : Coherent sha256 input (s.result max outcome (k - 1)) where
  logic := ⟨k - 1, .inl rfl, h.logic⟩
  faithfulness := fun verdict hverdict ↦ ⟨k - 1, .inl rfl, h.faithfulness verdict hverdict⟩
  lastHash := h.lastHash
  count := (Nat.sub_add_cancel hk).trans h.count.symm
  accepted := fun haccepted ↦ absurd haccepted houtcome

theorem softFail_eq_ok {thrown : Thrown} {text : String} {done : Iteration}
    (h : softFailIfEnabled input max s k thrown text = .ok done) :
    input.softFailOnIterationError = true ∧
      done = .finish (s.result max .needsReview (k - 1)) := by
  unfold softFailIfEnabled at h
  split at h
  · next hsoft => exact ⟨hsoft, (Except.ok.inj h).symm⟩
  · cases thrown <;> cases h

/-- The first half of an iteration ends the loop with the state it found. -/
theorem regenerated_eq_inr (hcount : s.iterations.length = k) {done : Iteration}
    (h : regenerated localeCompare input max k s = .ok (.inr done)) :
    ∃ outcome, outcome ≠ .accepted ∧ done = .finish (s.result max outcome (k - 1)) := by
  unfold regenerated at h
  cases htrigger : projectedBudgetTrigger input.budget s with
  | some trigger =>
      rw [htrigger] at h
      obtain ⟨-, -, hdone⟩ := bind_eq_ok h
      refine ⟨.budgetExhausted, nofun, ?_⟩
      rw [← hcount]
      exact (Sum.inr.inj (Except.ok.inj hdone)).symm
  | none =>
      rw [htrigger] at h
      obtain ⟨-, -, h⟩ := bind_eq_ok h
      cases hregenerate : input.regenerate (regenerateInput localeCompare s k) with
      | ok regen =>
          rw [hregenerate] at h
          obtain ⟨-, -, hdone⟩ := bind_eq_ok h
          cases hdone
      | error thrown =>
          rw [hregenerate] at h
          dsimp only at h
          cases hsoft : softFailIfEnabled input max s k thrown "regenerate" with
          | error _ =>
              rw [hsoft] at h
              cases h
          | ok done' =>
              rw [hsoft] at h
              obtain rfl := Sum.inr.inj (Except.ok.inj h)
              exact ⟨.needsReview, nofun, (softFail_eq_ok hsoft).2⟩

/-! ## The end of an iteration -/

/-- The judges have answered for the current list in iteration `k`. -/
structure Judged (input : RunRepairLoopInput) (k : ℕ) (s : LoopState) : Prop where
  logic : LogicGiven input k s.currentList s.currentLogic
  faithfulness : ∀ verdict ∈ s.currentFaith, FaithfulnessGiven input k s.currentList verdict
  skipped : s.currentFaith = none → s.currentLogic.verdict = .accept →
    input.runFaithfulnessJudge = none
  count : s.iterations.length = k

theorem concluded_spec (hs : Judged input k s)
    {record : RepairLoopIterationRecord}
    (hrecord : record.outputHash = sha256 s.currentList.canonical) {done : Iteration}
    (h : concluded input max k s record = .ok done) :
    (∃ s', done = .more s' ∧ Inv sha256 input (k + 1) s') ∨
      ∃ result, done = .finish result ∧ Coherent sha256 input result := by
  have hcount : k + 1 = (s.iterations ++ [record]).length := by simp [hs.count]
  have hlast : (s.iterations ++ [record]).getLast?.map (·.outputHash) =
      some (sha256 s.currentList.canonical) := by simp [hrecord]
  have hcoherent : ∀ outcome, (outcome = RepairLoopOutcome.accepted →
      judgePanelAccepted s.currentLogic s.currentFaith = true) → Coherent sha256 input
        (LoopState.result max { s with iterations := s.iterations ++ [record] } outcome k) := by
    intro outcome houtcome
    refine ⟨⟨k, .inl rfl, hs.logic⟩, fun v hv ↦ ⟨k, .inl rfl, hs.faithfulness v hv⟩, hlast,
      hcount, fun haccepted ↦ ?_⟩
    have hpanel := houtcome haccepted
    simp only [judgePanelAccepted, Bool.and_eq_true, beq_iff_eq, Option.all_eq_true] at hpanel
    exact ⟨hpanel.1, hpanel.2, fun hnone ↦ .inr (hs.skipped hnone hpanel.1)⟩
  unfold concluded at h
  obtain ⟨-, -, h⟩ := bind_eq_ok h
  dsimp only at h
  split at h
  · next haccepted =>
    exact .inr ⟨_, (Except.ok.inj h).symm, hcoherent .accepted fun _ ↦ haccepted⟩
  · split at h
    · exact .inr ⟨_, (Except.ok.inj h).symm, hcoherent .rejected nofun⟩
    · split at h
      · obtain ⟨-, -, hdone⟩ := bind_eq_ok h
        exact .inr ⟨_, (Except.ok.inj hdone).symm, hcoherent .convergenceStalled nofun⟩
      · exact .inl ⟨_, (Except.ok.inj h).symm, hs.logic, hs.faithfulness, hlast, hcount.symm⟩

theorem judgeFaithfulness_eq_ok {list : GeneratedTestCaseList} {logic : JudgeVerdict}
    {faith : Option (JudgeResult FaithfulnessVerdict)}
    (h : judgeFaithfulness input k list logic = .ok faith) :
    (∀ result ∈ faith, ∃ run, input.runFaithfulnessJudge = some run ∧
      run ⟨list, k⟩ = .ok result) ∧
    (faith = none → logic.verdict = .accept → input.runFaithfulnessJudge = none) := by
  unfold judgeFaithfulness at h
  cases hrun : input.runFaithfulnessJudge with
  | none =>
      rw [hrun] at h
      obtain rfl := Except.ok.inj h
      exact ⟨nofun, fun _ _ ↦ rfl⟩
  | some run =>
      rw [hrun] at h
      dsimp only at h
      split at h
      · cases hresult : run ⟨list, k⟩ with
        | error thrown =>
            rw [hresult] at h
            cases h
        | ok result =>
            rw [hresult] at h
            obtain rfl := Except.ok.inj h
            refine ⟨fun other hother ↦ ⟨run, rfl, ?_⟩, nofun⟩
            obtain rfl := Option.some.inj hother
            exact hresult
      · next hlogic =>
        obtain rfl := Except.ok.inj h
        exact ⟨nofun, fun _ haccept ↦ absurd haccept hlogic⟩

/-- A verdict on a list is one on every list with the same canonical text. -/
theorem LogicGiven.congr {n : ℕ} {list list' : GeneratedTestCaseList} {verdict : JudgeVerdict}
    (hsame : list'.canonical = list.canonical) (h : LogicGiven input n list verdict) :
    LogicGiven input n list' verdict := by
  rcases h with ⟨hn, hlist, hverdict⟩ | ⟨hn, same, result, hlist, hrun, hverdict⟩
  · exact .inl ⟨hn, hsame.trans hlist, hverdict⟩
  · exact .inr ⟨hn, same, result, hlist.trans hsame.symm, hrun, hverdict⟩

theorem FaithfulnessGiven.congr {n : ℕ} {list list' : GeneratedTestCaseList}
    {verdict : FaithfulnessVerdict} (hsame : list'.canonical = list.canonical)
    (h : FaithfulnessGiven input n list verdict) : FaithfulnessGiven input n list' verdict := by
  rcases h with ⟨hn, hlist, hverdict⟩ | ⟨hn, same, run, result, hlist, hrun, hresult, hverdict⟩
  · exact .inl ⟨hn, hsame.trans hlist, hverdict⟩
  · exact .inr ⟨hn, same, run, result, hlist.trans hsame.symm, hrun, hresult, hverdict⟩

/-! ## An iteration -/

theorem judged_of_not_fails (hInv : Inv sha256 input k s) (hk : 0 < k)
    {regen : RegenerateResult} (hfails : judgeFails input k regen.list = false) {done : Iteration}
    (h : judged sha256 input max k s regen = .ok done) :
    (∃ s', done = .more s' ∧ Inv sha256 input (k + 1) s') ∨
      ∃ result, done = .finish result ∧ Coherent sha256 input result := by
  unfold judged at h
  unfold judgeFails at hfails
  cases hlogic : input.runLogicJudge ⟨regen.list, k⟩ with
  | error thrown => simp [hlogic] at hfails
  | ok logicResult =>
      rw [hlogic] at hfails
      dsimp only at hfails
      cases hfaith : judgeFaithfulness input k regen.list logicResult.verdict with
      | error thrown => simp [hfaith] at hfails
      | ok faith =>
          simp only [LoopState.withList, hlogic, hfaith] at h
          obtain ⟨hgiven, hskipped⟩ := judgeFaithfulness_eq_ok hfaith
          apply concluded_spec _ rfl h
          refine ⟨.inr ⟨hk, regen.list, logicResult, rfl, hlogic, rfl⟩, fun verdict hverdict ↦ ?_,
            fun hnone haccept ↦ ?_, hInv.count⟩
          · obtain ⟨result, hresult, rfl⟩ := Option.mem_map.mp hverdict
            obtain ⟨run, hrun, hrunResult⟩ := hgiven result hresult
            exact .inr ⟨hk, regen.list, run, result, rfl, hrun, hrunResult, rfl⟩
          · exact hskipped (Option.map_eq_none_iff.mp hnone) haccept

/-- Where a judge fails, the loop ends with the new list and the old records. -/
theorem judged_of_fails {regen : RegenerateResult} (hfails : judgeFails input k regen.list = true)
    {done : Iteration} (h : judged sha256 input max k s regen = .ok done) :
    input.softFailOnIterationError = true ∧
      ∃ logic, done = .finish (LoopState.result max
          { s.withList regen with currentLogic := logic } .needsReview (k - 1)) ∧
        (logic = s.currentLogic ∨ ∃ result : JudgeResult JudgeVerdict,
          input.runLogicJudge ⟨regen.list, k⟩ = .ok result ∧ result.verdict = logic) := by
  unfold judged at h
  unfold judgeFails at hfails
  cases hlogic : input.runLogicJudge ⟨regen.list, k⟩ with
  | error thrown =>
      simp only [LoopState.withList, hlogic] at h
      obtain ⟨hsoft, hdone⟩ := softFail_eq_ok h
      exact ⟨hsoft, s.currentLogic, hdone, .inl rfl⟩
  | ok logicResult =>
      rw [hlogic] at hfails
      dsimp only at hfails
      cases hfaith : judgeFaithfulness input k regen.list logicResult.verdict with
      | ok faith => simp [hfaith] at hfails
      | error thrown =>
          simp only [LoopState.withList, hlogic, hfaith] at h
          obtain ⟨hsoft, hdone⟩ := softFail_eq_ok h
          exact ⟨hsoft, logicResult.verdict, hdone, .inr ⟨logicResult, rfl, rfl⟩⟩

theorem iteration_of_no_lateFailure (hInv : Inv sha256 input k s) (hk : 0 < k)
    (hlate : input.softFailOnIterationError = true → ¬ LateFailure localeCompare input max k s)
    {done : Iteration} (h : iteration sha256 localeCompare input max k s = .ok done) :
    (∃ s', done = .more s' ∧ Inv sha256 input (k + 1) s') ∨
      ∃ result, done = .finish result ∧ Coherent sha256 input result := by
  unfold iteration at h
  cases hregen : regenerated localeCompare input max k s with
  | error thrown =>
      rw [hregen] at h
      cases h
  | ok half =>
      rw [hregen] at h
      cases half with
      | inr stopped =>
          obtain rfl := Except.ok.inj h
          obtain ⟨outcome, houtcome, rfl⟩ := regenerated_eq_inr hInv.count hregen
          exact .inr ⟨_, rfl, hInv.coherent hk houtcome⟩
      | inl regen =>
          dsimp only at h
          cases hfails : judgeFails input k regen.list with
          | false => exact judged_of_not_fails hInv hk hfails h
          | true =>
              obtain ⟨hsoft, logic, rfl, hlogic⟩ := judged_of_fails hfails h
              have hsame : regen.list.canonical = s.currentList.canonical := by
                by_contra hne
                exact hlate hsoft ⟨regen, hregen, hne, hfails⟩
              refine .inr ⟨_, rfl, ?_, fun verdict hverdict ↦ ?_, ?_, ?_, nofun⟩
              · rcases hlogic with rfl | ⟨result, hrun, rfl⟩
                · exact ⟨k - 1, .inl rfl, hInv.logic.congr hsame⟩
                · refine ⟨k, .inr (Nat.sub_add_cancel hk).symm, .inr ⟨hk, regen.list, result, rfl,
                    hrun, rfl⟩⟩
              · exact ⟨k - 1, .inl rfl, (hInv.faithfulness verdict hverdict).congr hsame⟩
              · exact hInv.lastHash.trans (congrArg (some ∘ sha256) hsame.symm)
              · exact (Nat.sub_add_cancel hk).trans hInv.count.symm

theorem iteration_of_lateFailure (hinj : Function.Injective sha256) (hInv : Inv sha256 input k s)
    (hsoft : input.softFailOnIterationError = true)
    (hlate : LateFailure localeCompare input max k s) :
    ∃ result, iteration sha256 localeCompare input max k s = .ok (.finish result) ∧
      ¬ Coherent sha256 input result := by
  obtain ⟨regen, hregen, hne, hfails⟩ := hlate
  have hok : ∃ done, judged sha256 input max k s regen = .ok done := by
    unfold judged
    unfold judgeFails at hfails
    cases hlogic : input.runLogicJudge ⟨regen.list, k⟩ with
    | error thrown => simp [LoopState.withList, hlogic, softFailIfEnabled, hsoft]
    | ok logicResult =>
        rw [hlogic] at hfails
        dsimp only at hfails
        cases hfaith : judgeFaithfulness input k regen.list logicResult.verdict with
        | ok faith => simp [hfaith] at hfails
        | error thrown => simp [LoopState.withList, hlogic, hfaith, softFailIfEnabled, hsoft]
  obtain ⟨done, hjudged⟩ := hok
  obtain ⟨-, logic, rfl, -⟩ := judged_of_fails hfails hjudged
  refine ⟨LoopState.result max { s.withList regen with currentLogic := logic } .needsReview
    (k - 1), ?_, ?_⟩
  · rw [iteration, hregen]
    exact hjudged
  · intro hcoherent
    apply hne
    have hlast := hcoherent.lastHash
    have hbefore : some (sha256 s.currentList.canonical) = some (sha256 regen.list.canonical) :=
      hInv.lastHash.symm.trans hlast
    exact (hinj (Option.some.inj hbefore)).symm

/-! ## The loop -/

theorem repairFrom_coherent {remaining : ℕ} (hInv : Inv sha256 input k s) (hk : 0 < k)
    (hmax : remaining + k = max + 1)
    (h : NoLateFailure sha256 localeCompare input max remaining k s) {result : RepairLoopResult}
    (hresult : repairFrom sha256 localeCompare input max remaining k s = .ok result) :
    Coherent sha256 input result := by
  induction remaining generalizing k s with
  | zero =>
      obtain rfl := Except.ok.inj hresult
      have hlast : max = k - 1 := by omega
      rw [hlast]
      exact hInv.coherent hk nofun
  | succ remaining ih =>
      obtain ⟨hlate, hrest⟩ := h
      rw [repairFrom] at hresult
      cases hiteration : iteration sha256 localeCompare input max k s with
      | error thrown =>
          rw [hiteration] at hresult
          cases hresult
      | ok done =>
          rw [hiteration] at hresult
          rcases iteration_of_no_lateFailure hInv hk hlate hiteration with
            ⟨s', rfl, hInv'⟩ | ⟨final, rfl, hfinal⟩
          · exact ih hInv' k.succ_pos (by omega) (hrest s' hiteration) hresult
          · obtain rfl := Except.ok.inj hresult
            exact hfinal

theorem noLateFailure_of_coherent (hinj : Function.Injective sha256) {remaining : ℕ}
    (hInv : Inv sha256 input k s) (hk : 0 < k)
    (h : ∀ result, repairFrom sha256 localeCompare input max remaining k s = .ok result →
      Coherent sha256 input result) :
    NoLateFailure sha256 localeCompare input max remaining k s := by
  induction remaining generalizing k s with
  | zero => trivial
  | succ remaining ih =>
      have hlate : input.softFailOnIterationError = true →
          ¬ LateFailure localeCompare input max k s := by
        intro hsoft hlate
        obtain ⟨result, hiteration, hresult⟩ := iteration_of_lateFailure hinj hInv hsoft hlate
        apply hresult (h result _)
        rw [repairFrom, hiteration]
      refine ⟨hlate, fun s' hmore ↦ ?_⟩
      rcases iteration_of_no_lateFailure hInv hk hlate hmore with
        ⟨s'', hs'', hInv'⟩ | ⟨final, hfinal, -⟩
      · obtain rfl := Iteration.more.inj hs''
        apply ih hInv' k.succ_pos
        intro result hresult
        apply h result
        rw [repairFrom, hmore]
        exact hresult
      · cases hfinal

/-- Every result of the loop fits together exactly where no judge fails on a list that
differs from the one judged before. -/
theorem runRepairLoop_coherent_iff (hinj : Function.Injective sha256) :
    (∀ result, runRepairLoop sha256 localeCompare input = .ok result →
      Coherent sha256 input result) ↔ JudgesAnswer sha256 localeCompare input := by
  have hInv := inv_initial sha256 input
  constructor
  · intro h max hprepare hpanel
    apply noLateFailure_of_coherent hinj hInv Nat.one_pos
    intro result hresult
    apply h result
    rw [runRepairLoop, hprepare]
    dsimp only
    rw [hpanel]
    exact hresult
  · intro h result hresult
    unfold runRepairLoop at hresult
    cases hprepare : prepare sha256 input with
    | error thrown =>
        rw [hprepare] at hresult
        cases hresult
    | ok max =>
        rw [hprepare] at hresult
        dsimp only at hresult
        split at hresult
        · next hpanel =>
          obtain rfl := Except.ok.inj hresult
          refine ⟨⟨0, .inl rfl, hInv.logic⟩, fun v hv ↦ ⟨0, .inl rfl, hInv.faithfulness v hv⟩,
            hInv.lastHash, rfl, fun _ ↦ ?_⟩
          simp only [judgePanelAccepted, Bool.and_eq_true, beq_iff_eq, Option.all_eq_true] at hpanel
          exact ⟨hpanel.1, hpanel.2, fun _ ↦ .inl rfl⟩
        · next hpanel =>
          exact repairFrom_coherent hInv Nat.one_pos rfl
            (h max hprepare (by simpa using hpanel)) hresult

/-! ## A judge that fails and one that answers -/

def sampleList (jobId : String) : GeneratedTestCaseList where
  json := .obj [(js "schemaVersion", .str (js "1.4.0")), (js "jobId", .str (js jobId)),
    (js "testCases", .arr [])]

def sampleVerdict (verdict : ConsensusVerdictLabel) : JudgeVerdict := ⟨verdict, [], []⟩

def signatureText (verdict : String) : JsString :=
  canonicalJson (.obj [(js "verdict", .str (js verdict)), (js "findingCodes", .arr []),
    (js "repairInstructionKinds", .arr [])])

def sampleDigests : List (JsString × JsString) :=
  [((sampleList "job-1").canonical,
      hexText 64 0x0e133bff1c85fa44f8d7c8e7532856c658d01a47f0c97849ec0771f35777d1df),
    ((sampleList "job-2").canonical,
      hexText 64 0x62e80d6a24a2ae2366cc740511678903ea9223b61252db1fdec397440c9ebd28),
    (signatureText "repair",
      hexText 64 0x8c92fa84467a618e12d0cec9b14f80bf95804a74450c6ed36f8ac7e9b2d149f3),
    (signatureText "accept",
      hexText 64 0xf9dee963646500b9a2f07ee6ffb170cefb2c6db8790ac92bdd446024bfa66f36)]

theorem sampleDigests_injective : Function.Injective (tabledDigest sampleDigests) := by
  apply tabledDigest_injective
  · decide
  · decide

/-- The first list is to be repaired; the generator returns the second. -/
def sampleInput (judge : Except Thrown (JudgeResult JudgeVerdict)) : RunRepairLoopInput where
  jobId := js "job-1"
  runDir := js "/runs/job-1"
  initialList := sampleList "job-1"
  initialLogicVerdict := sampleVerdict .repair
  initialFaithfulnessVerdict := none
  maxRepairIterations := none
  regenerate := fun _ ↦ .ok ⟨sampleList "job-2", 0, 0⟩
  runLogicJudge := fun _ ↦ judge
  runFaithfulnessJudge := none
  softFailOnIterationError := true
  onIterationComplete := fun _ ↦ .ok ()
  budget := none
  writeArtifact := fun _ ↦ .ok ()

theorem resolveMaxRepairIterations_none : resolveMaxRepairIterations none = .ok 3 := by
  have hvalid : ¬ ((!repairLoopDefaultMaxIterations.isInteger ||
      repairLoopDefaultMaxIterations.lt 0) = true) := by decide +kernel
  rw [resolveMaxRepairIterations, Option.getD_none, if_neg hvalid]
  exact congrArg Except.ok (by decide +kernel)

theorem prepare_sampleInput (judge : Except Thrown (JudgeResult JudgeVerdict)) :
    prepare sha256 (sampleInput judge) = .ok 3 := by
  have hjob : trim (sampleInput judge).jobId ≠ [] := by
    change trim (js "job-1") ≠ []
    decide
  have hdir : trim (sampleInput judge).runDir ≠ [] := by
    change trim (js "/runs/job-1") ≠ []
    decide
  rw [prepare, if_neg hjob, if_neg hdir]
  change (resolveMaxRepairIterations none >>= fun max ↦ Except.ok max) = .ok 3
  rw [resolveMaxRepairIterations_none]
  rfl

theorem runRepairLoop_coherent_answering :
    ∃ result, runRepairLoop (tabledDigest sampleDigests) codeUnitCompare
        (sampleInput (.ok ⟨sampleVerdict .accept, 0, 0⟩)) = .ok result ∧
      Coherent (tabledDigest sampleDigests)
        (sampleInput (.ok ⟨sampleVerdict .accept, 0, 0⟩)) result := by
  have hrun : ∃ result, runRepairLoop (tabledDigest sampleDigests) codeUnitCompare
      (sampleInput (.ok ⟨sampleVerdict .accept, 0, 0⟩)) = .ok result := by
    rw [runRepairLoop, prepare_sampleInput]
    exact ⟨_, rfl⟩
  obtain ⟨result, hresult⟩ := hrun
  refine ⟨result, hresult, (runRepairLoop_coherent_iff sampleDigests_injective).mpr ?_ _ hresult⟩
  apply judgesAnswer_of_answers
  intro k list
  rfl

/-- The judge fails on the second list, which is returned with the verdict on the first. -/
theorem runRepairLoop_incoherent_failing :
    ∃ result, runRepairLoop (tabledDigest sampleDigests) codeUnitCompare
        (sampleInput (.error (.error (js "timeout")))) = .ok result ∧
      ¬ Coherent (tabledDigest sampleDigests)
        (sampleInput (.error (.error (js "timeout")))) result := by
  refine ⟨⟨.needsReview, sampleList "job-2", sampleVerdict .repair, none,
    [iterationRecord (tabledDigest sampleDigests) 0 (sampleList "job-1") (sampleVerdict .repair)
      none 0 0], 0, 3⟩, ?_, fun hcoherent ↦ ?_⟩
  · rw [runRepairLoop, prepare_sampleInput]
    rfl
  · have hlast : some (tabledDigest sampleDigests (sampleList "job-1").canonical) =
        some (tabledDigest sampleDigests (sampleList "job-2").canonical) := hcoherent.lastHash
    have hlists := sampleDigests_injective (Option.some.inj hlast)
    exact absurd hlists (by decide)

end TestIntelligence.ProductionRunner.RepairLoop
