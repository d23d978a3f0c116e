import TestIntelligence.Votes.AgreementTable
import Mathlib.Data.Rat.Floor
import Mathlib.Tactic.FieldSimp

/-!
# Cohen's kappa

The agreement of two raters on the verdict alphabet, corrected by the agreement that their
marginals make expected.  Numbers are exact; the report rounds them to six places.
-/

namespace TestIntelligence.Eval

open Votes

inductive VerdictLabel
  | accept
  | repair
  | reject
  deriving DecidableEq, Repr

instance : Fintype VerdictLabel :=
  ⟨{.accept, .repair, .reject}, fun label ↦ by cases label <;> decide⟩

/-- `JUDGE_CALIBRATION_VERDICT_LABELS` -/
def verdictLabels : List VerdictLabel := [.accept, .repair, .reject]

structure RatingPair where
  raterA : VerdictLabel
  raterB : VerdictLabel
  deriving DecidableEq, Repr

namespace RatingPair

def swap (pair : RatingPair) : RatingPair := ⟨pair.raterB, pair.raterA⟩

def rename (name : VerdictLabel → VerdictLabel) (pair : RatingPair) : RatingPair :=
  ⟨name pair.raterA, name pair.raterB⟩

end RatingPair

structure CohenKappaResult where
  sampleCount : ℕ
  observedAgreement : ℚ
  expectedAgreement : ℚ
  cohensKappa : ℚ
  degenerate : Bool
  deriving DecidableEq, Repr

/-- `Math.round(value * 1_000_000) / 1_000_000`, of an exact number. -/
def roundedToMillionths (value : ℚ) : ℚ := ⌊value * 1000000 + 1 / 2⌋ / 1000000

/-- The totals that the loop over the pairs increments. -/
structure KappaTotals where
  rowTotals : VerdictLabel → ℕ
  colTotals : VerdictLabel → ℕ
  agree : ℕ

namespace KappaTotals

def zero : KappaTotals := ⟨fun _ ↦ 0, fun _ ↦ 0, 0⟩

def add (totals : KappaTotals) (pair : RatingPair) : KappaTotals where
  rowTotals := Function.update totals.rowTotals pair.raterA (totals.rowTotals pair.raterA + 1)
  colTotals := Function.update totals.colTotals pair.raterB (totals.colTotals pair.raterB + 1)
  agree := if pair.raterA = pair.raterB then totals.agree + 1 else totals.agree

def ofPairs (pairs : List RatingPair) : KappaTotals := pairs.foldl add zero

theorem foldl_add (pairs : List RatingPair) (totals : KappaTotals) :
    pairs.foldl add totals =
      ⟨fun label ↦ totals.rowTotals label + marginal (·.raterA) pairs label,
        fun label ↦ totals.colTotals label + marginal (·.raterB) pairs label,
        totals.agree + agreements (·.raterA) (·.raterB) pairs⟩ := by
  induction pairs generalizing totals with
  | nil => simp [marginal, agreements]
  | cons pair pairs ih =>
      rw [List.foldl_cons, ih, add]
      dsimp only
      congr 1
      · funext label
        rw [marginal_cons, Function.update_apply]
        by_cases h : label = pair.raterA
        · subst h
          simp
          omega
        · simp [h, Ne.symm h]
      · funext label
        rw [marginal_cons, Function.update_apply]
        by_cases h : label = pair.raterB
        · subst h
          simp
          omega
        · simp [h, Ne.symm h]
      · rw [agreements_cons]
        by_cases h : pair.raterA = pair.raterB
        · simp [h]
          omega
        · simp [h]

theorem ofPairs_eq (pairs : List RatingPair) :
    ofPairs pairs = ⟨marginal (·.raterA) pairs, marginal (·.raterB) pairs,
      agreements (·.raterA) (·.raterB) pairs⟩ := by
  simp [ofPairs, foldl_add, zero]

end KappaTotals

/-- `1 - 1e-12` -/
def almostOne : ℚ := 1 - 1 / 1000000000000

/-- `computeCohensKappa` before its results are rounded. -/
def exactKappa (pairs : List RatingPair) : CohenKappaResult :=
  let n : ℚ := pairs.length
  if pairs.length = 0 then ⟨0, 1, 1, 1, true⟩
  else
    let totals := KappaTotals.ofPairs pairs
    let observedAgreement := totals.agree / n
    let expectedAgreement := verdictLabels.foldl (fun sum label ↦
      sum + (totals.rowTotals label * totals.colTotals label : ℕ) / (n * n)) 0
    let degenerate := decide (expectedAgreement ≥ almostOne)
    let cohensKappa :=
      if degenerate then if observedAgreement ≥ almostOne then 1 else 0
      else (observedAgreement - expectedAgreement) / (1 - expectedAgreement)
    ⟨pairs.length, observedAgreement, expectedAgreement, cohensKappa, degenerate⟩

def computeCohensKappa (pairs : List RatingPair) : CohenKappaResult :=
  let exact := exactKappa pairs
  { exact with
    observedAgreement := roundedToMillionths exact.observedAgreement
    expectedAgreement := roundedToMillionths exact.expectedAgreement
    cohensKappa := roundedToMillionths exact.cohensKappa }

/-! ## The exact coefficient -/

/-- The observed agreement. -/
def observed (pairs : List RatingPair) : ℚ :=
  agreements RatingPair.raterA RatingPair.raterB pairs / pairs.length

/-- The agreement that the marginals make expected. -/
def expected (pairs : List RatingPair) : ℚ :=
  (∑ label, marginal RatingPair.raterA pairs label * marginal RatingPair.raterB pairs label : ℕ) /
    ((pairs.length : ℚ) * pairs.length)

section

variable {pairs pairs' : List RatingPair}

theorem exactKappa_eq (hne : pairs ≠ []) :
    exactKappa pairs = ⟨pairs.length, observed pairs, expected pairs,
      if expected pairs ≥ almostOne then if observed pairs ≥ almostOne then 1 else 0
      else (observed pairs - expected pairs) / (1 - expected pairs),
      decide (expected pairs ≥ almostOne)⟩ := by
  have hlength : pairs.length ≠ 0 := fun h ↦ hne (List.length_eq_zero_iff.mp h)
  have huniv : ∀ count : VerdictLabel → ℕ,
      ∑ label, count label = count .accept + count .repair + count .reject := by
    intro count
    change ∑ label ∈ {VerdictLabel.accept, .repair, .reject}, count label = _
    rw [Finset.sum_insert (by decide), Finset.sum_insert (by decide), Finset.sum_singleton,
      add_assoc]
  have hexpected : verdictLabels.foldl (fun sum label ↦
      sum + ((KappaTotals.ofPairs pairs).rowTotals label *
        (KappaTotals.ofPairs pairs).colTotals label : ℕ) /
          ((pairs.length : ℚ) * pairs.length)) 0 = expected pairs := by
    rw [expected, huniv, KappaTotals.ofPairs_eq]
    simp only [verdictLabels, List.foldl_cons, List.foldl_nil, Nat.cast_add, zero_add]
    ring
  rw [exactKappa, if_neg hlength]
  simp only [hexpected, decide_eq_true_eq]
  rw [KappaTotals.ofPairs_eq]
  rfl

theorem cohensKappa_eq (hne : pairs ≠ []) (hexpected : expected pairs < almostOne) :
    (exactKappa pairs).cohensKappa =
      (observed pairs - expected pairs) / (1 - expected pairs) := by
  rw [exactKappa_eq hne]
  exact if_neg (not_le.mpr hexpected)

theorem length_pos_of_ne_nil (hne : pairs ≠ []) : (0 : ℚ) < pairs.length := by
  exact_mod_cast List.length_pos_iff.mpr hne

theorem observed_le_one (pairs : List RatingPair) : observed pairs ≤ 1 :=
  div_le_one_of_le₀ (by exact_mod_cast agreements_le_length) (by positivity)

theorem observed_eq_one_iff (hne : pairs ≠ []) :
    observed pairs = 1 ↔ ∀ pair ∈ pairs, pair.raterA = pair.raterB := by
  rw [observed, div_eq_one_iff_eq (length_pos_of_ne_nil hne).ne', Nat.cast_inj,
    agreements_eq_length_iff]

/-- Twice the expected agreement exceeds one by at most the observed agreement. -/
theorem two_mul_expected_le (hne : pairs ≠ []) : 2 * expected pairs ≤ 1 + observed pairs := by
  have hpos := length_pos_of_ne_nil hne
  have hsum : (2 : ℚ) * (∑ label, marginal RatingPair.raterA pairs label *
      marginal RatingPair.raterB pairs label : ℕ) ≤
      pairs.length * (pairs.length + agreements RatingPair.raterA RatingPair.raterB pairs) := by
    exact_mod_cast @two_mul_sum_marginal_mul_le _ _ _ RatingPair.raterA RatingPair.raterB pairs _
  rw [expected, observed, ← mul_div_assoc, div_le_iff₀ (by positivity)]
  refine hsum.trans (le_of_eq ?_)
  field_simp

theorem one_sub_expected_pos (hexpected : expected pairs < almostOne) :
    0 < 1 - expected pairs := by
  have hone : almostOne < 1 := by norm_num [almostOne]
  linarith

theorem expected_congr (hlength : pairs'.length = pairs.length)
    (hrow : ∀ label, marginal RatingPair.raterA pairs' label =
      marginal RatingPair.raterA pairs label)
    (hcol : ∀ label, marginal RatingPair.raterB pairs' label =
      marginal RatingPair.raterB pairs label) : expected pairs' = expected pairs := by
  simp only [expected, hlength, hrow, hcol]

theorem exactKappa_congr (hlength : pairs'.length = pairs.length)
    (hobserved : observed pairs' = observed pairs) (hexpected : expected pairs' = expected pairs) :
    exactKappa pairs' = exactKappa pairs := by
  by_cases hne : pairs = []
  · subst hne
    rw [List.length_eq_zero_iff.mp hlength]
  · have hne' : pairs' ≠ [] := by
      rintro rfl
      exact hne (List.length_eq_zero_iff.mp hlength.symm)
    rw [exactKappa_eq hne, exactKappa_eq hne', hlength, hobserved, hexpected]

theorem exactKappa_perm (h : pairs'.Perm pairs) : exactKappa pairs' = exactKappa pairs := by
  refine exactKappa_congr h.length_eq ?_ ?_
  · rw [observed, observed, agreements_perm h, h.length_eq]
  · exact expected_congr h.length_eq (marginal_perm h) (marginal_perm h)

theorem exactKappa_swap (pairs : List RatingPair) :
    exactKappa (pairs.map RatingPair.swap) = exactKappa pairs := by
  refine exactKappa_congr (List.length_map _) ?_ ?_
  · simp only [observed, agreements, List.countP_map, List.length_map]
    congr 3
    funext pair
    simp [RatingPair.swap, eq_comm]
  · simp only [expected, marginal, List.countP_map, List.length_map]
    congr 2
    refine Finset.sum_congr rfl fun label _ ↦ ?_
    rw [mul_comm]
    rfl

/-- Naming the labels anew permutes the marginals. -/
theorem exactKappa_rename (name : Equiv.Perm VerdictLabel) (pairs : List RatingPair) :
    exactKappa (pairs.map (RatingPair.rename name)) = exactKappa pairs := by
  refine exactKappa_congr (List.length_map _) ?_ ?_
  · simp only [observed, agreements, List.countP_map, List.length_map]
    congr 3
    funext pair
    simp [RatingPair.rename]
  · simp only [expected, marginal, List.countP_map, List.length_map]
    congr 2
    rw [← Equiv.sum_comp name]
    refine Finset.sum_congr rfl fun label _ ↦ ?_
    congr 2 <;> funext pair <;> simp [RatingPair.rename]

/-- Below the degenerate case kappa is an agreement coefficient. -/
theorem kappa_agreementCoefficient (hne : pairs ≠ [])
    (hexpected : (exactKappa pairs).expectedAgreement < almostOne) :
    (-1 ≤ (exactKappa pairs).cohensKappa ∧ (exactKappa pairs).cohensKappa ≤ 1) ∧
    ((exactKappa pairs).cohensKappa = 1 ↔ ∀ pair ∈ pairs, pair.raterA = pair.raterB) ∧
    (∀ permuted : List RatingPair, permuted.Perm pairs →
      exactKappa permuted = exactKappa pairs) ∧
    exactKappa (pairs.map RatingPair.swap) = exactKappa pairs ∧
    (∀ name : Equiv.Perm VerdictLabel,
      exactKappa (pairs.map (RatingPair.rename name)) = exactKappa pairs) ∧
    ∀ more : List RatingPair,
      (∀ label, (KappaTotals.ofPairs more).rowTotals label =
        (KappaTotals.ofPairs pairs).rowTotals label) →
      (∀ label, (KappaTotals.ofPairs more).colTotals label =
        (KappaTotals.ofPairs pairs).colTotals label) →
      (KappaTotals.ofPairs pairs).agree < (KappaTotals.ofPairs more).agree →
      (exactKappa pairs).cohensKappa < (exactKappa more).cohensKappa := by
  rw [exactKappa_eq hne] at hexpected
  have hbelow : expected pairs < almostOne := hexpected
  have hpos := one_sub_expected_pos hbelow
  have htwo := two_mul_expected_le hne
  have hobserved := observed_le_one pairs
  rw [cohensKappa_eq hne hbelow]
  refine ⟨⟨?_, ?_⟩, ?_, fun permuted h ↦ exactKappa_perm h, exactKappa_swap pairs,
    fun name ↦ exactKappa_rename name pairs, ?_⟩
  · rw [le_div_iff₀ hpos]
    linarith
  · rw [div_le_one hpos]
    linarith
  · rw [div_eq_one_iff_eq hpos.ne', sub_left_inj, observed_eq_one_iff hne]
  · intro more hrow hcol hagree
    simp only [KappaTotals.ofPairs_eq] at hrow hcol hagree
    have hlength : more.length = pairs.length := by
      rw [← sum_marginal (f := RatingPair.raterA), ← sum_marginal (f := RatingPair.raterA)]
      exact Finset.sum_congr rfl fun label _ ↦ hrow label
    have hsame := expected_congr hlength hrow hcol
    have hmore : more ≠ [] := by
      rintro rfl
      exact hne (List.length_eq_zero_iff.mp hlength.symm)
    rw [cohensKappa_eq hmore (hsame.trans_lt hbelow), hsame]
    refine div_lt_div_of_pos_right (sub_lt_sub_right ?_ _) hpos
    rw [observed, observed, hlength]
    exact div_lt_div_of_pos_right (by exact_mod_cast hagree) (length_pos_of_ne_nil hne)

/-- Two pairs that agree and one that does not. -/
def samplePairs : List RatingPair := [⟨.accept, .accept⟩, ⟨.reject, .reject⟩, ⟨.repair, .accept⟩]

theorem kappa_agreementCoefficient_sample :
    -1 ≤ (exactKappa samplePairs).cohensKappa ∧ (exactKappa samplePairs).cohensKappa ≤ 1 := by
  have hne : samplePairs ≠ [] := by decide
  have hsum : ∑ label, marginal RatingPair.raterA samplePairs label *
      marginal RatingPair.raterB samplePairs label = 3 := by decide
  have hexpected : (exactKappa samplePairs).expectedAgreement < almostOne := by
    rw [exactKappa_eq hne]
    change expected samplePairs < almostOne
    rw [expected, hsum, show samplePairs.length = 3 from rfl]
    norm_num [almostOne]
  exact (kappa_agreementCoefficient hne hexpected).1

end

end TestIntelligence.Eval
