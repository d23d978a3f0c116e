import TestIntelligence.Eval.InterRaterAgreement

/-!
# The cap on the share of a reviewer

The report divides the cases that a reviewer rated by the assignments of a judge, which are
twice its cases.  A reviewer above the cap is reported only where half the share is above it.
-/

namespace TestIntelligence.Eval

open Js Lists

/-- The number of the cases that the reviewer rated. -/
def casesRatedBy (reviewer : JsString) (ratings : List CalibrationPairedRating) : ℕ :=
  ratings.countP fun rating ↦ rating.reviewerA = reviewer ∨ rating.reviewerB = reviewer

/-- The part of the cases that the reviewer rated. -/
def shareOfCases (reviewer : JsString) (ratings : List CalibrationPairedRating) : ℚ :=
  casesRatedBy reviewer ratings / ratings.length

/-- The report names a reviewer of the judge as above the cap, and the gate fails. -/
def ReportsDominance (report : InterRaterAgreementReport) (judge : JudgeId) : Prop :=
  ∃ finding ∈ report.failures, finding.reason = .reviewerShareAboveHardCap ∧
    finding.judge = judge

/-- Exactly the judges with a reviewer above the cap are reported. -/
def DominanceCaught (localeCompare : JsString → JsString → ℤ)
    (input : BuildInterRaterReportInput) : Prop :=
  ∀ judge,
    ((∃ reviewer ∈ assignments (ratingsOf judge input.ratings),
      isAbove (shareOfCases reviewer (ratingsOf judge input.ratings))
        input.thresholds.reviewerShareHardCap = true) →
      ReportsDominance (buildInterRaterAgreementReport localeCompare input) judge ∧
        (buildInterRaterAgreementReport localeCompare input).passed = false) ∧
    ((∀ reviewer ∈ assignments (ratingsOf judge input.ratings),
      isAbove (shareOfCases reviewer (ratingsOf judge input.ratings))
        input.thresholds.reviewerShareHardCap = false) →
      ¬ ReportsDominance (buildInterRaterAgreementReport localeCompare input) judge)

/-- Where a reviewer of a judge is above the cap, half the share of a reviewer is. -/
def HalfAboveCap (input : BuildInterRaterReportInput) : Prop :=
  ∀ judge,
    (∃ reviewer ∈ assignments (ratingsOf judge input.ratings),
      isAbove (shareOfCases reviewer (ratingsOf judge input.ratings))
        input.thresholds.reviewerShareHardCap = true) →
    ∃ reviewer ∈ assignments (ratingsOf judge input.ratings),
      isAbove (roundedToMillionths (shareOfCases reviewer (ratingsOf judge input.ratings) / 2))
        input.thresholds.reviewerShareHardCap = true

section

variable {localeCompare : JsString → JsString → ℤ} {ratings : List CalibrationPairedRating}
  {judge : JudgeId} {reviewer : JsString}

/-! ## Shares -/

theorem isAbove_mono {value value' : ℚ} (hle : value ≤ value') (threshold : JsNumber)
    (h : isAbove value threshold = true) : isAbove value' threshold = true := by
  cases threshold with
  | nan => exact h
  | infinity negative => exact h
  | negZero => exact decide_eq_true ((of_decide_eq_true h).trans_le hle)
  | finite x => exact decide_eq_true ((of_decide_eq_true h).trans_le hle)

theorem roundedToMillionths_mono {value value' : ℚ} (h : value ≤ value') :
    roundedToMillionths value ≤ roundedToMillionths value' := by
  have hfloor : ⌊value * 1000000 + 1 / 2⌋ ≤ ⌊value' * 1000000 + 1 / 2⌋ :=
    Int.floor_le_floor (by linarith)
  rw [roundedToMillionths, roundedToMillionths]
  gcongr

/-- Rounding half a share does not exceed the share. -/
theorem roundedToMillionths_half_le {share : ℚ} (h : 0 ≤ share) :
    roundedToMillionths (share / 2) ≤ share := by
  rw [roundedToMillionths, div_le_iff₀ (by norm_num)]
  have hfloor := Int.floor_le (share / 2 * 1000000 + 1 / 2)
  by_cases hone : 1 ≤ share * 1000000
  · linarith
  · have hzero : ⌊share / 2 * 1000000 + 1 / 2⌋ = 0 := by
      rw [Int.floor_eq_zero_iff, Set.mem_Ico]
      constructor <;> linarith
    rw [hzero]
    push_cast
    positivity

theorem length_assignments (ratings : List CalibrationPairedRating) :
    (assignments ratings).length = 2 * ratings.length := by
  induction ratings with
  | nil => rfl
  | cons rating ratings ih =>
      rw [assignments, List.flatMap_cons, List.length_append, ← assignments, ih]
      simp
      omega

/-- With two different reviewers a case is assigned to each of them once. -/
theorem countP_assignments (h : ∀ rating ∈ ratings, rating.reviewerA ≠ rating.reviewerB)
    (reviewer : JsString) :
    (assignments ratings).countP (· = reviewer) = casesRatedBy reviewer ratings := by
  induction ratings with
  | nil => rfl
  | cons rating ratings ih =>
      obtain ⟨hne, hrest⟩ := List.forall_mem_cons.mp h
      rw [assignments, List.flatMap_cons, List.countP_append, ← assignments, ih hrest,
        casesRatedBy, casesRatedBy, List.countP_cons]
      by_cases hA : rating.reviewerA = reviewer
      · have hB : rating.reviewerB ≠ reviewer := fun hB ↦ hne (hA.trans hB.symm)
        simp [hA, hB, Nat.add_comm]
      · by_cases hB : rating.reviewerB = reviewer <;> simp [hA, hB, Nat.add_comm]

/-! ## The reviewer with the most assignments -/

theorem consistent_compareCounts (hcompare : Consistent localeCompare) :
    Consistent (compareCounts localeCompare) := by
  refine consistent_of_lex (f := fun count ↦ -(count.fixtureCount : ℤ))
    (hcompare.comap (·.reviewer)) fun a b ↦ ?_
  rw [compareCounts]
  split
  · next hne => omega
  · next heq =>
    rw [not_not] at heq
    simp [heq]

theorem le_head_rotationCounts (hcompare : Consistent localeCompare)
    {counts : List (JsString × ℕ)} {total : ℕ} {dominant entry : ReviewerRotationCount}
    (hhead : (rotationCounts localeCompare counts total).head? = some dominant)
    (hentry : entry ∈ rotationCounts localeCompare counts total) :
    entry.fixtureCount ≤ dominant.fixtureCount := by
  obtain ⟨rest, hrest⟩ := List.head?_eq_some_iff.mp hhead
  have hsorted := (consistent_compareCounts hcompare).pairwise_sortBy (counts.map fun entry ↦
    (⟨entry.1, entry.2, if total = 0 then 0 else roundedToMillionths (entry.2 / total)⟩ :
      ReviewerRotationCount))
  rw [← rotationCounts, hrest, List.pairwise_cons] at hsorted
  rw [hrest] at hentry
  rcases List.mem_cons.mp hentry with rfl | hmem
  · exact le_rfl
  · have hle := hsorted.1 entry hmem
    rw [compareCounts] at hle
    split at hle <;> omega

theorem mem_rotationCounts {xs : List JsString} {total : ℕ} {entry : ReviewerRotationCount} :
    entry ∈ rotationCounts localeCompare (tally xs) total ↔ ∃ reviewer ∈ xs,
      entry = ⟨reviewer, xs.countP (· = reviewer),
        if total = 0 then 0 else roundedToMillionths (xs.countP (· = reviewer) / total)⟩ := by
  rw [rotationCounts, mem_sortBy, List.mem_map]
  constructor
  · rintro ⟨⟨reviewer, n⟩, hmem, rfl⟩
    obtain ⟨hreviewer, rfl⟩ := mem_tally.mp hmem
    exact ⟨reviewer, hreviewer, rfl⟩
  · rintro ⟨reviewer, hreviewer, rfl⟩
    exact ⟨⟨reviewer, xs.countP (· = reviewer)⟩, mem_tally.mpr ⟨hreviewer, rfl⟩, rfl⟩

/-- The rotation of a judge fails the gate where the rounded part of the assignments of some
reviewer is above the cap. -/
theorem rotationFindings_failures_iff (hcompare : Consistent localeCompare)
    (thresholds : InterRaterGateThresholds) (judge : JudgeId)
    (ratings : List CalibrationPairedRating) (arbiters : List JsString) :
    (rotationFindings thresholds
      (buildRotationReport localeCompare judge ratings arbiters)).failures ≠ [] ↔
      ∃ reviewer ∈ assignments ratings,
        isAbove (roundedToMillionths ((assignments ratings).countP (· = reviewer) /
          (assignments ratings).length)) thresholds.reviewerShareHardCap = true := by
  simp only [rotationFindings, buildRotationReport, sum_tally]
  by_cases hempty : (assignments ratings).length = 0
  · rw [if_pos hempty, List.length_eq_zero_iff.mp hempty]
    simp
  · rw [if_neg hempty]
    constructor
    · intro h
      split at h
      · exact absurd rfl h
      · next dominant hhead =>
          obtain ⟨reviewer, hreviewer, rfl⟩ := mem_rotationCounts.mp (List.mem_of_mem_head? hhead)
          simp only [if_neg hempty] at h
          split at h
          · next habove => exact ⟨reviewer, hreviewer, habove⟩
          · split at h <;> exact absurd rfl h
    · rintro ⟨reviewer, hreviewer, habove⟩
      have hentry := (@mem_rotationCounts localeCompare (assignments ratings)
        (assignments ratings).length _).mpr ⟨reviewer, hreviewer, rfl⟩
      rw [if_neg hempty] at hentry
      cases hhead : (rotationCounts localeCompare (tally (assignments ratings))
          (assignments ratings).length).head? with
      | none =>
          rw [List.head?_eq_none_iff.mp hhead] at hentry
          cases hentry
      | some dominant =>
          have hle := le_head_rotationCounts hcompare hhead hentry
          obtain ⟨reviewer', -, rfl⟩ := mem_rotationCounts.mp (List.mem_of_mem_head? hhead)
          rw [if_neg hempty] at hhead ⊢
          have hshare := roundedToMillionths_mono (show
              ((assignments ratings).countP (· = reviewer) : ℚ) / (assignments ratings).length ≤
                (assignments ratings).countP (· = reviewer') / (assignments ratings).length by gcongr)
          simp [isAbove_mono hshare _ habove]

theorem judge_of_mem_rotationFindings {thresholds : InterRaterGateThresholds}
    {report : ReviewerRotationReport} {finding : GateFinding GateFailureReason}
    (h : finding ∈ (rotationFindings thresholds report).failures) :
    finding.reason = .reviewerShareAboveHardCap ∧ finding.judge = report.judge := by
  rw [rotationFindings] at h
  split at h
  · cases h
  · split at h
    · cases h
    · split at h
      · rw [List.mem_singleton.mp h]
        exact ⟨rfl, rfl⟩
      · split at h <;> cases h

theorem reason_of_mem_judgeFindings {thresholds : InterRaterGateThresholds}
    {scope : InterRaterScopeReport} {finding : GateFinding GateFailureReason}
    (h : finding ∈ (judgeFindings thresholds scope).failures) :
    finding.reason ≠ .reviewerShareAboveHardCap := by
  simp only [judgeFindings] at h
  split at h
  · rw [List.mem_singleton.mp h]
    exact fun hreason ↦ by cases hreason
  · split at h
    · rw [List.mem_singleton.mp h]
      exact fun hreason ↦ by cases hreason
    · split at h <;> cases h

theorem reason_of_mem_scenarioFindings {thresholds : InterRaterGateThresholds}
    {scope : InterRaterScopeReport} {finding : GateFinding GateFailureReason}
    (h : finding ∈ (scenarioFindings thresholds scope).failures) :
    finding.reason ≠ .reviewerShareAboveHardCap := by
  simp only [scenarioFindings] at h
  split at h
  · cases h
  · split at h
    · split at h <;> cases h
    · split at h
      · rw [List.mem_singleton.mp h]
        exact fun hreason ↦ by cases hreason
      · split at h <;> cases h

/-! ## The report -/

theorem assignments_perm {ratings ratings' : List CalibrationPairedRating}
    (h : ratings.Perm ratings') : (assignments ratings).Perm (assignments ratings') :=
  h.flatMap_right fun rating : CalibrationPairedRating ↦ [rating.reviewerA, rating.reviewerB]

/-- Half the share of the cases is the part of the assignments. -/
theorem assignedPart_eq (h : ∀ rating ∈ ratings, rating.reviewerA ≠ rating.reviewerB)
    (reviewer : JsString) :
    ((assignments ratings).countP (· = reviewer) : ℚ) / (assignments ratings).length =
      shareOfCases reviewer ratings / 2 := by
  rw [countP_assignments h, length_assignments, shareOfCases, div_div]
  push_cast
  rw [mul_comm]

theorem reportsDominance_iff_rotation (input : BuildInterRaterReportInput) (judge : JudgeId) :
    ReportsDominance (buildInterRaterAgreementReport localeCompare input) judge ↔
      (rotationFindings input.thresholds
        ((buildInterRaterAgreementReport localeCompare input).rotation judge)).failures ≠ [] := by
  constructor
  · rintro ⟨finding, hmem, hreason, rfl⟩
    obtain ⟨findings, hfindings, hmem⟩ := List.mem_flatMap.mp hmem
    rcases List.mem_append.mp hfindings with hfindings | hfindings
    · rcases List.mem_append.mp hfindings with hfindings | hfindings
      · obtain ⟨_, -, rfl⟩ := List.mem_map.mp hfindings
        exact absurd hreason (reason_of_mem_judgeFindings hmem)
      · obtain ⟨_, -, rfl⟩ := List.mem_map.mp hfindings
        exact absurd hreason (reason_of_mem_scenarioFindings hmem)
    · obtain ⟨judge, -, rfl⟩ := List.mem_map.mp hfindings
      rw [(judge_of_mem_rotationFindings hmem).2]
      exact List.ne_nil_of_mem hmem
  · intro h
    obtain ⟨finding, hmem⟩ := List.exists_mem_of_ne_nil _ h
    obtain ⟨hreason, hjudge⟩ := judge_of_mem_rotationFindings hmem
    refine ⟨finding, List.mem_flatMap.mpr ⟨_, ?_, hmem⟩, hreason, hjudge⟩
    exact List.mem_append_right _ (List.mem_map.mpr ⟨judge, mem_judgeIds judge, rfl⟩)

theorem reportsDominance_iff (hcompare : Consistent localeCompare)
    (input : BuildInterRaterReportInput)
    (hdistinct : ∀ rating ∈ input.ratings, rating.reviewerA ≠ rating.reviewerB)
    (judge : JudgeId) :
    ReportsDominance (buildInterRaterAgreementReport localeCompare input) judge ↔
      ∃ reviewer ∈ assignments (ratingsOf judge input.ratings),
        isAbove (roundedToMillionths (shareOfCases reviewer (ratingsOf judge input.ratings) / 2))
          input.thresholds.reviewerShareHardCap = true := by
  have hperm : (ratingsOf judge (sortBy (fun a b ↦ localeCompare a.fixtureId b.fixtureId)
      input.ratings)).Perm (ratingsOf judge input.ratings) := (sortBy_perm _ _).filter _
  have hassigned := assignments_perm hperm
  have hdistinct' : ∀ rating ∈ ratingsOf judge input.ratings,
      rating.reviewerA ≠ rating.reviewerB :=
    fun rating hmem ↦ hdistinct rating (List.mem_of_mem_filter hmem)
  rw [reportsDominance_iff_rotation]
  refine (rotationFindings_failures_iff hcompare _ judge _ _).trans ?_
  simp only [hassigned.mem_iff, hassigned.countP_eq, hassigned.length_eq,
    assignedPart_eq hdistinct']

theorem passed_eq_false_of_reportsDominance {input : BuildInterRaterReportInput}
    (h : ReportsDominance (buildInterRaterAgreementReport localeCompare input) judge) :
    (buildInterRaterAgreementReport localeCompare input).passed = false := by
  obtain ⟨finding, hmem, -⟩ := h
  refine decide_eq_false fun hlength ↦ ?_
  exact List.ne_nil_of_mem hmem (List.length_eq_zero_iff.mp hlength)

theorem shareOfCases_nonneg (reviewer : JsString) (ratings : List CalibrationPairedRating) :
    0 ≤ shareOfCases reviewer ratings := by
  rw [shareOfCases]
  positivity

end

/-! ## One case with two reviewers -/

def oneCaseRating : CalibrationPairedRating where
  fixtureId := js "f1"
  judge := .logic
  scenarioKind := .happy
  reviewerA := js "alice"
  verdictA := .accept
  reviewerB := js "bob"
  verdictB := .accept
  adjudicated := false

def oneCaseInput (cap : JsNumber) : BuildInterRaterReportInput where
  ratings := [oneCaseRating]
  arbiters := []
  thresholds := { defaultGateThresholds with reviewerShareHardCap := cap }

end TestIntelligence.Eval
