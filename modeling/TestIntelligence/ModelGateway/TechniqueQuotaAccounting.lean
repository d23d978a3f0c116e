import TestIntelligence.Js.Rounding
import TestIntelligence.ModelGateway.TechniqueQuota

/-!
# Accounting for technique quotas

The deficits and the report go over the same rows, and more cases never add to a deficit.
The tier of a screen is found by a scan that ends at the first tier that starts above its
number of fields, so which tier it is depends on the order of the list.
-/

namespace TestIntelligence.ModelGateway.TechniqueQuota

open Js
open Quality (TestCaseTechnique29119)

/-! ## What the accounting promises -/

/-- The deficit that an entry of the report stands for. -/
def TechniqueQuotaReportEntry.toDeficit (entry : TechniqueQuotaReportEntry) :
    TechniqueQuotaDeficit where
  screenId := entry.screenId
  technique := entry.technique
  minCount := entry.requiredCount
  actual := entry.actualCount
  missing := entry.requiredCount.sub (.ofRat entry.actualCount)

/-- No other tier that starts at or below `safeCount` starts later. -/
def GreatestStart (safeCount : ℕ) (tiers : List TechniqueCoverageMinimumTier)
    (tier : TechniqueCoverageMinimumTier) : Prop :=
  startsBy safeCount tier = true ∧
    ∀ other ∈ tiers, startsBy safeCount other = true →
      other.minFieldCount.le tier.minFieldCount = true

/-- A row is for a planned quota, and asks for no more. -/
def NotRaised (planned : JsString × CoveragePlanTechniqueQuota) (row : ResolvedQuota) : Prop :=
  row.screenId = planned.1 ∧ row.technique = planned.2.technique ∧
    planned.2.minCount.lt row.requiredCount = false

/-- Where a tier starts at or below `safeCount`, the one that starts last is applied. -/
def GreatestApplied (safeCount : ℕ) (tiers : List TechniqueCoverageMinimumTier) : Prop :=
  (∃ tier ∈ safeTiers tiers, startsBy safeCount tier = true) →
    appliedTier safeCount tiers ∈ safeTiers tiers ∧
      GreatestStart safeCount (safeTiers tiers) (appliedTier safeCount tiers)

section

variable (localeCompare : JsString → JsString → ℤ) (coveragePlan : CoveragePlan)
  (policy : Option TechniqueCoverageMinimumPolicy)

structure QuotaAccounting (safeCount : ℕ) : Prop where
  agree : ∀ cases, collectTechniqueQuotaDeficits localeCompare cases (some coveragePlan) policy =
    ((buildTechniqueQuotaReport localeCompare cases coveragePlan policy).entries.filter
      fun entry ↦ entry.status = .deficit).map (·.toDeficit)
  monotone : ∀ cases cases' : List GeneratedTestCase, cases.Sublist cases' →
    ∀ deficit' ∈ collectTechniqueQuotaDeficits localeCompare cases' (some coveragePlan) policy,
      ∃ deficit ∈ collectTechniqueQuotaDeficits localeCompare cases (some coveragePlan) policy,
        deficit.screenId = deficit'.screenId ∧ deficit.technique = deficit'.technique ∧
          deficit.minCount = deficit'.minCount ∧ deficit.missing.lt deficit'.missing = false
  greatestApplied : GreatestApplied safeCount (resolveTechniqueCoverageMinimumTiers policy)
  notRaised : ∃ planned, planned.Perm (plannedQuotas coveragePlan) ∧
    List.Forall₂ NotRaised planned
      (resolveTechniqueQuotas localeCompare (some coveragePlan) policy)

end

/-- The tier at which the scan ends: the last of the tiers before the first one that starts
above `safeCount`. -/
def leadingTier (safeCount : ℕ) (tiers : List TechniqueCoverageMinimumTier) :
    Option TechniqueCoverageMinimumTier :=
  if safeCount = 0 then tiers.head? else (tiers.takeWhile (startsBy safeCount)).getLast?

/-- No tier starts at or below `safeCount`, or the leading one starts last of those. -/
def LeadingTierGreatest (safeCount : ℕ) (tiers : List TechniqueCoverageMinimumTier) : Prop :=
  (∃ tier ∈ tiers, startsBy safeCount tier = true) →
    ∃ tier, leadingTier safeCount tiers = some tier ∧ GreatestStart safeCount tiers tier

/-! ## Tiers -/

theorem scanTiers_eq (safeCount : ℕ) (selectedTier : TechniqueCoverageMinimumTier)
    (tiers : List TechniqueCoverageMinimumTier) :
    scanTiers safeCount selectedTier tiers =
      (tiers.takeWhile (startsBy safeCount)).getLast?.getD selectedTier := by
  induction tiers generalizing selectedTier with
  | nil => rfl
  | cons tier tiers ih =>
      rw [scanTiers, List.takeWhile_cons]
      split
      · rw [ih, List.getLast?_cons, Option.getD_some]
      · rfl

theorem safeTiers_ne_nil (tiers : List TechniqueCoverageMinimumTier) : safeTiers tiers ≠ [] := by
  rw [safeTiers]
  split
  · next hlength => exact List.ne_nil_of_length_pos hlength
  · exact List.cons_ne_nil _ _

theorem head?_safeTiers (tiers : List TechniqueCoverageMinimumTier) :
    (safeTiers tiers).head? = some (fallbackTier tiers) := by
  obtain ⟨tier, rest, heq⟩ := List.exists_cons_of_ne_nil (safeTiers_ne_nil tiers)
  rw [fallbackTier, heq]
  rfl

theorem appliedTier_eq (safeCount : ℕ) (tiers : List TechniqueCoverageMinimumTier) :
    appliedTier safeCount tiers =
      (leadingTier safeCount (safeTiers tiers)).getD (fallbackTier tiers) := by
  rw [appliedTier, leadingTier]
  split
  · rw [head?_safeTiers, Option.getD_some]
  · exact scanTiers_eq _ _ _

/-- Where the scan passes no tier, the first one starts too late. -/
theorem startsBy_fallbackTier {safeCount : ℕ} {tiers : List TechniqueCoverageMinimumTier}
    (h : leadingTier safeCount (safeTiers tiers) = none) :
    startsBy safeCount (fallbackTier tiers) = false := by
  obtain ⟨tier, rest, heq⟩ := List.exists_cons_of_ne_nil (safeTiers_ne_nil tiers)
  have hfallback : fallbackTier tiers = tier := by
    rw [fallbackTier, heq]
    rfl
  rw [hfallback]
  rw [leadingTier, heq] at h
  split at h
  · cases h
  · rw [List.getLast?_eq_none_iff, List.takeWhile_cons] at h
    split at h
    · cases h
    · next hstart => exact Bool.eq_false_of_not_eq_true hstart

theorem mem_of_leadingTier {safeCount : ℕ} {tiers : List TechniqueCoverageMinimumTier}
    {tier : TechniqueCoverageMinimumTier} (h : leadingTier safeCount tiers = some tier) :
    tier ∈ tiers := by
  rw [leadingTier] at h
  split at h
  · exact List.mem_of_mem_head? h
  · exact (List.takeWhile_sublist _).subset (List.mem_of_getLast? h)

theorem greatestApplied_iff (safeCount : ℕ) (tiers : List TechniqueCoverageMinimumTier) :
    GreatestApplied safeCount tiers ↔ LeadingTierGreatest safeCount (safeTiers tiers) := by
  refine imp_congr_right fun _ ↦ ?_
  rw [appliedTier_eq]
  cases hleading : leadingTier safeCount (safeTiers tiers) with
  | none =>
      constructor
      · rintro ⟨-, hstart, -⟩
        exact absurd (startsBy_fallbackTier hleading) (ne_false_of_eq_true hstart)
      · rintro ⟨tier, htier, -⟩
        cases htier
  | some tier =>
      constructor
      · rintro ⟨-, hgreatest⟩
        exact ⟨tier, rfl, hgreatest⟩
      · rintro ⟨tier', htier, hgreatest⟩
        cases htier
        exact ⟨mem_of_leadingTier hleading, hgreatest⟩

/-! ## Quotas -/

theorem lt_self_eq_false (x : JsNumber) : x.lt x = false := by
  cases x <;> simp [JsNumber.lt]

theorem lt_min_eq_false (x y : JsNumber) : x.lt (x.min y) = false := by
  cases x with
  | nan => rfl
  | _ =>
    cases y <;> rw [JsNumber.min] <;> grind [JsNumber.lt, JsNumber.toRat]

variable {coveragePlan : CoveragePlan} {policy : Option TechniqueCoverageMinimumPolicy}

theorem notRaised_resolvePlanned (planned : JsString × CoveragePlanTechniqueQuota) :
    NotRaised planned (resolvePlanned coveragePlan policy planned) := by
  rw [resolvePlanned, resolveRow]
  split
  · exact ⟨rfl, rfl, lt_min_eq_false _ _⟩
  · split
    · exact ⟨rfl, rfl, lt_min_eq_false _ _⟩
    · exact ⟨rfl, rfl, lt_self_eq_false _⟩

theorem exists_planned (localeCompare : JsString → JsString → ℤ) :
    ∃ planned, planned.Perm (plannedQuotas coveragePlan) ∧
      List.Forall₂ NotRaised planned
        (resolveTechniqueQuotas localeCompare (some coveragePlan) policy) := by
  have hrows : List.Forall₂ (fun row planned ↦ NotRaised planned row)
      ((plannedQuotas coveragePlan).map (resolvePlanned coveragePlan policy))
      (plannedQuotas coveragePlan) :=
    List.forall₂_map_left_iff.mpr
      (List.forall₂_same.mpr fun planned _ ↦ notRaised_resolvePlanned planned)
  obtain ⟨planned, hsorted, hperm⟩ :=
    List.perm_comp_forall₂ (sortBy_perm (compareResolved localeCompare) _) hrows
  exact ⟨planned, hperm, hsorted.flip⟩

/-! ## Counts -/

variable {cases cases' : List GeneratedTestCase}

theorem countAnchored_mono (h : cases.Sublist cases') (screenId : JsString)
    (technique : TestCaseTechnique29119) :
    countAnchored cases screenId technique ≤ countAnchored cases' screenId technique :=
  h.countP_le

theorem length_setOf_mono {xs ys : List JsString} (h : xs ⊆ ys) :
    (setOf xs).length ≤ (setOf ys).length := by
  have hsubset : setOf xs ⊆ setOf ys := fun x hx ↦ mem_setOf.mpr (h (mem_setOf.mp hx))
  exact (List.subperm_of_subset (nodup_foldl_setAdd List.nodup_nil) hsubset).length_le

theorem anchoredCases_sublist (h : cases.Sublist cases') (screenId : JsString)
    (technique : Option TestCaseTechnique29119) :
    (anchoredCases cases screenId technique).Sublist (anchoredCases cases' screenId technique) :=
  h.filter _

theorem length_coveredFields_mono (h : cases.Sublist cases') (screenId : JsString)
    (technique : Option TestCaseTechnique29119) (targets : List JsString) :
    (coveredFields cases screenId technique targets).length ≤
      (coveredFields cases' screenId technique targets).length := by
  apply length_setOf_mono
  intro field hfield
  obtain ⟨testCase, hcase, hmem⟩ := List.mem_flatMap.mp hfield
  exact List.mem_flatMap.mpr
    ⟨testCase, (anchoredCases_sublist h screenId technique).subset hcase, hmem⟩

theorem countAnchoredCoveredFieldTargets_mono (h : cases.Sublist cases') (screenId : JsString)
    (technique : Option TestCaseTechnique29119) (targets : List JsString) :
    countAnchoredCoveredFieldTargets cases screenId technique targets ≤
      countAnchoredCoveredFieldTargets cases' screenId technique targets := by
  have hcovered := length_coveredFields_mono h screenId technique targets
  have hany : (anchoredCases cases screenId technique).any
        (fun testCase ↦ testCase.coveredFieldIds.length > 0) = true →
      (anchoredCases cases' screenId technique).any
        (fun testCase ↦ testCase.coveredFieldIds.length > 0) = true := by
    intro hany
    obtain ⟨testCase, hcase, hlength⟩ := List.any_eq_true.mp hany
    exact List.any_eq_true.mpr
      ⟨testCase, (anchoredCases_sublist h screenId technique).subset hcase, hlength⟩
  rw [countAnchoredCoveredFieldTargets, countAnchoredCoveredFieldTargets]
  split
  · exact le_rfl
  · dsimp only
    by_cases hsingle : (coveredFields cases' screenId technique targets).length = 0 ∧
        targets.length = 1
    · have hnone : (coveredFields cases screenId technique targets).length = 0 := by omega
      rw [if_pos ⟨hnone, hsingle.2⟩, if_pos hsingle]
      split
      · next hcase => rw [if_pos (hany hcase)]
      · exact Nat.zero_le _
    · rw [if_neg hsingle]
      split
      · split <;> omega
      · exact hcovered

/-! ## Deficits -/

theorem zero_le_natCast (n : ℕ) : JsNumber.le 0 (.ofRat n) = true :=
  JsNumber.ofRat_mono (by simp) (by simp)

/-- The loop over the rows and the report agree on every row. -/
theorem deficitOf_eq (cases : List GeneratedTestCase) (mode : TechniqueCoverageMinimumMode)
    (quota : ResolvedQuota) :
    deficitOf cases coveragePlan quota =
      if (reportEntry cases coveragePlan mode quota).status = .deficit then
        some (reportEntry cases coveragePlan mode quota).toDeficit
      else none := by
  have hzero : quota.requiredCount.le 0 = true → quota.requiredCount.le
      (.ofRat (countAnchored cases quota.screenId quota.technique)) = true :=
    fun hle ↦ JsNumber.le_of_le_of_le hle (zero_le_natCast _)
  by_cases hactual : quota.requiredCount.le
      (.ofRat (countAnchored cases quota.screenId quota.technique)) = true
  · simp [deficitOf, reportEntry, hactual]
  · have hpositive : ¬ quota.requiredCount.le 0 = true := fun hle ↦ hactual (hzero hle)
    by_cases htechnique : quota.technique = .equivalencePartitioning
    · rw [deficitOf, if_neg hpositive]
      simp only [reportEntry, TechniqueQuotaReportEntry.toDeficit, htechnique, true_and, if_true]
      rw [htechnique] at hactual
      by_cases hcovered : quota.fieldCount ≤ countAnchoredCoveredFieldTargets cases
          quota.screenId none (fieldTargets coveragePlan quota.screenId) ∧ 0 < quota.fieldCount
      · simp [hcovered.1, hcovered.2]
      · have hcovered' := mt And.symm hcovered
        simp [hcovered, hcovered', hactual]
    · simp [deficitOf, reportEntry, TechniqueQuotaReportEntry.toDeficit, hactual, hpositive,
        htechnique]

theorem missing_mono {required : JsNumber} {actual actual' : ℕ} (h : actual ≤ actual')
    (hrequired : required.le (.ofRat actual') = false) :
    (required.sub (.ofRat actual)).lt (required.sub (.ofRat actual')) = false := by
  have hcast : (actual : ℚ) ≤ actual' := by exact_mod_cast h
  have hle := JsNumber.ofRat_mono (Nat.cast_nonneg actual) hcast
  rcases JsNumber.ofRat_of_nonneg (Nat.cast_nonneg actual') with ⟨e, he, hval⟩ | ⟨he, -⟩
  · rw [he] at hle hrequired ⊢
    obtain ⟨d, hd, -⟩ := JsNumber.ofRat_finite_of_le (Nat.cast_nonneg actual) rfl hle
    rw [hd, JsNumber.le_finite_iff] at hle
    rw [hd]
    cases required with
    | nan => rfl
    | infinity negative =>
        cases negative with
        | false => rfl
        | true => cases hrequired
    | negZero =>
        have hnonneg : 0 ≤ e.val := hval ▸ rounded_nonneg (Nat.cast_nonneg actual')
        have hneg := JsNumber.lt_of_le_eq_false (by simp) (by simp) hrequired
        exact absurd (of_decide_eq_true hneg) (not_lt.mpr hnonneg)
    | finite x =>
        have hneg := JsNumber.lt_of_le_eq_false (by simp) (by simp) hrequired
        have hlt : e.val < x.val := of_decide_eq_true hneg
        exact JsNumber.lt_eq_false_of_le
          (JsNumber.ofRat_mono (sub_nonneg.mpr hlt.le) (sub_le_sub_left hle _))
  · -- A number that is not at most infinity is not a number.
    rw [he] at hrequired
    cases required with
    | nan => rfl
    | infinity negative => cases negative <;> cases hrequired
    | negZero => cases hrequired
    | finite x => cases hrequired

theorem deficitOf_mono {quota : ResolvedQuota} (h : cases.Sublist cases')
    {deficit' : TechniqueQuotaDeficit}
    (hdeficit : deficitOf cases' coveragePlan quota = some deficit') :
    ∃ deficit, deficitOf cases coveragePlan quota = some deficit ∧
      deficit.screenId = deficit'.screenId ∧ deficit.technique = deficit'.technique ∧
        deficit.minCount = deficit'.minCount ∧ deficit.missing.lt deficit'.missing = false := by
  have hcount := countAnchored_mono h quota.screenId quota.technique
  have hfields := countAnchoredCoveredFieldTargets_mono h quota.screenId none
    (fieldTargets coveragePlan quota.screenId)
  have hcast : ((countAnchored cases quota.screenId quota.technique : ℕ) : ℚ) ≤
      countAnchored cases' quota.screenId quota.technique := by exact_mod_cast hcount
  have hle := JsNumber.ofRat_mono (Nat.cast_nonneg _) hcast
  rw [deficitOf] at hdeficit
  split at hdeficit
  · cases hdeficit
  · next hpositive =>
      dsimp only at hdeficit
      split at hdeficit
      · cases hdeficit
      · next hcovered =>
          split at hdeficit
          · cases hdeficit
          · next hrequired =>
              cases hdeficit
              have hcovered' := fun hall ↦
                hcovered (And.imp_right (And.imp_left hfields.trans') hall)
              have hrequired' := fun hall ↦ hrequired (JsNumber.le_of_le_of_le hall hle)
              have hown : deficitOf cases coveragePlan quota = some
                  { screenId := quota.screenId
                    technique := quota.technique
                    minCount := quota.requiredCount
                    actual := countAnchored cases quota.screenId quota.technique
                    missing := quota.requiredCount.sub
                      (.ofRat (countAnchored cases quota.screenId quota.technique)) } := by
                rw [deficitOf, if_neg hpositive]
                dsimp only
                rw [if_neg hcovered', if_neg hrequired']
              exact ⟨_, hown, rfl, rfl, rfl,
                missing_mono hcount (Bool.eq_false_of_not_eq_true hrequired)⟩

/-! ## The accounting -/

theorem collect_eq_report (localeCompare : JsString → JsString → ℤ)
    (cases : List GeneratedTestCase) (coveragePlan : CoveragePlan)
    (policy : Option TechniqueCoverageMinimumPolicy) :
    collectTechniqueQuotaDeficits localeCompare cases (some coveragePlan) policy =
      ((buildTechniqueQuotaReport localeCompare cases coveragePlan policy).entries.filter
        fun entry ↦ entry.status = .deficit).map (·.toDeficit) := by
  rw [collectTechniqueQuotaDeficits, buildTechniqueQuotaReport]
  dsimp only
  induction resolveTechniqueQuotas localeCompare (some coveragePlan) policy with
  | nil => rfl
  | cons quota quotas ih =>
      rw [List.filterMap_cons, List.map_cons, List.filter_cons, ih,
        deficitOf_eq cases (resolveTechniqueCoverageMinimumMode policy) quota]
      by_cases hstatus : (reportEntry cases coveragePlan
          (resolveTechniqueCoverageMinimumMode policy) quota).status = .deficit
      · simp [hstatus]
      · simp [hstatus]

def unorderedTiers : List TechniqueCoverageMinimumTier :=
  [⟨0, 2, 0, js "any"⟩, ⟨30, 1, 0, js "many"⟩, ⟨5, 1, 0, js "some"⟩]

theorem startsBy_natCast {start safeCount : ℕ} (hstart : start ≤ 2 ^ 53)
    (hcount : safeCount ≤ 2 ^ 53) {tier : TechniqueCoverageMinimumTier}
    (htier : tier.minFieldCount = .ofRat start) :
    startsBy safeCount tier = true ↔ start ≤ safeCount := by
  obtain ⟨d, hd, hdval⟩ := JsNumber.ofRat_natCast hstart
  obtain ⟨e, he, heval⟩ := JsNumber.ofRat_natCast hcount
  rw [startsBy, htier, hd, he, JsNumber.le_finite_iff, hdval, heval, Nat.cast_le]

end TestIntelligence.ModelGateway.TechniqueQuota
