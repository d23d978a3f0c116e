import TestIntelligence.Js.Sorting
import TestIntelligence.Security.Records
import TestIntelligence.Workbench.StorageRecords

/-!
# Augmenting the coverage plan

A model may propose more than the deterministic plan asks for.  The proposal is an untrusted
value, of which the plan takes only what makes it stricter.
-/

namespace TestIntelligence.Quality

open Js Security

/-! ## Techniques and risk classes -/

inductive TestCaseTechnique29119
  | useCase
  | equivalencePartitioning
  | boundaryValueAnalysis
  | decisionTable
  | stateTransition
  | exploratory
  | errorGuessing
  | syntaxTesting
  | classificationTree
  deriving DecidableEq

def TestCaseTechnique29119.text : TestCaseTechnique29119 → JsString
  | useCase => js "use_case"
  | equivalencePartitioning => js "equivalence_partitioning"
  | boundaryValueAnalysis => js "boundary_value_analysis"
  | decisionTable => js "decision_table"
  | stateTransition => js "state_transition"
  | exploratory => js "exploratory"
  | errorGuessing => js "error_guessing"
  | syntaxTesting => js "syntax_testing"
  | classificationTree => js "classification_tree"

def generatedTechniqueOrder : List TestCaseTechnique29119 :=
  [.useCase, .equivalencePartitioning, .boundaryValueAnalysis, .decisionTable, .stateTransition,
    .exploratory, .errorGuessing, .syntaxTesting, .classificationTree]

def generatedTechniqueRank (technique : TestCaseTechnique29119) : ℕ :=
  generatedTechniqueOrder.idxOf technique

inductive CoveragePlanElementRiskClass
  | low
  | medium
  | high
  | financialTransaction
  | regulatedData
  deriving DecidableEq

def CoveragePlanElementRiskClass.text : CoveragePlanElementRiskClass → JsString
  | low => js "low"
  | medium => js "medium"
  | high => js "high"
  | financialTransaction => js "financial_transaction"
  | regulatedData => js "regulated_data"

def riskClassOrder : List CoveragePlanElementRiskClass :=
  [.low, .medium, .high, .financialTransaction, .regulatedData]

def riskClassRank (riskClass : CoveragePlanElementRiskClass) : ℕ := riskClassOrder.idxOf riskClass

/-! ## Plans -/

/-- A technique and its `minCount`. -/
abbrev CoveragePlanTechniqueQuota := TestCaseTechnique29119 × ℕ

def compareTechniqueQuotas (left right : CoveragePlanTechniqueQuota) : ℤ :=
  let byRank : ℤ := generatedTechniqueRank left.1 - generatedTechniqueRank right.1
  if byRank ≠ 0 then byRank else left.2 - right.2

/-- The quotas of a screen are the entries of a map. -/
@[ext]
structure CoveragePlanPerScreen where
  screenId : JsString
  techniqueQuotas : List CoveragePlanTechniqueQuota
  distinct : (techniqueQuotas.map Prod.fst).Nodup

@[ext]
structure CoveragePlanPerElement where
  screenId : JsString
  elementId : JsString
  mustHaveCase : Bool
  riskClass : CoveragePlanElementRiskClass

/-- The part of the plan that an augmentation may change. -/
structure CoveragePlan where
  perScreen : List CoveragePlanPerScreen
  perElement : List CoveragePlanPerElement

/-- How many cases the quotas ask for. -/
def minCountOf (quotas : List CoveragePlanTechniqueQuota) (technique : TestCaseTechnique29119) :
    ℕ :=
  (mapGet quotas technique).getD 0

/-- Drop the quotas of nothing and put the others in the order of the techniques. -/
def settleQuotas (quotas : List CoveragePlanTechniqueQuota) : List CoveragePlanTechniqueQuota :=
  sortBy compareTechniqueQuotas (quotas.filter fun quota ↦ 0 < quota.2)

theorem distinct_settleQuotas {quotas : List CoveragePlanTechniqueQuota}
    (h : (quotas.map Prod.fst).Nodup) : ((settleQuotas quotas).map Prod.fst).Nodup := by
  rw [settleQuotas, ((sortBy_perm _ _).map Prod.fst).nodup_iff]
  exact h.sublist (List.filter_sublist.map Prod.fst)

theorem distinct_foldl {γ : Type*}
    {step : List CoveragePlanTechniqueQuota → γ → List CoveragePlanTechniqueQuota}
    (hstep : ∀ counts x, (counts.map Prod.fst).Nodup → ((step counts x).map Prod.fst).Nodup)
    (xs : List γ) {counts : List CoveragePlanTechniqueQuota}
    (h : (counts.map Prod.fst).Nodup) : ((xs.foldl step counts).map Prod.fst).Nodup := by
  induction xs generalizing counts with
  | nil => exact h
  | cons x xs ih => exact ih (hstep counts x h)

/-! ## The planner's quotas -/

inductive CoveragePlanTechnique
  | initialState
  | equivalencePartitioning
  | boundaryValue
  | decisionTable
  | stateTransition
  | errorGuessing
  | pairwise

def toGeneratedTechnique : CoveragePlanTechnique → Option TestCaseTechnique29119
  | .initialState => some .useCase
  | .equivalencePartitioning => some .equivalencePartitioning
  | .boundaryValue => some .boundaryValueAnalysis
  | .decisionTable => some .decisionTable
  | .stateTransition => some .stateTransition
  | .errorGuessing => some .errorGuessing
  | .pairwise => none

structure CoverageRequirement where
  technique : CoveragePlanTechnique
  screenId : Option JsString

/-- One turn of the loop over the minimum cases, on the counts of one screen. -/
def countRequirement (screenId : JsString) (counts : List CoveragePlanTechniqueQuota)
    (requirement : CoverageRequirement) : List CoveragePlanTechniqueQuota :=
  if requirement.screenId = some screenId then
    match toGeneratedTechnique requirement.technique with
    | some technique => mapSet counts technique (minCountOf counts technique + 1)
    | none => counts
  else counts

def screenCounts (minimumCases : List CoverageRequirement) (screenId : JsString) :
    List CoveragePlanTechniqueQuota :=
  minimumCases.foldl (countRequirement screenId) []

/-- There is no point in more partitions than fields. -/
def capPartitions (fieldCount : Option ℕ) (quota : CoveragePlanTechniqueQuota) :
    CoveragePlanTechniqueQuota :=
  if quota.1 = .equivalencePartitioning then (quota.1, min quota.2 (fieldCount.getD quota.2))
  else quota

theorem distinct_countRequirement (screenId : JsString) {counts : List CoveragePlanTechniqueQuota}
    (h : (counts.map Prod.fst).Nodup) (requirement : CoverageRequirement) :
    ((countRequirement screenId counts requirement).map Prod.fst).Nodup := by
  rw [countRequirement]
  split
  · split
    · rw [keys_mapSet]
      exact nodup_setAdd h _
    · exact h
  · exact h

theorem distinct_screenCounts (minimumCases : List CoverageRequirement) (screenId : JsString) :
    ((screenCounts minimumCases screenId).map Prod.fst).Nodup :=
  distinct_foldl (fun _ requirement h ↦ distinct_countRequirement screenId h requirement)
    minimumCases List.nodup_nil

theorem fst_capPartitions (fieldCount : Option ℕ) (quota : CoveragePlanTechniqueQuota) :
    (capPartitions fieldCount quota).1 = quota.1 := by
  rw [capPartitions]
  split <;> rfl

theorem map_fst_capPartitions (fieldCount : Option ℕ) (quotas : List CoveragePlanTechniqueQuota) :
    (quotas.map (capPartitions fieldCount)).map Prod.fst = quotas.map Prod.fst := by
  rw [List.map_map]
  exact List.map_congr_left fun quota _ ↦ fst_capPartitions fieldCount quota

/-- The plan of one screen of the model. -/
def planScreen (minimumCases : List CoverageRequirement) (fieldCounts : JsString → Option ℕ)
    (screenId : JsString) : CoveragePlanPerScreen where
  screenId := screenId
  techniqueQuotas :=
    settleQuotas ((screenCounts minimumCases screenId).map (capPartitions (fieldCounts screenId)))
  distinct := by
    apply distinct_settleQuotas
    rw [map_fst_capPartitions]
    exact distinct_screenCounts minimumCases screenId

def buildPerScreenPlan (localeCompare : JsString → JsString → ℤ)
    (minimumCases : List CoverageRequirement) (fieldCounts : JsString → Option ℕ)
    (screenIds : List JsString) : List CoveragePlanPerScreen :=
  sortBy (fun left right ↦ localeCompare left.screenId right.screenId)
    (screenIds.map (planScreen minimumCases fieldCounts))

/-! ## The merge -/

/-- The quota that a record gives for a technique: a safe integer that is not negative. -/
def quotaField (value : Json) (technique : TestCaseTechnique29119) : Option ℕ :=
  match property value technique.text with
  | some (.num quota) =>
      if Workbench.isSafeInteger quota && !quota.lt 0 then some quota.toRat.num.toNat else none
  | _ => none

def normalizeTechniqueQuotaRecord (value : Option Json) : List CoveragePlanTechniqueQuota :=
  match value with
  | some value => generatedTechniqueOrder.foldl (fun quotas technique ↦
      match quotaField value technique with
      | some quota => mapSet quotas technique quota
      | none => quotas) []
  | none => []

/-- One turn of the loop over the proposed quotas. -/
def raiseQuota (counts : List CoveragePlanTechniqueQuota) (quota : CoveragePlanTechniqueQuota) :
    List CoveragePlanTechniqueQuota :=
  mapSet counts quota.1 (max (minCountOf counts quota.1) quota.2)

theorem distinct_raiseQuota {counts : List CoveragePlanTechniqueQuota}
    (h : (counts.map Prod.fst).Nodup) (quota : CoveragePlanTechniqueQuota) :
    ((raiseQuota counts quota).map Prod.fst).Nodup := by
  rw [raiseQuota, keys_mapSet]
  exact nodup_setAdd h _

/-- The items of an array member. -/
def arrayOf (value : Json) (key : JsString) : List Json :=
  match property value key with
  | some (.arr items) => items
  | _ => []

def screenOverride (perScreenRaw : List Json) (screenId : JsString) : Option Json :=
  perScreenRaw.find? fun candidate ↦
    isTextWith (· = screenId) (property candidate (js "screenId"))

def proposedQuotas (perScreenRaw : List Json) (screenId : JsString) :
    List CoveragePlanTechniqueQuota :=
  normalizeTechniqueQuotaRecord
    ((screenOverride perScreenRaw screenId).bind (property · (js "techniqueQuotas")))

theorem distinct_mapFrom (quotas : List CoveragePlanTechniqueQuota) :
    ((quotas.foldl (fun counts quota ↦ mapSet counts quota.1 quota.2) []).map Prod.fst).Nodup := by
  refine distinct_foldl (fun counts quota h ↦ ?_) quotas List.nodup_nil
  rw [keys_mapSet]
  exact nodup_setAdd h _

/-- `new Map(...)` of the quotas of the screen, with the proposed ones. -/
def nextCounts (quotas proposed : List CoveragePlanTechniqueQuota) :
    List CoveragePlanTechniqueQuota :=
  proposed.foldl raiseQuota (quotas.foldl (fun counts quota ↦ mapSet counts quota.1 quota.2) [])

theorem distinct_nextCounts (quotas proposed : List CoveragePlanTechniqueQuota) :
    ((nextCounts quotas proposed).map Prod.fst).Nodup :=
  distinct_foldl (fun _ quota h ↦ distinct_raiseQuota h quota) proposed (distinct_mapFrom quotas)

def mergeScreen (perScreenRaw : List Json) (screen : CoveragePlanPerScreen) :
    CoveragePlanPerScreen where
  screenId := screen.screenId
  techniqueQuotas := settleQuotas
    (nextCounts screen.techniqueQuotas (proposedQuotas perScreenRaw screen.screenId))
  distinct := distinct_settleQuotas (distinct_nextCounts _ _)

def elementOverride (perElementRaw : List Json) (element : CoveragePlanPerElement) :
    Option Json :=
  perElementRaw.find? fun candidate ↦
    isTextWith (· = element.screenId) (property candidate (js "screenId")) &&
      isTextWith (· = element.elementId) (property candidate (js "elementId"))

def booleanOf : Option Json → Option Bool
  | some (.bool value) => some value
  | _ => none

def mergeMustHaveCase (mustHaveCase : Bool) (proposed : Option Bool) : Bool :=
  match proposed with
  | some value => mustHaveCase || value
  | none => mustHaveCase

def riskClassOf : Option Json → Option CoveragePlanElementRiskClass
  | some (.str text) => riskClassOrder.find? (·.text = text)
  | _ => none

def mergeRiskClass (riskClass : CoveragePlanElementRiskClass)
    (proposed : Option CoveragePlanElementRiskClass) : CoveragePlanElementRiskClass :=
  match proposed with
  | some candidate =>
      if riskClassRank riskClass < riskClassRank candidate then candidate else riskClass
  | none => riskClass

def mergeElement (perElementRaw : List Json) (element : CoveragePlanPerElement) :
    CoveragePlanPerElement :=
  let override := elementOverride perElementRaw element
  { element with
    mustHaveCase := mergeMustHaveCase element.mustHaveCase
      (booleanOf (override.bind (property · (js "mustHaveCase"))))
    riskClass := mergeRiskClass element.riskClass
      (riskClassOf (override.bind (property · (js "riskClass")))) }

def mergeOverrides (perScreenRaw perElementRaw : List Json) (plan : CoveragePlan) :
    CoveragePlan where
  perScreen := plan.perScreen.map (mergeScreen perScreenRaw)
  perElement := plan.perElement.map (mergeElement perElementRaw)

/-- An array is an object without the two members. -/
def mergeCoveragePlanAugmentation (plan : CoveragePlan) (augmentation : Json) : CoveragePlan :=
  match augmentation with
  | .obj _ | .arr _ =>
      mergeOverrides (arrayOf augmentation (js "perScreen"))
        (arrayOf augmentation (js "perElement")) plan
  | _ => plan

/-! ## Quotas -/

theorem minCountOf_eq_iff {quotas : List CoveragePlanTechniqueQuota}
    (h : (quotas.map Prod.fst).Nodup) {technique : TestCaseTechnique29119} {count : ℕ}
    (hcount : 0 < count) : minCountOf quotas technique = count ↔ (technique, count) ∈ quotas := by
  constructor
  · intro heq
    rw [minCountOf] at heq
    cases hget : mapGet quotas technique with
    | none =>
        rw [hget, Option.getD_none] at heq
        omega
    | some found =>
        rw [hget, Option.getD_some] at heq
        exact mem_of_mapGet (heq ▸ hget)
  · intro hmem
    rw [minCountOf, mapGet_eq_some_of_mem h hmem, Option.getD_some]

theorem mem_settleQuotas {quotas : List CoveragePlanTechniqueQuota}
    {quota : CoveragePlanTechniqueQuota} :
    quota ∈ settleQuotas quotas ↔ quota ∈ quotas ∧ 0 < quota.2 := by
  rw [settleQuotas, mem_sortBy, List.mem_filter, decide_eq_true_iff]

theorem minCountOf_settleQuotas {quotas : List CoveragePlanTechniqueQuota}
    (h : (quotas.map Prod.fst).Nodup) (technique : TestCaseTechnique29119) :
    minCountOf (settleQuotas quotas) technique = minCountOf quotas technique := by
  have hiff : ∀ count, 0 < count → (minCountOf (settleQuotas quotas) technique = count ↔
      minCountOf quotas technique = count) := by
    intro count hcount
    rw [minCountOf_eq_iff (distinct_settleQuotas h) hcount, minCountOf_eq_iff h hcount,
      mem_settleQuotas, and_iff_left hcount]
  rcases Nat.eq_zero_or_pos (minCountOf quotas technique) with hzero | hpos
  · by_contra hne
    have hpos : 0 < minCountOf (settleQuotas quotas) technique := by omega
    have heq := (hiff _ hpos).mp rfl
    omega
  · exact (hiff _ hpos).mpr rfl

theorem generatedTechniqueRank_inj {technique technique' : TestCaseTechnique29119}
    (h : generatedTechniqueRank technique = generatedTechniqueRank technique') :
    technique = technique' := by
  revert h
  cases technique <;> cases technique' <;> decide

theorem compareTechniqueQuotas_nonpos (left right : CoveragePlanTechniqueQuota) :
    compareTechniqueQuotas left right ≤ 0 ↔
      generatedTechniqueRank left.1 < generatedTechniqueRank right.1 ∨
        generatedTechniqueRank left.1 = generatedTechniqueRank right.1 ∧
          (left.2 : ℤ) - right.2 ≤ 0 := by
  rw [compareTechniqueQuotas]
  split <;> omega

theorem consistent_compareTechniqueQuotas : Consistent compareTechniqueQuotas := by
  have hcounts : Consistent fun left right : CoveragePlanTechniqueQuota ↦
      (left.2 : ℤ) - right.2 :=
    ⟨fun a b ↦ by omega, fun a b c ↦ by omega⟩
  exact consistent_of_lex hcounts compareTechniqueQuotas_nonpos

theorem eq_of_compareTechniqueQuotas {left right : CoveragePlanTechniqueQuota}
    (h : compareTechniqueQuotas left right ≤ 0) (h' : compareTechniqueQuotas right left ≤ 0) :
    left = right := by
  obtain ⟨hrank, hle, hle'⟩ := eq_of_lex compareTechniqueQuotas_nonpos h h'
  exact Prod.ext (generatedTechniqueRank_inj hrank) (by omega)

/-- Settled quotas are given by what they ask of every technique. -/
theorem settleQuotas_congr {quotas quotas' : List CoveragePlanTechniqueQuota}
    (h : (quotas.map Prod.fst).Nodup) (h' : (quotas'.map Prod.fst).Nodup)
    (heq : ∀ technique, minCountOf quotas technique = minCountOf quotas' technique) :
    settleQuotas quotas = settleQuotas quotas' := by
  refine consistent_compareTechniqueQuotas.sortBy_eq_of_perm
    (fun _ _ _ _ ↦ eq_of_compareTechniqueQuotas) ?_
  rw [List.perm_ext_iff_of_nodup ((h.of_map _).filter _) ((h'.of_map _).filter _)]
  rintro ⟨technique, count⟩
  simp only [List.mem_filter, decide_eq_true_eq]
  refine and_congr_left fun hcount ↦ ?_
  rw [← minCountOf_eq_iff h hcount, ← minCountOf_eq_iff h' hcount, heq]

/-! ## The raised quotas -/

/-- The most that the proposed quotas ask of a technique. -/
def greatestProposed (proposed : List CoveragePlanTechniqueQuota)
    (technique : TestCaseTechnique29119) : ℕ :=
  proposed.foldr (fun quota most ↦ if quota.1 = technique then max quota.2 most else most) 0

theorem greatestProposed_cons (quota : CoveragePlanTechniqueQuota)
    (proposed : List CoveragePlanTechniqueQuota) (technique : TestCaseTechnique29119) :
    greatestProposed (quota :: proposed) technique =
      if quota.1 = technique then max quota.2 (greatestProposed proposed technique)
      else greatestProposed proposed technique := rfl

theorem minCountOf_raiseQuota (counts : List CoveragePlanTechniqueQuota)
    (quota : CoveragePlanTechniqueQuota) (technique : TestCaseTechnique29119) :
    minCountOf (raiseQuota counts quota) technique =
      if quota.1 = technique then max (minCountOf counts technique) quota.2
      else minCountOf counts technique := by
  rw [raiseQuota, minCountOf, mapGet_mapSet]
  by_cases h : technique = quota.1
  · rw [if_pos h, if_pos h.symm, Option.getD_some, h]
  · rw [if_neg h, if_neg (Ne.symm h), minCountOf]

theorem minCountOf_foldl_raiseQuota (proposed counts : List CoveragePlanTechniqueQuota)
    (technique : TestCaseTechnique29119) :
    minCountOf (proposed.foldl raiseQuota counts) technique =
      max (minCountOf counts technique) (greatestProposed proposed technique) := by
  induction proposed generalizing counts with
  | nil => exact (Nat.max_zero _).symm
  | cons quota proposed ih =>
      rw [List.foldl_cons, ih, minCountOf_raiseQuota, greatestProposed_cons]
      split
      · exact max_assoc _ _ _
      · rfl

/-- A map made of entries with distinct keys has just these entries. -/
theorem foldl_mapSet_eq_append (quotas : List CoveragePlanTechniqueQuota)
    {counts : List CoveragePlanTechniqueQuota} (h : ((counts ++ quotas).map Prod.fst).Nodup) :
    quotas.foldl (fun counts quota ↦ mapSet counts quota.1 quota.2) counts = counts ++ quotas := by
  induction quotas generalizing counts with
  | nil => exact (List.append_nil counts).symm
  | cons quota quotas ih =>
      have hnot : quota.1 ∉ counts.map Prod.fst := by
        rw [List.map_append, List.map_cons] at h
        intro hmem
        exact List.disjoint_of_nodup_append h hmem List.mem_cons_self
      rw [List.append_cons] at h ⊢
      rw [List.foldl_cons, mapSet_of_not_mem hnot]
      exact ih h

theorem nextCounts_eq {quotas : List CoveragePlanTechniqueQuota}
    (h : (quotas.map Prod.fst).Nodup) (proposed : List CoveragePlanTechniqueQuota) :
    nextCounts quotas proposed = proposed.foldl raiseQuota quotas := by
  rw [nextCounts, foldl_mapSet_eq_append quotas (by rwa [List.nil_append]), List.nil_append]

theorem minCountOf_mergeScreen (perScreenRaw : List Json) (screen : CoveragePlanPerScreen)
    (technique : TestCaseTechnique29119) :
    minCountOf (mergeScreen perScreenRaw screen).techniqueQuotas technique =
      max (minCountOf screen.techniqueQuotas technique)
        (greatestProposed (proposedQuotas perScreenRaw screen.screenId) technique) := by
  rw [mergeScreen, minCountOf_settleQuotas (distinct_nextCounts _ _),
    nextCounts_eq screen.distinct, minCountOf_foldl_raiseQuota]

theorem mergeScreen_mergeScreen (perScreenRaw : List Json) (screen : CoveragePlanPerScreen) :
    mergeScreen perScreenRaw (mergeScreen perScreenRaw screen) =
      mergeScreen perScreenRaw screen := by
  refine CoveragePlanPerScreen.ext rfl ?_
  refine settleQuotas_congr (distinct_nextCounts _ _) (distinct_nextCounts _ _) fun technique ↦ ?_
  rw [nextCounts_eq (mergeScreen perScreenRaw screen).distinct, minCountOf_foldl_raiseQuota,
    minCountOf_mergeScreen, nextCounts_eq screen.distinct, minCountOf_foldl_raiseQuota]
  exact max_eq_left (le_max_right _ _)

/-! ## Elements -/

theorem mergeMustHaveCase_of_required (proposed : Option Bool) :
    mergeMustHaveCase true proposed = true := by
  cases proposed with
  | none => rfl
  | some value => exact Bool.true_or value

theorem mergeMustHaveCase_merge (mustHaveCase : Bool) (proposed : Option Bool) :
    mergeMustHaveCase (mergeMustHaveCase mustHaveCase proposed) proposed =
      mergeMustHaveCase mustHaveCase proposed := by
  cases proposed with
  | none => rfl
  | some value => rw [mergeMustHaveCase, mergeMustHaveCase, Bool.or_assoc, Bool.or_self]

variable (riskClass : CoveragePlanElementRiskClass)
  (proposed : Option CoveragePlanElementRiskClass)

theorem riskClassRank_le_mergeRiskClass :
    riskClassRank riskClass ≤ riskClassRank (mergeRiskClass riskClass proposed) := by
  cases proposed with
  | none => exact le_rfl
  | some candidate =>
      rw [mergeRiskClass]
      split
      · next hlt => exact hlt.le
      · exact le_rfl

theorem mergeRiskClass_merge :
    mergeRiskClass (mergeRiskClass riskClass proposed) proposed =
      mergeRiskClass riskClass proposed := by
  cases proposed with
  | none => rfl
  | some candidate =>
      by_cases hlt : riskClassRank riskClass < riskClassRank candidate
      · simp only [mergeRiskClass, if_pos hlt, lt_irrefl, if_false]
      · simp only [mergeRiskClass, if_neg hlt]

theorem mergeElement_mergeElement (perElementRaw : List Json) (element : CoveragePlanPerElement) :
    mergeElement perElementRaw (mergeElement perElementRaw element) =
      mergeElement perElementRaw element :=
  CoveragePlanPerElement.ext rfl rfl (mergeMustHaveCase_merge _ _) (mergeRiskClass_merge _ _)

/-! ## The merged plan -/

/-- The same screens and elements, and nothing that asks for less. -/
structure CoveragePlan.AsStrictAs (plan' plan : CoveragePlan) : Prop where
  perScreen : List.Forall₂ (fun screen screen' ↦ screen'.screenId = screen.screenId ∧
    ∀ technique, minCountOf screen.techniqueQuotas technique ≤
      minCountOf screen'.techniqueQuotas technique) plan.perScreen plan'.perScreen
  perElement : List.Forall₂ (fun element element' ↦ element'.screenId = element.screenId ∧
    element'.elementId = element.elementId ∧
    (element.mustHaveCase = true → element'.mustHaveCase = true) ∧
    riskClassRank element.riskClass ≤ riskClassRank element'.riskClass)
    plan.perElement plan'.perElement

theorem CoveragePlan.asStrictAs_self (plan : CoveragePlan) : plan.AsStrictAs plan where
  perScreen := List.forall₂_same.mpr fun _ _ ↦ ⟨rfl, fun _ ↦ le_rfl⟩
  perElement := List.forall₂_same.mpr fun _ _ ↦ ⟨rfl, rfl, id, le_rfl⟩

theorem mergeOverrides_asStrictAs (perScreenRaw perElementRaw : List Json) (plan : CoveragePlan) :
    (mergeOverrides perScreenRaw perElementRaw plan).AsStrictAs plan := by
  constructor
  · refine List.forall₂_map_right_iff.mpr (List.forall₂_same.mpr fun screen _ ↦ ⟨rfl, ?_⟩)
    intro technique
    rw [minCountOf_mergeScreen]
    exact le_max_left _ _
  · refine List.forall₂_map_right_iff.mpr (List.forall₂_same.mpr fun element _ ↦
      ⟨rfl, rfl, fun hrequired ↦ ?_, riskClassRank_le_mergeRiskClass _ _⟩)
    rw [mergeElement, hrequired]
    exact mergeMustHaveCase_of_required _

theorem mergeOverrides_mergeOverrides (perScreenRaw perElementRaw : List Json)
    (plan : CoveragePlan) :
    mergeOverrides perScreenRaw perElementRaw (mergeOverrides perScreenRaw perElementRaw plan) =
      mergeOverrides perScreenRaw perElementRaw plan := by
  simp only [mergeOverrides, List.map_map, CoveragePlan.mk.injEq]
  exact ⟨List.map_congr_left fun screen _ ↦ mergeScreen_mergeScreen perScreenRaw screen,
    List.map_congr_left fun element _ ↦ mergeElement_mergeElement perElementRaw element⟩

/-- What a model proposes never weakens the plan, and proposing it twice is no more than once. -/
theorem mergeCoveragePlanAugmentation_asStrictAs (plan : CoveragePlan) (augmentation : Json) :
    (mergeCoveragePlanAugmentation plan augmentation).AsStrictAs plan ∧
      mergeCoveragePlanAugmentation (mergeCoveragePlanAugmentation plan augmentation)
        augmentation = mergeCoveragePlanAugmentation plan augmentation := by
  cases augmentation with
  | obj | arr =>
      exact ⟨mergeOverrides_asStrictAs _ _ plan, mergeOverrides_mergeOverrides _ _ plan⟩
  | null | bool | num | str => exact ⟨plan.asStrictAs_self, rfl⟩

end TestIntelligence.Quality
