import TestIntelligence.Js.Math
import TestIntelligence.Js.Sorting
import TestIntelligence.Quality.CoverageAugmentation

/-!
# The technique-quota gate

Resolves the quota of every screen and technique and compares it with the generated cases.
Numbers are the binary64 numbers of the language, counts are natural numbers.
`localeCompare` is the collation of the platform.
-/

namespace TestIntelligence.ModelGateway.TechniqueQuota

open Js
open Quality (TestCaseTechnique29119)

/-! ## Policies -/

structure TechniqueCoverageMinimumTier where
  minFieldCount : JsNumber
  multiplier : JsNumber
  floor : JsNumber
  label : JsString

def TIER_ELASTIC_EP_TIERS : List TechniqueCoverageMinimumTier :=
  [⟨0, 2, 4, js "fields<=4: max(4, 2*fields)"⟩,
    ⟨5, .ofRat (125 / 100), 0, js "fields=5-8: ceil(1.25*fields)"⟩,
    ⟨9, .ofRat (9 / 10), 0, js "fields=9-19: ceil(0.9*fields)"⟩,
    ⟨20, .ofRat (85 / 100), 0, js "fields=20-29: ceil(0.85*fields)"⟩,
    ⟨30, .ofRat (75 / 100), 0, js "fields>=30: ceil(0.75*fields)"⟩]

inductive TechniqueCoverageMinimumMode
  | tierElastic
  | fixed
  deriving DecidableEq

inductive TechniqueCoverageMinimumPolicy
  | fixed
  | tierElastic (tiers : Option (List TechniqueCoverageMinimumTier))

def resolveTechniqueCoverageMinimumMode :
    Option TechniqueCoverageMinimumPolicy → TechniqueCoverageMinimumMode
  | some .fixed => .fixed
  | some (.tierElastic _) | none => .tierElastic

def resolveTechniqueCoverageMinimumTiers :
    Option TechniqueCoverageMinimumPolicy → List TechniqueCoverageMinimumTier
  | some (.tierElastic (some tiers)) => tiers
  | _ => TIER_ELASTIC_EP_TIERS

/-! ## Tiers -/

/-- A number of fields that is not a positive finite number counts as `0`. -/
def safeFieldCount (fieldCount : JsNumber) : ℕ :=
  if fieldCount.isFinite && JsNumber.lt 0 fieldCount then ⌊fieldCount.toRat⌋.toNat else 0

def safeTiers (tiers : List TechniqueCoverageMinimumTier) : List TechniqueCoverageMinimumTier :=
  if tiers.length > 0 then tiers else TIER_ELASTIC_EP_TIERS

def fallbackTier (tiers : List TechniqueCoverageMinimumTier) : TechniqueCoverageMinimumTier :=
  (safeTiers tiers).headD ⟨0, 2, 4, js "fields<=4: max(4, 2*fields)"⟩

/-- `safeCount >= tier.minFieldCount` -/
def startsBy (safeCount : ℕ) (tier : TechniqueCoverageMinimumTier) : Bool :=
  tier.minFieldCount.le (.ofRat safeCount)

/-- The loop over the tiers. -/
def scanTiers (safeCount : ℕ) (selectedTier : TechniqueCoverageMinimumTier) :
    List TechniqueCoverageMinimumTier → TechniqueCoverageMinimumTier
  | [] => selectedTier
  | tier :: tiers =>
      if startsBy safeCount tier then scanTiers safeCount tier tiers else selectedTier

/-- The tier whose label and multiplier are given with the quota. -/
def appliedTier (safeCount : ℕ) (tiers : List TechniqueCoverageMinimumTier) :
    TechniqueCoverageMinimumTier :=
  if safeCount = 0 then fallbackTier tiers
  else scanTiers safeCount (fallbackTier tiers) (safeTiers tiers)

structure TierQuota where
  quota : JsNumber
  formula : JsString
  formulaTier : JsString
  formulaMultiplier : Option JsNumber

def computeTierElasticEquivalencePartitioningQuota (fieldCount : JsNumber)
    (tiers : List TechniqueCoverageMinimumTier) : TierQuota :=
  let safeCount := safeFieldCount fieldCount
  let tier := appliedTier safeCount tiers
  { quota :=
      if safeCount = 0 then 0
      else tier.floor.max (tier.multiplier.mul (.ofRat safeCount)).ceil
    formula := js "tier-elastic:" ++ tier.label
    formulaTier := tier.label
    formulaMultiplier := some tier.multiplier }

def computeTierElasticUseCaseQuota (fieldCount : JsNumber) : TierQuota :=
  let safeCount := safeFieldCount fieldCount
  if safeCount = 0 then
    { quota := 0
      formula := js "tier-elastic-use-case:fields=0"
      formulaTier := js "fields=0: no field-driven use-case floor"
      formulaMultiplier := none }
  else
    { quota := JsNumber.max 4 (.ofRat safeCount)
      formula := js "tier-elastic-use-case:max(4, fields)"
      formulaTier := js "fields>=1: max(4, fields)"
      formulaMultiplier := some 1 }

/-! ## Plans -/

structure CoveragePlanTechniqueQuota where
  technique : TestCaseTechnique29119
  minCount : JsNumber

structure CoveragePlanPerScreen where
  screenId : JsString
  techniqueQuotas : List CoveragePlanTechniqueQuota

structure CoveragePlanPerElement where
  screenId : JsString
  elementId : JsString

structure CoveragePlan where
  perScreen : List CoveragePlanPerScreen
  perElement : List CoveragePlanPerElement

/-- The elements of the screen, each once; a screen without a name has none. -/
def fieldTargets (coveragePlan : CoveragePlan) (screenId : JsString) : List JsString :=
  if screenId.length = 0 then []
  else setOf ((coveragePlan.perElement.filter (·.screenId = screenId)).map (·.elementId))

def fieldCountOf (coveragePlan : CoveragePlan) (screenId : JsString) : ℕ :=
  (fieldTargets coveragePlan screenId).length

structure ResolvedQuota where
  screenId : JsString
  technique : TestCaseTechnique29119
  fieldCount : ℕ
  requiredCount : JsNumber
  formula : JsString
  formulaTier : JsString
  formulaMultiplier : Option JsNumber

/-- The row of a quota that gives way to the quota of its tier. -/
def relaxedRow (screenId : JsString) (fieldCount : ℕ) (quota : CoveragePlanTechniqueQuota)
    (tier : TierQuota) : ResolvedQuota :=
  let effective := quota.minCount.min tier.quota
  { screenId := screenId
    technique := quota.technique
    fieldCount := fieldCount
    requiredCount := effective
    formula := if effective.strictEq tier.quota then tier.formula else js "fixed:planner-quota"
    formulaTier := tier.formulaTier
    formulaMultiplier := tier.formulaMultiplier }

def resolveRow (mode : TechniqueCoverageMinimumMode) (tiers : List TechniqueCoverageMinimumTier)
    (screenId : JsString) (fieldCount : ℕ) (quota : CoveragePlanTechniqueQuota) :
    ResolvedQuota :=
  if mode = .tierElastic ∧ quota.technique = .equivalencePartitioning then
    relaxedRow screenId fieldCount quota
      (computeTierElasticEquivalencePartitioningQuota (.ofRat fieldCount) tiers)
  else if mode = .tierElastic ∧ quota.technique = .useCase then
    relaxedRow screenId fieldCount quota (computeTierElasticUseCaseQuota (.ofRat fieldCount))
  else
    { screenId := screenId
      technique := quota.technique
      fieldCount := fieldCount
      requiredCount := quota.minCount
      formula := js "fixed:planner-quota"
      formulaTier := js "planner-quota"
      formulaMultiplier := none }

/-- The quotas of the plan that ask for something, each with its screen. -/
def plannedQuotas (coveragePlan : CoveragePlan) : List (JsString × CoveragePlanTechniqueQuota) :=
  coveragePlan.perScreen.flatMap fun screen ↦
    (screen.techniqueQuotas.filter fun quota ↦ !quota.minCount.le 0).map (screen.screenId, ·)

def resolvePlanned (coveragePlan : CoveragePlan) (policy : Option TechniqueCoverageMinimumPolicy)
    (planned : JsString × CoveragePlanTechniqueQuota) : ResolvedQuota :=
  resolveRow (resolveTechniqueCoverageMinimumMode policy)
    (resolveTechniqueCoverageMinimumTiers policy) planned.1
    (fieldCountOf coveragePlan planned.1) planned.2

section

variable (localeCompare : JsString → JsString → ℤ)

def compareResolved (left right : ResolvedQuota) : ℤ :=
  if localeCompare left.screenId right.screenId ≠ 0 then
    localeCompare left.screenId right.screenId
  else if localeCompare left.technique.text right.technique.text ≠ 0 then
    localeCompare left.technique.text right.technique.text
  else if left.requiredCount.lt right.requiredCount then -1
  else if right.requiredCount.lt left.requiredCount then 1
  else 0

def resolveTechniqueQuotas (coveragePlan : Option CoveragePlan)
    (policy : Option TechniqueCoverageMinimumPolicy) : List ResolvedQuota :=
  match coveragePlan with
  | none => []
  | some coveragePlan => sortBy (compareResolved localeCompare)
      ((plannedQuotas coveragePlan).map (resolvePlanned coveragePlan policy))

/-! ## Counting cases -/

/-- The screens of the trace references and the covered fields of a case. -/
structure GeneratedTestCase where
  technique : TestCaseTechnique29119
  figmaTraceRefs : List JsString
  coveredFieldIds : List JsString

def countAnchored (cases : List GeneratedTestCase) (screenId : JsString)
    (technique : TestCaseTechnique29119) : ℕ :=
  cases.countP fun testCase ↦ testCase.technique = technique ∧ screenId ∈ testCase.figmaTraceRefs

/-- The cases that the covered fields are taken from. -/
def anchoredCases (cases : List GeneratedTestCase) (screenId : JsString)
    (technique : Option TestCaseTechnique29119) : List GeneratedTestCase :=
  cases.filter fun testCase ↦
    (technique = none ∨ some testCase.technique = technique) ∧ screenId ∈ testCase.figmaTraceRefs

def coveredFields (cases : List GeneratedTestCase) (screenId : JsString)
    (technique : Option TestCaseTechnique29119) (targets : List JsString) : List JsString :=
  setOf ((anchoredCases cases screenId technique).flatMap fun testCase ↦
    testCase.coveredFieldIds.filter (· ∈ targets))

/-- Where there is a single target, any covered field of an anchored case counts for it. -/
def countAnchoredCoveredFieldTargets (cases : List GeneratedTestCase) (screenId : JsString)
    (technique : Option TestCaseTechnique29119) (targets : List JsString) : ℕ :=
  if targets.length = 0 then 0
  else
    let covered := coveredFields cases screenId technique targets
    if covered.length = 0 ∧ targets.length = 1 then
      if (anchoredCases cases screenId technique).any fun testCase ↦
        testCase.coveredFieldIds.length > 0 then 1 else 0
    else covered.length

/-! ## Deficits -/

structure TechniqueQuotaDeficit where
  screenId : JsString
  technique : TestCaseTechnique29119
  minCount : JsNumber
  actual : ℕ
  missing : JsNumber

/-- One turn of the loop over the resolved quotas. -/
def deficitOf (cases : List GeneratedTestCase) (coveragePlan : CoveragePlan)
    (quota : ResolvedQuota) : Option TechniqueQuotaDeficit :=
  if quota.requiredCount.le 0 then none
  else
    let actual := countAnchored cases quota.screenId quota.technique
    if quota.technique = .equivalencePartitioning ∧
        quota.fieldCount ≤ countAnchoredCoveredFieldTargets cases quota.screenId none
          (fieldTargets coveragePlan quota.screenId) ∧
        0 < quota.fieldCount then none
    else if quota.requiredCount.le (.ofRat actual) then none
    else some
      { screenId := quota.screenId
        technique := quota.technique
        minCount := quota.requiredCount
        actual := actual
        missing := quota.requiredCount.sub (.ofRat actual) }

def collectTechniqueQuotaDeficits (cases : List GeneratedTestCase)
    (coveragePlan : Option CoveragePlan) (policy : Option TechniqueCoverageMinimumPolicy) :
    List TechniqueQuotaDeficit :=
  match coveragePlan with
  | none => []
  | some plan =>
      (resolveTechniqueQuotas localeCompare coveragePlan policy).filterMap (deficitOf cases plan)

/-! ## The report -/

inductive TechniqueQuotaReportStatus
  | pass
  | deficit
  deriving DecidableEq

structure TechniqueQuotaReportEntry where
  screenId : JsString
  technique : TestCaseTechnique29119
  fieldCount : ℕ
  requiredCount : JsNumber
  actualCount : ℕ
  formula : JsString
  formulaTier : JsString
  formulaMultiplier : Option JsNumber
  mode : TechniqueCoverageMinimumMode
  status : TechniqueQuotaReportStatus

def reportEntry (cases : List GeneratedTestCase) (coveragePlan : CoveragePlan)
    (mode : TechniqueCoverageMinimumMode) (quota : ResolvedQuota) : TechniqueQuotaReportEntry :=
  let actualCount := countAnchored cases quota.screenId quota.technique
  let coveredFieldCount :=
    if quota.technique = .equivalencePartitioning then
      countAnchoredCoveredFieldTargets cases quota.screenId none
        (fieldTargets coveragePlan quota.screenId)
    else 0
  { screenId := quota.screenId
    technique := quota.technique
    fieldCount := quota.fieldCount
    requiredCount := quota.requiredCount
    actualCount := actualCount
    formula := quota.formula
    formulaTier := quota.formulaTier
    formulaMultiplier := quota.formulaMultiplier
    mode := mode
    status :=
      if quota.requiredCount.le (.ofRat actualCount) = true ∨
          quota.technique = .equivalencePartitioning ∧ 0 < quota.fieldCount ∧
            quota.fieldCount ≤ coveredFieldCount then .pass
      else .deficit }

structure TechniqueQuotaReport where
  mode : TechniqueCoverageMinimumMode
  screenCount : ℕ
  entryCount : ℕ
  passCount : ℕ
  deficitCount : ℕ
  entries : List TechniqueQuotaReportEntry

def buildTechniqueQuotaReport (cases : List GeneratedTestCase) (coveragePlan : CoveragePlan)
    (policy : Option TechniqueCoverageMinimumPolicy) : TechniqueQuotaReport :=
  let mode := resolveTechniqueCoverageMinimumMode policy
  let resolved := resolveTechniqueQuotas localeCompare (some coveragePlan) policy
  let entries := resolved.map (reportEntry cases coveragePlan mode)
  { mode := mode
    screenCount := (setOf (resolved.map (·.screenId))).length
    entryCount := entries.length
    passCount := entries.countP (·.status = .pass)
    deficitCount := entries.countP (·.status = .deficit)
    entries := entries }

end

end TestIntelligence.ModelGateway.TechniqueQuota
