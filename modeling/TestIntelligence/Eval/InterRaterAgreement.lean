import TestIntelligence.Eval.CohensKappa
import TestIntelligence.Js.Sorting
import TestIntelligence.Lists.Tally
import Mathlib.Tactic.Linarith

/-!
# The inter-rater agreement report

Agreement of the first two reviewers of every gold case, the rotation of the reviewers, and the
failures and warnings of the gate.  Shares and coefficients are exact numbers, rounded to six
places; the thresholds are numbers of the language.  The report lists what exceeds a threshold;
`localeCompare` is the collation of the platform.
-/

namespace TestIntelligence.Eval

open Js Lists

inductive JudgeId
  | logic
  | faithfulness
  deriving DecidableEq, Repr

/-- `JUDGE_CALIBRATION_JUDGE_IDS` -/
def judgeIds : List JudgeId := [.logic, .faithfulness]

theorem mem_judgeIds (judge : JudgeId) : judge ∈ judgeIds := by
  cases judge <;> decide

inductive ScenarioKind
  | happy
  | adversarial
  | edge
  deriving DecidableEq, Repr

/-- `JUDGE_CALIBRATION_SCENARIO_KINDS` -/
def scenarioKinds : List ScenarioKind := [.happy, .adversarial, .edge]

structure CalibrationPairedRating where
  fixtureId : JsString
  judge : JudgeId
  scenarioKind : ScenarioKind
  reviewerA : JsString
  verdictA : VerdictLabel
  reviewerB : JsString
  verdictB : VerdictLabel
  adjudicated : Bool
  deriving DecidableEq

structure InterRaterGateThresholds where
  kappaHardFloor : JsNumber
  kappaWarnFloor : JsNumber
  perScenarioGateMinPairs : JsNumber
  reviewerShareHardCap : JsNumber
  reviewerShareWarnCap : JsNumber

/-- `INTER_RATER_GATE_THRESHOLDS` -/
def defaultGateThresholds : InterRaterGateThresholds where
  kappaHardFloor := .ofRat (7 / 10)
  kappaWarnFloor := .ofRat (8 / 10)
  perScenarioGateMinPairs := 8
  reviewerShareHardCap := .ofRat (6 / 10)
  reviewerShareWarnCap := .ofRat (45 / 100)

/-- `value > threshold` -/
def isAbove (value : ℚ) : JsNumber → Bool
  | .nan => false
  | .infinity negative => negative
  | threshold => threshold.toRat < value

/-- `value < threshold` -/
def isBelow (value : ℚ) : JsNumber → Bool
  | .nan => false
  | .infinity negative => !negative
  | threshold => value < threshold.toRat

structure InterRaterScopeReport where
  judge : JudgeId
  /-- The scope of all scenarios has no kind. -/
  scenarioKind : Option ScenarioKind
  metrics : CohenKappaResult
  disagreementFixtureIds : List JsString
  adjudicatedFixtureIds : List JsString

structure ReviewerRotationCount where
  reviewer : JsString
  fixtureCount : ℕ
  share : ℚ
  deriving DecidableEq

structure ReviewerRotationReport where
  judge : JudgeId
  totalAssignments : ℕ
  distinctReviewers : ℕ
  maxShare : ℚ
  counts : List ReviewerRotationCount
  arbiters : List ReviewerRotationCount

inductive GateFailureReason
  | kappaBelowHardFloor
  | reviewerShareAboveHardCap
  | missingPairedRatings
  deriving DecidableEq, Repr

inductive GateWarningReason
  | kappaBelowTarget
  | reviewerShareAboveWarnCap
  | scenarioPairedRatingCountBelowFloor
  deriving DecidableEq, Repr

/-- A failure or a warning of the gate. -/
structure GateFinding (Reason : Type) where
  reason : Reason
  judge : JudgeId
  scenarioKind : Option ScenarioKind
  threshold : JsNumber
  observed : ℚ
  subject : Option JsString

structure InterRaterAgreementReport where
  thresholds : InterRaterGateThresholds
  perJudge : JudgeId → InterRaterScopeReport
  perJudgePerScenario : List InterRaterScopeReport
  rotation : JudgeId → ReviewerRotationReport
  failures : List (GateFinding GateFailureReason)
  warnings : List (GateFinding GateWarningReason)
  passed : Bool

structure BuildInterRaterReportInput where
  ratings : List CalibrationPairedRating
  arbiters : List (JudgeId × JsString)
  thresholds : InterRaterGateThresholds := defaultGateThresholds

/-- What the gate says about one scope or one rotation. -/
structure GateFindings where
  failures : List (GateFinding GateFailureReason)
  warnings : List (GateFinding GateWarningReason)

section

variable (localeCompare : JsString → JsString → ℤ)

def buildScopeReport (judge : JudgeId) (scenarioKind : Option ScenarioKind)
    (ratings : List CalibrationPairedRating) : InterRaterScopeReport where
  judge := judge
  scenarioKind := scenarioKind
  metrics := computeCohensKappa (ratings.map fun rating ↦ ⟨rating.verdictA, rating.verdictB⟩)
  disagreementFixtureIds := sortBy localeCompare
    ((ratings.filter fun rating ↦ rating.verdictA ≠ rating.verdictB).map (·.fixtureId))
  adjudicatedFixtureIds := sortBy localeCompare
    ((ratings.filter (·.adjudicated)).map (·.fixtureId))

/-- The greater count first. -/
def compareCounts (left right : ReviewerRotationCount) : ℤ :=
  if left.fixtureCount ≠ right.fixtureCount then (right.fixtureCount : ℤ) - left.fixtureCount
  else localeCompare left.reviewer right.reviewer

def rotationCounts (counts : List (JsString × ℕ)) (total : ℕ) : List ReviewerRotationCount :=
  sortBy (compareCounts localeCompare) (counts.map fun entry ↦
    ⟨entry.1, entry.2, if total = 0 then 0 else roundedToMillionths (entry.2 / total)⟩)

/-- The reviewers of the ratings, each as often as it is assigned. -/
def assignments (ratings : List CalibrationPairedRating) : List JsString :=
  ratings.flatMap fun rating ↦ [rating.reviewerA, rating.reviewerB]

def buildRotationReport (judge : JudgeId) (ratings : List CalibrationPairedRating)
    (arbiters : List JsString) : ReviewerRotationReport :=
  let counts := tally (assignments ratings)
  let total := (counts.map Prod.snd).sum
  let flatCounts := rotationCounts localeCompare counts total
  { judge := judge
    totalAssignments := total
    distinctReviewers := flatCounts.length
    maxShare := (flatCounts.head?.map (·.share)).getD 0
    counts := flatCounts
    arbiters := rotationCounts localeCompare (tally arbiters) arbiters.length }

variable (thresholds : InterRaterGateThresholds)

/-- The findings about the coefficient of one judge. -/
def judgeFindings (scope : InterRaterScopeReport) : GateFindings :=
  let kappa := scope.metrics.cohensKappa
  if scope.metrics.sampleCount = 0 then
    ⟨[⟨.missingPairedRatings, scope.judge, none, 1, 0, none⟩], []⟩
  else if isBelow kappa thresholds.kappaHardFloor then
    ⟨[⟨.kappaBelowHardFloor, scope.judge, none, thresholds.kappaHardFloor, kappa, none⟩], []⟩
  else if isBelow kappa thresholds.kappaWarnFloor then
    ⟨[], [⟨.kappaBelowTarget, scope.judge, none, thresholds.kappaWarnFloor, kappa, none⟩]⟩
  else ⟨[], []⟩

/-- The findings about the coefficient of one judge and scenario. -/
def scenarioFindings (scope : InterRaterScopeReport) : GateFindings :=
  let kappa := scope.metrics.cohensKappa
  if scope.scenarioKind = none then ⟨[], []⟩
  else if isBelow scope.metrics.sampleCount thresholds.perScenarioGateMinPairs then
    if isBelow kappa thresholds.kappaWarnFloor then
      ⟨[], [⟨.scenarioPairedRatingCountBelowFloor, scope.judge, scope.scenarioKind,
        thresholds.perScenarioGateMinPairs, scope.metrics.sampleCount, none⟩]⟩
    else ⟨[], []⟩
  else if isBelow kappa thresholds.kappaHardFloor then
    ⟨[⟨.kappaBelowHardFloor, scope.judge, scope.scenarioKind, thresholds.kappaHardFloor, kappa,
      none⟩], []⟩
  else if isBelow kappa thresholds.kappaWarnFloor then
    ⟨[], [⟨.kappaBelowTarget, scope.judge, scope.scenarioKind, thresholds.kappaWarnFloor, kappa,
      none⟩]⟩
  else ⟨[], []⟩

/-- The findings about the reviewer with the most assignments. -/
def rotationFindings (report : ReviewerRotationReport) : GateFindings :=
  if report.totalAssignments = 0 then ⟨[], []⟩
  else
    match report.counts.head? with
    | none => ⟨[], []⟩
    | some dominant =>
        if isAbove dominant.share thresholds.reviewerShareHardCap then
          ⟨[⟨.reviewerShareAboveHardCap, report.judge, none, thresholds.reviewerShareHardCap,
            dominant.share, dominant.reviewer⟩], []⟩
        else if isAbove dominant.share thresholds.reviewerShareWarnCap then
          ⟨[], [⟨.reviewerShareAboveWarnCap, report.judge, none, thresholds.reviewerShareWarnCap,
            dominant.share, dominant.reviewer⟩]⟩
        else ⟨[], []⟩

def ratingsOf (judge : JudgeId) (ratings : List CalibrationPairedRating) :
    List CalibrationPairedRating :=
  ratings.filter (·.judge = judge)

def buildInterRaterAgreementReport (input : BuildInterRaterReportInput) :
    InterRaterAgreementReport :=
  let thresholds := input.thresholds
  let sortedRatings := sortBy (fun a b ↦ localeCompare a.fixtureId b.fixtureId) input.ratings
  let byJudge judge := ratingsOf judge sortedRatings
  let arbitersByJudge judge := (input.arbiters.filter (·.1 = judge)).map Prod.snd
  let perJudge judge := buildScopeReport localeCompare judge none (byJudge judge)
  let perJudgePerScenario := judgeIds.flatMap fun judge ↦ scenarioKinds.map fun scenarioKind ↦
    buildScopeReport localeCompare judge scenarioKind
      ((byJudge judge).filter (·.scenarioKind = scenarioKind))
  let rotation judge := buildRotationReport localeCompare judge (byJudge judge)
    (arbitersByJudge judge)
  let findings := (judgeIds.map fun judge ↦ judgeFindings thresholds (perJudge judge)) ++
    perJudgePerScenario.map (scenarioFindings thresholds) ++
    judgeIds.map fun judge ↦ rotationFindings thresholds (rotation judge)
  let failures := findings.flatMap (·.failures)
  { thresholds := thresholds
    perJudge := perJudge
    perJudgePerScenario := perJudgePerScenario
    rotation := rotation
    failures := failures
    warnings := findings.flatMap (·.warnings)
    passed := failures.length = 0 }

end

end TestIntelligence.Eval
