import TestIntelligence.Js.Text
import TestIntelligence.Review.StateMachine

/-!
# Policy reports and resolved conflicts

The policy report as `policy-gate.ts` hands it to the review store, and
`pruneResolvedMultiSourceConflictViolations`, which removes the conflicts an
operator has resolved and recomputes every decision from the violations left.
-/

namespace TestIntelligence.ProductionRunner

open Js Review

inductive TestCasePolicyOutcome
  | missingTrace
  | missingExpectedResults
  | piiInTestData
  | acceptanceCriterionUncovered
  | ictRegisterRefRequired
  | techniqueQuotaBreach
  | p0RiskElementUncovered
  | missingNegativeOrValidationForRequiredField
  | missingAccessibilityCase
  | missingBoundaryCase
  | schemaInvalid
  | duplicateTestCase
  | regulatedRiskReviewRequired
  | ambiguityReviewRequired
  | qcMappingNotExportable
  | lowConfidenceReviewRequired
  | openQuestionsReviewRequired
  | visualSidecarFailure
  | visualSidecarFallbackUsed
  | visualSidecarFallbackUsedSucceeded
  | visualSidecarBothFailed
  | visualSidecarLowConfidence
  | visualSidecarPossiblePii
  | visualSidecarPromptInjectionText
  | semanticSuspiciousContent
  | crossModalFaithfulnessEvaluationMissing
  | crossModalFaithfulnessScoreBelowThreshold
  | crossModalFaithfulnessCaseLevelFallback
  | crossModalFaithfulnessPartialMajority
  | judgeRefused
  | riskTagDowngradeDetected
  | customContextRiskEscalation
  | multiSourceConflictPresent
  | coverageDriftExceeded
  | a11yCriterionCoveredWeakly
  | a11yCriterionNotCovered
  deriving DecidableEq, Repr

inductive TestCaseValidationSeverity
  | error
  | warning
  | info
  deriving DecidableEq, Repr

structure TestCasePolicyViolation where
  rule : JsString
  outcome : TestCasePolicyOutcome
  severity : TestCaseValidationSeverity
  reason : JsString
  path : Option JsString
  deriving DecidableEq, Repr

structure TestCasePolicyDecisionRecord where
  testCaseId : JsString
  decision : TestCasePolicyDecision
  violations : List TestCasePolicyViolation
  deriving DecidableEq, Repr

structure TestCasePolicyReport where
  jobId : JsString
  policyProfileId : JsString
  policyProfileVersion : JsString
  totalTestCases : ℕ
  approvedCount : ℕ
  blockedCount : ℕ
  needsReviewCount : ℕ
  blocked : Bool
  decisions : List TestCasePolicyDecisionRecord
  jobLevelViolations : List TestCasePolicyViolation
  deriving DecidableEq, Repr

/-- Whether some violation of the row has this outcome. -/
def TestCasePolicyDecisionRecord.hasOutcome (record : TestCasePolicyDecisionRecord)
    (outcome : TestCasePolicyOutcome) : Bool :=
  record.violations.any (·.outcome = outcome)

def decisionRank : TestCasePolicyDecision → ℕ
  | .approved => 0
  | .needsReview => 1
  | .blocked => 2

def escalate (current candidate : TestCasePolicyDecision) : TestCasePolicyDecision :=
  if decisionRank current < decisionRank candidate then candidate else current

def severityToDecision : TestCaseValidationSeverity → TestCasePolicyDecision
  | .error => .blocked
  | .warning => .needsReview
  | .info => .approved

/-- A match of `.+` in a regular expression: not empty, on one line. -/
def oneLine (s : JsString) : Option JsString :=
  if s ≠ [] ∧ s.all (fun u ↦ !isLineTerminator u) then some s else none

/-- `MULTI_SOURCE_CONFLICT_CASE_REASON_RE`, the group `ids`. -/
def matchCaseReason (reason : JsString) : Option JsString := do
  let rest ← stripPrefix (js "multi-source conflict") reason
  let rest := (stripPrefix (js "(s)") rest).getD rest
  let rest ← stripPrefix (js " ") rest
  let ids ← stripSuffix (js " affect this case") rest
  oneLine ids

/-- `MULTI_SOURCE_CONFLICT_JOB_REASON_RE`, the group `ids`. -/
def matchJobReason (reason : JsString) : Option JsString := do
  let ids ← stripPrefix (js "multi-source conflict artifact present: ") reason
  oneLine ids

def parseMultiSourceConflictIds (reason : JsString) : Option (List JsString) :=
  match matchCaseReason reason <|> matchJobReason reason with
  | none => none
  | some ids =>
      let values := ((split 0x2C ids).map trim).filter (fun entry ↦ !entry.isEmpty)
      if values = [] then none else some values

/-- The place of a violation list in the report. -/
inductive ViolationScope
  | case
  | job
  deriving DecidableEq, Repr

def conflictReason (scope : ViolationScope) (conflictIds : List JsString) : JsString :=
  match scope with
  | .case =>
      js "multi-source conflict(s) " ++ join (js ", ") conflictIds ++ js " affect this case"
  | .job => js "multi-source conflict artifact present: " ++ join (js ", ") conflictIds

/-- The body of the loop in `rewriteViolations`. -/
def rewriteViolation (isConflictResolved : JsString → Bool) (scope : ViolationScope)
    (violation : TestCasePolicyViolation) : Option TestCasePolicyViolation :=
  if violation.outcome ≠ .multiSourceConflictPresent then some violation
  else
    match parseMultiSourceConflictIds violation.reason with
    | none => some violation
    | some conflictIds =>
        match conflictIds.filter (fun conflictId ↦ !isConflictResolved conflictId) with
        | [] => none
        | unresolved => some { violation with reason := conflictReason scope unresolved }

def rewriteViolations (isConflictResolved : JsString → Bool) (scope : ViolationScope)
    (violations : List TestCasePolicyViolation) : List TestCasePolicyViolation :=
  violations.filterMap (rewriteViolation isConflictResolved scope)

def pruneDecision (isConflictResolved : JsString → Bool) (record : TestCasePolicyDecisionRecord) :
    TestCasePolicyDecisionRecord :=
  let violations := rewriteViolations isConflictResolved .case record.violations
  { record with
    decision := violations.foldl
      (fun decision violation ↦ escalate decision (severityToDecision violation.severity)) .approved
    violations := violations }

def pruneResolvedMultiSourceConflictViolations (report : TestCasePolicyReport)
    (isConflictResolved : JsString → Bool) : TestCasePolicyReport :=
  let decisions := report.decisions.map (pruneDecision isConflictResolved)
  let jobLevelViolations := rewriteViolations isConflictResolved .job report.jobLevelViolations
  { report with
    approvedCount := decisions.countP (·.decision = .approved)
    blockedCount := decisions.countP (·.decision = .blocked)
    needsReviewCount := decisions.countP (·.decision = .needsReview)
    blocked := decisions.any (·.decision = .blocked) ||
      jobLevelViolations.any (·.severity = .error)
    decisions := decisions
    jobLevelViolations := jobLevelViolations }

end TestIntelligence.ProductionRunner
