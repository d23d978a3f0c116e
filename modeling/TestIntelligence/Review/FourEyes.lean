import TestIntelligence.Js.Text
import TestIntelligence.Js.Collections

/-!
# Four-eyes policy

`four-eyes-policy.ts`: which test cases need two principals.  A case is
enforced when its risk category is listed, or when a screen it refers to carries
a listed visual outcome that maps to a reason.
-/

namespace TestIntelligence.Review

open Js

inductive FourEyesEnforcementReason
  | riskCategory
  | visualLowConfidence
  | visualFallbackUsed
  | visualPossiblePii
  | visualPromptInjection
  | visualMetadataConflict
  | multiSourceConflictPresent
  deriving DecidableEq, Repr

def FourEyesEnforcementReason.text : FourEyesEnforcementReason → JsString
  | .riskCategory => js "risk_category"
  | .visualLowConfidence => js "visual_low_confidence"
  | .visualFallbackUsed => js "visual_fallback_used"
  | .visualPossiblePii => js "visual_possible_pii"
  | .visualPromptInjection => js "visual_prompt_injection"
  | .visualMetadataConflict => js "visual_metadata_conflict"
  | .multiSourceConflictPresent => js "multi_source_conflict_present"

theorem FourEyesEnforcementReason.text_injective :
    Function.Injective FourEyesEnforcementReason.text := by
  intro s t h
  cases s <;> cases t <;> first | rfl | exact absurd h (by decide)

inductive TestCaseRiskCategory
  | low
  | medium
  | high
  | regulatedData
  | financialTransaction
  deriving DecidableEq, Repr

def TestCaseRiskCategory.text : TestCaseRiskCategory → JsString
  | .low => js "low"
  | .medium => js "medium"
  | .high => js "high"
  | .regulatedData => js "regulated_data"
  | .financialTransaction => js "financial_transaction"

inductive VisualSidecarValidationOutcome
  | ok
  | schemaInvalid
  | lowConfidence
  | fallbackUsed
  | possiblePii
  | promptInjectionLikeText
  | conflictsWithFigmaMetadata
  | primaryUnavailable
  deriving DecidableEq, Repr

def VisualSidecarValidationOutcome.text : VisualSidecarValidationOutcome → JsString
  | .ok => js "ok"
  | .schemaInvalid => js "schema_invalid"
  | .lowConfidence => js "low_confidence"
  | .fallbackUsed => js "fallback_used"
  | .possiblePii => js "possible_pii"
  | .promptInjectionLikeText => js "prompt_injection_like_text"
  | .conflictsWithFigmaMetadata => js "conflicts_with_figma_metadata"
  | .primaryUnavailable => js "primary_unavailable"

/-- `VISUAL_OUTCOME_TO_REASON`. -/
def visualOutcomeToReason : VisualSidecarValidationOutcome → Option FourEyesEnforcementReason
  | .lowConfidence => some .visualLowConfidence
  | .fallbackUsed => some .visualFallbackUsed
  | .possiblePii => some .visualPossiblePii
  | .promptInjectionLikeText => some .visualPromptInjection
  | .conflictsWithFigmaMetadata => some .visualMetadataConflict
  | _ => none

structure FourEyesPolicy where
  requiredRiskCategories : List TestCaseRiskCategory
  visualSidecarTriggerOutcomes : List VisualSidecarValidationOutcome
  deriving DecidableEq, Repr

/-- `EU_BANKING_DEFAULT_FOUR_EYES_POLICY`. -/
def euBankingDefaultFourEyesPolicy : FourEyesPolicy where
  requiredRiskCategories := sortOn (·.text) [.financialTransaction, .regulatedData, .high]
  visualSidecarTriggerOutcomes := sortOn (·.text)
    [.lowConfidence, .fallbackUsed, .possiblePii, .promptInjectionLikeText,
      .conflictsWithFigmaMetadata]

def dedupeAndSort {α : Type*} [DecidableEq α] (text : α → JsString) (values : List α) : List α :=
  sortOn text (setOf values)

def cloneFourEyesPolicy (policy : FourEyesPolicy) : FourEyesPolicy where
  requiredRiskCategories := dedupeAndSort (·.text) policy.requiredRiskCategories
  visualSidecarTriggerOutcomes := dedupeAndSort (·.text) policy.visualSidecarTriggerOutcomes

/-- The fields of `GeneratedTestCase` that the review gate reads; `figmaTraceRefs`
is the list of screen ids of the trace references. -/
structure GeneratedTestCase where
  id : JsString
  riskCategory : TestCaseRiskCategory
  figmaTraceRefs : List JsString
  deriving DecidableEq, Repr

structure VisualSidecarValidationRecord where
  screenId : JsString
  outcomes : List VisualSidecarValidationOutcome
  deriving DecidableEq, Repr

/-- The records of a `VisualSidecarValidationReport`. -/
abbrev VisualSidecarValidationReport := List VisualSidecarValidationRecord

def collectVisualReasonsForCase (testCase : GeneratedTestCase)
    (triggers : List VisualSidecarValidationOutcome)
    (visualReport : Option VisualSidecarValidationReport) : List FourEyesEnforcementReason :=
  match visualReport with
  | none => []
  | some records =>
      if triggers = [] then []
      else if testCase.figmaTraceRefs = [] then []
      else
        records.foldl (fun reasons record ↦
          if record.screenId ∈ testCase.figmaTraceRefs then
            record.outcomes.foldl (fun reasons outcome ↦
              if outcome ∈ triggers then
                match visualOutcomeToReason outcome with
                | some reason => setAdd reasons reason
                | none => reasons
              else reasons) reasons
          else reasons) []

structure FourEyesEnforcementEvaluation where
  enforced : Bool
  reasons : List FourEyesEnforcementReason
  deriving DecidableEq, Repr

def evaluateFourEyesEnforcement (testCase : GeneratedTestCase) (policy : FourEyesPolicy)
    (visualReport : Option VisualSidecarValidationReport) : FourEyesEnforcementEvaluation :=
  let risk : List FourEyesEnforcementReason :=
    if testCase.riskCategory ∈ policy.requiredRiskCategories then [.riskCategory] else []
  let reasons :=
    (collectVisualReasonsForCase testCase policy.visualSidecarTriggerOutcomes
      visualReport).foldl setAdd risk
  let sortedReasons := sortOn (·.text) reasons
  { enforced := !sortedReasons.isEmpty, reasons := sortedReasons }

end TestIntelligence.Review
