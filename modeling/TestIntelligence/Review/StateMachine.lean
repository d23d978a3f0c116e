import TestIntelligence.Js.Text

/-!
# The review-gate state machine

The transition table of `review-state-machine.ts` and the checks that
`transitionReviewState` adds to it.  A transition refused by the table is
`transition_not_allowed`; the policy decision is consulted after the table.
-/

namespace TestIntelligence.Review

open Js

inductive ReviewState
  | generated
  | needsReview
  | pendingSecondaryApproval
  | approved
  | rejected
  | edited
  | exported
  | transferred
  deriving DecidableEq, Repr

inductive ReviewEventKind
  | generated
  | reviewStarted
  | approved
  | primaryApproved
  | secondaryApproved
  | rejected
  | edited
  | exported
  | transferred
  | note
  deriving DecidableEq, Repr

/-- `ALLOWED_REVIEW_EVENT_KINDS`. -/
def allowedReviewEventKinds : List ReviewEventKind :=
  [.generated, .reviewStarted, .approved, .primaryApproved, .secondaryApproved, .rejected,
    .edited, .exported, .transferred, .note]

inductive TestCasePolicyDecision
  | approved
  | blocked
  | needsReview
  deriving DecidableEq, Repr

def ReviewState.text : ReviewState → JsString
  | .generated => js "generated"
  | .needsReview => js "needs_review"
  | .pendingSecondaryApproval => js "pending_secondary_approval"
  | .approved => js "approved"
  | .rejected => js "rejected"
  | .edited => js "edited"
  | .exported => js "exported"
  | .transferred => js "transferred"

def TestCasePolicyDecision.text : TestCasePolicyDecision → JsString
  | .approved => js "approved"
  | .blocked => js "blocked"
  | .needsReview => js "needs_review"

theorem ReviewState.text_injective : Function.Injective ReviewState.text := by
  intro s t h
  cases s <;> cases t <;> first | rfl | exact absurd h (by decide)

theorem TestCasePolicyDecision.text_injective :
    Function.Injective TestCasePolicyDecision.text := by
  intro s t h
  cases s <;> cases t <;> first | rfl | exact absurd h (by decide)

inductive ReviewTransitionRefusalCode
  | transitionNotAllowed
  | policyBlocksApproval
  | policyRequiresReview
  deriving DecidableEq, Repr

/-- `TRANSITIONS[kind][from]`. -/
def transitions : ReviewEventKind → ReviewState → Option ReviewState
  | .generated, .generated => some .generated
  | .reviewStarted, .generated => some .needsReview
  | .reviewStarted, .needsReview => some .needsReview
  | .reviewStarted, .approved => some .needsReview
  | .reviewStarted, .edited => some .needsReview
  | .reviewStarted, .pendingSecondaryApproval => some .needsReview
  | .approved, .generated => some .approved
  | .approved, .needsReview => some .approved
  | .approved, .edited => some .approved
  | .primaryApproved, .needsReview => some .pendingSecondaryApproval
  | .primaryApproved, .edited => some .pendingSecondaryApproval
  | .secondaryApproved, .pendingSecondaryApproval => some .approved
  | .rejected, .generated => some .rejected
  | .rejected, .needsReview => some .rejected
  | .rejected, .edited => some .rejected
  | .rejected, .pendingSecondaryApproval => some .rejected
  | .edited, .needsReview => some .edited
  | .edited, .edited => some .edited
  | .edited, .approved => some .edited
  | .edited, .pendingSecondaryApproval => some .edited
  | .exported, .approved => some .exported
  | .transferred, .exported => some .transferred
  | .note, s => some s
  | _, _ => none

/-- The kinds that record an approval. -/
def ReviewEventKind.isApproval (kind : ReviewEventKind) : Bool :=
  kind = .approved || kind = .primaryApproved || kind = .secondaryApproved

def transitionReviewState (source : ReviewState) (kind : ReviewEventKind)
    (policyDecision : Option TestCasePolicyDecision) :
    Except ReviewTransitionRefusalCode ReviewState :=
  match transitions kind source with
  | none => .error .transitionNotAllowed
  | some target =>
      if kind.isApproval && policyDecision = some .blocked then .error .policyBlocksApproval
      else if kind = .approved && policyDecision = some .needsReview && source = .generated then
        .error .policyRequiresReview
      else .ok target

def seedReviewStateFromPolicy (decision : TestCasePolicyDecision) : ReviewState :=
  if decision = .approved then .approved else .needsReview

theorem transitionReviewState_ok {source target : ReviewState} {kind : ReviewEventKind}
    {policyDecision : Option TestCasePolicyDecision}
    (h : transitionReviewState source kind policyDecision = .ok target) :
    transitions kind source = some target ∧
      (kind.isApproval = true → policyDecision ≠ some .blocked) := by
  unfold transitionReviewState at h
  split at h
  · cases h
  · next target' htable =>
      split at h
      · cases h
      · next hblocked =>
          split at h
          · cases h
          · cases h
            refine ⟨htable, fun hkind hdecision ↦ hblocked ?_⟩
            simp [hkind, hdecision]

/-- A note never changes the state. -/
theorem transitions_note (s : ReviewState) : transitions .note s = some s := by
  cases s <;> rfl

end TestIntelligence.Review
