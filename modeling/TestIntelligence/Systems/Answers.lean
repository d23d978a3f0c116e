import TestIntelligence.Systems.Runs
import Mathlib.Data.List.Induction

/-!
# Machines that answer

Each action of such a machine has an answer.  Two machines give related answers where a
relation between their states, and the actions that led there, is kept.
-/

namespace TestIntelligence.Systems

variable {σ σ' α ρ ρ' : Type*}

section

variable (step : σ → α → σ × ρ)

/-- The state after the listed actions. -/
def stateAfter (s : σ) (actions : List α) : σ := run (fun s a ↦ (step s a).1) s actions

def answers : σ → List α → List ρ
  | _, [] => []
  | s, a :: actions => (step s a).2 :: answers (step s a).1 actions

variable {step}

theorem stateAfter_concat (s : σ) (actions : List α) (a : α) :
    stateAfter step s (actions ++ [a]) = (step (stateAfter step s actions) a).1 :=
  run_append (fun s a ↦ (step s a).1) s actions [a]

/-- The invariant rule, for invariants that speak of the actions so far. -/
theorem stateAfter_induction {Inv : List α → σ → Prop} {s : σ} (hs : Inv [] s)
    {actions : List α}
    (hstep : ∀ before a s, before ++ [a] <+: actions → Inv before s → Inv (before ++ [a]) (step s a).1) :
    ∀ before, before <+: actions → Inv before (stateAfter step s before) := by
  intro before
  induction before using List.reverseRecOn with
  | nil => exact fun _ ↦ hs
  | append_singleton before a ih =>
      intro hprefix
      rw [stateAfter_concat]
      exact hstep before a _ hprefix (ih ((List.prefix_append before [a]).trans hprefix))

end

/-- Related answers at every action make related lists of answers. -/
theorem forall₂_answers {R : ρ → ρ' → Prop} {step : σ → α → σ × ρ} {step' : σ' → α → σ' × ρ'}
    {s : σ} {s' : σ'} {actions : List α}
    (h : ∀ before a, before ++ [a] <+: actions →
      R (step (stateAfter step s before) a).2 (step' (stateAfter step' s' before) a).2) :
    List.Forall₂ R (answers step s actions) (answers step' s' actions) := by
  induction actions generalizing s s' with
  | nil => exact .nil
  | cons a actions ih =>
      refine .cons (h [] a (by simp)) (ih fun before b hprefix ↦ ?_)
      exact h (a :: before) b (by simpa using hprefix)

end TestIntelligence.Systems
