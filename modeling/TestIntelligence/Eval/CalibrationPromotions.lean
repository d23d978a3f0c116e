import TestIntelligence.Eval.CalibrationRuns

/-!
# Curves in production

The file of a cell changes only when a proposal for that cell is ratified.  Its curve has passed
the hard gates against the curve that was current when it was proposed, which is the one it
replaces unless another proposal was ratified in between.
-/

namespace TestIntelligence.Eval

open Js Systems

/-- The hard gates, for a curve and the current one. -/
structure PassesGates (curve : CalibrationCurveSnapshot) (current : Option CurrentCurve) : Prop where
  ece : curve.heldOutEce.le SELF_IMPROVING_CALIBRATION_HARD_GATES.heldOutEceCeiling = true
  kappa : SELF_IMPROVING_CALIBRATION_HARD_GATES.heldOutKappaFloor.le curve.heldOutKappa = true
  eceRegression : ∀ c ∈ current, ∀ ece ∈ c.heldOutEce, curve.heldOutEce.le
    (ece.add SELF_IMPROVING_CALIBRATION_HARD_GATES.eceRegressionTolerance) = true
  kappaRegression : ∀ c ∈ current, ∀ kappa ∈ c.heldOutKappa,
    (kappa.sub SELF_IMPROVING_CALIBRATION_HARD_GATES.kappaRegressionTolerance).le
      curve.heldOutKappa = true
  perClass : ∀ c ∈ current, ∀ riskClass,
    SELF_IMPROVING_CALIBRATION_HARD_GATES.perClassEceRegressionCeiling.lt
      ((curve.perClassHeldOutEce riskClass).sub
        ((c.perClassHeldOutEce riskClass).getD 0)) = false

theorem passesGates_of_failedGates {curve : CalibrationCurveSnapshot}
    {current : Option CurrentCurve} (h : (evaluateGates ⟨curve.heldOutEce, curve.heldOutKappa,
      curve.perClassHeldOutEce⟩ current).failedGates = []) : PassesGates curve current := by
  simp only [evaluateGates, List.append_eq_nil_iff, ite_eq_left_iff, List.cons_ne_nil, imp_false,
    not_not] at h
  obtain ⟨⟨⟨⟨hece, hkappa⟩, heceRegression⟩, hkappaRegression⟩, hperClass⟩ := h
  refine ⟨hece, hkappa, ?_, ?_, ?_⟩
  · rintro c rfl ece hc
    simpa [Option.mem_def.mp hc] using heceRegression
  · rintro c rfl kappa hc
    simpa [Option.mem_def.mp hc] using hkappaRegression
  · rintro c rfl riskClass
    have hnone := List.filterMap_eq_nil_iff.mp hperClass riskClass (by cases riskClass <;> decide)
    simpa [perClassFailure] using hnone

theorem curveFilename_injective : ∀ locale riskClass locale' riskClass',
    curveFilename locale riskClass = curveFilename locale' riskClass' →
      locale = locale' ∧ riskClass = riskClass' := by
  intro locale riskClass locale' riskClass'
  cases locale <;> cases riskClass <;> cases locale' <;> cases riskClass' <;> decide

section

variable {PrivateKey PublicKey : Type} {platform : Platform PrivateKey PublicKey}
  {proposal : CalibrationRefitProposal}

theorem locale_of_proposeCurve {input : ProposeCalibrationRefitInput}
    {curve : CalibrationCurveSnapshot} (h : proposeCurve platform input = .ok curve) :
    curve.locale = input.locale := by
  unfold proposeCurve at h
  split at h
  · cases h
  · dsimp only at h
    iterate 5
      split at h
      · cases h
    obtain rfl := Except.ok.inj h
    rfl

/-- Where a proposal comes from: the call that proposed it, and the curve that was current. -/
def ProposedIn (platform : Platform PrivateKey PublicKey) (calls : List CalibrationCall)
    (proposal : CalibrationRefitProposal) : Prop :=
  ∃ before input after current, calls = before ++ .propose input :: after ∧
    input.locale = proposal.locale ∧
    currentCurve platform (run (CalibrationTrail.step platform) .start before).directory input
      proposal.riskClass = .ok current ∧
    proposal.gateEvaluation = evaluateGates ⟨proposal.proposedCurve.heldOutEce,
      proposal.proposedCurve.heldOutKappa, proposal.proposedCurve.perClassHeldOutEce⟩ current

theorem ProposedIn.append {calls : List CalibrationCall} (h : ProposedIn platform calls proposal)
    (later : List CalibrationCall) : ProposedIn platform (calls ++ later) proposal := by
  obtain ⟨before, input, after, current, rfl, h⟩ := h
  exact ⟨before, input, after ++ later, current, by simp, h⟩

/-- Every proposal object of a run was proposed in it. -/
theorem proposedIn_of_mem_returned (calls : List CalibrationCall) :
    ∀ proposal ∈ (run (CalibrationTrail.step platform) .start calls).returned,
      ProposedIn platform calls proposal := by
  induction calls using List.reverseRecOn with
  | nil => exact fun _ h ↦ nomatch h
  | append_singleton calls call ih =>
      intro proposal hproposal
      rw [run_append, run_cons, run_nil] at hproposal
      generalize hs : run (CalibrationTrail.step platform) .start calls = s at ih hproposal
      cases call with
      | propose input =>
          unfold CalibrationTrail.step at hproposal
          dsimp only at hproposal
          split at hproposal
          · exact (ih proposal hproposal).append _
          · next directory proposed hpropose =>
              rcases List.mem_append.mp hproposal with hold | hnew
              · exact (ih proposal hold).append _
              · obtain rfl := List.mem_singleton.mp hnew
                obtain ⟨curve, hcurve, h⟩ := bind_eq_ok hpropose
                obtain ⟨current, hcurrent, h⟩ := bind_eq_ok h
                obtain ⟨-, rfl⟩ := Prod.mk.inj (Except.ok.inj h)
                exact ⟨calls, input, [], current, rfl, (locale_of_proposeCurve hcurve).symm,
                  hs ▸ hcurrent, rfl⟩
      | decide i options =>
          unfold CalibrationTrail.step at hproposal
          dsimp only at hproposal
          split at hproposal
          · exact (ih proposal hproposal).append _
          · next decided hdecided =>
              split at hproposal
              · exact (ih proposal hproposal).append _
              · next directory record hdecide =>
                  rcases List.mem_append.mp hproposal with hold | hnew
                  · exact (ih proposal hold).append _
                  · obtain rfl := List.mem_singleton.mp hnew
                    have hsource := (ih decided (List.mem_of_getElem? hdecided)).append
                      [.decide i options]
                    -- a decision leaves the cell, the curve and the gates of the object
                    rcases (ratifyOrRollback_eq_ok hdecide).2 with
                      ⟨-, rfl, -⟩ | ⟨-, key, -, rfl, -⟩
                    · exact hsource
                    · exact hsource

end

end TestIntelligence.Eval
