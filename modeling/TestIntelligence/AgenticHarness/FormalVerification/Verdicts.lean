import TestIntelligence.AgenticHarness.FormalVerification.CounterexampleSearch
import TestIntelligence.AgenticHarness.FormalVerification.ParserShape

/-!
# What a verdict says

A formula gets a verdict exactly when its propositions evaluate in every state, and
the verdict is `pass` exactly when every initial state satisfies the checked CTL
formula.
-/

namespace TestIntelligence.AgenticHarness.FormalVerification

open Js Temporal

variable {kripke : KripkeStructure} {enumLiterals : List JsString}

/-! ## Propositions that evaluate -/

theorem checkAtom_evaluates (hk : kripke.Total) {expr : ExprAst} {ids out : List JsString}
    (h : checkAtom (kripke.context enumLiterals) expr ids = .ok out) :
    ∀ p ∈ kripke.states, p.1 ∈ ids →
      ∃ b, atomSatisfies expr p.2.valuation enumLiterals = .ok b := by
  induction ids generalizing out with
  | nil => simp
  | cons id ids ih =>
      intro p hp hmem
      obtain ⟨b, hb, h⟩ := bind_eq_ok h
      obtain ⟨rest, hrest, -⟩ := bind_eq_ok h
      rcases List.mem_cons.mp hmem with rfl | hmem
      · have hget : mapGet kripke.states p.1 = some p.2 :=
          mapGet_eq_some_of_mem hk.states_nodup hp
        simp only [stateSatisfies, KripkeStructure.context, hget] at hb
        exact ⟨b, hb⟩
      · exact ih hrest p hp hmem

theorem AtomsEvaluate.append {left right formula : TemporalAst}
    (hleft : AtomsEvaluate kripke enumLiterals left)
    (hright : AtomsEvaluate kripke enumLiterals right)
    (heq : formula.atoms = left.atoms ++ right.atoms) :
    AtomsEvaluate kripke enumLiterals formula := by
  intro expr hexpr
  rw [heq] at hexpr
  rcases List.mem_append.mp hexpr with hexpr | hexpr
  · exact hleft expr hexpr
  · exact hright expr hexpr

/-- A check that returns has evaluated every proposition in every state. -/
theorem atomsEvaluate_of_checkCtl (hk : kripke.Total) {formula : TemporalAst}
    {out : List JsString} (h : checkCtl (kripke.context enumLiterals) formula = .ok out) :
    AtomsEvaluate kripke enumLiterals formula := by
  induction formula generalizing out with
  | atom expr =>
      intro expr' hexpr p hp
      rw [TemporalAst.atoms, List.mem_singleton] at hexpr
      subst hexpr
      exact checkAtom_evaluates hk h p hp (List.mem_map_of_mem hp)
  | not _ ih | EX _ ih | AX _ ih | EF _ ih | AF _ ih | EG _ ih | AG _ ih =>
      obtain ⟨inner, hinner, -⟩ := bind_eq_ok h
      exact ih hinner
  | and _ _ ihl ihr | or _ _ ihl ihr | implies _ _ ihl ihr | iff _ _ ihl ihr | EU _ _ ihl ihr =>
      obtain ⟨a, ha, h⟩ := bind_eq_ok h
      obtain ⟨b, hb, -⟩ := bind_eq_ok h
      exact (ihl ha).append (ihr hb) rfl
  | AU _ _ ihl ihr =>
      obtain ⟨b, hb, h⟩ := bind_eq_ok h
      obtain ⟨a, ha, -⟩ := bind_eq_ok h
      exact (ihl ha).append (ihr hb) rfl
  | G _ | F _ | X _ | U _ _ => cases h

/-! ## Verdicts of formulae -/

theorem verdictOf_eq_pass_iff (satisfying : List JsString) :
    verdictOf kripke satisfying = .pass ↔ ∀ id ∈ kripke.initial, id ∈ satisfying := by
  unfold verdictOf
  split
  · next h => simpa using h
  · next h => simpa using h

/-- The verdict of a formula is that of the set that the checker returns. -/
theorem verifyFormula_verdict {formula : SpecFormula} {result : FormalVerificationFormulaResult}
    (h : verifyFormula kripke enumLiterals formula = .ok result) :
    ∃ satisfying, checkCtl (kripke.context enumLiterals) formula.ctlAst = .ok satisfying ∧
      result.verdict = verdictOf kripke satisfying := by
  obtain ⟨satisfying, hcheck, h⟩ := bind_eq_ok h
  refine ⟨satisfying, hcheck, ?_⟩
  cases hverdict : verdictOf kripke satisfying with
  | pass =>
      simp only [hverdict] at h
      cases h
      rfl
  | fail =>
      simp only [hverdict] at h
      obtain ⟨counterexample, -, h⟩ := bind_eq_ok h
      cases h
      rfl

theorem verifyFormula_ok (hk : kripke.WellFormed) {formula : SpecFormula}
    {satisfying : List JsString}
    (h : checkCtl (kripke.context enumLiterals) formula.ctlAst = .ok satisfying) :
    ∃ result, verifyFormula kripke enumLiterals formula = .ok result := by
  unfold verifyFormula
  simp only [h, ok_bind]
  cases verdictOf kripke satisfying with
  | pass => exact ⟨_, rfl⟩
  | fail =>
      obtain ⟨counterexample, hfind⟩ := findCounterexample_ok hk formula.ctlAst satisfying
        enumLiterals
      simp only [hfind, ok_bind]
      exact ⟨_, rfl⟩

/-- A formula gets a verdict exactly when its propositions evaluate everywhere. -/
theorem verifyFormula_ok_iff (hk : kripke.WellFormed) {formula : SpecFormula}
    (hctl : formula.ctlAst.IsOf .CTL) :
    (∃ result, verifyFormula kripke enumLiterals formula = .ok result) ↔
      AtomsEvaluate kripke enumLiterals formula.ctlAst := by
  constructor
  · rintro ⟨result, h⟩
    obtain ⟨satisfying, hcheck, -⟩ := verifyFormula_verdict h
    exact atomsEvaluate_of_checkCtl hk.toTotal hcheck
  · intro hatoms
    obtain ⟨out, hcheck, -⟩ := checkCtl_represents hk.toTotal hctl hatoms
    exact verifyFormula_ok hk hcheck

/-- A formula passes exactly when every initial state satisfies it. -/
theorem verdict_eq_pass_iff (hk : kripke.WellFormed) {formula : SpecFormula}
    (hctl : formula.ctlAst.IsOf .CTL) {result : FormalVerificationFormulaResult}
    (h : verifyFormula kripke enumLiterals formula = .ok result) :
    result.verdict = .pass ↔
      ∀ id ∈ kripke.initial, ctlSat kripke enumLiterals formula.ctlAst id := by
  obtain ⟨satisfying, hcheck, hverdict⟩ := verifyFormula_verdict h
  obtain ⟨out, hout, hrep⟩ := checkCtl_represents hk.toTotal hctl
    (atomsEvaluate_of_checkCtl hk.toTotal hcheck)
  rw [hcheck, Except.ok.injEq] at hout
  subst hout
  rw [hverdict, verdictOf_eq_pass_iff]
  exact forall₂_congr fun id hid ↦ hrep.iff (hk.initial_mem id hid)

/-! ## Verdicts of a specification -/

theorem verifyFormulae_ok {formulae : List SpecFormula}
    {results : List FormalVerificationFormulaResult}
    (h : verifyFormulae kripke enumLiterals formulae = .ok results) :
    ∀ p ∈ formulae.zip results, verifyFormula kripke enumLiterals p.1 = .ok p.2 := by
  induction formulae generalizing results with
  | nil => simp
  | cons formula formulae ih =>
      obtain ⟨result, hresult, h⟩ := bind_eq_ok h
      obtain ⟨rest, hrest, h⟩ := bind_eq_ok h
      cases h
      intro p hp
      rcases List.mem_cons.mp hp with rfl | hp
      · exact hresult
      · exact ih hrest p hp

/-- What a verification that returns has done. -/
theorem verifyFormalVerificationSpec_ok {sha256 : JsString → JsString}
    {input : VerifyFormalSpecInput} {report : FormalVerificationSpecResult}
    (h : verifyFormalVerificationSpec sha256 input = .ok report) :
    ∃ spec kripke, parseSpec input.specSource = .ok spec ∧ buildKripke spec = .ok kripke ∧
      verifyFormulae kripke (collectEnumLiterals spec) spec.formulae = .ok report.formulae := by
  obtain ⟨spec, hspec, h⟩ := bind_eq_ok h
  obtain ⟨kripke, hkripke, h⟩ := bind_eq_ok h
  obtain ⟨results, hresults, h⟩ := bind_eq_ok h
  cases h
  exact ⟨spec, kripke, hspec, hkripke, hresults⟩

/-- The report gives the formula of the specification the verdict. -/
def Reports (sha256 : JsString → JsString) (input : VerifyFormalSpecInput) (spec : ParsedSpec)
    (formula : SpecFormula) (verdict : FormalVerificationVerdict) : Prop :=
  parseSpec input.specSource = .ok spec ∧ ∃ report result,
    verifyFormalVerificationSpec sha256 input = .ok report ∧
      (formula, result) ∈ spec.formulae.zip report.formulae ∧ result.verdict = verdict

theorem reports_of {sha256 : JsString → JsString} {input : VerifyFormalSpecInput}
    {spec : ParsedSpec} {kripke : KripkeStructure}
    {results : List FormalVerificationFormulaResult}
    (hspec : parseSpec input.specSource = .ok spec) (hkripke : buildKripke spec = .ok kripke)
    (hresults : verifyFormulae kripke (collectEnumLiterals spec) spec.formulae = .ok results)
    {formula : SpecFormula} {result : FormalVerificationFormulaResult}
    (hmem : (formula, result) ∈ spec.formulae.zip results) :
    Reports sha256 input spec formula result.verdict := by
  refine ⟨hspec, ⟨input.specPath, sha256 input.specSource, spec.moduleName, kripke.states.length,
    results, if results.all (·.verdict = .pass) then .pass else .fail⟩, result, ?_, hmem, rfl⟩
  simp only [verifyFormalVerificationSpec, hspec, ok_bind, hkripke, hresults, pure_eq_ok]

/-- A reported verdict is that of the formula on the built structure. -/
theorem Reports.verifyFormula {sha256 : JsString → JsString} {input : VerifyFormalSpecInput}
    {spec : ParsedSpec} {formula : SpecFormula} {verdict : FormalVerificationVerdict}
    (h : Reports sha256 input spec formula verdict) :
    ∃ kripke result, buildKripke spec = .ok kripke ∧ formula ∈ spec.formulae ∧
      FormalVerification.verifyFormula kripke (collectEnumLiterals spec) formula = .ok result ∧
        result.verdict = verdict := by
  obtain ⟨hspec, report, result, hreport, hmem, hverdict⟩ := h
  obtain ⟨spec', kripke, hspec', hkripke, hformulae⟩ := verifyFormalVerificationSpec_ok hreport
  rw [hspec, Except.ok.injEq] at hspec'
  subst hspec'
  exact ⟨kripke, result, hkripke, (List.of_mem_zip hmem).1, verifyFormulae_ok hformulae _ hmem,
    hverdict⟩

end TestIntelligence.AgenticHarness.FormalVerification
