import TestIntelligence.AgenticHarness.FormalVerification.Enumeration
import TestIntelligence.AgenticHarness.FormalVerification.Verdicts

/-!
# Consistency of the verdicts

The initial states are the products of the initial choices that survive the domain
filter.  When none survives every formula passes, so a formula and its negation pass
together; otherwise they never do.
-/

namespace TestIntelligence.AgenticHarness.FormalVerification

open Js

/-! ## Initial choices -/

/-- Every variable may start with a value of its domain.  Where a name is declared
twice, no declaration offers nothing, and the last one offers a value in the domains
of all. -/
structure ParsedSpec.Initialised (spec : ParsedSpec) : Prop where
  offered : ∀ v ∈ spec.specVariables, spec.initialChoices v ≠ .ok []
  inDomain : ∀ v ∈ spec.specVariables, ∃ last choices choice,
    lastDeclaration spec.specVariables v.name = some last ∧ spec.initialChoices last = .ok choices ∧
      choice ∈ choices ∧ ∀ w ∈ spec.specVariables, w.name = v.name →
        valueInDomain (some choice) w = .ok true

theorem initialised_of_mem_initials {spec : ParsedSpec} {vs : List Valuation}
    (h : spec.initials = .ok vs) {valuation : Valuation} (hv : valuation ∈ vs) :
    spec.Initialised := by
  obtain ⟨⟨assignments, hstarts, rfl⟩, hdomain⟩ := (mem_initials_iff h).mp hv
  constructor
  · intro v hv hnil
    obtain ⟨a, -, -, options, hoptions, hmem⟩ := exists_of_forall₂_of_mem hstarts hv
    rw [hnil, Except.ok.injEq] at hoptions
    subst hoptions
    simp at hmem
  · intro v hv
    obtain ⟨last, hlast⟩ := lastDeclaration_isSome hv
    obtain ⟨options, choice, hoptions, hmem, hget⟩ := readProperty_of_chosen hstarts hlast
    refine ⟨last, options, choice, hlast, hoptions, hmem, fun w hw hname ↦ ?_⟩
    have hw := hdomain w hw
    rwa [hname, readProperty_of_mapGet hget] at hw

theorem initialChoices_ok {spec : ParsedSpec} {vs : List Valuation} (h : spec.initials = .ok vs)
    {v : SpecVariable} (hv : v ∈ spec.specVariables) :
    ∃ options, spec.initialChoices v = .ok options := by
  obtain ⟨choices, hchoices, -⟩ := bind_eq_ok h
  obtain ⟨c, -, -, hoptions⟩ := exists_of_forall₂_of_mem (choicesPerVar_spec hchoices) hv
  exact ⟨c.2, hoptions⟩

/-- From a value for every name that its last declaration offers, a choice for every
declaration under which the names have these values. -/
theorem exists_chosen {spec : ParsedSpec} {vs : List Valuation} (h : spec.initials = .ok vs)
    (hoffered : ∀ v ∈ spec.specVariables, spec.initialChoices v ≠ .ok [])
    {good : JsString → PrimitiveValue}
    (hgood : ∀ v ∈ spec.specVariables, lastDeclaration spec.specVariables v.name = some v →
      ∃ options, spec.initialChoices v = .ok options ∧ good v.name ∈ options) :
    ∃ assignments, Chosen spec.initialChoices spec.specVariables assignments ∧
      ∀ v ∈ spec.specVariables, readProperty (assign assignments []) v.name = some (good v.name) := by
  have hpick : ∀ v ∈ spec.specVariables, ∃ value,
      (∃ options, spec.initialChoices v = .ok options ∧ value ∈ options) ∧
        (lastDeclaration spec.specVariables v.name = some v → value = good v.name) := by
    intro v hv
    by_cases hlast : lastDeclaration spec.specVariables v.name = some v
    · exact ⟨good v.name, hgood v hv hlast, fun _ ↦ rfl⟩
    · obtain ⟨options, hoptions⟩ := initialChoices_ok h hv
      have hne : options ≠ [] := by
        rintro rfl
        exact hoffered v hv hoptions
      obtain ⟨value, hvalue⟩ := List.exists_mem_of_ne_nil options hne
      exact ⟨value, ⟨options, hoptions, hvalue⟩, fun heq ↦ absurd heq hlast⟩
  have : Nonempty PrimitiveValue := ⟨.bool false⟩
  choose! pick hoption hlast using hpick
  refine ⟨spec.specVariables.map fun v ↦ (v.name, pick v), ?_, fun v hv ↦ ?_⟩
  · unfold Chosen
    rw [List.forall₂_map_right_iff, List.forall₂_same]
    exact fun v hv ↦ ⟨rfl, hoption v hv⟩
  · obtain ⟨last, hfind⟩ := lastDeclaration_isSome hv
    obtain ⟨hmem, hname⟩ := mem_of_lastDeclaration hfind
    have hvalue : pick last = good v.name := by
      rw [hlast last hmem (by rw [hname, hfind]), hname]
    unfold lastDeclaration at hfind
    rw [readProperty, mapGet_assign, ← List.map_reverse, List.find?_map]
    simp [Function.comp_def, hfind, hvalue]

theorem exists_mem_initials {spec : ParsedSpec} {vs : List Valuation} (h : spec.initials = .ok vs)
    (hspec : spec.Initialised) : ∃ valuation, valuation ∈ vs := by
  have hvalue : ∀ name, ∃ value, ∀ v ∈ spec.specVariables, v.name = name →
      (∃ last options, lastDeclaration spec.specVariables name = some last ∧
        spec.initialChoices last = .ok options ∧ value ∈ options) ∧
          ∀ w ∈ spec.specVariables, w.name = name → valueInDomain (some value) w = .ok true := by
    intro name
    by_cases hname : ∃ v ∈ spec.specVariables, v.name = name
    · obtain ⟨v, hv, rfl⟩ := hname
      obtain ⟨last, options, choice, hlast, hoptions, hmem, hdomain⟩ := hspec.inDomain v hv
      exact ⟨choice, fun _ _ _ ↦ ⟨⟨last, options, hlast, hoptions, hmem⟩, hdomain⟩⟩
    · exact ⟨.bool false, fun v hv heq ↦ absurd ⟨v, hv, heq⟩ hname⟩
  choose good hgood using hvalue
  obtain ⟨assignments, hstarts, hread⟩ := @exists_chosen spec vs h hspec.offered good (by
    intro v hv hlast
    obtain ⟨⟨last, options, hlast', hoptions, hmem⟩, -⟩ := hgood v.name v hv rfl
    rw [hlast, Option.some.injEq] at hlast'
    subst hlast'
    exact ⟨options, hoptions, hmem⟩)
  refine ⟨assign assignments [], (mem_initials_iff h).mpr ⟨⟨assignments, hstarts, rfl⟩, ?_⟩⟩
  intro v hv
  rw [hread v hv]
  exact (hgood v.name v hv rfl).2 v hv rfl

/-! ## Consistency -/

theorem initial_ne_nil_iff {spec : ParsedSpec} {kripke : KripkeStructure}
    (h : buildKripke spec = .ok kripke) : kripke.initial ≠ [] ↔ spec.Initialised := by
  obtain ⟨vs, hvs, hinitial, -⟩ := (built_of_buildKripke h).initial_eq
  constructor
  · intro hne
    obtain ⟨id, hid⟩ := List.exists_mem_of_ne_nil _ hne
    rw [hinitial, mem_setOf] at hid
    obtain ⟨v, hv, -⟩ := List.mem_map.mp hid
    exact initialised_of_mem_initials hvs hv
  · intro hspec
    obtain ⟨v, hv⟩ := exists_mem_initials hvs hspec
    have hid : stateId v ∈ kripke.initial := by
      rw [hinitial, mem_setOf]
      exact List.mem_map_of_mem hv
    exact List.ne_nil_of_mem hid

/-- A CTL formula and its negation that are both checked do not both pass, exactly
when the specification has an initial state: every variable may start with a value of
its domain. -/
theorem not_both_pass_iff_initialised (sha256 : JsString → JsString)
    (input : VerifyFormalSpecInput) (spec : ParsedSpec) (formula negated : SpecFormula)
    (verdict verdict' : FormalVerificationVerdict) (hlogic : formula.logic = .CTL)
    (hlogic' : negated.logic = .CTL) (hnegated : negated.ast = .not formula.ast)
    (hformula : Reports sha256 input spec formula verdict)
    (hnegation : Reports sha256 input spec negated verdict') :
    ¬ (verdict = .pass ∧ verdict' = .pass) ↔ spec.Initialised := by
  obtain ⟨kripke, result, hkripke, hmem, hresult, rfl⟩ := hformula.verifyFormula
  obtain ⟨kripke', result', hkripke', -, hresult', rfl⟩ := hnegation.verifyFormula
  rw [hkripke, Except.ok.injEq] at hkripke'
  subst hkripke'
  have hwf := (built_of_buildKripke hkripke).wellFormed
  have hast : formula.ctlAst = formula.ast := by rw [SpecFormula.ctlAst, hlogic]
  have hast' : negated.ctlAst = .not formula.ast := by rw [SpecFormula.ctlAst, hlogic', hnegated]
  have hctl : formula.ast.IsOf .CTL := hlogic ▸ formulaeOfLogic_of_parseSpec hformula.1 formula hmem
  rw [verdict_eq_pass_iff hwf (hast ▸ hctl) hresult, verdict_eq_pass_iff hwf (hast' ▸ hctl) hresult',
    ← initial_ne_nil_iff hkripke, hast, hast']
  constructor
  · rintro hboth hnil
    refine hboth ⟨?_, ?_⟩ <;> simp [hnil]
  · rintro hne ⟨hpass, hpass'⟩
    obtain ⟨id, hid⟩ := List.exists_mem_of_ne_nil _ hne
    exact hpass' id hid (hpass id hid)

/-- A counter with the given start, and a claim about it with its negation. -/
def tallyInput (start : JsString) : VerifyFormalSpecInput where
  specPath := js "tally.smv"
  specSource := js "MODULE tally VAR count : 0..3; ASSIGN init(count) := " ++ start ++
    js "; CTLSPEC count = 0 CTLSPEC !(count = 0)"

def countIsZero : SpecFormula where
  logic := .CTL
  source := js "(count = 0)"
  ast := .atom (.binop .eq (.ident (js "count")) (.int 0))

def countIsNotZero : SpecFormula where
  logic := .CTL
  source := js "!(count = 0)"
  ast := .not countIsZero.ast

def tallySpec (start : JsNumber) : ParsedSpec where
  moduleName := js "tally"
  specVariables := [.range (js "count") 0 3]
  inits := [⟨js "count", .int start⟩]
  nexts := []
  formulae := [countIsZero, countIsNotZero]

def zeroState : FormalVerificationState := ⟨js "count=0", [(js "count", .number 0)]⟩

def tallyKripke : KripkeStructure where
  states := [(zeroState.id, zeroState)]
  initial := [zeroState.id]
  transitions := [(zeroState.id, [zeroState.id])]

def passing (formula : SpecFormula) : FormalVerificationFormulaResult :=
  ⟨.CTL, formula.source, .pass, none⟩

def countIsNotZeroFails : FormalVerificationFormulaResult where
  logic := .CTL
  formula := countIsNotZero.source
  verdict := .fail
  counterexample := some ⟨[zeroState], js ("formula does not hold; counterexample length 1; " ++
    "at state 0: count=0; formula=!(count = 0)")⟩

theorem tallySpec_zero_runs : parseSpec (tallyInput (js "0")).specSource = .ok (tallySpec 0) ∧
    buildKripke (tallySpec 0) = .ok tallyKripke ∧
    verifyFormulae tallyKripke (collectEnumLiterals (tallySpec 0)) (tallySpec 0).formulae =
      .ok [passing countIsZero, countIsNotZeroFails] := by
  rw [tallyInput, js_ofList, js_ofList]
  decide +kernel

theorem tallySpec_five_runs : parseSpec (tallyInput (js "5")).specSource = .ok (tallySpec 5) ∧
    buildKripke (tallySpec 5) = .ok ⟨[], [], []⟩ ∧
    verifyFormulae ⟨[], [], []⟩ (collectEnumLiterals (tallySpec 5)) (tallySpec 5).formulae =
      .ok [passing countIsZero, passing countIsNotZero] := by
  rw [tallyInput, js_ofList, js_ofList]
  decide +kernel

/-- A counter that starts in its domain: one of the two formulae passes. -/
theorem not_both_pass_iff_tally_zero :
    Reports id (tallyInput (js "0")) (tallySpec 0) countIsZero .pass ∧
      Reports id (tallyInput (js "0")) (tallySpec 0) countIsNotZero .fail ∧
        (¬ (FormalVerificationVerdict.pass = .pass ∧ FormalVerificationVerdict.fail = .pass) ↔
          (tallySpec 0).Initialised) := by
  have hreports {formula : SpecFormula} {result : FormalVerificationFormulaResult}
      (h : (formula, result) ∈ (tallySpec 0).formulae.zip [passing countIsZero,
        countIsNotZeroFails]) :
      Reports id (tallyInput (js "0")) (tallySpec 0) formula result.verdict :=
    reports_of tallySpec_zero_runs.1 tallySpec_zero_runs.2.1 tallySpec_zero_runs.2.2 h
  have hpass : Reports id (tallyInput (js "0")) (tallySpec 0) countIsZero .pass :=
    @hreports countIsZero (passing countIsZero) (by simp [tallySpec])
  have hfail : Reports id (tallyInput (js "0")) (tallySpec 0) countIsNotZero .fail :=
    @hreports countIsNotZero countIsNotZeroFails (by simp [tallySpec])
  exact ⟨hpass, hfail, not_both_pass_iff_initialised id (tallyInput (js "0")) (tallySpec 0)
    countIsZero countIsNotZero .pass .fail rfl rfl rfl hpass hfail⟩

/-- A counter that starts outside its domain has no initial state, and both
formulae pass. -/
theorem both_pass_tally_five :
    ¬ ∀ (sha256 : JsString → JsString) (input : VerifyFormalSpecInput) (spec : ParsedSpec)
      (formula negated : SpecFormula) (verdict verdict' : FormalVerificationVerdict),
      formula.logic = .CTL → negated.logic = .CTL → negated.ast = .not formula.ast →
        Reports sha256 input spec formula verdict → Reports sha256 input spec negated verdict' →
          ¬ (verdict = .pass ∧ verdict' = .pass) := by
  intro hall
  have hreports {formula : SpecFormula}
      (h : (formula, passing formula) ∈ (tallySpec 5).formulae.zip [passing countIsZero,
        passing countIsNotZero]) :
      Reports id (tallyInput (js "5")) (tallySpec 5) formula .pass :=
    reports_of tallySpec_five_runs.1 tallySpec_five_runs.2.1 tallySpec_five_runs.2.2 h
  have hpass := @hreports countIsZero (by simp [tallySpec])
  have hpass' := @hreports countIsNotZero (by simp [tallySpec])
  exact hall id (tallyInput (js "5")) (tallySpec 5) countIsZero countIsNotZero .pass .pass rfl rfl
    rfl hpass hpass' ⟨rfl, rfl⟩

end TestIntelligence.AgenticHarness.FormalVerification
