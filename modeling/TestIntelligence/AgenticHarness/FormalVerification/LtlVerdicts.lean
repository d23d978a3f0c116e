import TestIntelligence.AgenticHarness.FormalVerification.Verdicts

/-!
# LTL verdicts

An LTL formula is checked as the CTL formula in which every path operator ranges
over all paths.  The verdict is sound for formulae whose path operators stand in
positive positions only, it is exact on the fragment the module documents, and it
is wrong for a negated path operator.
-/

namespace TestIntelligence.AgenticHarness.FormalVerification

open Js Temporal

variable {kripke : KripkeStructure} {enumLiterals : List JsString}

/-- The paths that satisfy an LTL formula. -/
def ltlSat (kripke : KripkeStructure) (enumLiterals : List JsString) :
    TemporalAst → (ℕ → JsString) → Prop
  | .atom expr => now (ctlSat kripke enumLiterals (.atom expr))
  | .not operand => fun π ↦ ¬ ltlSat kripke enumLiterals operand π
  | .and left right => fun π ↦
      ltlSat kripke enumLiterals left π ∧ ltlSat kripke enumLiterals right π
  | .or left right => fun π ↦
      ltlSat kripke enumLiterals left π ∨ ltlSat kripke enumLiterals right π
  | .implies left right => fun π ↦
      ltlSat kripke enumLiterals left π → ltlSat kripke enumLiterals right π
  | .iff left right => fun π ↦
      (ltlSat kripke enumLiterals left π ↔ ltlSat kripke enumLiterals right π)
  | .G operand => globally (ltlSat kripke enumLiterals operand)
  | .F operand => eventually (ltlSat kripke enumLiterals operand)
  | .X operand => next (ltlSat kripke enumLiterals operand)
  | .U left right =>
      until_ (ltlSat kripke enumLiterals left) (ltlSat kripke enumLiterals right)
  | .EX _ | .AX _ | .EF _ | .AF _ | .EG _ | .AG _ | .EU _ _ | .AU _ _ => fun _ ↦ False

/-- Every path from every initial state satisfies the formula. -/
def LtlHolds (kripke : KripkeStructure) (enumLiterals : List JsString) (formula : TemporalAst) :
    Prop :=
  ∀ id ∈ kripke.initial, allPaths (Step kripke) (ltlSat kripke enumLiterals formula) id

/-! ## Polarity -/

/-- Path operators stand in positive positions only, in a formula that itself stands
in a positive or a negative one: not under an odd number of negations and left sides
of implications, and not in an equivalence. -/
def TemporalAst.PathsPositive : Bool → TemporalAst → Prop
  | _, .atom _ => True
  | positive, .not operand => operand.PathsPositive !positive
  | positive, .and left right | positive, .or left right =>
      left.PathsPositive positive ∧ right.PathsPositive positive
  | positive, .implies left right => left.PathsPositive (!positive) ∧ right.PathsPositive positive
  | _, .iff left right => (left.PathsPositive true ∧ left.PathsPositive false) ∧
      right.PathsPositive true ∧ right.PathsPositive false
  | positive, .G operand | positive, .F operand | positive, .X operand =>
      positive = true ∧ operand.PathsPositive positive
  | positive, .U left right =>
      positive = true ∧ left.PathsPositive positive ∧ right.PathsPositive positive
  | _, .EX _ | _, .AX _ | _, .EF _ | _, .AF _ | _, .EG _ | _, .AG _ | _, .EU _ _ | _, .AU _ _ =>
      True

theorem isOf_ltlToCtl {formula : TemporalAst} (h : formula.IsOf .LTL) :
    (ltlToCtl formula).IsOf .CTL := by
  induction formula with
  | atom _ => trivial
  | not _ ih => exact ih h
  | and _ _ ihl ihr | or _ _ ihl ihr | implies _ _ ihl ihr | iff _ _ ihl ihr =>
      exact ⟨ihl h.1, ihr h.2⟩
  | G _ ih | F _ ih | X _ ih => exact ⟨rfl, ih h.2⟩
  | U _ _ ihl ihr => exact ⟨rfl, ihl h.2.1, ihr h.2.2⟩
  | EX _ | AX _ | EF _ | AF _ | EG _ | AG _ | EU _ _ | AU _ _ => cases h.1

@[simp] theorem atoms_ltlToCtl (formula : TemporalAst) :
    (ltlToCtl formula).atoms = formula.atoms := by
  induction formula <;> simp_all [ltlToCtl, TemporalAst.atoms]

/-- In a positive position the translation is stronger than the formula on every
path, in a negative one it is weaker. -/
theorem ltlToCtl_polarity {formula : TemporalAst} (hltl : formula.IsOf .LTL) :
    (formula.PathsPositive true → ∀ π, IsPath (Step kripke) π →
      ctlSat kripke enumLiterals (ltlToCtl formula) (π 0) →
        ltlSat kripke enumLiterals formula π) ∧
    (formula.PathsPositive false → ∀ π, IsPath (Step kripke) π →
      ltlSat kripke enumLiterals formula π →
        ctlSat kripke enumLiterals (ltlToCtl formula) (π 0)) := by
  induction formula with
  | atom expr => exact ⟨fun _ π _ h ↦ h, fun _ π _ h ↦ h⟩
  | not operand ih =>
      obtain ⟨hpos, hneg⟩ := ih hltl
      exact ⟨fun h π hπ hsat hltl ↦ hsat (hneg h π hπ hltl),
        fun h π hπ hltl hsat ↦ hltl (hpos h π hπ hsat)⟩
  | and left right ihl ihr =>
      obtain ⟨hposl, hnegl⟩ := ihl hltl.1
      obtain ⟨hposr, hnegr⟩ := ihr hltl.2
      exact ⟨fun h π hπ hsat ↦ ⟨hposl h.1 π hπ hsat.1, hposr h.2 π hπ hsat.2⟩,
        fun h π hπ hsat ↦ ⟨hnegl h.1 π hπ hsat.1, hnegr h.2 π hπ hsat.2⟩⟩
  | or left right ihl ihr =>
      obtain ⟨hposl, hnegl⟩ := ihl hltl.1
      obtain ⟨hposr, hnegr⟩ := ihr hltl.2
      exact ⟨fun h π hπ hsat ↦ hsat.imp (hposl h.1 π hπ) (hposr h.2 π hπ),
        fun h π hπ hsat ↦ hsat.imp (hnegl h.1 π hπ) (hnegr h.2 π hπ)⟩
  | implies left right ihl ihr =>
      obtain ⟨hposl, hnegl⟩ := ihl hltl.1
      obtain ⟨hposr, hnegr⟩ := ihr hltl.2
      exact ⟨fun h π hπ hsat hleft ↦ hposr h.2 π hπ (hsat (hnegl h.1 π hπ hleft)),
        fun h π hπ hsat hleft ↦ hnegr h.2 π hπ (hsat (hposl h.1 π hπ hleft))⟩
  | iff left right ihl ihr =>
      obtain ⟨hposl, hnegl⟩ := ihl hltl.1
      obtain ⟨hposr, hnegr⟩ := ihr hltl.2
      have hboth : (TemporalAst.iff left right).PathsPositive true → ∀ π, IsPath (Step kripke) π →
          (ctlSat kripke enumLiterals (ltlToCtl (.iff left right)) (π 0) ↔
            ltlSat kripke enumLiterals (.iff left right) π) := by
        rintro ⟨hleft, hright⟩ π hπ
        exact iff_congr ⟨hposl hleft.1 π hπ, hnegl hleft.2 π hπ⟩
          ⟨hposr hright.1 π hπ, hnegr hright.2 π hπ⟩
      exact ⟨fun h π hπ ↦ (hboth h π hπ).mp, fun h π hπ ↦ (hboth h π hπ).mpr⟩
  | G operand ih =>
      obtain ⟨hpos, -⟩ := ih hltl.2
      refine ⟨fun h π hπ hsat n ↦ hpos h.2 _ (hπ.suffix n) (hsat π hπ rfl n), ?_⟩
      exact fun h ↦ absurd h.1 (by decide)
  | F operand ih =>
      obtain ⟨hpos, -⟩ := ih hltl.2
      refine ⟨fun h π hπ hsat ↦ ?_, fun h ↦ absurd h.1 (by decide)⟩
      obtain ⟨n, hn⟩ := hsat π hπ rfl
      exact ⟨n, hpos h.2 _ (hπ.suffix n) hn⟩
  | X operand ih =>
      obtain ⟨hpos, -⟩ := ih hltl.2
      refine ⟨fun h π hπ hsat ↦ hpos h.2 _ (hπ.suffix 1) (hsat π hπ rfl), ?_⟩
      exact fun h ↦ absurd h.1 (by decide)
  | U left right ihl ihr =>
      obtain ⟨hposl, -⟩ := ihl hltl.2.1
      obtain ⟨hposr, -⟩ := ihr hltl.2.2
      refine ⟨fun h π hπ hsat ↦ ?_, fun h ↦ absurd h.1 (by decide)⟩
      obtain ⟨n, hn, hbefore⟩ := hsat π hπ rfl
      exact ⟨n, hposr h.2.2 _ (hπ.suffix n) hn,
        fun m hm ↦ hposl h.2.1 _ (hπ.suffix m) (hbefore m hm)⟩
  | EX _ | AX _ | EF _ | AF _ | EG _ | AG _ | EU _ _ | AU _ _ => cases hltl.1

/-! ## Soundness -/

/-- An LTL formula without negated path operators that passes holds on every path
from every initial state. -/
theorem ltl_pass_sound_of_pathsPositive (sha256 : JsString → JsString)
    (input : VerifyFormalSpecInput) (spec : ParsedSpec) (kripke : KripkeStructure)
    (formula : SpecFormula) (hkripke : buildKripke spec = .ok kripke)
    (hlogic : formula.logic = .LTL) (hpositive : formula.ast.PathsPositive true)
    (hpass : Reports sha256 input spec formula .pass) :
    LtlHolds kripke (collectEnumLiterals spec) formula.ast := by
  obtain ⟨kripke', result, hkripke', hmem, hresult, hverdict⟩ := hpass.verifyFormula
  rw [hkripke, Except.ok.injEq] at hkripke'
  subst hkripke'
  have hltl : formula.ast.IsOf .LTL := hlogic ▸ formulaeOfLogic_of_parseSpec hpass.1 formula hmem
  have hast : formula.ctlAst = ltlToCtl formula.ast := by rw [SpecFormula.ctlAst, hlogic]
  have hctl : formula.ctlAst.IsOf .CTL := hast ▸ isOf_ltlToCtl hltl
  have hsat := (verdict_eq_pass_iff (built_of_buildKripke hkripke).wellFormed hctl hresult).mp
    hverdict
  rintro id hid π hπ rfl
  exact (ltlToCtl_polarity hltl).1 hpositive π hπ (hast ▸ hsat _ hid)

/-- A door that may be opened and then stays open.  The first formula says so, the
second says that it is never opened. -/
def doorInput : VerifyFormalSpecInput where
  specPath := js "door.smv"
  specSource := js "MODULE door VAR open : boolean; ASSIGN init(open) := FALSE; " ++
    js "next(open) := case open = TRUE : TRUE; TRUE : \x7bTRUE, FALSE\x7d; esac; " ++
    js "LTLSPEC G (open = TRUE -> G open = TRUE) LTLSPEC !(F open = TRUE)"

def doorOpen : ExprAst := .binop .eq (.ident (js "open")) (.bool true)

def stayingOpen : SpecFormula where
  logic := .LTL
  source := js "G ((open = TRUE) -> G (open = TRUE))"
  ast := .G (.implies (.atom doorOpen) (.G (.atom doorOpen)))

def neverOpen : SpecFormula where
  logic := .LTL
  source := js "!F (open = TRUE)"
  ast := .not (.F (.atom doorOpen))

def doorSpec : ParsedSpec where
  moduleName := js "door"
  specVariables := [.enum (js "open") [js "FALSE", js "TRUE"]]
  inits := [⟨js "open", .bool false⟩]
  nexts := [⟨js "open", .case [(doorOpen, .bool true), (.bool true, .set [.bool true, .bool false])]⟩]
  formulae := [stayingOpen, neverOpen]

def closedId : JsString := js "open=false"

def openId : JsString := js "open=true"

def doorKripke : KripkeStructure where
  states := [(closedId, ⟨closedId, [(js "open", .bool false)]⟩),
    (openId, ⟨openId, [(js "open", .bool true)]⟩)]
  initial := [closedId]
  transitions := [(closedId, [openId, closedId]), (openId, [openId])]

/-- Both formulae pass. -/
def doorResults : List FormalVerificationFormulaResult :=
  [⟨.LTL, stayingOpen.source, .pass, none⟩, ⟨.LTL, neverOpen.source, .pass, none⟩]

/-- The parser, the search and the verdicts on the door. -/
theorem doorSpec_runs : parseSpec doorInput.specSource = .ok doorSpec ∧
    buildKripke doorSpec = .ok doorKripke ∧
    verifyFormulae doorKripke (collectEnumLiterals doorSpec) doorSpec.formulae =
      .ok doorResults := by
  rw [doorInput, js_ofList, js_ofList, js_ofList]
  decide +kernel

theorem reports_door {formula : SpecFormula}
    (h : (formula, ⟨.LTL, formula.source, .pass, none⟩) ∈ doorSpec.formulae.zip doorResults) :
    Reports id doorInput doorSpec formula .pass :=
  reports_of doorSpec_runs.1 doorSpec_runs.2.1 doorSpec_runs.2.2 h

theorem ltl_pass_sound_door :
    Reports id doorInput doorSpec stayingOpen .pass ∧
      stayingOpen.ast.PathsPositive true ∧
        LtlHolds doorKripke (collectEnumLiterals doorSpec) stayingOpen.ast := by
  have hpositive : stayingOpen.ast.PathsPositive true := by
    simp [stayingOpen, TemporalAst.PathsPositive]
  have hpass : Reports id doorInput doorSpec stayingOpen .pass :=
    reports_door (by simp [doorSpec, doorResults])
  exact ⟨hpass, hpositive, ltl_pass_sound_of_pathsPositive id doorInput doorSpec
    doorKripke stayingOpen doorSpec_runs.2.1 rfl hpositive hpass⟩

/-- `!(F open = TRUE)` passes, and the path that opens the door violates it. -/
theorem ltl_pass_unsound :
    ¬ ∀ (sha256 : JsString → JsString) (input : VerifyFormalSpecInput) (spec : ParsedSpec)
      (kripke : KripkeStructure) (formula : SpecFormula), buildKripke spec = .ok kripke →
        formula.logic = .LTL → Reports sha256 input spec formula .pass →
          LtlHolds kripke (collectEnumLiterals spec) formula.ast := by
  intro hall
  have hpass : Reports id doorInput doorSpec neverOpen .pass :=
    reports_door (by simp [doorSpec, doorResults])
  have hholds := hall id doorInput doorSpec doorKripke neverOpen
    doorSpec_runs.2.1 rfl hpass
  obtain ⟨hloop, hopening, hinitial, hfound, hopen⟩ : Step doorKripke openId openId ∧
      Step doorKripke closedId openId ∧ closedId ∈ doorKripke.initial ∧
      mapGet doorKripke.states openId = some ⟨openId, [(js "open", .bool true)]⟩ ∧
      atomSatisfies doorOpen [(js "open", .bool true)] (collectEnumLiterals doorSpec) =
        .ok true := by
    unfold Step
    decide
  exact hholds closedId hinitial (consPath closedId fun _ ↦ openId)
    (isPath_consPath hopening fun _ ↦ hloop) rfl ⟨1, _, hfound, hopen⟩

/-! ## The documented fragment -/

/-- Built from propositions without path operators. -/
def TemporalAst.Propositional : TemporalAst → Prop
  | .atom _ => True
  | .not operand => operand.Propositional
  | .and left right | .or left right | .implies left right | .iff left right =>
      left.Propositional ∧ right.Propositional
  | _ => False

/-- The documented fragment: `G p`, `F p`, `X p`, `p U q`, `G (p -> F q)` and
`G (p -> X q)`. -/
def ltlFragment (p q : TemporalAst) : List TemporalAst :=
  [.G p, .F p, .X p, .U p q, .G (.implies p (.F q)), .G (.implies p (.X q))]

theorem TemporalAst.Propositional.isOf {formula : TemporalAst} (h : formula.Propositional) :
    formula.IsOf .LTL := by
  induction formula with
  | atom _ => trivial
  | not _ ih => exact ih h
  | and _ _ ihl ihr | or _ _ ihl ihr | implies _ _ ihl ihr | iff _ _ ihl ihr =>
      exact ⟨ihl h.1, ihr h.2⟩
  | _ => exact h.elim

theorem isOf_ltlFragment {p q formula : TemporalAst} (hp : p.Propositional) (hq : q.Propositional)
    (h : formula ∈ ltlFragment p q) : formula.IsOf .LTL := by
  have hp' := hp.isOf
  have hq' := hq.isOf
  simp only [ltlFragment, List.mem_cons, List.not_mem_nil, or_false] at h
  rcases h with rfl | rfl | rfl | rfl | rfl | rfl <;> simp [TemporalAst.IsOf, hp', hq']

/-- A propositional formula is read at the first state. -/
theorem ltlSat_propositional {formula : TemporalAst} (h : formula.Propositional) :
    ltlSat kripke enumLiterals formula =
      now (ctlSat kripke enumLiterals (ltlToCtl formula)) := by
  funext π
  induction formula with
  | atom expr => rfl
  | not operand ih => exact congrArg Not (ih h)
  | and left right ihl ihr => exact congrArg₂ And (ihl h.1) (ihr h.2)
  | or left right ihl ihr => exact congrArg₂ Or (ihl h.1) (ihr h.2)
  | implies left right ihl ihr => exact implies_congr (ihl h.1) (ihr h.2)
  | iff left right ihl ihr => exact congrArg₂ Iff (ihl h.1) (ihr h.2)
  | _ => exact h.elim

/-- `G (p -> ...)` on all paths: by splicing, the premise can be tested at every
state that a path visits and the conclusion on every continuation from there. -/
theorem allPaths_globally_imp {P : JsString → Prop} {φ : (ℕ → JsString) → Prop} {id : JsString} :
    allPaths (Step kripke) (globally (now fun s ↦ P s → allPaths (Step kripke) φ s)) id ↔
      allPaths (Step kripke) (globally fun π ↦ now P π → φ π) id := by
  have hpremise : (fun s ↦ P s → allPaths (Step kripke) φ s) =
      allPaths (Step kripke) fun π ↦ now P π → φ π :=
    funext fun s ↦ propext allPaths_now_imp.symm
  rw [hpremise]
  exact allPaths_globally_allPaths

/-- On the fragment the translation is equivalent to the formula on all paths. -/
theorem ctlSat_ltlFragment {p q formula : TemporalAst} (hp : p.Propositional)
    (hq : q.Propositional) (h : formula ∈ ltlFragment p q) (id : JsString) :
    ctlSat kripke enumLiterals (ltlToCtl formula) id ↔
      allPaths (Step kripke) (ltlSat kripke enumLiterals formula) id := by
  simp only [ltlFragment, List.mem_cons, List.not_mem_nil, or_false] at h
  rcases h with rfl | rfl | rfl | rfl | rfl | rfl
  · simp only [ltlToCtl, ctlSat, ltlSat, ltlSat_propositional hp]
  · simp only [ltlToCtl, ctlSat, ltlSat, ltlSat_propositional hp]
  · simp only [ltlToCtl, ctlSat, ltlSat, ltlSat_propositional hp]
  · simp only [ltlToCtl, ctlSat, ltlSat, ltlSat_propositional hp, ltlSat_propositional hq]
  · simp only [ltlToCtl, ctlSat, ltlSat, ltlSat_propositional hp, ltlSat_propositional hq]
    exact allPaths_globally_imp
  · simp only [ltlToCtl, ctlSat, ltlSat, ltlSat_propositional hp, ltlSat_propositional hq]
    exact allPaths_globally_imp

/-- On the documented fragment the verdict is exact, on every total structure. -/
theorem ltl_verdict_exact_on_fragment (kripke : KripkeStructure) (enumLiterals : List JsString)
    (p q : TemporalAst) (formula : SpecFormula) (hk : kripke.WellFormed)
    (hp : p.Propositional) (hq : q.Propositional) (hlogic : formula.logic = .LTL)
    (hformula : formula.ast ∈ ltlFragment p q)
    (hatoms : AtomsEvaluate kripke enumLiterals formula.ast) :
    ∃ result, verifyFormula kripke enumLiterals formula = .ok result ∧
      (result.verdict = .pass ↔ LtlHolds kripke enumLiterals formula.ast) := by
  have hast : formula.ctlAst = ltlToCtl formula.ast := by rw [SpecFormula.ctlAst, hlogic]
  have hctl : formula.ctlAst.IsOf .CTL := hast ▸ isOf_ltlToCtl (isOf_ltlFragment hp hq hformula)
  have hatoms' : AtomsEvaluate kripke enumLiterals formula.ctlAst := by
    intro expr hexpr
    rw [hast, atoms_ltlToCtl] at hexpr
    exact hatoms expr hexpr
  obtain ⟨result, hresult⟩ := (verifyFormula_ok_iff hk hctl).mpr hatoms'
  refine ⟨result, hresult, (verdict_eq_pass_iff hk hctl hresult).trans ?_⟩
  rw [hast]
  exact forall₂_congr fun id _ ↦ ctlSat_ltlFragment hp hq hformula id

theorem doorKripke_wellFormed : doorKripke.WellFormed :=
  (built_of_buildKripke doorSpec_runs.2.1).wellFormed

/-- `G (open = TRUE -> F open = TRUE)`. -/
def keptOpen : SpecFormula where
  logic := .LTL
  source := js "G ((open = TRUE) -> F (open = TRUE))"
  ast := .G (.implies (.atom doorOpen) (.F (.atom doorOpen)))

theorem keptOpen_atomsEvaluate : AtomsEvaluate doorKripke [] keptOpen.ast := by
  intro expr hexpr p hp
  have hexpr' : expr = doorOpen := by simpa [keptOpen, TemporalAst.atoms] using hexpr
  subst hexpr'
  have hvalues : atomSatisfies doorOpen [(js "open", .bool false)] [] = .ok false ∧
      atomSatisfies doorOpen [(js "open", .bool true)] [] = .ok true := by
    decide
  rcases List.mem_cons.mp hp with rfl | hp
  · exact ⟨false, hvalues.1⟩
  · rw [List.mem_singleton.mp hp]
    exact ⟨true, hvalues.2⟩

theorem ltl_verdict_exact_door :
    doorKripke.WellFormed ∧ keptOpen.ast ∈ ltlFragment (.atom doorOpen) (.atom doorOpen) ∧
      ∃ result, verifyFormula doorKripke [] keptOpen = .ok result ∧
        (result.verdict = .pass ↔ LtlHolds doorKripke [] keptOpen.ast) :=
  have hmem : keptOpen.ast ∈ ltlFragment (.atom doorOpen) (.atom doorOpen) := by
    simp [keptOpen, ltlFragment]
  ⟨doorKripke_wellFormed, hmem, ltl_verdict_exact_on_fragment doorKripke [] (.atom doorOpen)
    (.atom doorOpen) keptOpen doorKripke_wellFormed trivial trivial rfl hmem keptOpen_atomsEvaluate⟩

end TestIntelligence.AgenticHarness.FormalVerification
