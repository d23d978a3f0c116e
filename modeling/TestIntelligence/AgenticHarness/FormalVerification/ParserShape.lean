import TestIntelligence.AgenticHarness.FormalVerification.Parser

/-!
# What the parser returns

Rules for properties of parsed values, and the shape of the formulae of an accepted
specification: the grammar of `LTLSPEC` has no path quantifier, that of `CTLSPEC`
no bare path operator.
-/

namespace TestIntelligence.AgenticHarness.FormalVerification

open Js

/-! ## Rules -/

/-- Whatever the parser returns has the property. -/
def Yields {α : Type} (parser : Parser α) (P : α → Prop) : Prop :=
  ∀ tokens a rest, parser tokens = .ok (a, rest) → P a

namespace Yields

variable {α β : Type} {P : α → Prop} {Q : β → Prop}

theorem pure {a : α} (h : P a) : Yields (Pure.pure a) P := by
  intro tokens b rest heq
  cases heq
  exact h

theorem raise {error : VerificationError} :
    Yields (FormalVerification.raise error) P := by
  intro tokens a rest heq
  cases heq

theorem raise_bind {error : VerificationError} {f : α → Parser β} :
    Yields (FormalVerification.raise error >>= f) Q := by
  intro tokens b rest heq
  cases heq

theorem bind_of {parser : Parser α} {f : α → Parser β} (hparser : Yields parser P)
    (hf : ∀ a, P a → Yields (f a) Q) : Yields (parser >>= f) Q := by
  intro tokens b rest heq
  change (parser tokens >>= fun p ↦ f p.1 p.2) = .ok (b, rest) at heq
  cases hrun : parser tokens with
  | error e =>
      rw [hrun] at heq
      cases heq
  | ok p =>
      rw [hrun] at heq
      exact hf p.1 (hparser tokens p.1 p.2 hrun) p.2 b rest heq

theorem bind {parser : Parser α} {f : α → Parser β} (hf : ∀ a, Yields (f a) Q) :
    Yields (parser >>= f) Q :=
  @bind_of α β (fun _ ↦ True) Q parser f (fun _ _ _ _ ↦ trivial) fun a _ ↦ hf a

theorem errorAt {tok : Token} {message : JsString} :
    Yields (FormalVerification.errorAt tok message) P := raise

theorem cursorError {message : JsString} : Yields (FormalVerification.cursorError message) P :=
  bind fun _ ↦ errorAt

/-- A loop over operators keeps what its operands and its nodes have. -/
theorem parseChain {γ : Type} {operator : Token → Option γ} {build : γ → α → α → α}
    {operand : Parser α} (hoperand : Yields operand P)
    (hbuild : ∀ op left right, P left → P right → P (build op left right)) {fuel : ℕ} {left : α}
    (hleft : P left) : Yields (FormalVerification.parseChain operator build operand fuel left) P := by
  induction fuel generalizing left with
  | zero => exact raise
  | succ fuel ih =>
      unfold FormalVerification.parseChain
      refine bind fun tok ↦ ?_
      split
      · exact pure hleft
      · refine bind fun _ ↦ bind_of hoperand fun right hright ↦ ?_
        exact ih (hbuild _ _ _ hleft hright)

end Yields

/-! ## Formulae of a logic -/

variable {logic : FormalVerificationLogic}

theorem yields_parseTemporalUntil {unary : Parser TemporalAst}
    (hunary : Yields unary (·.IsOf logic)) :
    Yields (parseTemporalUntil logic unary) (·.IsOf logic) := by
  unfold parseTemporalUntil
  refine .bind_of hunary fun left hleft ↦ .bind fun _ ↦ ?_
  split
  · next h => exact .bind fun _ ↦ .bind_of hunary fun right hright ↦ .pure ⟨h.1, hleft, hright⟩
  · exact .pure hleft

theorem yields_parseTemporalAnd {fuel : ℕ} {unary : Parser TemporalAst}
    (hunary : Yields unary (·.IsOf logic)) :
    Yields (parseTemporalAnd fuel logic unary) (·.IsOf logic) := by
  have huntil := yields_parseTemporalUntil hunary
  unfold parseTemporalAnd
  refine .bind_of huntil fun left hleft ↦ .parseChain huntil ?_ hleft
  exact fun _ left right hleft hright ↦ ⟨hleft, hright⟩

theorem yields_parseTemporalOr {fuel : ℕ} {unary : Parser TemporalAst}
    (hunary : Yields unary (·.IsOf logic)) :
    Yields (parseTemporalOr fuel logic unary) (·.IsOf logic) := by
  have hand : Yields (parseTemporalAnd fuel logic unary) (·.IsOf logic) :=
    yields_parseTemporalAnd hunary
  unfold parseTemporalOr
  refine .bind_of hand fun left hleft ↦ .parseChain hand ?_ hleft
  exact fun _ left right hleft hright ↦ ⟨hleft, hright⟩

theorem yields_parseTemporalImplies {disjunction : Parser TemporalAst}
    (h : Yields disjunction (·.IsOf logic)) {fuel : ℕ} :
    Yields (parseTemporalImplies disjunction fuel) (·.IsOf logic) := by
  induction fuel with
  | zero => exact .raise
  | succ fuel ih =>
      unfold parseTemporalImplies
      refine .bind_of h fun left hleft ↦ .bind fun _ ↦ ?_
      split
      · exact .bind fun _ ↦ .bind_of ih fun right hright ↦ .pure ⟨hleft, hright⟩
      · exact .pure hleft

theorem yields_parseTemporalIff {fuel : ℕ} {unary : Parser TemporalAst}
    (hunary : Yields unary (·.IsOf logic)) :
    Yields (parseTemporalIff fuel logic unary) (·.IsOf logic) := by
  have himplies : Yields (parseTemporalImplies (parseTemporalOr fuel logic unary) fuel)
      (·.IsOf logic) := yields_parseTemporalImplies (yields_parseTemporalOr hunary)
  unfold parseTemporalIff
  refine .bind_of himplies fun left hleft ↦ .parseChain himplies ?_ hleft
  exact fun _ left right hleft hright ↦ ⟨hleft, hright⟩

theorem yields_parseQuantified {temporal : Parser TemporalAst}
    (h : Yields temporal (·.IsOf logic)) {quant : JsString} :
    Yields (parseQuantified temporal quant) fun p ↦ p.1.IsOf logic ∧ p.2.IsOf logic := by
  unfold parseQuantified
  refine .bind fun _ ↦ .bind_of h fun left hleft ↦ .bind fun _ ↦ ?_
  split
  · exact .cursorError
  · exact .bind fun _ ↦ .bind_of h fun right hright ↦ .bind fun _ ↦ .pure ⟨hleft, hright⟩

theorem yields_parseTemporalAtom {fuel : ℕ} {temporal : Parser TemporalAst}
    (h : Yields temporal (·.IsOf logic)) :
    Yields (parseTemporalAtom fuel temporal) (·.IsOf logic) := by
  unfold parseTemporalAtom
  refine .bind fun _ ↦ ?_
  split
  · exact .bind fun _ ↦ .bind_of h fun inner hinner ↦ .bind fun _ ↦ .pure hinner
  · exact .bind fun _ ↦ .pure trivial

/-- The unary operators of a logic build its formulae. -/
theorem isOf_unaryOperators {operator : JsString × (TemporalAst → TemporalAst)}
    (h : operator ∈ unaryOperators logic) {operand : TemporalAst} (hoperand : operand.IsOf logic) :
    (operator.2 operand).IsOf logic := by
  cases logic with
  | LTL =>
      simp only [unaryOperators, List.mem_cons, List.not_mem_nil, or_false] at h
      rcases h with rfl | rfl | rfl <;> exact ⟨rfl, hoperand⟩
  | CTL =>
      simp only [unaryOperators, List.mem_cons, List.not_mem_nil, or_false] at h
      rcases h with rfl | rfl | rfl | rfl | rfl | rfl <;> exact ⟨rfl, hoperand⟩

theorem yields_parseTemporalUnary {fuel : ℕ} :
    Yields (parseTemporalUnary logic fuel) (·.IsOf logic) := by
  induction fuel with
  | zero => exact .raise
  | succ fuel ih =>
      have htemporal : Yields (parseTemporalIff fuel logic (parseTemporalUnary logic fuel))
          (·.IsOf logic) := yields_parseTemporalIff ih
      unfold parseTemporalUnary
      refine .bind fun tok ↦ ?_
      split
      · exact .bind fun _ ↦ .bind_of ih fun operand hoperand ↦ .pure hoperand
      · split
        · next build hfind =>
            refine .bind fun _ ↦ .bind_of ih fun operand hoperand ↦ .pure ?_
            exact isOf_unaryOperators (List.mem_of_find?_eq_some hfind) hoperand
        · split
          · next h =>
              refine .bind fun _ ↦ .bind_of (yields_parseQuantified htemporal) fun p hp ↦ ?_
              exact .pure ⟨h.1, hp⟩
          · split
            · next h =>
                refine .bind fun _ ↦ .bind_of (yields_parseQuantified htemporal) fun p hp ↦ ?_
                exact .pure ⟨h.1, hp⟩
            · exact yields_parseTemporalAtom htemporal

theorem yields_parseFormula {fuel : ℕ} :
    Yields (parseFormula fuel logic) fun formula ↦
      formula.logic = logic ∧ formula.ast.IsOf formula.logic :=
  .bind_of (yields_parseTemporalIff yields_parseTemporalUnary) fun _ hast ↦ .pure ⟨rfl, hast⟩

/-! ## Accepted specifications -/

/-- Every formula is of its logic. -/
def ParsedSpec.FormulaeOfLogic (spec : ParsedSpec) : Prop :=
  ∀ formula ∈ spec.formulae, formula.ast.IsOf formula.logic

theorem ParsedSpec.FormulaeOfLogic.append {spec : ParsedSpec} (h : spec.FormulaeOfLogic)
    {formula : SpecFormula} (hformula : formula.ast.IsOf formula.logic) :
    ParsedSpec.FormulaeOfLogic { spec with formulae := spec.formulae ++ [formula] } := by
  intro formula' hmem
  rcases List.mem_append.mp hmem with hmem | hmem
  · exact h formula' hmem
  · rw [List.mem_singleton.mp hmem]
    exact hformula

theorem yields_parseSections {fuel : ℕ} {spec : ParsedSpec} (hspec : spec.FormulaeOfLogic) :
    Yields (parseSections fuel spec) ParsedSpec.FormulaeOfLogic := by
  induction fuel generalizing spec with
  | zero => exact .raise
  | succ fuel ih =>
      unfold parseSections
      refine .bind fun tok ↦ ?_
      split
      · exact .pure hspec
      split
      · exact .bind fun _ ↦ .bind fun declared ↦ ih hspec
      split
      · exact .bind fun _ ↦ .bind fun p ↦ ih hspec
      split
      · exact .bind fun _ ↦ .bind_of yields_parseFormula fun formula h ↦ ih (hspec.append h.2)
      split
      · exact .bind fun _ ↦ .bind_of yields_parseFormula fun formula h ↦ ih (hspec.append h.2)
      split
      · exact .cursorError
      · exact .errorAt

theorem yields_parseModule {fuel : ℕ} :
    Yields (parseModule fuel) ParsedSpec.FormulaeOfLogic := by
  have hempty : ∀ name, ParsedSpec.FormulaeOfLogic ⟨name, [], [], [], []⟩ := fun _ ↦ nofun
  unfold parseModule
  refine .bind fun _ ↦ .bind fun nameTok ↦ ?_
  split
  · exact .raise_bind
  refine .bind_of (yields_parseSections (hempty nameTok.value)) fun spec hspec ↦ ?_
  dsimp only
  split
  · exact .raise_bind
  split
  · exact .raise_bind
  split
  · exact .raise_bind
  · exact .pure hspec

/-- The formulae of an accepted specification are of their logics. -/
theorem formulaeOfLogic_of_parseSpec {source : JsString} {spec : ParsedSpec}
    (h : parseSpec source = .ok spec) : spec.FormulaeOfLogic := by
  unfold parseSpec at h
  split at h
  · cases h
  · split at h
    · cases h
    · next tokens _ =>
        change (parseModule (tokens.length + 1) tokens >>= fun p ↦ .ok p.1) = .ok spec at h
        cases hrun : parseModule (tokens.length + 1) tokens with
        | error e =>
            rw [hrun] at h
            cases h
        | ok p =>
            rw [hrun] at h
            cases h
            exact yields_parseModule tokens p.1 p.2 hrun

end TestIntelligence.AgenticHarness.FormalVerification
