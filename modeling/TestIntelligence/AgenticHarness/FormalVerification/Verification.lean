import TestIntelligence.AgenticHarness.FormalVerification.CtlChecker
import TestIntelligence.AgenticHarness.FormalVerification.Parser

/-!
# Verifying a specification

`ltlToCtl`, `findCounterexample` and `verifyFormalVerificationSpec` of
`formal-verification.ts`.
-/

namespace TestIntelligence.AgenticHarness.FormalVerification

open Js

/-! ## Translation -/

def ltlToCtl : TemporalAst → TemporalAst
  | .atom expr => .atom expr
  | .not operand => .not (ltlToCtl operand)
  | .and left right => .and (ltlToCtl left) (ltlToCtl right)
  | .or left right => .or (ltlToCtl left) (ltlToCtl right)
  | .implies left right => .implies (ltlToCtl left) (ltlToCtl right)
  | .iff left right => .iff (ltlToCtl left) (ltlToCtl right)
  | .G operand => .AG (ltlToCtl operand)
  | .F operand => .AF (ltlToCtl operand)
  | .X operand => .AX (ltlToCtl operand)
  | .U left right => .AU (ltlToCtl left) (ltlToCtl right)
  | .EX operand => .EX (ltlToCtl operand)
  | .AX operand => .AX (ltlToCtl operand)
  | .EF operand => .EF (ltlToCtl operand)
  | .AF operand => .AF (ltlToCtl operand)
  | .EG operand => .EG (ltlToCtl operand)
  | .AG operand => .AG (ltlToCtl operand)
  | .EU left right => .EU (ltlToCtl left) (ltlToCtl right)
  | .AU left right => .AU (ltlToCtl left) (ltlToCtl right)

/-! ## Counterexamples -/

/-- `ast.kind`. -/
def TemporalAst.kind : TemporalAst → JsString
  | .atom _ => js "atom"
  | .not _ => js "not"
  | .and _ _ => js "and"
  | .or _ _ => js "or"
  | .implies _ _ => js "implies"
  | .iff _ _ => js "iff"
  | .G _ => js "G"
  | .F _ => js "F"
  | .X _ => js "X"
  | .U _ _ => js "U"
  | .EX _ => js "EX"
  | .AX _ => js "AX"
  | .EF _ => js "EF"
  | .AF _ => js "AF"
  | .EG _ => js "EG"
  | .AG _ => js "AG"
  | .EU _ _ => js "EU"
  | .AU _ _ => js "AU"

def atomCoreSatisfies (valuation : Valuation) (enumLiterals : List JsString) :
    TemporalAst → Eval Bool
  | .atom expr => atomSatisfies expr valuation enumLiterals
  | .not operand => return !(← atomCoreSatisfies valuation enumLiterals operand)
  | .and left right => do
      if ← atomCoreSatisfies valuation enumLiterals left then
        atomCoreSatisfies valuation enumLiterals right
      else return false
  | .or left right => do
      if ← atomCoreSatisfies valuation enumLiterals left then return true
      else atomCoreSatisfies valuation enumLiterals right
  | .implies left right => do
      if ← atomCoreSatisfies valuation enumLiterals left then
        atomCoreSatisfies valuation enumLiterals right
      else return true
  | .iff left right => do
      let a ← atomCoreSatisfies valuation enumLiterals left
      let b ← atomCoreSatisfies valuation enumLiterals right
      return a = b
  | other => fail (js "atomCoreSatisfies only evaluates propositional subformulas, got " ++
      other.kind)

/-- `try { return ... } catch { return false; }`. -/
def orFalse : Eval Bool → Bool
  | .ok b => b
  | .error _ => false

def witnessesFailure (kripke : KripkeStructure) (id : JsString) (formula : TemporalAst)
    (enumLiterals : List JsString) : Bool :=
  match mapGet kripke.states id with
  | none => false
  | some state =>
      match formula with
      | .AG operand => orFalse do
          return !(← atomCoreSatisfies state.valuation enumLiterals operand)
      | .implies left right => orFalse do
          if ← atomCoreSatisfies state.valuation enumLiterals left then
            return !(← atomCoreSatisfies state.valuation enumLiterals right)
          else return false
      | _ => false

/-- The state of the search for a failing state. -/
structure Traversal where
  visited : List JsString
  parents : List (JsString × JsString)
  queue : List JsString

def Traversal.visit (id : JsString) (traversal : Traversal) (target : JsString) : Traversal :=
  if target ∈ traversal.visited then traversal
  else ⟨traversal.visited ++ [target], mapSet traversal.parents target id,
    traversal.queue ++ [target]⟩

/-- The first `while` loop of `findCounterexample`: the failing state, when one is
found, and the parents.  A state is queued once. -/
def searchFailure (kripke : KripkeStructure) (formula : TemporalAst)
    (enumLiterals : List JsString) :
    ℕ → Traversal → Eval (Option JsString × List (JsString × JsString))
  | 0, _ => .error .diverges
  | fuel + 1, traversal =>
      match traversal.queue with
      | [] => .ok (none, traversal.parents)
      | id :: rest =>
          if witnessesFailure kripke id formula enumLiterals then
            .ok (some id, traversal.parents)
          else
            searchFailure kripke formula enumLiterals fuel
              ((successorsOf kripke id).foldl (Traversal.visit id) { traversal with queue := rest })

/-- The second `while` loop: the path back to the failing initial state. -/
def pathBack (parents : List (JsString × JsString)) (failingInitial : JsString) :
    ℕ → JsString → List JsString → Eval (List JsString)
  | 0, _, _ => .error .diverges
  | fuel + 1, cursor, path =>
      if cursor = failingInitial then .ok path
      else
        match mapGet parents cursor with
        | none => .ok path
        | some parent => pathBack parents failingInitial fuel parent (parent :: path)

structure FormalVerificationCounterexample where
  trace : List FormalVerificationState
  explanation : JsString
  deriving DecidableEq

/-- A value as `stringifyValuation` shows it. -/
def valueText : Option PrimitiveValue → JsString
  | some (.text s) => s
  | some value => jsonText value
  | none => js "undefined"

def stringifyValuation (valuation : Valuation) : JsString :=
  join (js ", ") ((sortStrings (valuation.map Prod.fst)).map fun key ↦
    key ++ 0x3D :: valueText (mapGet valuation key))

/-- A length, as a template shows it. -/
def lengthText (n : ℕ) : JsString := numberText (.ofRat n)

def explainCounterexample (formula : TemporalAst) (trace : List FormalVerificationState) :
    JsString :=
  let summary :=
    match trace.getLast? with
    | some last =>
        js "at state " ++ lengthText (trace.length - 1) ++ js ": " ++
          stringifyValuation last.valuation
    | none => js "no reachable failing path found"
  js "formula does not hold; counterexample length " ++ lengthText trace.length ++ js "; " ++
    summary ++ js "; formula=" ++ stringifyTemporal formula

def findCounterexample (kripke : KripkeStructure) (formula : TemporalAst)
    (satisfying enumLiterals : List JsString) :
    Eval (Option FormalVerificationCounterexample) :=
  match kripke.initial.find? (· ∉ satisfying) with
  | none => .ok none
  | some failingInitial => do
      let (witness, parents) ← searchFailure kripke formula enumLiterals
        (kripke.states.length + 1) ⟨[failingInitial], [], [failingInitial]⟩
      let target := witness.getD failingInitial
      let path ← pathBack parents failingInitial (parents.length + 1) target [target]
      let trace := path.filterMap (mapGet kripke.states)
      return some ⟨trace, explainCounterexample formula trace⟩

/-! ## Verdicts -/

inductive FormalVerificationVerdict
  | pass
  | fail
  deriving DecidableEq, Repr

structure FormalVerificationFormulaResult where
  logic : FormalVerificationLogic
  formula : JsString
  verdict : FormalVerificationVerdict
  counterexample : Option FormalVerificationCounterexample
  deriving DecidableEq

/-- The formula that is checked. -/
def SpecFormula.ctlAst (formula : SpecFormula) : TemporalAst :=
  match formula.logic with
  | .LTL => ltlToCtl formula.ast
  | .CTL => formula.ast

/-- `kripke.initial.every((id) => satisfying.has(id)) ? "pass" : "fail"`. -/
def verdictOf (kripke : KripkeStructure) (satisfying : List JsString) : FormalVerificationVerdict :=
  if kripke.initial.all (· ∈ satisfying) then .pass else .fail

/-- One turn of the loop over the formulae. -/
def verifyFormula (kripke : KripkeStructure) (enumLiterals : List JsString)
    (formula : SpecFormula) : Eval FormalVerificationFormulaResult := do
  let satisfying ← checkCtl (kripke.context enumLiterals) formula.ctlAst
  match verdictOf kripke satisfying with
  | .pass => return ⟨formula.logic, formula.source, .pass, none⟩
  | .fail =>
      let counterexample ← findCounterexample kripke formula.ctlAst satisfying enumLiterals
      return ⟨formula.logic, formula.source, .fail, counterexample⟩

def verifyFormulae (kripke : KripkeStructure) (enumLiterals : List JsString) :
    List SpecFormula → Eval (List FormalVerificationFormulaResult)
  | [] => .ok []
  | formula :: rest => do
      let result ← verifyFormula kripke enumLiterals formula
      let results ← verifyFormulae kripke enumLiterals rest
      return result :: results

structure VerifyFormalSpecInput where
  specPath : JsString
  specSource : JsString

structure FormalVerificationSpecResult where
  specPath : JsString
  specSha256 : JsString
  moduleName : JsString
  reachableStateCount : ℕ
  formulae : List FormalVerificationFormulaResult
  verdict : FormalVerificationVerdict

/-- `verifyFormalVerificationSpec`; `sha256` is the digest of the platform. -/
def verifyFormalVerificationSpec (sha256 : JsString → JsString) (input : VerifyFormalSpecInput) :
    Eval FormalVerificationSpecResult := do
  let parsed ← parseSpec input.specSource
  let kripke ← buildKripke parsed
  let results ← verifyFormulae kripke (collectEnumLiterals parsed) parsed.formulae
  return {
    specPath := input.specPath
    specSha256 := sha256 input.specSource
    moduleName := parsed.moduleName
    reachableStateCount := kripke.states.length
    formulae := results
    verdict := if results.all (·.verdict = .pass) then .pass else .fail }

end TestIntelligence.AgenticHarness.FormalVerification
