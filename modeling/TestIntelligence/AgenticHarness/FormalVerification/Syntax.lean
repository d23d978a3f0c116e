import TestIntelligence.Js.NumberText
import TestIntelligence.Js.Json

/-!
# Specifications

The syntax trees of `formal-verification.ts`: expressions, temporal formulae and
specifications, with the texts that `stringifyTemporal` gives them.
-/

namespace TestIntelligence.AgenticHarness.FormalVerification

open Js

/-- A value of an expression.  `builtin` stands for the members every object
inherits, which are read when an identifier has one of their names. -/
inductive PrimitiveValue
  | text (s : JsString)
  | number (x : JsNumber)
  | bool (b : Bool)
  | builtin (name : JsString)
  deriving DecidableEq

inductive ExprBinOp
  | add
  | sub
  | eq
  | ne
  | lt
  | le
  | gt
  | ge
  | and
  | or
  | implies
  | iff
  | mem
  deriving DecidableEq, Repr

def ExprBinOp.text : ExprBinOp → JsString
  | .add => js "+"
  | .sub => js "-"
  | .eq => js "="
  | .ne => js "!="
  | .lt => js "<"
  | .le => js "<="
  | .gt => js ">"
  | .ge => js ">="
  | .and => js "&"
  | .or => js "|"
  | .implies => js "->"
  | .iff => js "<->"
  | .mem => js "in"

inductive ExprAst
  | ident (name : JsString)
  | int (value : JsNumber)
  | bool (value : Bool)
  | set (values : List PrimitiveValue)
  | binop (op : ExprBinOp) (left right : ExprAst)
  | unop (operand : ExprAst)
  | case (cases : List (ExprAst × ExprAst))

mutual

def ExprAst.decEq : (a b : ExprAst) → Decidable (a = b)
  | .ident x, b =>
      match b with
      | .ident y => decidable_of_iff (x = y) (by simp)
      | .int _ | .bool _ | .set _ | .binop _ _ _ | .unop _ | .case _ => isFalse nofun
  | .int x, b =>
      match b with
      | .int y => decidable_of_iff (x = y) (by simp)
      | .ident _ | .bool _ | .set _ | .binop _ _ _ | .unop _ | .case _ => isFalse nofun
  | .bool x, b =>
      match b with
      | .bool y => decidable_of_iff (x = y) (by simp)
      | .ident _ | .int _ | .set _ | .binop _ _ _ | .unop _ | .case _ => isFalse nofun
  | .set xs, b =>
      match b with
      | .set ys => decidable_of_iff (xs = ys) (by simp)
      | .ident _ | .int _ | .bool _ | .binop _ _ _ | .unop _ | .case _ => isFalse nofun
  | .binop op left right, b =>
      match b with
      | .binop op' left' right' =>
          have := ExprAst.decEq left left'
          have := ExprAst.decEq right right'
          decidable_of_iff (op = op' ∧ left = left' ∧ right = right') (by simp)
      | .ident _ | .int _ | .bool _ | .set _ | .unop _ | .case _ => isFalse nofun
  | .unop operand, b =>
      match b with
      | .unop operand' =>
          have := ExprAst.decEq operand operand'
          decidable_of_iff (operand = operand') (by simp)
      | .ident _ | .int _ | .bool _ | .set _ | .binop _ _ _ | .case _ => isFalse nofun
  | .case cases, b =>
      match b with
      | .case cases' =>
          have := ExprAst.decEqCases cases cases'
          decidable_of_iff (cases = cases') (by simp)
      | .ident _ | .int _ | .bool _ | .set _ | .binop _ _ _ | .unop _ => isFalse nofun

def ExprAst.decEqCases : (a b : List (ExprAst × ExprAst)) → Decidable (a = b)
  | [], [] => isTrue rfl
  | [], _ :: _ => isFalse nofun
  | _ :: _, [] => isFalse nofun
  | (guard, value) :: rest, (guard', value') :: rest' =>
      have := ExprAst.decEq guard guard'
      have := ExprAst.decEq value value'
      have := ExprAst.decEqCases rest rest'
      decidable_of_iff ((guard = guard' ∧ value = value') ∧ rest = rest') (by simp)

end

instance : DecidableEq ExprAst := ExprAst.decEq

inductive TemporalAst
  | atom (expr : ExprAst)
  | not (operand : TemporalAst)
  | and (left right : TemporalAst)
  | or (left right : TemporalAst)
  | implies (left right : TemporalAst)
  | iff (left right : TemporalAst)
  | G (operand : TemporalAst)
  | F (operand : TemporalAst)
  | X (operand : TemporalAst)
  | U (left right : TemporalAst)
  | EX (operand : TemporalAst)
  | AX (operand : TemporalAst)
  | EF (operand : TemporalAst)
  | AF (operand : TemporalAst)
  | EG (operand : TemporalAst)
  | AG (operand : TemporalAst)
  | EU (left right : TemporalAst)
  | AU (left right : TemporalAst)
  deriving DecidableEq

inductive SpecVariable
  | enum (name : JsString) (values : List JsString)
  | range (name : JsString) (min max : JsNumber)
  deriving DecidableEq

def SpecVariable.name : SpecVariable → JsString
  | .enum name _ => name
  | .range name _ _ => name

structure SpecAssignment where
  target : JsString
  expr : ExprAst
  deriving DecidableEq

inductive FormalVerificationLogic
  | LTL
  | CTL
  deriving DecidableEq, Repr

/-- Built with the operators of the logic. -/
def TemporalAst.IsOf (logic : FormalVerificationLogic) : TemporalAst → Prop
  | .atom _ => True
  | .not operand => operand.IsOf logic
  | .and left right | .or left right | .implies left right | .iff left right =>
      left.IsOf logic ∧ right.IsOf logic
  | .G operand | .F operand | .X operand => logic = .LTL ∧ operand.IsOf logic
  | .U left right => logic = .LTL ∧ left.IsOf logic ∧ right.IsOf logic
  | .EX operand | .AX operand | .EF operand | .AF operand | .EG operand | .AG operand =>
      logic = .CTL ∧ operand.IsOf logic
  | .EU left right | .AU left right => logic = .CTL ∧ left.IsOf logic ∧ right.IsOf logic

structure SpecFormula where
  logic : FormalVerificationLogic
  source : JsString
  ast : TemporalAst
  deriving DecidableEq

structure ParsedSpec where
  moduleName : JsString
  specVariables : List SpecVariable
  inits : List SpecAssignment
  nexts : List SpecAssignment
  formulae : List SpecFormula
  deriving DecidableEq

/-! ## Texts -/

/-- `String(v)`, with the keywords for booleans. -/
def memberText : PrimitiveValue → JsString
  | .text s => s
  | .number x => numberText x
  | .bool b => if b then js "TRUE" else js "FALSE"
  | .builtin name => name

mutual

def stringifyExpr : ExprAst → JsString
  | .ident name => name
  | .int value => numberText value
  | .bool value => if value then js "TRUE" else js "FALSE"
  | .set values => 0x7B :: join (js ", ") (values.map memberText) ++ [0x7D]
  | .binop op left right =>
      0x28 :: stringifyExpr left ++ js " " ++ op.text ++ js " " ++ stringifyExpr right ++ [0x29]
  | .unop operand => 0x21 :: stringifyExpr operand
  | .case cases => js "case " ++ join (js " ") (stringifyCases cases) ++ js " esac"

def stringifyCases : List (ExprAst × ExprAst) → List JsString
  | [] => []
  | (guard, value) :: rest =>
      (stringifyExpr guard ++ js " : " ++ stringifyExpr value ++ js ";") :: stringifyCases rest

end

/-- `(left op right)`. -/
def infixText (left op right : JsString) : JsString :=
  0x28 :: left ++ js " " ++ op ++ js " " ++ right ++ [0x29]

/-- `Q[left U right]`. -/
def quantifiedText (quant left right : JsString) : JsString :=
  quant ++ 0x5B :: left ++ js " U " ++ right ++ [0x5D]

def stringifyTemporal : TemporalAst → JsString
  | .atom expr => stringifyExpr expr
  | .not operand => 0x21 :: stringifyTemporal operand
  | .and left right => infixText (stringifyTemporal left) (js "&") (stringifyTemporal right)
  | .or left right => infixText (stringifyTemporal left) (js "|") (stringifyTemporal right)
  | .implies left right => infixText (stringifyTemporal left) (js "->") (stringifyTemporal right)
  | .iff left right => infixText (stringifyTemporal left) (js "<->") (stringifyTemporal right)
  | .G operand => js "G " ++ stringifyTemporal operand
  | .F operand => js "F " ++ stringifyTemporal operand
  | .X operand => js "X " ++ stringifyTemporal operand
  | .U left right => infixText (stringifyTemporal left) (js "U") (stringifyTemporal right)
  | .EX operand => js "EX " ++ stringifyTemporal operand
  | .AX operand => js "AX " ++ stringifyTemporal operand
  | .EF operand => js "EF " ++ stringifyTemporal operand
  | .AF operand => js "AF " ++ stringifyTemporal operand
  | .EG operand => js "EG " ++ stringifyTemporal operand
  | .AG operand => js "AG " ++ stringifyTemporal operand
  | .EU left right =>
      quantifiedText (js "E") (stringifyTemporal left) (stringifyTemporal right)
  | .AU left right =>
      quantifiedText (js "A") (stringifyTemporal left) (stringifyTemporal right)

/-! ## Errors -/

/-- `FormalSpecParseError` with its position, `FormalSpecModelError`, a plain
`Error` of the evaluator, and a loop that never ends. -/
inductive VerificationError
  | parse (line column : ℕ) (message : JsString)
  | model (message : JsString)
  | evaluation (message : JsString)
  | diverges
  deriving DecidableEq

/-- `FORMAL_VERIFICATION_STATE_LIMIT`. -/
def stateLimit : ℕ := 4096

/-- `FORMAL_VERIFICATION_MAX_SPEC_BYTES`. -/
def maxSpecBytes : ℕ := 65536

end TestIntelligence.AgenticHarness.FormalVerification
