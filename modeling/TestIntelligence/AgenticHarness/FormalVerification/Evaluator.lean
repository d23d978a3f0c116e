import TestIntelligence.AgenticHarness.FormalVerification.Syntax
import TestIntelligence.Js.Collections
import TestIntelligence.Js.Outcome

/-!
# Evaluating expressions

`evalExpr` of `formal-verification.ts` with the coercions it uses.  A valuation
is an object: reading a name it does not own finds the inherited members first.
-/

namespace TestIntelligence.AgenticHarness.FormalVerification

open Js

abbrev Valuation := List (JsString × PrimitiveValue)

abbrev Eval := Except VerificationError

/-- The names every object inherits. -/
def inheritedNames : List JsString :=
  ["constructor", "__defineGetter__", "__defineSetter__", "hasOwnProperty", "__lookupGetter__",
    "__lookupSetter__", "isPrototypeOf", "propertyIsEnumerable", "toString", "valueOf", "__proto__",
    "toLocaleString"].map js

/-- `valuation[name]`, with `none` for `undefined`. -/
def readProperty (valuation : Valuation) (name : JsString) : Option PrimitiveValue :=
  match mapGet valuation name with
  | some value => some value
  | none => if name ∈ inheritedNames then some (.builtin name) else none

/-- `JSON.stringify` of a value, as a template shows it. -/
def jsonText : PrimitiveValue → JsString
  | .text s => quoteJson s
  | .number x => if x.isFinite then numberText x else js "null"
  | .bool b => if b then js "true" else js "false"
  | .builtin name => if name = js "__proto__" then js "\x7b\x7d" else js "undefined"

def fail {α : Type} (message : JsString) : Eval α := .error (.evaluation message)

def asNum : PrimitiveValue → Eval JsNumber
  | .number x => .ok x
  | .text s =>
      if (stringToNumber s).isFinite then .ok (stringToNumber s)
      else fail (js "expected number, got " ++ jsonText (.text s))
  | .bool b => .ok (if b then 1 else 0)
  | .builtin name => fail (js "expected number, got " ++ jsonText (.builtin name))

def asBool : PrimitiveValue → Eval Bool
  | .bool b => .ok b
  | .text s =>
      if s = js "TRUE" then .ok true
      else if s = js "FALSE" then .ok false
      else fail (js "expected boolean, got " ++ jsonText (.text s))
  | .number x => .ok (!x.strictEq 0)
  | .builtin name => fail (js "expected boolean, got " ++ jsonText (.builtin name))

def primitiveEqual (a b : PrimitiveValue) : Eval Bool :=
  match a, b with
  | .bool x, b => return x = (← asBool b)
  | a, .bool y => return (← asBool a) = y
  | .number x, .number y => .ok (x.strictEq y)
  | .text s, .text t => .ok (s = t)
  | .text s, .number y => .ok ((stringToNumber s).strictEq y)
  | .number x, .text t => .ok (x.strictEq (stringToNumber t))
  | _, _ => .ok false

/-- `members.some((member) => primitiveEqual(member, value))`. -/
def someEqual : List PrimitiveValue → PrimitiveValue → Eval Bool
  | [], _ => .ok false
  | member :: rest, value => do
      if ← primitiveEqual member value then return true else someEqual rest value

inductive EvalResult
  | scalar (value : PrimitiveValue)
  | set (values : List PrimitiveValue)
  deriving DecidableEq

structure EvalContext where
  valuation : Valuation
  enumLiterals : List JsString

/-- The operators other than `in`, on scalars. -/
def evalBinop (op : ExprBinOp) (left right : PrimitiveValue) : Eval PrimitiveValue :=
  match op with
  | .add => return .number ((← asNum left).add (← asNum right))
  | .sub => return .number ((← asNum left).sub (← asNum right))
  | .eq => return .bool (← primitiveEqual left right)
  | .ne => return .bool (!(← primitiveEqual left right))
  | .lt => return .bool ((← asNum left).lt (← asNum right))
  | .le => return .bool ((← asNum left).le (← asNum right))
  | .gt => return .bool ((fun a b ↦ JsNumber.lt b a) (← asNum left) (← asNum right))
  | .ge => return .bool ((fun a b ↦ JsNumber.le b a) (← asNum left) (← asNum right))
  | .and => do if ← asBool left then return .bool (← asBool right) else return .bool false
  | .or => do if ← asBool left then return .bool true else return .bool (← asBool right)
  | .implies => do if ← asBool left then return .bool (← asBool right) else return .bool true
  | .iff => return .bool ((← asBool left) = (← asBool right))
  | .mem => fail (js "unsupported binary operator in")

/-- A result that must not be a set. -/
def scalarOr (message : JsString) : EvalResult → Eval PrimitiveValue
  | .scalar value => .ok value
  | .set _ => fail message

def setOr (message : JsString) : EvalResult → Eval (List PrimitiveValue)
  | .scalar _ => fail message
  | .set values => .ok values

mutual

def evalExpr (context : EvalContext) : ExprAst → Eval EvalResult
  | .ident name =>
      match readProperty context.valuation name with
      | some value => .ok (.scalar value)
      | none =>
          if name ∈ context.enumLiterals then .ok (.scalar (.text name))
          else fail (js "unknown identifier '" ++ name ++ js "' in expression")
  | .int value => .ok (.scalar (.number value))
  | .bool value => .ok (.scalar (.bool value))
  | .set values => .ok (.set values)
  | .unop operand => do
      match ← evalExpr context operand with
      | .scalar (.bool b) => return .scalar (.bool (!b))
      | _ => fail (js "'!' applied to non-boolean")
  | .binop op left right => do
      let leftRaw ← evalExpr context left
      let rightRaw ← evalExpr context right
      if op = .mem then
        let members ← setOr (js "'in' rhs must be a set") rightRaw
        let value ← scalarOr (js "'in' lhs must be a scalar") leftRaw
        return .scalar (.bool (← someEqual members value))
      else
        let problem := js "set value cannot appear directly under '" ++ op.text ++ js "'"
        let leftValue ← scalarOr problem leftRaw
        let rightValue ← scalarOr problem rightRaw
        return .scalar (← evalBinop op leftValue rightValue)
  | .case cases => evalCases context cases

def evalCases (context : EvalContext) : List (ExprAst × ExprAst) → Eval EvalResult
  | [] => fail (js "case expression has no matching branch (missing TRUE fallback)")
  | (guard, value) :: rest => do
      let guardVal ← scalarOr (js "case guard cannot evaluate to a set") (← evalExpr context guard)
      if ← asBool guardVal then evalExpr context value else evalCases context rest

end

/-- Whether the valuation satisfies the proposition. -/
def atomSatisfies (expr : ExprAst) (valuation : Valuation) (enumLiterals : List JsString) :
    Eval Bool := do
  let value ← scalarOr (js "atomic proposition must evaluate to a scalar")
    (← evalExpr ⟨valuation, enumLiterals⟩ expr)
  asBool value

/-! ## Domains -/

/-- The counting loop of `variableDomain`.  A range is at most 256 wide, so a loop
that has not ended after 257 turns has stopped growing. -/
def countUp : ℕ → JsNumber → JsNumber → Eval (List PrimitiveValue)
  | 0, _, _ => .error .diverges
  | fuel + 1, i, max =>
      if i.le max then do
        let rest ← countUp fuel (i.add 1) max
        return .number i :: rest
      else .ok []

def variableDomain : SpecVariable → Eval (List PrimitiveValue)
  | .enum _ values => .ok (values.map .text)
  | .range _ min max => countUp 258 min max

def valueInDomain (value : Option PrimitiveValue) (declared : SpecVariable) : Eval Bool :=
  match value with
  | none => .ok false
  | some value =>
      match declared with
      | .enum _ values => someEqual (values.map .text) value
      | .range _ min max => do
          let n ← asNum value
          return min.le n && n.le max && n.isInteger

/-- `variables.every((v) => valueInDomain(valuation[v.name], v))`. -/
def allInDomain (valuation : Valuation) : List SpecVariable → Eval Bool
  | [] => .ok true
  | declared :: rest => do
      if ← valueInDomain (readProperty valuation declared.name) declared then
        allInDomain valuation rest
      else return false

/-- The final `filter` of the two enumerations. -/
def filterInDomain (declared : List SpecVariable) : List Valuation → Eval (List Valuation)
  | [] => .ok []
  | valuation :: rest => do
      let keep ← allInDomain valuation declared
      let kept ← filterInDomain declared rest
      return if keep then valuation :: kept else kept

/-- `rulesByVar`: a later rule replaces an earlier one. -/
def rulesByVar (rules : List SpecAssignment) : List (JsString × ExprAst) :=
  rules.foldl (fun m rule ↦ mapSet m rule.target rule.expr) []

/-- The choices an evaluated rule offers. -/
def EvalResult.choices : EvalResult → List PrimitiveValue
  | .scalar value => [value]
  | .set values => values

/-- The product of the choices, in the order of the declarations. -/
def combine : List (JsString × List PrimitiveValue) → List Valuation → List Valuation
  | [], acc => acc
  | (name, choices) :: rest, acc =>
      combine rest (acc.flatMap fun chosen ↦ choices.map fun choice ↦ mapSet chosen name choice)

/-- The choices of a variable, with `otherwise` where there is no rule. -/
def choicesOf (rules : List SpecAssignment) (context : EvalContext)
    (otherwise : SpecVariable → Eval (List PrimitiveValue)) (declared : SpecVariable) :
    Eval (List PrimitiveValue) :=
  match mapGet (rulesByVar rules) declared.name with
  | none => otherwise declared
  | some expr => (evalExpr context expr).map EvalResult.choices

def choicesPerVar (rules : List SpecAssignment) (context : EvalContext)
    (otherwise : SpecVariable → Eval (List PrimitiveValue)) :
    List SpecVariable → Eval (List (JsString × List PrimitiveValue))
  | [] => .ok []
  | declared :: rest => do
      let choices ← choicesOf rules context otherwise declared
      let others ← choicesPerVar rules context otherwise rest
      return (declared.name, choices) :: others

def nextValuations (current : Valuation) (declared : List SpecVariable)
    (nextRules : List SpecAssignment) (enumLiterals : List JsString) : Eval (List Valuation) := do
  let choices ← choicesPerVar nextRules ⟨current, enumLiterals⟩
    (fun v ↦ .ok (readProperty current v.name).toList) declared
  filterInDomain declared (combine choices [[]])

def initialValuations (declared : List SpecVariable) (initRules : List SpecAssignment)
    (enumLiterals : List JsString) : Eval (List Valuation) := do
  let choices ← choicesPerVar initRules ⟨[], enumLiterals⟩ variableDomain declared
  filterInDomain declared (combine choices [[]])

def collectEnumLiterals (spec : ParsedSpec) : List JsString :=
  setOf (spec.specVariables.flatMap fun
    | .enum _ values => values
    | .range _ _ _ => [])

end TestIntelligence.AgenticHarness.FormalVerification
