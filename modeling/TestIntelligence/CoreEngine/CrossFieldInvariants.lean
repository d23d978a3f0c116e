import TestIntelligence.Js.Math
import TestIntelligence.Js.NumberText
import TestIntelligence.Js.Sorting
import TestIntelligence.Js.Collections

/-!
# The cross-field invariant engine

The typed expressions of the engine and their evaluation.  The nodes without boolean operands
are leaves.  A valuation gives the own properties of its record.
-/

namespace TestIntelligence.CoreEngine

open Js

inductive InvariantNumberExpr
  | numberLit (value : JsNumber)
  | fieldNumber (fieldRef : JsString)
  | add (left right : InvariantNumberExpr)
  | sub (left right : InvariantNumberExpr)
  | mul (left right : InvariantNumberExpr)
  | div (left right : InvariantNumberExpr)
  | min (left right : InvariantNumberExpr)
  | max (left right : InvariantNumberExpr)
  deriving DecidableEq

inductive InvariantStringExpr
  | stringLit (value : JsString)
  | fieldString (fieldRef : JsString)
  deriving DecidableEq

inductive InvariantLeaf
  | boolLit (value : Bool)
  | lt (left right : InvariantNumberExpr)
  | lte (left right : InvariantNumberExpr)
  | gt (left right : InvariantNumberExpr)
  | gte (left right : InvariantNumberExpr)
  | eqNumber (left right : InvariantNumberExpr) (tolerance : Option JsNumber)
  | eqString (left right : InvariantStringExpr) (caseInsensitive : Bool)
  | inSetString (value : InvariantStringExpr) (set : List JsString) (caseInsensitive : Bool)
  | matchesRegex (value : InvariantStringExpr) (pattern flags : JsString)
  | fieldPresent (fieldRef : JsString)
  | fieldAbsent (fieldRef : JsString)
  deriving DecidableEq

inductive InvariantBoolExpr
  | leaf (leaf : InvariantLeaf)
  | and (operands : List InvariantBoolExpr)
  | or (operands : List InvariantBoolExpr)
  | not (operand : InvariantBoolExpr)
  | implies (antecedent consequent : InvariantBoolExpr)

namespace InvariantBoolExpr

theorem induction {motive : InvariantBoolExpr → Prop} (leaf : ∀ leaf, motive (.leaf leaf))
    (and : ∀ operands, (∀ operand ∈ operands, motive operand) → motive (.and operands))
    (or : ∀ operands, (∀ operand ∈ operands, motive operand) → motive (.or operands))
    (not : ∀ operand, motive operand → motive (.not operand))
    (implies : ∀ antecedent consequent, motive antecedent → motive consequent →
      motive (.implies antecedent consequent)) : ∀ expr, motive expr
  | .leaf l => leaf l
  | .and operands => and operands fun operand _ ↦ induction leaf and or not implies operand
  | .or operands => or operands fun operand _ ↦ induction leaf and or not implies operand
  | .not operand => not operand (induction leaf and or not implies operand)
  | .implies antecedent consequent =>
      implies antecedent consequent (induction leaf and or not implies antecedent)
        (induction leaf and or not implies consequent)

end InvariantBoolExpr

/-- `CrossFieldValuation` -/
abbrev CrossFieldValuation := JsString → Option JsString

inductive InvariantError
  | literal (value : JsNumber)
  | missingNumber (fieldRef : JsString)
  | notNumeric (fieldRef raw : JsString)
  | missingString (fieldRef : JsString)
  | divisionByZero
  | tolerance (value : JsNumber)
  /-- The error of the constructor `RegExp`. -/
  | regExp
  deriving DecidableEq

/-- The text of the errors that the engine throws itself. -/
def InvariantError.message : InvariantError → JsString
  | .literal value =>
      js "cross-field-invariant-engine: literal must be a finite number, got " ++ numberText value
  | .missingNumber fieldRef =>
      js "cross-field-invariant-engine: numeric field \"" ++ fieldRef ++
        js "\" is missing from the valuation"
  | .notNumeric fieldRef raw =>
      js "cross-field-invariant-engine: numeric field \"" ++ fieldRef ++
        js "\" has non-numeric value \"" ++ raw ++ js "\""
  | .missingString fieldRef =>
      js "cross-field-invariant-engine: string field \"" ++ fieldRef ++
        js "\" is missing from the valuation"
  | .divisionByZero =>
      js "cross-field-invariant-engine: division by zero in invariant expression"
  | .tolerance value =>
      js "cross-field-invariant-engine: eq_number tolerance must be a non-negative finite number, " ++
        js "got " ++ numberText value
  | .regExp => js "Invalid regular expression"

/-- Functions of the language on texts. -/
structure TextFunctions where
  parseFloat : JsString → JsNumber
  toLowerCase : JsString → JsString
  /-- `new RegExp(pattern, flags).test(value)`, with no value where the constructor throws. -/
  regExpTest : JsString → JsString → JsString → Option Bool

structure InvariantResult where
  satisfied : Bool
  vacuous : Bool
  deriving DecidableEq, Repr

section

variable (text : TextFunctions) (valuation : CrossFieldValuation)

def requireNumber (raw : Option JsString) (fieldRef : JsString) :
    Except InvariantError JsNumber :=
  match raw with
  | none => .error (.missingNumber fieldRef)
  | some raw =>
      let parsed := text.parseFloat raw
      if parsed.isFinite then .ok parsed else .error (.notNumeric fieldRef raw)

def requireString (raw : Option JsString) (fieldRef : JsString) :
    Except InvariantError JsString :=
  match raw with
  | none => .error (.missingString fieldRef)
  | some raw => .ok raw

def evaluateNumberExpr : InvariantNumberExpr → Except InvariantError JsNumber
  | .numberLit value => if value.isFinite then .ok value else .error (.literal value)
  | .fieldNumber fieldRef => requireNumber text (valuation fieldRef) fieldRef
  | .add left right => do
      let lhs ← evaluateNumberExpr left
      return lhs.add (← evaluateNumberExpr right)
  | .sub left right => do
      let lhs ← evaluateNumberExpr left
      return lhs.sub (← evaluateNumberExpr right)
  | .mul left right => do
      let lhs ← evaluateNumberExpr left
      return lhs.mul (← evaluateNumberExpr right)
  | .div left right => do
      let denom ← evaluateNumberExpr right
      if denom.strictEq 0 then .error .divisionByZero
      else return (← evaluateNumberExpr left).div denom
  | .min left right => do
      let lhs ← evaluateNumberExpr left
      return lhs.min (← evaluateNumberExpr right)
  | .max left right => do
      let lhs ← evaluateNumberExpr left
      return lhs.max (← evaluateNumberExpr right)

def evaluateStringExpr : InvariantStringExpr → Except InvariantError JsString
  | .stringLit value => .ok value
  | .fieldString fieldRef => requireString (valuation fieldRef) fieldRef

def compareNumbers (compare : JsNumber → JsNumber → Bool) (left right : InvariantNumberExpr) :
    Except InvariantError Bool := do
  let lhs ← evaluateNumberExpr text valuation left
  return compare lhs (← evaluateNumberExpr text valuation right)

/-- The branches of `evaluateBoolExpr` without boolean operands, whose results are not
vacuous. -/
def evaluateLeaf : InvariantLeaf → Except InvariantError Bool
  | .boolLit value => .ok value
  | .lt left right => compareNumbers text valuation (fun lhs rhs ↦ lhs.lt rhs) left right
  | .lte left right => compareNumbers text valuation (fun lhs rhs ↦ lhs.le rhs) left right
  | .gt left right => compareNumbers text valuation (fun lhs rhs ↦ rhs.lt lhs) left right
  | .gte left right => compareNumbers text valuation (fun lhs rhs ↦ rhs.le lhs) left right
  | .eqNumber left right tolerance =>
      let tol := tolerance.getD 0
      if tol.lt 0 || !tol.isFinite then .error (.tolerance tol)
      else compareNumbers text valuation (fun lhs rhs ↦ (lhs.sub rhs).abs.le tol) left right
  | .eqString left right caseInsensitive => do
      let lhs ← evaluateStringExpr valuation left
      let rhs ← evaluateStringExpr valuation right
      return if caseInsensitive then text.toLowerCase lhs = text.toLowerCase rhs else lhs = rhs
  | .inSetString value set caseInsensitive => do
      let value ← evaluateStringExpr valuation value
      let needle := if caseInsensitive then text.toLowerCase value else value
      return set.any fun entry ↦
        if caseInsensitive then text.toLowerCase entry = needle else entry = value
  | .matchesRegex value pattern flags => do
      let value ← evaluateStringExpr valuation value
      match text.regExpTest pattern flags value with
      | none => .error .regExp
      | some matched => .ok matched
  | .fieldPresent fieldRef => .ok ((valuation fieldRef).any fun raw ↦ 0 < raw.length)
  | .fieldAbsent fieldRef => .ok ((valuation fieldRef).all fun raw ↦ raw.length = 0)

mutual

def evaluateBoolExpr : InvariantBoolExpr → Except InvariantError InvariantResult
  | .leaf leaf => do
      return ⟨← evaluateLeaf text valuation leaf, false⟩
  | .and operands =>
      if operands.length > 0 then evaluateAnd true operands else .ok ⟨true, false⟩
  | .or operands =>
      if operands.length > 0 then evaluateOr true operands else .ok ⟨false, false⟩
  | .not operand => do
      let child ← evaluateBoolExpr operand
      return ⟨!child.satisfied, child.vacuous⟩
  | .implies antecedent consequent => do
      let antecedent ← evaluateBoolExpr antecedent
      if !antecedent.satisfied then return ⟨true, true⟩
      else return ⟨(← evaluateBoolExpr consequent).satisfied, false⟩

/-- The loop over the operands of `and`, after operands whose flags give `vacuousAll`. -/
def evaluateAnd (vacuousAll : Bool) :
    List InvariantBoolExpr → Except InvariantError InvariantResult
  | [] => .ok ⟨true, vacuousAll⟩
  | operand :: operands => do
      let child ← evaluateBoolExpr operand
      if !child.satisfied then return ⟨false, false⟩
      else evaluateAnd (vacuousAll && child.vacuous) operands

def evaluateOr (vacuousAll : Bool) :
    List InvariantBoolExpr → Except InvariantError InvariantResult
  | [] => .ok ⟨false, vacuousAll⟩
  | operand :: operands => do
      let child ← evaluateBoolExpr operand
      if child.satisfied then return ⟨true, child.vacuous⟩
      else evaluateOr (vacuousAll && child.vacuous) operands

end

end

/-! ## The fields of an expression -/

def visitNumber : InvariantNumberExpr → List JsString
  | .numberLit _ => []
  | .fieldNumber fieldRef => [fieldRef]
  | .add left right | .sub left right | .mul left right | .div left right | .min left right
  | .max left right => visitNumber left ++ visitNumber right

def visitString : InvariantStringExpr → List JsString
  | .stringLit _ => []
  | .fieldString fieldRef => [fieldRef]

def visitLeaf : InvariantLeaf → List JsString
  | .boolLit _ => []
  | .lt left right | .lte left right | .gt left right | .gte left right
  | .eqNumber left right _ => visitNumber left ++ visitNumber right
  | .eqString left right _ => visitString left ++ visitString right
  | .inSetString value _ _ | .matchesRegex value _ _ => visitString value
  | .fieldPresent fieldRef | .fieldAbsent fieldRef => [fieldRef]

mutual

/-- The names that `visitBool` adds, in their order. -/
def visitBool : InvariantBoolExpr → List JsString
  | .leaf leaf => visitLeaf leaf
  | .and operands | .or operands => visitAll operands
  | .not operand => visitBool operand
  | .implies antecedent consequent => visitBool antecedent ++ visitBool consequent

def visitAll : List InvariantBoolExpr → List JsString
  | [] => []
  | operand :: operands => visitBool operand ++ visitAll operands

end

def collectInvariantFieldRefs (localeCompare : JsString → JsString → ℤ)
    (expression : InvariantBoolExpr) : List JsString :=
  sortBy localeCompare (setOf (visitBool expression))

end TestIntelligence.CoreEngine
