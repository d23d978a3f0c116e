import TestIntelligence.Js.Number
import Mathlib.Data.Nat.Sqrt

/-!
# Products, roots and rounding to integers

The functions of `Math` whose results the language fixes up to one rounding.
-/

namespace TestIntelligence.Js.JsNumber

/-- `x * y`. -/
def mul : JsNumber → JsNumber → JsNumber
  | .nan, _ | _, .nan => .nan
  | .infinity a, y => if y.eqNat 0 then .nan else .infinity (a != y.isNegative)
  | x, .infinity b => if x.eqNat 0 then .nan else .infinity (x.isNegative != b)
  | x, y =>
      if x.toRat * y.toRat = 0 ∧ x.isNegative != y.isNegative then .negZero
      else ofRat (x.toRat * y.toRat)

/-- `-x`. -/
def neg : JsNumber → JsNumber
  | .nan => .nan
  | .infinity negative => .infinity (!negative)
  | .negZero => ofRat 0
  | .finite x => if x.val = 0 then .negZero else ofRat (-x.val)

/-- `Math.abs(x)`. -/
def abs (x : JsNumber) : JsNumber := if x.isNegative then x.neg else x

/-- `Math.round(x)`: the nearest integer, ties going up. -/
def round : JsNumber → JsNumber
  | .finite x => if x.val < 0 ∧ -1 / 2 ≤ x.val then .negZero else ofRat ⌊x.val + 1 / 2⌋
  | x => x

/-- `Math.sqrt(x)`.  The root is cut off after more bits than a number holds, and a last bit
says whether something was cut off. -/
def sqrt : JsNumber → JsNumber
  | .finite x =>
      if x.val < 0 then .nan
      else
        let scaled : ℚ := x.val * 4 ^ 600
        let root : ℕ := Nat.sqrt ⌊scaled⌋.toNat
        let rest : ℕ := if ((root * root : ℕ) : ℚ) = scaled then 0 else 1
        ofRat (((2 * root + rest : ℕ) : ℚ) / 2 ^ 601)
  | .infinity true => .nan
  | x => x

/-- `Math.min(x, y)`. -/
def min : JsNumber → JsNumber → JsNumber
  | .nan, _ | _, .nan => .nan
  | .negZero, y => if y.lt .negZero then y else .negZero
  | x, y => if x.lt y then x else y

/-- `Math.trunc(x)`: the integer next to `x` towards zero. -/
def trunc : JsNumber → JsNumber
  | .finite x =>
      if x.val < 0 then if -1 < x.val then .negZero else ofRat ⌈x.val⌉ else ofRat ⌊x.val⌋
  | x => x

/-- `Math.ceil(x)`: the integer next to `x` upwards. -/
def ceil : JsNumber → JsNumber
  | .finite x => if -1 < x.val ∧ x.val < 0 then .negZero else ofRat ⌈x.val⌉
  | x => x

/-- `index % stride === 0` for a positive integer or infinite stride. -/
def divides (stride : JsNumber) (index : ℕ) : Bool :=
  match stride with
  | .finite x => index % x.val.num.toNat = 0
  | .infinity _ => index = 0
  | _ => false

end TestIntelligence.Js.JsNumber
