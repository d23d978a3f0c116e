import TestIntelligence.Js.Json
import TestIntelligence.Js.Patterns

/-!
# Zod types

What a schema accepts, an absent property being no value at all.  A type is built from
the primitive ones by further checks, arrays, strict objects and optional properties.
-/

namespace TestIntelligence.Zod

open Js

abbrev ZodType := Option Json → Bool

/-- `z.literal(text)` -/
def literal (text : JsString) : ZodType
  | some (.str s) => s == text
  | _ => false

/-- `z.enum(texts)` -/
def enum (texts : List JsString) : ZodType
  | some (.str s) => texts.contains s
  | _ => false

/-- `z.string()` -/
def string : ZodType
  | some (.str _) => true
  | _ => false

/-- `z.number()`; it takes finite numbers only. -/
def number : ZodType
  | some (.num x) => x.isFinite
  | _ => false

/-- `z.boolean()` -/
def boolean : ZodType
  | some (.bool _) => true
  | _ => false

/-- `z.array(item)` -/
def array (item : ZodType) : ZodType
  | some (.arr items) => items.all fun v ↦ item (some v)
  | _ => false

/-- `z.strictObject(fields)` -/
def strictObject (fields : List (JsString × ZodType)) : ZodType
  | some (.obj members) =>
      (members.all fun member ↦ fields.any fun field ↦ field.1 == member.1) &&
        fields.all fun field ↦ field.2 (mapGet members field.1)
  | _ => false

namespace ZodType

def optional (type : ZodType) : ZodType := fun value ↦ value.isNone || type value

/-- One more check on the values that the type takes. -/
def check (type : ZodType) (test : Json → Bool) : ZodType := fun value ↦ type value && value.all test

/-- `.min(n)` on strings -/
def minLength (type : ZodType) (n : ℕ) : ZodType :=
  type.check fun
    | .str s => n ≤ s.length
    | _ => true

/-- `.max(n)` on strings -/
def maxLength (type : ZodType) (n : ℕ) : ZodType :=
  type.check fun
    | .str s => s.length ≤ n
    | _ => true

def regex (type : ZodType) (pattern : JsString → Bool) : ZodType :=
  type.check fun
    | .str s => pattern s
    | _ => true

/-- `.min(n)` on arrays -/
def minItems (type : ZodType) (n : ℕ) : ZodType :=
  type.check fun
    | .arr items => n ≤ items.length
    | _ => true

/-- `.min(bound)` on numbers -/
def gte (type : ZodType) (bound : JsNumber) : ZodType :=
  type.check fun
    | .num x => bound.le x
    | _ => true

/-- `.max(bound)` on numbers -/
def lte (type : ZodType) (bound : JsNumber) : ZodType :=
  type.check fun
    | .num x => x.le bound
    | _ => true

/-- `.int()`; it takes safe integers only. -/
def int (type : ZodType) : ZodType :=
  type.check fun
    | .num x => x.isInteger && decide (|x.toRat| ≤ 2 ^ 53 - 1)
    | _ => true

end ZodType

end TestIntelligence.Zod
