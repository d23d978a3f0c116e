import TestIntelligence.CoreEngine.GeneratedTestCaseValidator
import Mathlib.Tactic.MkIffOfInductiveProp

/-!
# Where the validators of generated test cases drift apart

The structural validator enforces a schema of its own.  It and the Zod schema share the
rules of a wider one, and each of them adds rules on a few fields.
-/

namespace TestIntelligence.CoreEngine

open Js
open Zod (ZodType)

/-! ## Fields and checks -/

theorem strictFields_obj {fields : List (String × ZodType)} {members : List (JsString × Json)} :
    strictFields fields (some (.obj members)) = true ↔
      (∀ member ∈ members, member.1 ∈ fields.map fun field ↦ js field.1) ∧
        ∀ field ∈ fields, field.2 (mapGet members (js field.1)) = true := by
  simp [strictFields, fieldsOf, Zod.strictObject]

theorem failUnless_eq_nil {ok : Bool} {path message : JsString} :
    failUnless ok path message = [] ↔ ok = true := by
  cases ok <;> simp [failUnless]

theorem expectIfPresent_eq_nil {value : Option Json} {expect : Option Json → ValidationErrors}
    {type : ZodType} (h : ∀ value, expect value = [] ↔ type value = true) :
    expectIfPresent value expect = [] ↔ type.optional value = true := by
  cases value with
  | none => simp [expectIfPresent, ZodType.optional]
  | some v => simpa [expectIfPresent, ZodType.optional] using h (some v)

theorem isTextWith_eq (check : JsString → Bool) :
    isTextWith check = Zod.string.regex check := by
  funext value
  rcases value with _ | (_ | _ | _ | _ | _ | _) <;>
    simp [isTextWith, ZodType.regex, ZodType.check, Zod.string]

theorem isNonEmptyString_eq : isNonEmptyString = zText := by
  funext value
  rcases value with _ | (_ | _ | _ | s | _ | _)
  case some.str =>
    rw [isNonEmptyString, isTextWith, zText, ZodType.minLength, ZodType.check]
    cases s <;> rfl
  all_goals rfl

theorem expectString_eq_nil {value : Option Json} {path : JsString} :
    expectString value path = [] ↔ zText value = true := by
  rw [expectString, failUnless_eq_nil, isNonEmptyString_eq]

theorem expectConst_eq_nil {value : Option Json} {expected path : JsString} :
    expectConst value expected path = [] ↔ Zod.literal expected value = true := by
  rw [expectConst, failUnless_eq_nil]
  rcases value with _ | (_ | _ | _ | _ | _ | _) <;> rfl

theorem expectEnum_eq_nil {value : Option Json} {allowed : List JsString} {path : JsString} :
    expectEnum value allowed path = [] ↔ Zod.enum allowed value = true := by
  rw [expectEnum, failUnless_eq_nil]
  rcases value with _ | (_ | _ | _ | _ | _ | _) <;> rfl

theorem expectHash_eq_nil {value : Option Json} {path : JsString} :
    expectHash value path = [] ↔ zHash value = true := by
  rw [expectHash, failUnless_eq_nil, isTextWith_eq, zHash]

theorem expectBoolean_eq_nil {value : Option Json} {path : JsString} :
    expectBoolean value path = [] ↔ Zod.boolean value = true := by
  rcases value with _ | (_ | _ | _ | _ | _ | _) <;>
    simp [expectBoolean, failUnless_eq_nil, Zod.boolean]

theorem expectUnitIntervalNumber_eq_nil {value : Option Json} {path : JsString} :
    expectUnitIntervalNumber value path = [] ↔ isUnitInterval value = true := by
  rw [expectUnitIntervalNumber, failUnless_eq_nil]

theorem expectExactKeys_eq_nil {members : List (JsString × Json)} {allowed : List JsString}
    {path : JsString} :
    expectExactKeys members allowed path = [] ↔ ∀ member ∈ members, member.1 ∈ allowed := by
  rw [expectExactKeys]
  cases hfind : members.find? fun member ↦ !allowed.contains member.1 with
  | none => simpa [List.find?_eq_none] using hfind
  | some member =>
      have hmem := List.mem_of_find?_eq_some hfind
      have hbad := List.find?_some hfind
      simp only [reduceCtorEq, false_iff, not_forall]
      exact ⟨member, hmem, by simpa using hbad⟩

theorem expectItemsFrom_eq_nil {expect : Json → JsString → ValidationErrors} {type : ZodType}
    (h : ∀ v path, expect v path = [] ↔ type (some v) = true) {items : List Json} {path : JsString}
    (i : ℕ) : expectItemsFrom expect path i items = [] ↔ ∀ v ∈ items, type (some v) = true := by
  induction items generalizing i with
  | nil => simp [expectItemsFrom]
  | cons item items ih =>
      rw [expectItemsFrom, List.append_eq_nil_iff, h, ih, List.forall_mem_cons]

theorem expectArray_eq_nil {expect : Json → JsString → ValidationErrors} {type : ZodType}
    (h : ∀ v path, expect v path = [] ↔ type (some v) = true) {value : Option Json}
    {path : JsString} : expectArray expect value path = [] ↔ Zod.array type value = true := by
  rcases value with _ | (_ | _ | _ | _ | items | _)
  case some.arr =>
    rw [expectArray, expectItemsFrom_eq_nil h, Zod.array, List.all_eq_true]
  all_goals simp [expectArray, Zod.array]

theorem expectStringArray_eq_nil {value : Option Json} {path : JsString} :
    expectStringArray value path = [] ↔ zTexts value = true := by
  apply expectArray_eq_nil
  intro v path
  rw [failUnless_eq_nil]
  cases v <;> rfl

section

variable {value : Option Json} {path : JsString}

theorem optional_expectString_eq_nil :
    expectIfPresent value (expectString · path) = [] ↔ zText.optional value = true :=
  expectIfPresent_eq_nil fun _ ↦ expectString_eq_nil

theorem optional_expectConst_eq_nil {expected : JsString} :
    expectIfPresent value (expectConst · expected path) = [] ↔
      (Zod.literal expected).optional value = true :=
  expectIfPresent_eq_nil fun _ ↦ expectConst_eq_nil

theorem optional_expectEnum_eq_nil {allowed : List JsString} :
    expectIfPresent value (expectEnum · allowed path) = [] ↔
      (Zod.enum allowed).optional value = true :=
  expectIfPresent_eq_nil fun _ ↦ expectEnum_eq_nil

theorem optional_expectStringArray_eq_nil :
    expectIfPresent value (expectStringArray · path) = [] ↔ zTexts.optional value = true :=
  expectIfPresent_eq_nil fun _ ↦ expectStringArray_eq_nil

theorem optional_expectUnitIntervalNumber_eq_nil :
    expectIfPresent value (expectUnitIntervalNumber · path) = [] ↔
      ZodType.optional isUnitInterval value = true :=
  expectIfPresent_eq_nil fun _ ↦ expectUnitIntervalNumber_eq_nil

end

/-- An object passes where its keys and its fields do. -/
theorem expectObject_eq_nil {allowed : List JsString} {fields : List (String × ZodType)}
    {expect : List (JsString × Json) → JsString → ValidationErrors}
    (hkeys : allowed = fields.map fun field ↦ js field.1)
    (h : ∀ members path, expect members path = [] ↔
      ∀ field ∈ fields, field.2 (mapGet members (js field.1)) = true)
    {value : Option Json} {path : JsString} :
    expectObject allowed expect value path = [] ↔ strictFields fields value = true := by
  rcases value with _ | (_ | _ | _ | _ | _ | members)
  case some.obj =>
    rw [expectObject, List.append_eq_nil_iff, expectExactKeys_eq_nil, h, strictFields_obj, hkeys]
  all_goals simp [expectObject, strictFields, Zod.strictObject]

/-! ## The schema of the structural validator -/

theorem expectStep_eq_nil {step : Json} {path : JsString} :
    expectStep step path = [] ↔ strictFields (stepFields validatorDialect) (some step) = true := by
  have hkeys : stepKeys = (stepFields validatorDialect).map fun field ↦ js field.1 := rfl
  apply expectObject_eq_nil hkeys
  intro members path
  simp only [stepFields, validatorDialect, List.forall_mem_cons, List.append_eq_nil_iff,
    failUnless_eq_nil, expectString_eq_nil, optional_expectString_eq_nil]
  simp [and_assoc]

theorem expectTraceRef_eq_nil {ref : Json} {path : JsString} :
    expectTraceRef ref path = [] ↔
      strictFields (traceRefFields validatorDialect) (some ref) = true := by
  have hkeys : figmaTraceRefKeys =
    (traceRefFields validatorDialect).map fun field ↦ js field.1 := rfl
  apply expectObject_eq_nil hkeys
  intro members path
  simp only [traceRefFields, validatorDialect, List.forall_mem_cons, List.append_eq_nil_iff,
    expectString_eq_nil, optional_expectString_eq_nil]
  simp [and_assoc]

theorem expectQcMapping_eq_nil {value : Option Json} {path : JsString} :
    expectQcMapping value path = [] ↔
      strictFields (qcMappingFields validatorDialect) value = true := by
  have hkeys : qcMappingKeys =
    (qcMappingFields validatorDialect).map fun field ↦ js field.1 := rfl
  apply expectObject_eq_nil hkeys
  intro members path
  simp only [qcMappingFields, validatorDialect, List.forall_mem_cons, List.append_eq_nil_iff,
    expectBoolean_eq_nil, optional_expectString_eq_nil, optional_expectConst_eq_nil,
    optional_expectStringArray_eq_nil, List.not_mem_nil, false_implies, implies_true, zTexts]
  apply iff_of_eq
  ac_rfl

theorem expectAmbiguity_eq_nil {value : Option Json} {path : JsString} :
    expectAmbiguity value path = [] ↔ strictFields ambiguityFields value = true := by
  have hkeys : ambiguityKeys = ambiguityFields.map fun field ↦ js field.1 := rfl
  apply expectObject_eq_nil hkeys
  intro members path
  simp [ambiguityFields, expectString_eq_nil]

theorem expectQualitySignals_eq_nil {value : Option Json} {path : JsString} :
    expectQualitySignals value path = [] ↔
      strictFields (qualitySignalFields validatorDialect) value = true := by
  have hkeys : qualitySignalKeys =
    (qualitySignalFields validatorDialect).map fun field ↦ js field.1 := rfl
  have hambiguity : ∀ {value path}, expectIfPresent value (expectAmbiguity · path) = [] ↔
      (strictFields ambiguityFields).optional value = true :=
    expectIfPresent_eq_nil fun _ ↦ expectAmbiguity_eq_nil
  apply expectObject_eq_nil hkeys
  intro members path
  simp only [qualitySignalFields, validatorDialect, List.forall_mem_cons, List.append_eq_nil_iff,
    expectStringArray_eq_nil, optional_expectStringArray_eq_nil, expectUnitIntervalNumber_eq_nil,
    hambiguity]
  simp [and_assoc]

theorem expectConfidenceComponents_eq_nil {value : Option Json} {path : JsString} :
    expectConfidenceComponents value path = [] ↔
      strictFields (confidenceComponentFields validatorDialect) value = true := by
  have hkeys : confidenceComponentKeys =
    (confidenceComponentFields validatorDialect).map fun field ↦ js field.1 := rfl
  apply expectObject_eq_nil hkeys
  intro members path
  simp only [confidenceComponentFields, validatorDialect, List.forall_mem_cons,
    List.append_eq_nil_iff, expectUnitIntervalNumber_eq_nil, expectBoolean_eq_nil]
  simp [and_assoc]

theorem expectSnapshotSource_eq_nil {value : Option Json} {path : JsString} :
    expectSnapshotSource value path = [] ↔
      strictFields (snapshotSourceFields validatorDialect) value = true := by
  have hkeys : snapshotSourceKeys =
    (snapshotSourceFields validatorDialect).map fun field ↦ js field.1 := rfl
  apply expectObject_eq_nil hkeys
  intro members path
  simp only [snapshotSourceFields, validatorDialect, List.forall_mem_cons, List.append_eq_nil_iff,
    expectString_eq_nil, expectHash_eq_nil, expectStringArray_eq_nil]
  simp [and_assoc, zTexts]

theorem expectAudit_eq_nil {value : Option Json} {path : JsString} :
    expectAudit value path = [] ↔ strictFields (auditFields validatorDialect) value = true := by
  have hkeys : auditKeys = (auditFields validatorDialect).map fun field ↦ js field.1 := rfl
  have hcount : ∀ {value path message}, expectIfPresent value (fun count ↦
      failUnless (isIntegerFrom 0 count) path message) = [] ↔
        ZodType.optional (isIntegerFrom 0) value = true :=
    expectIfPresent_eq_nil fun _ ↦ failUnless_eq_nil
  have hsnapshot : ∀ {value path}, expectIfPresent value (expectSnapshotSource · path) = [] ↔
      (strictFields (snapshotSourceFields validatorDialect)).optional value = true :=
    expectIfPresent_eq_nil fun _ ↦ expectSnapshotSource_eq_nil
  apply expectObject_eq_nil hkeys
  intro members path
  simp only [auditFields, List.forall_mem_cons, List.append_eq_nil_iff, expectString_eq_nil,
    expectConst_eq_nil, expectHash_eq_nil, expectBoolean_eq_nil, failUnless_eq_nil, hcount,
    hsnapshot, isTextWith_eq]
  simp [and_assoc, validatorDialect]

theorem expectRegulatoryRelevance_eq_nil {value : Option Json} {path : JsString} :
    expectRegulatoryRelevance value path = [] ↔
      strictFields regulatoryRelevanceFields value = true := by
  have hkeys : regulatoryRelevanceKeys =
    regulatoryRelevanceFields.map fun field ↦ js field.1 := rfl
  have hrationale : ∀ value : Option Json,
      isTextWith (fun s ↦ s.length != 0 && s.length ≤ 240) value = zText.maxLength 240 value := by
    intro value
    rcases value with _ | (_ | _ | _ | s | _ | _)
    case some.str =>
      cases s <;> simp [isTextWith, zText, ZodType.minLength, ZodType.maxLength, ZodType.check,
        Zod.string]
    all_goals rfl
  apply expectObject_eq_nil hkeys
  intro members path
  simp [regulatoryRelevanceFields, expectEnum_eq_nil, failUnless_eq_nil, hrationale]

theorem expectStepsArray_eq_nil {value : Option Json} {path : JsString} :
    expectStepsArray value path = [] ↔
      (Zod.array (strictFields (stepFields validatorDialect))).minItems 1 value = true := by
  rcases value with _ | (_ | _ | _ | _ | (_ | ⟨step, steps⟩) | _)
  case some.arr.cons =>
    rw [expectStepsArray, expectItemsFrom_eq_nil fun _ _ ↦ expectStep_eq_nil]
    simp [ZodType.minItems, ZodType.check, Zod.array]
  all_goals simp [expectStepsArray, ZodType.minItems, ZodType.check, Zod.array]

theorem validateTestCase_eq_nil {value : Json} {path : JsString} :
    validateTestCase value path = [] ↔
      strictFields (testCaseFields validatorDialect) (some value) = true := by
  have hkeys : testCaseKeys =
    (testCaseFields validatorDialect).map fun field ↦ js field.1 := rfl
  have hrefs : ∀ {value path}, expectTraceRefs value path = [] ↔
      Zod.array (strictFields (traceRefFields validatorDialect)) value = true :=
    expectArray_eq_nil fun _ _ ↦ expectTraceRef_eq_nil
  have hcomponents : ∀ {value path},
      expectIfPresent value (expectConfidenceComponents · path) = [] ↔
        (strictFields (confidenceComponentFields validatorDialect)).optional value = true :=
    expectIfPresent_eq_nil fun _ ↦ expectConfidenceComponents_eq_nil
  have hrelevance : ∀ {value path},
      expectIfPresent value (expectRegulatoryRelevance · path) = [] ↔
        (strictFields regulatoryRelevanceFields).optional value = true :=
    expectIfPresent_eq_nil fun _ ↦ expectRegulatoryRelevance_eq_nil
  apply expectObject_eq_nil hkeys
  intro members path
  simp only [testCaseFields, List.forall_mem_cons, List.append_eq_nil_iff,
    validateTestCaseIdentity, validateTestCaseClassification, validateTestCaseBody,
    expectString_eq_nil, expectConst_eq_nil, expectEnum_eq_nil, optional_expectEnum_eq_nil,
    expectStringArray_eq_nil, expectStepsArray_eq_nil, hrefs, expectQcMapping_eq_nil,
    expectQualitySignals_eq_nil, optional_expectUnitIntervalNumber_eq_nil, hcomponents,
    expectAudit_eq_nil, hrelevance, List.not_mem_nil, false_implies, implies_true]
  apply iff_of_eq
  simp only [validatorDialect, and_true]
  ac_rfl

theorem validationErrors_eq_nil {value : Json} :
    validationErrors value = [] ↔ listSchema validatorDialect (some value) = true := by
  have hkeys : rootKeys = (listFields validatorDialect).map fun field ↦ js field.1 := rfl
  have hcases : ∀ {value path}, expectArray validateTestCase value path = [] ↔
      Zod.array (strictFields (testCaseFields validatorDialect)) value = true :=
    expectArray_eq_nil fun _ _ ↦ validateTestCase_eq_nil
  have hversion : ∀ value : Option Json, isTextWith (· == generatedTestCaseSchemaVersion) value =
      Zod.literal generatedTestCaseSchemaVersion value := by
    intro value
    rcases value with _ | (_ | _ | _ | _ | _ | _) <;> rfl
  cases value with
  | obj root =>
      rw [validationErrors, listSchema, strictFields_obj, ← hkeys]
      simp only [List.append_eq_nil_iff, expectExactKeys_eq_nil, failUnless_eq_nil, hcases,
        hversion, isNonEmptyString_eq, listFields, List.forall_mem_cons]
      simp [and_assoc]
  | _ => simp [validationErrors, listSchema, strictFields, Zod.strictObject]

/-- The validator takes the values of the schema in its own dialect. -/
theorem validateGeneratedTestCaseList_valid_iff (value : Json) :
    (validateGeneratedTestCaseList value).valid = true ↔
      listSchema validatorDialect (some value) = true := by
  rw [validateGeneratedTestCaseList, List.isEmpty_iff, validationErrors_eq_nil]

/-! ## The rules that a dialect adds -/

/-- What both sides ask of the open fields. -/
def wideDialect : Dialect where
  title := zText
  objective := zText
  index := isIntegerFrom 1
  note := Zod.string
  reason := Zod.string
  unit := isUnitInterval
  count := isIntegerFrom 0
  selectedId := Zod.string

def fieldAt (value : Option Json) (name : String) : Option Json :=
  match value with
  | some (.obj members) => mapGet members (js name)
  | _ => none

def itemsOfValue : Option Json → List Json
  | some (.arr items) => items
  | _ => []

def itemsAt (value : Option Json) (name : String) : List Json := itemsOfValue (fieldAt value name)

def PassesIfPresent (type : ZodType) (value : Option Json) : Prop := type.optional value = true

/-- The fields pass where they are present. -/
def RulesHold (value : Option Json) (rules : List (String × ZodType)) : Prop :=
  ∀ rule ∈ rules, PassesIfPresent rule.2 (fieldAt value rule.1)

/-- The rules on the open fields of a test case. -/
@[mk_iff]
structure CaseRules (d : Dialect) (tc : Option Json) : Prop where
  own : RulesHold tc [("title", d.title), ("objective", d.objective), ("confidence", d.unit)]
  steps : ∀ step ∈ itemsAt tc "steps",
    RulesHold (some step) [("index", d.index), ("data", d.note), ("expected", d.note)]
  figmaTraceRefs : ∀ ref ∈ itemsAt tc "figmaTraceRefs",
    RulesHold (some ref) [("nodeId", d.note), ("nodeName", d.note), ("nodePath", d.note)]
  qcMappingPreview : RulesHold (fieldAt tc "qcMappingPreview")
    [("folderHint", d.note), ("mappingProfileId", d.note), ("blockingReasons", Zod.array d.reason)]
  qualitySignals : RulesHold (fieldAt tc "qualitySignals") [("confidence", d.unit)]
  confidenceComponents : RulesHold (fieldAt tc "confidenceComponents")
    [("judgePanelAgreement", d.unit), ("faithfulnessScore", d.unit),
      ("selfConsistencyAgreement", d.unit), ("ragHitStrength", d.unit), ("rawScore", d.unit)]
  audit : RulesHold (fieldAt tc "audit") [("truncatedInstructionCount", d.count)]
  snapshotSource : RulesHold (fieldAt (fieldAt tc "audit") "snapshotSource")
    [("selectedNodeIds", Zod.array d.selectedId), ("selectedPageIds", Zod.array d.selectedId),
      ("selectedFrameIds", Zod.array d.selectedId)]

/-- A dialect takes nothing in the open fields that the wide one does not. -/
structure Narrows (d : Dialect) : Prop where
  title : ∀ v, d.title v = true → wideDialect.title v = true
  objective : ∀ v, d.objective v = true → wideDialect.objective v = true
  index : ∀ v, d.index v = true → wideDialect.index v = true
  note : ∀ v, d.note v = true → wideDialect.note v = true
  reason : ∀ v, d.reason v = true → wideDialect.reason v = true
  unit : ∀ v, d.unit v = true → wideDialect.unit v = true
  count : ∀ v, d.count v = true → wideDialect.count v = true
  selectedId : ∀ v, d.selectedId v = true → wideDialect.selectedId v = true

section

variable {narrow wide : ZodType}

theorem required_iff (h : ∀ v, narrow v = true → wide v = true) (hnone : wide none = false)
    (value : Option Json) :
    narrow value = true ↔ wide value = true ∧ PassesIfPresent narrow value := by
  cases value with
  | none =>
      have hnarrow : narrow none = false := by
        cases hvalue : narrow none with
        | false => rfl
        | true => exact absurd (h none hvalue) (by simp [hnone])
      simp [hnarrow, hnone]
  | some v => simpa [PassesIfPresent, ZodType.optional] using h (some v)

theorem optional_iff (h : ∀ v, narrow v = true → wide v = true) (value : Option Json) :
    narrow.optional value = true ↔ wide.optional value = true ∧ PassesIfPresent narrow value := by
  cases value with
  | none => simp [PassesIfPresent, ZodType.optional]
  | some v => simpa [PassesIfPresent, ZodType.optional] using h (some v)

theorem array_narrows (h : ∀ v, narrow v = true → wide v = true) (value : Option Json)
    (hvalue : Zod.array narrow value = true) : Zod.array wide value = true := by
  rcases value with _ | (_ | _ | _ | _ | items | _)
  case some.arr =>
    rw [Zod.array, List.all_eq_true] at hvalue ⊢
    exact fun item hitem ↦ h _ (hvalue item hitem)
  all_goals cases hvalue

/-- A rule on an optional object is one on its fields where it is present. -/
theorem optional_and_iff {rule : Option Json → Prop} (hrule : rule none)
    (h : ∀ v, narrow v = true ↔ wide v = true ∧ rule v) (value : Option Json) :
    narrow.optional value = true ↔ wide.optional value = true ∧ rule value := by
  cases value with
  | none => simpa [ZodType.optional] using hrule
  | some v => simpa [ZodType.optional] using h (some v)

theorem array_and_iff {rule : Option Json → Prop} (h : ∀ v, narrow v = true ↔ wide v = true ∧ rule v)
    (value : Option Json) : Zod.array narrow value = true ↔
      Zod.array wide value = true ∧ ∀ item ∈ itemsOfValue value, rule (some item) := by
  rcases value with _ | (_ | _ | _ | _ | items | _)
  case some.arr =>
    simp only [Zod.array, List.all_eq_true, itemsOfValue, h, imp_and, forall_and]
  all_goals simp [Zod.array]

end

theorem rulesHold_none (rules : List (String × ZodType)) : RulesHold none rules :=
  fun _ _ ↦ rfl

section

variable {d : Dialect}

theorem stepFields_iff (h : Narrows d) (v : Option Json) :
    strictFields (stepFields d) v = true ↔ strictFields (stepFields wideDialect) v = true ∧
      RulesHold v [("index", d.index), ("data", d.note), ("expected", d.note)] := by
  rcases v with _ | (_ | _ | _ | _ | _ | members)
  case some.obj =>
    simp only [strictFields_obj, stepFields, RulesHold, List.forall_mem_cons, fieldAt,
      required_iff h.index rfl, optional_iff h.note, List.map_cons, List.map_nil,
      List.not_mem_nil, false_implies, implies_true, and_true]
    apply iff_of_eq
    ac_rfl
  all_goals simp [strictFields, Zod.strictObject]

theorem traceRefFields_iff (h : Narrows d) (v : Option Json) :
    strictFields (traceRefFields d) v = true ↔ strictFields (traceRefFields wideDialect) v = true ∧
      RulesHold v [("nodeId", d.note), ("nodeName", d.note), ("nodePath", d.note)] := by
  rcases v with _ | (_ | _ | _ | _ | _ | members)
  case some.obj =>
    simp only [strictFields_obj, traceRefFields, RulesHold, List.forall_mem_cons, fieldAt,
      optional_iff h.note, List.map_cons, List.map_nil, List.not_mem_nil, false_implies,
      implies_true, and_true]
    apply iff_of_eq
    ac_rfl
  all_goals simp [strictFields, Zod.strictObject]

theorem qcMappingFields_iff (h : Narrows d) (v : Option Json) :
    strictFields (qcMappingFields d) v = true ↔
      strictFields (qcMappingFields wideDialect) v = true ∧
        RulesHold v [("folderHint", d.note), ("mappingProfileId", d.note),
          ("blockingReasons", Zod.array d.reason)] := by
  rcases v with _ | (_ | _ | _ | _ | _ | members)
  case some.obj =>
    simp only [strictFields_obj, qcMappingFields, RulesHold, List.forall_mem_cons, fieldAt,
      optional_iff h.note, optional_iff (array_narrows h.reason), List.map_cons, List.map_nil,
      List.not_mem_nil, false_implies, implies_true, and_true]
    apply iff_of_eq
    ac_rfl
  all_goals simp [strictFields, Zod.strictObject]

theorem qualitySignalFields_iff (h : Narrows d) (v : Option Json) :
    strictFields (qualitySignalFields d) v = true ↔
      strictFields (qualitySignalFields wideDialect) v = true ∧
        RulesHold v [("confidence", d.unit)] := by
  rcases v with _ | (_ | _ | _ | _ | _ | members)
  case some.obj =>
    simp only [strictFields_obj, qualitySignalFields, RulesHold, List.forall_mem_cons, fieldAt,
      required_iff h.unit rfl, List.map_cons, List.map_nil, List.not_mem_nil, false_implies,
      implies_true, and_true]
    apply iff_of_eq
    ac_rfl
  all_goals simp [strictFields, Zod.strictObject]

theorem confidenceComponentFields_iff (h : Narrows d) (v : Option Json) :
    strictFields (confidenceComponentFields d) v = true ↔
      strictFields (confidenceComponentFields wideDialect) v = true ∧
        RulesHold v [("judgePanelAgreement", d.unit), ("faithfulnessScore", d.unit),
          ("selfConsistencyAgreement", d.unit), ("ragHitStrength", d.unit),
          ("rawScore", d.unit)] := by
  rcases v with _ | (_ | _ | _ | _ | _ | members)
  case some.obj =>
    simp only [strictFields_obj, confidenceComponentFields, RulesHold, List.forall_mem_cons,
      fieldAt, required_iff h.unit rfl, List.map_cons, List.map_nil, List.not_mem_nil,
      false_implies, implies_true, and_true]
    apply iff_of_eq
    ac_rfl
  all_goals simp [strictFields, Zod.strictObject]

theorem snapshotSourceFields_iff (h : Narrows d) (v : Option Json) :
    strictFields (snapshotSourceFields d) v = true ↔
      strictFields (snapshotSourceFields wideDialect) v = true ∧
        RulesHold v [("selectedNodeIds", Zod.array d.selectedId),
          ("selectedPageIds", Zod.array d.selectedId),
          ("selectedFrameIds", Zod.array d.selectedId)] := by
  rcases v with _ | (_ | _ | _ | _ | _ | members)
  case some.obj =>
    simp only [strictFields_obj, snapshotSourceFields, RulesHold, List.forall_mem_cons, fieldAt,
      required_iff (array_narrows h.selectedId) rfl, List.map_cons, List.map_nil,
      List.not_mem_nil, false_implies, implies_true, and_true]
    apply iff_of_eq
    ac_rfl
  all_goals simp [strictFields, Zod.strictObject]

theorem auditFields_iff (h : Narrows d) (v : Option Json) :
    strictFields (auditFields d) v = true ↔ strictFields (auditFields wideDialect) v = true ∧
      RulesHold v [("truncatedInstructionCount", d.count)] ∧
        RulesHold (fieldAt v "snapshotSource") [("selectedNodeIds", Zod.array d.selectedId),
          ("selectedPageIds", Zod.array d.selectedId),
          ("selectedFrameIds", Zod.array d.selectedId)] := by
  rcases v with _ | (_ | _ | _ | _ | _ | members)
  case some.obj =>
    simp only [strictFields_obj, auditFields, List.forall_mem_cons, optional_iff h.count,
      optional_and_iff (rulesHold_none _) (snapshotSourceFields_iff h), List.map_cons,
      List.map_nil, List.not_mem_nil, false_implies, implies_true, and_true]
    simp only [RulesHold, List.forall_mem_singleton, fieldAt]
    apply iff_of_eq
    ac_rfl
  all_goals simp [strictFields, Zod.strictObject]

theorem stepsType_iff (h : Narrows d) (v : Option Json) :
    (Zod.array (strictFields (stepFields d))).minItems 1 v = true ↔
      (Zod.array (strictFields (stepFields wideDialect))).minItems 1 v = true ∧
        ∀ step ∈ itemsOfValue v, RulesHold (some step)
          [("index", d.index), ("data", d.note), ("expected", d.note)] := by
  rw [ZodType.minItems, ZodType.minItems, ZodType.check, ZodType.check, Bool.and_eq_true,
    Bool.and_eq_true, array_and_iff (stepFields_iff h)]
  apply iff_of_eq
  ac_rfl

theorem testCaseFields_iff (h : Narrows d) (v : Option Json) :
    strictFields (testCaseFields d) v = true ↔
      strictFields (testCaseFields wideDialect) v = true ∧ CaseRules d v := by
  rcases v with _ | (_ | _ | _ | _ | _ | members)
  case some.obj =>
    have hrules := caseRules_iff d (some (.obj members))
    simp only [itemsAt, RulesHold, List.forall_mem_cons, fieldAt, List.not_mem_nil,
      false_implies, implies_true, and_true] at hrules
    rw [hrules]
    simp only [strictFields_obj, testCaseFields, List.forall_mem_cons, required_iff h.title rfl,
      required_iff h.objective rfl, optional_iff h.unit, stepsType_iff h,
      array_and_iff (traceRefFields_iff h), qcMappingFields_iff h, qualitySignalFields_iff h,
      optional_and_iff (rulesHold_none _) (confidenceComponentFields_iff h), auditFields_iff h,
      List.map_cons, List.map_nil, RulesHold, fieldAt, List.not_mem_nil, false_implies,
      implies_true, and_true]
    apply iff_of_eq
    ac_rfl
  all_goals simp [strictFields, Zod.strictObject]

/-- The cases of a list. -/
def casesOf (value : Json) : List Json := itemsAt (some value) "testCases"

theorem listSchema_iff (h : Narrows d) (value : Json) :
    listSchema d (some value) = true ↔ listSchema wideDialect (some value) = true ∧
      ∀ tc ∈ casesOf value, CaseRules d (some tc) := by
  cases value with
  | obj members =>
      simp only [listSchema, strictFields_obj, listFields, List.forall_mem_cons,
        array_and_iff (testCaseFields_iff h), List.map_cons, List.map_nil, casesOf, itemsAt,
        fieldAt, List.not_mem_nil, false_implies, implies_true, and_true]
      apply iff_of_eq
      ac_rfl
  | _ => simp [listSchema, strictFields, Zod.strictObject]

end

/-! ## Agreement -/

theorem zText_string (v : Option Json) (h : zText v = true) : Zod.string v = true :=
  (Bool.and_eq_true_iff.mp h).1

theorem narrows_validatorDialect : Narrows validatorDialect where
  title := fun _ ↦ id
  objective := fun _ ↦ id
  index := fun _ ↦ id
  note := zText_string
  reason := fun _ ↦ id
  unit := fun _ ↦ id
  count := fun _ ↦ id
  selectedId := fun _ ↦ id

theorem not_lt_of_le {x y : JsNumber} (h : x.le y = true) : y.lt x = false := by
  cases hlt : y.lt x with
  | false => rfl
  | true => rw [JsNumber.le_eq_false_of_lt hlt] at h; cases h

theorem isIntegerFrom_of_zInteger {least : JsNumber} (v : Option Json)
    (h : Zod.number.int.gte least v = true) : isIntegerFrom least v = true := by
  rcases v with _ | (_ | _ | x | _ | _ | _)
  case some.num =>
    simp only [ZodType.gte, ZodType.int, ZodType.check, Bool.and_eq_true, Option.all_some] at h
    obtain ⟨⟨-, hinteger, -⟩, hleast⟩ := h
    simp [isIntegerFrom, isNumberWith, hinteger, not_lt_of_le hleast]
  all_goals cases h

theorem isUnitInterval_of_zUnit (v : Option Json) (h : zUnit v = true) :
    isUnitInterval v = true := by
  rcases v with _ | (_ | _ | x | _ | _ | _)
  case some.num =>
    simp only [zUnit, ZodType.gte, ZodType.lte, ZodType.check, Bool.and_eq_true,
      Option.all_some] at h
    simp [isUnitInterval, isNumberWith, not_lt_of_le h.1.2, not_lt_of_le h.2]
  all_goals cases h

theorem narrows_zodDialect : Narrows zodDialect where
  title := fun _ h ↦ (Bool.and_eq_true_iff.mp h).1
  objective := fun _ h ↦ (Bool.and_eq_true_iff.mp h).1
  index := isIntegerFrom_of_zInteger
  note := fun _ ↦ id
  reason := zText_string
  unit := isUnitInterval_of_zUnit
  count := isIntegerFrom_of_zInteger
  selectedId := zText_string

/-- The two sides agree on a value exactly where it breaks a rule that both share, or
where its cases meet the rules of either side or of none. -/
theorem validators_agree_iff (value : Json) :
    ((validateGeneratedTestCaseList value).valid = true ↔
        generatedTestCaseListZodSchema (some value) = true) ↔
      (listSchema wideDialect (some value) = true →
        ((∀ tc ∈ casesOf value, CaseRules validatorDialect (some tc)) ↔
          ∀ tc ∈ casesOf value, CaseRules zodDialect (some tc))) := by
  rw [validateGeneratedTestCaseList_valid_iff, generatedTestCaseListZodSchema_eq,
    listSchema_iff narrows_validatorDialect, listSchema_iff narrows_zodDialect]
  exact and_congr_right_iff

/-! ## A step with empty data -/

def textJson (s : String) : Json := .str (js s)

def textsJson (texts : List String) : Json := .arr (texts.map textJson)

def objectJson (members : List (String × Json)) : Json :=
  .obj (members.map fun member ↦ (js member.1, member.2))

def hashJson : Json := .str (List.replicate 64 0x61)

def sampleAudit : Json :=
  objectJson [
    ("jobId", textJson "job-1"),
    ("generatedAt", textJson "2026-04-27T12:00:00Z"),
    ("contractVersion", .str testIntelligenceContractVersion),
    ("schemaVersion", .str generatedTestCaseSchemaVersion),
    ("promptTemplateVersion", .str testIntelligencePromptTemplateVersion),
    ("redactionPolicyVersion", textJson "1.0.0"),
    ("visualSidecarSchemaVersion", textJson "1.1.0"),
    ("cacheHit", .bool false),
    ("cacheKey", textJson "key-1"),
    ("inputHash", hashJson),
    ("promptHash", hashJson),
    ("schemaHash", hashJson)]

/-- A list of one case, with the data of its step and the confidence of its signals. -/
def sampleList (data : JsString) (confidence : JsNumber) : Json :=
  objectJson [
    ("schemaVersion", .str generatedTestCaseSchemaVersion),
    ("jobId", textJson "job-1"),
    ("testCases", .arr [objectJson [
      ("id", textJson "tc-1"),
      ("sourceJobId", textJson "job-1"),
      ("contractVersion", .str testIntelligenceContractVersion),
      ("schemaVersion", .str generatedTestCaseSchemaVersion),
      ("promptTemplateVersion", .str testIntelligencePromptTemplateVersion),
      ("title", textJson "Log in"),
      ("objective", textJson "A user can log in."),
      ("level", textJson "system"),
      ("type", textJson "functional"),
      ("priority", textJson "p1"),
      ("riskCategory", textJson "low"),
      ("technique", textJson "use_case"),
      ("preconditions", textsJson []),
      ("testData", textsJson []),
      ("steps", .arr [objectJson [
        ("index", .num 1), ("action", textJson "Submit"), ("data", .str data)]]),
      ("expectedResults", textsJson ["Dashboard"]),
      ("figmaTraceRefs", .arr []),
      ("assumptions", textsJson []),
      ("openQuestions", textsJson []),
      ("qcMappingPreview", objectJson [("exportable", .bool true)]),
      ("qualitySignals", objectJson [
        ("coveredFieldIds", textsJson []),
        ("coveredActionIds", textsJson []),
        ("coveredValidationIds", textsJson []),
        ("coveredNavigationIds", textsJson []),
        ("confidence", .num confidence)]),
      ("reviewState", textJson "draft"),
      ("audit", sampleAudit)]])]

theorem sampleList_verdicts :
    (∀ confidence ∈ [1, .nan],
      (validateGeneratedTestCaseList (sampleList (js "x") confidence)).valid = true) ∧
    (validateGeneratedTestCaseList (sampleList [] 1)).valid = false ∧
    generatedTestCaseListZodSchema (some (sampleList [] 1)) = true := by
  decide +kernel

/-- The Zod schema takes an empty `data`, the structural validator does not. -/
theorem empty_step_data_disagrees :
    ¬ ∀ value, (validateGeneratedTestCaseList value).valid = true ↔
      generatedTestCaseListZodSchema (some value) = true := by
  intro h
  obtain ⟨-, hvalid, hzod⟩ := sampleList_verdicts
  rw [(h (sampleList [] 1)).mpr hzod] at hvalid
  cases hvalid

end TestIntelligence.CoreEngine
