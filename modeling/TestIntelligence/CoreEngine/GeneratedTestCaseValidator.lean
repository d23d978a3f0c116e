import TestIntelligence.Js.Json
import TestIntelligence.Js.Patterns
import TestIntelligence.Zod.Types

/-!
# The structural validator of generated test cases

The validator collects the errors of a value; the value is valid where there are none.
-/

namespace TestIntelligence.CoreEngine

open Js

structure GeneratedTestCaseValidationError where
  path : JsString
  message : JsString
  deriving DecidableEq

abbrev ValidationErrors := List GeneratedTestCaseValidationError

def generatedTestCaseSchemaVersion : JsString := js "1.4.0"

def testIntelligenceContractVersion : JsString := js "1.39.0"

def testIntelligencePromptTemplateVersion : JsString := js "1.7.3"

/-! ## Tables -/

def techniques : List JsString :=
  ["equivalence_partitioning", "boundary_value_analysis", "decision_table", "state_transition",
    "use_case", "exploratory", "error_guessing", "syntax_testing", "classification_tree"].map js

def levels : List JsString := ["unit", "component", "integration", "system", "acceptance"].map js

def types : List JsString :=
  ["functional", "negative", "boundary", "validation", "navigation", "regression", "exploratory",
    "accessibility"].map js

def priorities : List JsString := ["p0", "p1", "p2", "p3"].map js

def polarities : List JsString :=
  ["positive", "negative", "boundary", "validation", "navigation", "accessibility"].map js

def caseCategories : List JsString :=
  ["positive_path", "negative_path", "boundary_value", "validation_rule", "navigation_flow",
    "accessibility"].map js

def riskCategories : List JsString :=
  ["low", "medium", "high", "regulated_data", "financial_transaction"].map js

def reviewStates : List JsString := ["draft", "auto_approved", "needs_review", "rejected"].map js

def regulatoryRelevanceDomains : List JsString := ["banking", "insurance", "general"].map js

def rootKeys : List JsString := ["schemaVersion", "jobId", "testCases"].map js

def testCaseKeys : List JsString :=
  ["id", "sourceJobId", "contractVersion", "schemaVersion", "promptTemplateVersion", "title",
    "objective", "level", "type", "polarity", "category", "priority", "riskCategory", "technique",
    "preconditions", "testData", "steps", "expectedResults", "figmaTraceRefs", "assumptions",
    "openQuestions", "qcMappingPreview", "qualitySignals", "confidence", "confidenceComponents",
    "reviewState", "audit", "regulatoryRelevance"].map js

def regulatoryRelevanceKeys : List JsString := ["domain", "rationale"].map js

def stepKeys : List JsString :=
  ["index", "action", "data", "expected", "fieldLifecycleTransitionId"].map js

def figmaTraceRefKeys : List JsString := ["screenId", "nodeId", "nodeName", "nodePath"].map js

def qcMappingKeys : List JsString :=
  ["folderHint", "mappingProfileId", "decisionBasis", "exportable", "blockingReasons"].map js

def qualitySignalKeys : List JsString :=
  ["coveredFieldIds", "coveredActionIds", "coveredValidationIds", "coveredNavigationIds",
    "coveredRequirementIds", "confidence", "ambiguity"].map js

def confidenceComponentKeys : List JsString :=
  ["judgePanelAgreement", "faithfulnessScore", "selfConsistencyAgreement", "ragHitStrength",
    "oracleResolved", "rawScore"].map js

def ambiguityKeys : List JsString := ["reason"].map js

def auditKeys : List JsString :=
  ["jobId", "generatedAt", "contractVersion", "schemaVersion", "promptTemplateVersion",
    "redactionPolicyVersion", "visualSidecarSchemaVersion", "cacheHit", "cacheKey", "inputHash",
    "promptHash", "schemaHash", "truncatedInstructionCount", "snapshotSource"].map js

def snapshotSourceKeys : List JsString :=
  ["snapshotId", "snapshotDigest", "nodeIndexDigest", "scopeDigest", "selectedNodeIds",
    "selectedPageIds", "selectedFrameIds"].map js

/-! ## Primitive values -/

def failUnless (ok : Bool) (path message : JsString) : ValidationErrors :=
  if ok then [] else [⟨path, message⟩]

def isNonEmptyString : Option Json → Bool := isTextWith fun s ↦ s.length != 0

def expectString (value : Option Json) (path : JsString) : ValidationErrors :=
  failUnless (isNonEmptyString value) path (js "expected non-empty string")

def expectConst (value : Option Json) (expected path : JsString) : ValidationErrors :=
  failUnless (isTextWith (· == expected) value) path (js "expected \"" ++ expected ++ js "\"")

def expectEnum (value : Option Json) (allowed : List JsString) (path : JsString) :
    ValidationErrors :=
  failUnless (isTextWith (allowed.contains ·) value) path
    (js "expected one of " ++ join (js ", ") allowed)

def expectHash (value : Option Json) (path : JsString) : ValidationErrors :=
  failUnless (isTextWith (isHexOfLength 64) value) path (js "expected sha256 hex digest")

def expectBoolean (value : Option Json) (path : JsString) : ValidationErrors :=
  failUnless
    (match value with
      | some (.bool _) => true
      | _ => false) path (js "expected boolean")

/-- The two comparisons are both false for `NaN`, which passes. -/
def isUnitInterval : Option Json → Bool := isNumberWith fun x ↦ !(x.lt 0 || JsNumber.lt 1 x)

def expectUnitIntervalNumber (value : Option Json) (path : JsString) : ValidationErrors :=
  failUnless (isUnitInterval value) path (js "expected number in [0, 1]")

/-- The first key of the object outside the allowed ones. -/
def expectExactKeys (members : List (JsString × Json)) (allowed : List JsString)
    (path : JsString) : ValidationErrors :=
  match members.find? fun member ↦ !allowed.contains member.1 with
  | none => []
  | some member => [⟨path, js "unexpected property \"" ++ member.1 ++ js "\""⟩]

/-- The check of a field that may be left out. -/
def expectIfPresent (value : Option Json) (expect : Option Json → ValidationErrors) :
    ValidationErrors :=
  if value.isSome then expect value else []

def itemPath (path : JsString) (index : ℕ) : JsString :=
  path ++ js "[" ++ numberText (.ofRat index) ++ js "]"

def fieldPath (path : JsString) (name : String) : JsString := path ++ js "." ++ js name

def expectItemsFrom (expect : Json → JsString → ValidationErrors) (path : JsString) :
    ℕ → List Json → ValidationErrors
  | _, [] => []
  | i, item :: items => expect item (itemPath path i) ++ expectItemsFrom expect path (i + 1) items

def expectArray (expect : Json → JsString → ValidationErrors) (value : Option Json)
    (path : JsString) : ValidationErrors :=
  match value with
  | some (.arr items) => expectItemsFrom expect path 0 items
  | _ => [⟨path, js "expected array"⟩]

def expectStringArray : Option Json → JsString → ValidationErrors :=
  expectArray fun item path ↦ failUnless (isTextWith (fun _ ↦ true) item) path (js "expected string")

/-- The checks of an object, its keys first. -/
def expectObject (allowed : List JsString)
    (expect : List (JsString × Json) → JsString → ValidationErrors) (value : Option Json)
    (path : JsString) : ValidationErrors :=
  match value with
  | some (.obj members) => expectExactKeys members allowed path ++ expect members path
  | _ => [⟨path, js "expected object"⟩]

def isIntegerFrom (least : JsNumber) : Option Json → Bool :=
  isNumberWith fun x ↦ x.isInteger && !x.lt least

/-! ## Nested objects -/

def expectStep (step : Json) : JsString → ValidationErrors :=
  expectObject stepKeys (fun step path ↦
    let field := fun name ↦ mapGet step (js name)
    failUnless (isIntegerFrom 1 (field "index")) (fieldPath path "index")
        (js "expected integer >= 1") ++
      expectString (field "action") (fieldPath path "action") ++
      expectIfPresent (field "data") (expectString · (fieldPath path "data")) ++
      expectIfPresent (field "expected") (expectString · (fieldPath path "expected")) ++
      expectIfPresent (field "fieldLifecycleTransitionId")
        (expectString · (fieldPath path "fieldLifecycleTransitionId"))) (some step)

def expectStepsArray (value : Option Json) (path : JsString) : ValidationErrors :=
  match value with
  | some (.arr (step :: steps)) => expectItemsFrom expectStep path 0 (step :: steps)
  | _ => [⟨path, js "expected non-empty array"⟩]

def expectTraceRef (ref : Json) : JsString → ValidationErrors :=
  expectObject figmaTraceRefKeys (fun ref path ↦
    let field := fun name ↦ mapGet ref (js name)
    expectString (field "screenId") (fieldPath path "screenId") ++
      expectIfPresent (field "nodeId") (expectString · (fieldPath path "nodeId")) ++
      expectIfPresent (field "nodeName") (expectString · (fieldPath path "nodeName")) ++
      expectIfPresent (field "nodePath") (expectString · (fieldPath path "nodePath"))) (some ref)

def expectTraceRefs : Option Json → JsString → ValidationErrors := expectArray expectTraceRef

def expectQcMapping : Option Json → JsString → ValidationErrors :=
  expectObject qcMappingKeys fun value path ↦
    let field := fun name ↦ mapGet value (js name)
    expectBoolean (field "exportable") (fieldPath path "exportable") ++
      expectIfPresent (field "folderHint") (expectString · (fieldPath path "folderHint")) ++
      expectIfPresent (field "mappingProfileId")
        (expectString · (fieldPath path "mappingProfileId")) ++
      expectIfPresent (field "decisionBasis")
        (expectConst · (js "mapping_preview_only") (fieldPath path "decisionBasis")) ++
      expectIfPresent (field "blockingReasons")
        (expectStringArray · (fieldPath path "blockingReasons"))

def expectAmbiguity : Option Json → JsString → ValidationErrors :=
  expectObject ambiguityKeys fun value path ↦
    expectString (mapGet value (js "reason")) (fieldPath path "reason")

def expectQualitySignals : Option Json → JsString → ValidationErrors :=
  expectObject qualitySignalKeys fun value path ↦
    let field := fun name ↦ mapGet value (js name)
    expectStringArray (field "coveredFieldIds") (fieldPath path "coveredFieldIds") ++
      expectStringArray (field "coveredActionIds") (fieldPath path "coveredActionIds") ++
      expectStringArray (field "coveredValidationIds") (fieldPath path "coveredValidationIds") ++
      expectStringArray (field "coveredNavigationIds") (fieldPath path "coveredNavigationIds") ++
      expectIfPresent (field "coveredRequirementIds")
        (expectStringArray · (fieldPath path "coveredRequirementIds")) ++
      expectUnitIntervalNumber (field "confidence") (fieldPath path "confidence") ++
      expectIfPresent (field "ambiguity") (expectAmbiguity · (fieldPath path "ambiguity"))

def expectConfidenceComponents : Option Json → JsString → ValidationErrors :=
  expectObject confidenceComponentKeys fun value path ↦
    let field := fun name ↦ mapGet value (js name)
    expectUnitIntervalNumber (field "judgePanelAgreement")
        (fieldPath path "judgePanelAgreement") ++
      expectUnitIntervalNumber (field "faithfulnessScore") (fieldPath path "faithfulnessScore") ++
      expectUnitIntervalNumber (field "selfConsistencyAgreement")
        (fieldPath path "selfConsistencyAgreement") ++
      expectUnitIntervalNumber (field "ragHitStrength") (fieldPath path "ragHitStrength") ++
      expectBoolean (field "oracleResolved") (fieldPath path "oracleResolved") ++
      expectUnitIntervalNumber (field "rawScore") (fieldPath path "rawScore")

def expectSnapshotSource : Option Json → JsString → ValidationErrors :=
  expectObject snapshotSourceKeys fun value path ↦
    let field := fun name ↦ mapGet value (js name)
    expectString (field "snapshotId") (fieldPath path "snapshotId") ++
      expectHash (field "snapshotDigest") (fieldPath path "snapshotDigest") ++
      expectHash (field "nodeIndexDigest") (fieldPath path "nodeIndexDigest") ++
      expectHash (field "scopeDigest") (fieldPath path "scopeDigest") ++
      expectStringArray (field "selectedNodeIds") (fieldPath path "selectedNodeIds") ++
      expectStringArray (field "selectedPageIds") (fieldPath path "selectedPageIds") ++
      expectStringArray (field "selectedFrameIds") (fieldPath path "selectedFrameIds")

def expectAudit : Option Json → JsString → ValidationErrors :=
  expectObject auditKeys fun value path ↦
    let field := fun name ↦ mapGet value (js name)
    expectString (field "jobId") (fieldPath path "jobId") ++
      failUnless (isTextWith isIsoDateTime (field "generatedAt")) (fieldPath path "generatedAt")
        (js "expected ISO-8601 timestamp") ++
      expectConst (field "contractVersion") testIntelligenceContractVersion
        (fieldPath path "contractVersion") ++
      expectConst (field "schemaVersion") generatedTestCaseSchemaVersion
        (fieldPath path "schemaVersion") ++
      expectConst (field "promptTemplateVersion") testIntelligencePromptTemplateVersion
        (fieldPath path "promptTemplateVersion") ++
      expectString (field "redactionPolicyVersion") (fieldPath path "redactionPolicyVersion") ++
      expectString (field "visualSidecarSchemaVersion")
        (fieldPath path "visualSidecarSchemaVersion") ++
      expectBoolean (field "cacheHit") (fieldPath path "cacheHit") ++
      expectString (field "cacheKey") (fieldPath path "cacheKey") ++
      expectHash (field "inputHash") (fieldPath path "inputHash") ++
      expectHash (field "promptHash") (fieldPath path "promptHash") ++
      expectHash (field "schemaHash") (fieldPath path "schemaHash") ++
      expectIfPresent (field "truncatedInstructionCount") (fun count ↦
        failUnless (isIntegerFrom 0 count) (fieldPath path "truncatedInstructionCount")
          (js "expected non-negative integer when present")) ++
      expectIfPresent (field "snapshotSource")
        (expectSnapshotSource · (fieldPath path "snapshotSource"))

def expectRegulatoryRelevance : Option Json → JsString → ValidationErrors :=
  expectObject regulatoryRelevanceKeys fun value path ↦
    expectEnum (mapGet value (js "domain")) regulatoryRelevanceDomains (fieldPath path "domain") ++
      failUnless
        (isTextWith (fun s ↦ s.length != 0 && s.length ≤ 240) (mapGet value (js "rationale")))
        (fieldPath path "rationale") (js "expected non-empty string of length 1..240")

/-! ## Test cases -/

section

variable (tc : List (JsString × Json)) (path : JsString)

def validateTestCaseIdentity : ValidationErrors :=
  let field := fun name ↦ mapGet tc (js name)
  expectString (field "id") (fieldPath path "id") ++
    expectString (field "sourceJobId") (fieldPath path "sourceJobId") ++
    expectConst (field "contractVersion") testIntelligenceContractVersion
      (fieldPath path "contractVersion") ++
    expectConst (field "schemaVersion") generatedTestCaseSchemaVersion
      (fieldPath path "schemaVersion") ++
    expectConst (field "promptTemplateVersion") testIntelligencePromptTemplateVersion
      (fieldPath path "promptTemplateVersion") ++
    expectString (field "title") (fieldPath path "title") ++
    expectString (field "objective") (fieldPath path "objective")

def validateTestCaseClassification : ValidationErrors :=
  let field := fun name ↦ mapGet tc (js name)
  expectEnum (field "level") levels (fieldPath path "level") ++
    expectEnum (field "type") types (fieldPath path "type") ++
    expectIfPresent (field "polarity") (expectEnum · polarities (fieldPath path "polarity")) ++
    expectIfPresent (field "category") (expectEnum · caseCategories (fieldPath path "category")) ++
    expectEnum (field "priority") priorities (fieldPath path "priority") ++
    expectEnum (field "riskCategory") riskCategories (fieldPath path "riskCategory") ++
    expectEnum (field "technique") techniques (fieldPath path "technique") ++
    expectEnum (field "reviewState") reviewStates (fieldPath path "reviewState")

def validateTestCaseBody : ValidationErrors :=
  let field := fun name ↦ mapGet tc (js name)
  expectStringArray (field "preconditions") (fieldPath path "preconditions") ++
    expectStringArray (field "testData") (fieldPath path "testData") ++
    expectStepsArray (field "steps") (fieldPath path "steps") ++
    expectStringArray (field "expectedResults") (fieldPath path "expectedResults") ++
    expectTraceRefs (field "figmaTraceRefs") (fieldPath path "figmaTraceRefs") ++
    expectStringArray (field "assumptions") (fieldPath path "assumptions") ++
    expectStringArray (field "openQuestions") (fieldPath path "openQuestions") ++
    expectQcMapping (field "qcMappingPreview") (fieldPath path "qcMappingPreview") ++
    expectQualitySignals (field "qualitySignals") (fieldPath path "qualitySignals") ++
    expectIfPresent (field "confidence")
      (expectUnitIntervalNumber · (fieldPath path "confidence")) ++
    expectIfPresent (field "confidenceComponents")
      (expectConfidenceComponents · (fieldPath path "confidenceComponents")) ++
    expectAudit (field "audit") (fieldPath path "audit") ++
    expectIfPresent (field "regulatoryRelevance")
      (expectRegulatoryRelevance · (fieldPath path "regulatoryRelevance"))

end

def validateTestCase (value : Json) : JsString → ValidationErrors :=
  expectObject testCaseKeys (fun tc path ↦
    validateTestCaseIdentity tc path ++ validateTestCaseClassification tc path ++
      validateTestCaseBody tc path) (some value)

structure GeneratedTestCaseValidationResult where
  valid : Bool
  errors : ValidationErrors

def validationErrors : Json → ValidationErrors
  | .obj root =>
      expectExactKeys root rootKeys (js "$") ++
        failUnless (isTextWith (· == generatedTestCaseSchemaVersion) (mapGet root (js "schemaVersion")))
          (js "$.schemaVersion") (js "expected \"" ++ generatedTestCaseSchemaVersion ++ js "\"") ++
        failUnless (isNonEmptyString (mapGet root (js "jobId"))) (js "$.jobId")
          (js "expected non-empty string") ++
        expectArray validateTestCase (mapGet root (js "testCases")) (js "$.testCases")
  | _ => [⟨js "$", js "expected object"⟩]

def validateGeneratedTestCaseList (value : Json) : GeneratedTestCaseValidationResult :=
  { valid := (validationErrors value).isEmpty
    errors := validationErrors value }

end TestIntelligence.CoreEngine

/-!
## The Zod schema of generated test cases

The schema of the gateways, and the same record with the types of those fields left open
on which the schema and the structural validator do not agree.
-/

namespace TestIntelligence.CoreEngine

open Js
open Zod (ZodType)

def fieldsOf (fields : List (String × ZodType)) : List (JsString × ZodType) :=
  fields.map fun field ↦ (js field.1, field.2)

def strictFields (fields : List (String × ZodType)) : ZodType := Zod.strictObject (fieldsOf fields)

/-- `z.string().min(1)` -/
def zText : ZodType := Zod.string.minLength 1

/-- `z.string().regex(SHA256_HEX_PATTERN)` -/
def zHash : ZodType := Zod.string.regex (isHexOfLength 64)

/-- `z.number().min(0).max(1)` -/
def zUnit : ZodType := (Zod.number.gte 0).lte 1

/-- `z.array(z.string())` -/
def zTexts : ZodType := Zod.array Zod.string

def generatedTestCaseListZodSchema : ZodType :=
  strictFields [
    ("schemaVersion", Zod.literal generatedTestCaseSchemaVersion),
    ("jobId", zText),
    ("testCases", Zod.array (strictFields [
      ("id", zText),
      ("sourceJobId", zText),
      ("contractVersion", Zod.literal testIntelligenceContractVersion),
      ("schemaVersion", Zod.literal generatedTestCaseSchemaVersion),
      ("promptTemplateVersion", Zod.literal testIntelligencePromptTemplateVersion),
      ("title", zText.maxLength 200),
      ("objective", zText.maxLength 1000),
      ("level", Zod.enum levels),
      ("type", Zod.enum types),
      ("polarity", (Zod.enum polarities).optional),
      ("category", (Zod.enum caseCategories).optional),
      ("priority", Zod.enum priorities),
      ("riskCategory", Zod.enum riskCategories),
      ("technique", Zod.enum techniques),
      ("preconditions", zTexts),
      ("testData", zTexts),
      ("steps", (Zod.array (strictFields [
        ("index", Zod.number.int.gte 1),
        ("action", zText),
        ("data", Zod.string.optional),
        ("expected", Zod.string.optional),
        ("fieldLifecycleTransitionId", zText.optional)])).minItems 1),
      ("expectedResults", zTexts),
      ("figmaTraceRefs", Zod.array (strictFields [
        ("screenId", zText),
        ("nodeId", Zod.string.optional),
        ("nodeName", Zod.string.optional),
        ("nodePath", Zod.string.optional)])),
      ("assumptions", zTexts),
      ("openQuestions", zTexts),
      ("qcMappingPreview", strictFields [
        ("folderHint", Zod.string.optional),
        ("mappingProfileId", Zod.string.optional),
        ("decisionBasis", (Zod.literal (js "mapping_preview_only")).optional),
        ("exportable", Zod.boolean),
        ("blockingReasons", (Zod.array zText).optional)]),
      ("qualitySignals", strictFields [
        ("coveredFieldIds", zTexts),
        ("coveredActionIds", zTexts),
        ("coveredValidationIds", zTexts),
        ("coveredNavigationIds", zTexts),
        ("coveredRequirementIds", zTexts.optional),
        ("confidence", zUnit),
        ("ambiguity", (strictFields [("reason", zText)]).optional)]),
      ("confidence", zUnit.optional),
      ("confidenceComponents", (strictFields [
        ("judgePanelAgreement", zUnit),
        ("faithfulnessScore", zUnit),
        ("selfConsistencyAgreement", zUnit),
        ("ragHitStrength", zUnit),
        ("oracleResolved", Zod.boolean),
        ("rawScore", zUnit)]).optional),
      ("reviewState", Zod.enum reviewStates),
      ("audit", strictFields [
        ("jobId", zText),
        ("generatedAt", Zod.string.regex isIsoDateTime),
        ("contractVersion", Zod.literal testIntelligenceContractVersion),
        ("schemaVersion", Zod.literal generatedTestCaseSchemaVersion),
        ("promptTemplateVersion", Zod.literal testIntelligencePromptTemplateVersion),
        ("redactionPolicyVersion", zText),
        ("visualSidecarSchemaVersion", zText),
        ("cacheHit", Zod.boolean),
        ("cacheKey", zText),
        ("inputHash", zHash),
        ("promptHash", zHash),
        ("schemaHash", zHash),
        ("truncatedInstructionCount", (Zod.number.int.gte 0).optional),
        ("snapshotSource", (strictFields [
          ("snapshotId", zText),
          ("snapshotDigest", zHash),
          ("nodeIndexDigest", zHash),
          ("scopeDigest", zHash),
          ("selectedNodeIds", Zod.array zText),
          ("selectedPageIds", Zod.array zText),
          ("selectedFrameIds", Zod.array zText)]).optional)]),
      ("regulatoryRelevance", (strictFields [
        ("domain", Zod.enum regulatoryRelevanceDomains),
        ("rationale", zText.maxLength 240)]).optional)]))]

/-! ## Dialects -/

/-- The types of the fields on which the two sides differ. -/
structure Dialect where
  title : ZodType
  objective : ZodType
  index : ZodType
  note : ZodType
  reason : ZodType
  unit : ZodType
  count : ZodType
  selectedId : ZodType

section

variable (d : Dialect)

def stepFields : List (String × ZodType) :=
  [("index", d.index), ("action", zText), ("data", d.note.optional),
    ("expected", d.note.optional), ("fieldLifecycleTransitionId", zText.optional)]

def traceRefFields : List (String × ZodType) :=
  [("screenId", zText), ("nodeId", d.note.optional), ("nodeName", d.note.optional),
    ("nodePath", d.note.optional)]

def qcMappingFields : List (String × ZodType) :=
  [("folderHint", d.note.optional), ("mappingProfileId", d.note.optional),
    ("decisionBasis", (Zod.literal (js "mapping_preview_only")).optional),
    ("exportable", Zod.boolean), ("blockingReasons", (Zod.array d.reason).optional)]

def ambiguityFields : List (String × ZodType) := [("reason", zText)]

def qualitySignalFields : List (String × ZodType) :=
  [("coveredFieldIds", zTexts), ("coveredActionIds", zTexts), ("coveredValidationIds", zTexts),
    ("coveredNavigationIds", zTexts), ("coveredRequirementIds", zTexts.optional),
    ("confidence", d.unit), ("ambiguity", (strictFields ambiguityFields).optional)]

def confidenceComponentFields : List (String × ZodType) :=
  [("judgePanelAgreement", d.unit), ("faithfulnessScore", d.unit),
    ("selfConsistencyAgreement", d.unit), ("ragHitStrength", d.unit),
    ("oracleResolved", Zod.boolean), ("rawScore", d.unit)]

def snapshotSourceFields : List (String × ZodType) :=
  [("snapshotId", zText), ("snapshotDigest", zHash), ("nodeIndexDigest", zHash),
    ("scopeDigest", zHash), ("selectedNodeIds", Zod.array d.selectedId),
    ("selectedPageIds", Zod.array d.selectedId), ("selectedFrameIds", Zod.array d.selectedId)]

def auditFields : List (String × ZodType) :=
  [("jobId", zText), ("generatedAt", Zod.string.regex isIsoDateTime),
    ("contractVersion", Zod.literal testIntelligenceContractVersion),
    ("schemaVersion", Zod.literal generatedTestCaseSchemaVersion),
    ("promptTemplateVersion", Zod.literal testIntelligencePromptTemplateVersion),
    ("redactionPolicyVersion", zText), ("visualSidecarSchemaVersion", zText),
    ("cacheHit", Zod.boolean), ("cacheKey", zText), ("inputHash", zHash), ("promptHash", zHash),
    ("schemaHash", zHash), ("truncatedInstructionCount", d.count.optional),
    ("snapshotSource", (strictFields (snapshotSourceFields d)).optional)]

def regulatoryRelevanceFields : List (String × ZodType) :=
  [("domain", Zod.enum regulatoryRelevanceDomains), ("rationale", zText.maxLength 240)]

def testCaseFields : List (String × ZodType) :=
  [("id", zText), ("sourceJobId", zText),
    ("contractVersion", Zod.literal testIntelligenceContractVersion),
    ("schemaVersion", Zod.literal generatedTestCaseSchemaVersion),
    ("promptTemplateVersion", Zod.literal testIntelligencePromptTemplateVersion),
    ("title", d.title), ("objective", d.objective), ("level", Zod.enum levels),
    ("type", Zod.enum types), ("polarity", (Zod.enum polarities).optional),
    ("category", (Zod.enum caseCategories).optional), ("priority", Zod.enum priorities),
    ("riskCategory", Zod.enum riskCategories), ("technique", Zod.enum techniques),
    ("preconditions", zTexts), ("testData", zTexts),
    ("steps", (Zod.array (strictFields (stepFields d))).minItems 1),
    ("expectedResults", zTexts),
    ("figmaTraceRefs", Zod.array (strictFields (traceRefFields d))),
    ("assumptions", zTexts), ("openQuestions", zTexts),
    ("qcMappingPreview", strictFields (qcMappingFields d)),
    ("qualitySignals", strictFields (qualitySignalFields d)),
    ("confidence", d.unit.optional),
    ("confidenceComponents", (strictFields (confidenceComponentFields d)).optional),
    ("reviewState", Zod.enum reviewStates), ("audit", strictFields (auditFields d)),
    ("regulatoryRelevance", (strictFields regulatoryRelevanceFields).optional)]

def listFields : List (String × ZodType) :=
  [("schemaVersion", Zod.literal generatedTestCaseSchemaVersion), ("jobId", zText),
    ("testCases", Zod.array (strictFields (testCaseFields d)))]

def listSchema : ZodType := strictFields (listFields d)

end

/-- The schema as it is written. -/
def zodDialect : Dialect where
  title := zText.maxLength 200
  objective := zText.maxLength 1000
  index := Zod.number.int.gte 1
  note := Zod.string
  reason := zText
  unit := zUnit
  count := Zod.number.int.gte 0
  selectedId := zText

/-- What the structural validator takes in these fields. -/
def validatorDialect : Dialect where
  title := zText
  objective := zText
  index := isIntegerFrom 1
  note := zText
  reason := Zod.string
  unit := isUnitInterval
  count := isIntegerFrom 0
  selectedId := Zod.string

theorem generatedTestCaseListZodSchema_eq :
    generatedTestCaseListZodSchema = listSchema zodDialect := rfl

end TestIntelligence.CoreEngine
