import TestIntelligence.Js.Dates
import TestIntelligence.Js.Sorting
import TestIntelligence.Js.Utf8
import TestIntelligence.Security.ContentHash

/-!
# The multi-source test-intent envelope

The builder of the aggregate envelope and the validator for untrusted candidates.
-/

namespace TestIntelligence.MultiSource

open Js Security

/-! ## Kinds, policies and formats -/

inductive TestIntentSourceKind
  | figmaLocalJson
  | figmaPlugin
  | figmaRest
  | jiraRest
  | jiraPaste
  | customText
  | customStructured
  | customMarkdown
  deriving DecidableEq

namespace TestIntentSourceKind

def text : TestIntentSourceKind → JsString
  | figmaLocalJson => js "figma_local_json"
  | figmaPlugin => js "figma_plugin"
  | figmaRest => js "figma_rest"
  | jiraRest => js "jira_rest"
  | jiraPaste => js "jira_paste"
  | customText => js "custom_text"
  | customStructured => js "custom_structured"
  | customMarkdown => js "custom_markdown"

/-- `ALLOWED_TEST_INTENT_SOURCE_KINDS` -/
def all : List TestIntentSourceKind :=
  [figmaLocalJson, figmaPlugin, figmaRest, jiraRest, jiraPaste, customText, customStructured,
    customMarkdown]

/-- `PRIMARY_KINDS.has(kind)` -/
def isPrimary : TestIntentSourceKind → Bool
  | figmaLocalJson | figmaPlugin | figmaRest | jiraRest | jiraPaste => true
  | _ => false

/-- `SUPPORTING_KINDS.has(kind)` -/
def isSupporting : TestIntentSourceKind → Bool
  | customText | customStructured | customMarkdown => true
  | _ => false

def isJira (kind : TestIntentSourceKind) : Bool := kind = jiraRest || kind = jiraPaste

def ofText (s : JsString) : Option TestIntentSourceKind := all.find? (·.text = s)

end TestIntentSourceKind

inductive ConflictResolutionPolicy
  | priority
  | reviewerDecides
  | keepBoth
  deriving DecidableEq

namespace ConflictResolutionPolicy

def text : ConflictResolutionPolicy → JsString
  | priority => js "priority"
  | reviewerDecides => js "reviewer_decides"
  | keepBoth => js "keep_both"

def all : List ConflictResolutionPolicy := [priority, reviewerDecides, keepBoth]

def ofText (s : JsString) : Option ConflictResolutionPolicy := all.find? (·.text = s)

end ConflictResolutionPolicy

inductive TestIntentCustomInputFormat
  | plainText
  | markdown
  | structuredJson
  deriving DecidableEq

namespace TestIntentCustomInputFormat

def text : TestIntentCustomInputFormat → JsString
  | plainText => js "plain_text"
  | markdown => js "markdown"
  | structuredJson => js "structured_json"

def all : List TestIntentCustomInputFormat := [plainText, markdown, structuredJson]

def ofText (s : JsString) : Option TestIntentCustomInputFormat := all.find? (·.text = s)

end TestIntentCustomInputFormat

/-! ## Envelopes -/

structure TestIntentSourceRef where
  sourceId : JsString
  kind : TestIntentSourceKind
  contentHash : JsString
  capturedAt : JsString
  authorHandle : Option JsString
  inputFormat : Option TestIntentCustomInputFormat
  noteEntryId : Option JsString
  markdownSectionPath : Option JsString
  canonicalIssueKey : Option JsString
  redactedMarkdownHash : Option JsString
  plainTextDerivativeHash : Option JsString

/-- A source mix plan keeps all its members. -/
structure MultiSourceTestIntentEnvelope where
  sources : List TestIntentSourceRef
  aggregateContentHash : JsString
  conflictResolutionPolicy : ConflictResolutionPolicy
  priorityOrder : Option (List TestIntentSourceKind)
  sourceMixPlan : Option (List (JsString × Json))

def envelopeSchemaVersion : JsString := js "1.0.0"

def TestIntentSourceRef.fields (ref : TestIntentSourceRef) : List (JsString × Option Json) :=
  [(js "sourceId", some (.str ref.sourceId)),
    (js "kind", some (.str ref.kind.text)),
    (js "contentHash", some (.str ref.contentHash)),
    (js "capturedAt", some (.str ref.capturedAt)),
    (js "authorHandle", ref.authorHandle.map .str),
    (js "inputFormat", ref.inputFormat.map (.str ·.text)),
    (js "noteEntryId", ref.noteEntryId.map .str),
    (js "markdownSectionPath", ref.markdownSectionPath.map .str),
    (js "canonicalIssueKey", ref.canonicalIssueKey.map .str),
    (js "redactedMarkdownHash", ref.redactedMarkdownHash.map .str),
    (js "plainTextDerivativeHash", ref.plainTextDerivativeHash.map .str)]

def TestIntentSourceRef.toJson (ref : TestIntentSourceRef) : Json := .obj (presentMembers ref.fields)

def kindTexts (kinds : List TestIntentSourceKind) : Json := .arr (kinds.map (.str ·.text))

def MultiSourceTestIntentEnvelope.fields (envelope : MultiSourceTestIntentEnvelope) :
    List (JsString × Option Json) :=
  [(js "version", some (.str envelopeSchemaVersion)),
    (js "sources", some (.arr (envelope.sources.map TestIntentSourceRef.toJson))),
    (js "aggregateContentHash", some (.str envelope.aggregateContentHash)),
    (js "conflictResolutionPolicy", some (.str envelope.conflictResolutionPolicy.text)),
    (js "priorityOrder", envelope.priorityOrder.map kindTexts),
    (js "sourceMixPlan", envelope.sourceMixPlan.map .obj)]

def MultiSourceTestIntentEnvelope.toJson (envelope : MultiSourceTestIntentEnvelope) : Json :=
  .obj (presentMembers envelope.fields)

/-! ## The aggregate hash -/

def compareSources (a b : TestIntentSourceKind × JsString) : ℤ :=
  if a.2 ≠ b.2 then if a.2 < b.2 then -1 else 1
  else if a.1.text < b.1.text then -1 else if b.1.text < a.1.text then 1 else 0

def sourcePair (ref : TestIntentSourceRef) : TestIntentSourceKind × JsString :=
  (ref.kind, ref.contentHash)

def pairJson (pair : TestIntentSourceKind × JsString) : Json :=
  .obj [(js "kind", .str pair.1.text), (js "contentHash", .str pair.2)]

section

variable (sha256 : Bytes → JsString)

def sha256Hex (value : Json) : JsString := sha256 (utf8Encode (canonicalJson value))

/-- The value that the aggregate hash is taken of. -/
def aggregateValue (sources : List TestIntentSourceRef) (policy : ConflictResolutionPolicy)
    (priorityOrder : Option (List TestIntentSourceKind)) : Json :=
  let sortedSources := sortBy compareSources (sources.map sourcePair)
  let priorityComponent := if policy = .priority then priorityOrder.getD [] else []
  .obj [(js "schema", .str envelopeSchemaVersion),
    (js "sources", .arr (sortedSources.map pairJson)),
    (js "conflictResolutionPolicy", .str policy.text),
    (js "priorityOrder", kindTexts priorityComponent)]

def computeAggregateContentHash (sources : List TestIntentSourceRef)
    (policy : ConflictResolutionPolicy) (priorityOrder : Option (List TestIntentSourceKind)) :
    JsString :=
  sha256Hex sha256 (aggregateValue sources policy priorityOrder)

/-! ## The builder -/

structure EnvelopeInput where
  sources : List TestIntentSourceRef
  conflictResolutionPolicy : ConflictResolutionPolicy
  priorityOrder : Option (List TestIntentSourceKind)
  sourceMixPlan : Option (List (JsString × Json))

def cloneSourceRef (ref : TestIntentSourceRef) : TestIntentSourceRef where
  sourceId := ref.sourceId
  kind := ref.kind
  contentHash := ref.contentHash
  capturedAt := ref.capturedAt
  authorHandle := ref.authorHandle
  inputFormat := ref.inputFormat
  noteEntryId := ref.noteEntryId
  markdownSectionPath := ref.markdownSectionPath
  canonicalIssueKey := ref.canonicalIssueKey
  redactedMarkdownHash := ref.redactedMarkdownHash
  plainTextDerivativeHash := ref.plainTextDerivativeHash

def buildMultiSourceTestIntentEnvelope (input : EnvelopeInput) : MultiSourceTestIntentEnvelope :=
  let sources := input.sources.map cloneSourceRef
  { sources
    aggregateContentHash :=
      computeAggregateContentHash sha256 sources input.conflictResolutionPolicy input.priorityOrder
    conflictResolutionPolicy := input.conflictResolutionPolicy
    priorityOrder := if input.conflictResolutionPolicy = .priority then input.priorityOrder else none
    sourceMixPlan := input.sourceMixPlan }

end

/-! ## Issues -/

inductive MultiSourceEnvelopeRefusalCode
  | envelopeMissing
  | envelopeVersionMismatch
  | sourcesEmpty
  | duplicateSourceId
  | invalidSourceId
  | invalidSourceKind
  | invalidContentHash
  | invalidCapturedAt
  | invalidAuthorHandle
  | primarySourceRequired
  | duplicateJiraPasteCollision
  | customInputFormatRequired
  | customInputFormatInvalid
  | primarySourceInputFormatInvalid
  | markdownMetadataOnlyForCustom
  | markdownHashRequired
  | markdownHashOnlyForMarkdown
  | jiraIssueKeyInvalid
  | jiraIssueKeyOnlyForJira
  | invalidConflictResolutionPolicy
  | priorityOrderRequired
  | priorityOrderInvalidKind
  | priorityOrderIncomplete
  | priorityOrderDuplicate
  | aggregateHashMismatch
  | sourceMixPlanInvalid

structure MultiSourceEnvelopeIssue where
  code : MultiSourceEnvelopeRefusalCode
  path : Option JsString
  detail : Option JsString

/-- No issue where the check holds, and one issue at the path otherwise. -/
def refuseUnless (ok : Bool) (code : MultiSourceEnvelopeRefusalCode) (path : JsString)
    (detail : Option JsString) : List MultiSourceEnvelopeIssue :=
  if ok then [] else [⟨code, some path, detail⟩]

/-! ## The checks of one source -/

/-- `/^[A-Za-z0-9._-]{1,64}$/`, the pattern of `SOURCE_ID` and of `AUTHOR_HANDLE`. -/
def isSourceId (s : JsString) : Bool :=
  1 ≤ s.length && s.length ≤ 64 &&
    s.all fun u ↦ isAlphanumeric u || u == 0x2E || u == 0x5F || u == 0x2D

def isUpperLetter (u : CodeUnit) : Bool := 0x41 ≤ u && u ≤ 0x5A

/-- `/^[A-Z][A-Z0-9]+-[1-9][0-9]*$/` -/
def isJiraIssueKey (s : JsString) : Bool :=
  match split 0x2D s with
  | [letter :: project, digit :: digits] =>
      isUpperLetter letter && project ≠ [] && (project.all fun u ↦ isUpperLetter u || isDigit u) &&
        isDigit digit && digit != 0x30 && digits.all isDigit
  | _ => false

/-- The text of a value that is a string. -/
def textOf : Option Json → Option JsString
  | some (.str s) => some s
  | _ => none

def kindOf (value : Option Json) : Option TestIntentSourceKind :=
  (textOf value).bind TestIntentSourceKind.ofText

def formatOf (value : Option Json) : Option TestIntentCustomInputFormat :=
  (textOf value).bind TestIntentCustomInputFormat.ofText

section

variable (ref : List (JsString × Json)) (index : ℕ)

def sourcePath (name : String) : JsString :=
  js "sources[" ++ numberText (.ofRat index) ++ js "]." ++ js name

def requireText (name : String) (test : JsString → Bool) (code : MultiSourceEnvelopeRefusalCode) :
    List MultiSourceEnvelopeIssue :=
  refuseUnless (isTextWith test (mapGet ref (js name))) code (sourcePath index name) none

def requireAbsent (name : String) (code : MultiSourceEnvelopeRefusalCode)
    (detail : Option JsString) : List MultiSourceEnvelopeIssue :=
  refuseUnless (mapGet ref (js name)).isNone code (sourcePath index name) detail

def requireTextIfPresent (name : String) (test : JsString → Bool)
    (code : MultiSourceEnvelopeRefusalCode) : List MultiSourceEnvelopeIssue :=
  if (mapGet ref (js name)).isSome then requireText ref index name test code else []

def requireMarkdownHashes : List MultiSourceEnvelopeIssue :=
  requireText ref index "redactedMarkdownHash" (isHexOfLength 64) .markdownHashRequired ++
    requireText ref index "plainTextDerivativeHash" (isHexOfLength 64) .markdownHashRequired

def refuseMarkdown (detail : Option JsString) : List MultiSourceEnvelopeIssue :=
  requireAbsent ref index "markdownSectionPath" .markdownMetadataOnlyForCustom detail ++
    requireAbsent ref index "noteEntryId" .markdownMetadataOnlyForCustom detail ++
    requireAbsent ref index "redactedMarkdownHash" .markdownHashOnlyForMarkdown none ++
    requireAbsent ref index "plainTextDerivativeHash" .markdownHashOnlyForMarkdown none

def validateInputFormat : List MultiSourceEnvelopeIssue :=
  if (mapGet ref (js "inputFormat")).isNone then
    [⟨.customInputFormatRequired, some (sourcePath index "inputFormat"), none⟩]
  else
    requireText ref index "inputFormat" (fun s ↦ (TestIntentCustomInputFormat.ofText s).isSome)
      .customInputFormatInvalid

def validateContentFields (kind : TestIntentSourceKind) : List MultiSourceEnvelopeIssue :=
  if kind.isSupporting then
    if kind = .customMarkdown then
      requireAbsent ref index "inputFormat" .customInputFormatInvalid
        (some (js "custom_markdown_kind_does_not_use_inputFormat")) ++
        requireMarkdownHashes ref index
    else
      validateInputFormat ref index ++
        if isTextWith (· == js "markdown") (mapGet ref (js "inputFormat")) then
          requireMarkdownHashes ref index
        else refuseMarkdown ref index (some (js "markdown_format_required"))
  else
    requireAbsent ref index "inputFormat" .primarySourceInputFormatInvalid none ++
      refuseMarkdown ref index none

def validateIssueKey (kind : TestIntentSourceKind) : List MultiSourceEnvelopeIssue :=
  if kind.isJira then
    requireTextIfPresent ref index "canonicalIssueKey" isJiraIssueKey .jiraIssueKeyInvalid
  else requireAbsent ref index "canonicalIssueKey" .jiraIssueKeyOnlyForJira none

def validateSourceRef : List MultiSourceEnvelopeIssue :=
  requireText ref index "sourceId" isSourceId .invalidSourceId ++
    requireText ref index "kind" (fun s ↦ (TestIntentSourceKind.ofText s).isSome)
      .invalidSourceKind ++
    requireText ref index "contentHash" (isHexOfLength 64) .invalidContentHash ++
    requireText ref index "capturedAt" isStrictIsoUtc .invalidCapturedAt ++
    requireTextIfPresent ref index "authorHandle" isSourceId .invalidAuthorHandle ++
    match kindOf (mapGet ref (js "kind")) with
    | none => []
    | some kind => validateContentFields ref index kind ++ validateIssueKey ref index kind

/-- The known fields of a source; `none` where the validator would have found an issue. -/
def acceptedSourceRef : Option TestIntentSourceRef := do
  return {
    sourceId := ← textOf (mapGet ref (js "sourceId"))
    kind := ← kindOf (mapGet ref (js "kind"))
    contentHash := ← textOf (mapGet ref (js "contentHash"))
    capturedAt := ← textOf (mapGet ref (js "capturedAt"))
    authorHandle := textOf (mapGet ref (js "authorHandle"))
    inputFormat := formatOf (mapGet ref (js "inputFormat"))
    noteEntryId := textOf (mapGet ref (js "noteEntryId"))
    markdownSectionPath := textOf (mapGet ref (js "markdownSectionPath"))
    canonicalIssueKey := textOf (mapGet ref (js "canonicalIssueKey"))
    redactedMarkdownHash := textOf (mapGet ref (js "redactedMarkdownHash"))
    plainTextDerivativeHash := textOf (mapGet ref (js "plainTextDerivativeHash")) }

end

/-! ## The checks of all sources -/

/-- An accepted source with its index in the candidate. -/
structure SourceEntry where
  ref : TestIntentSourceRef
  originalIndex : ℕ

/-- The loop over the sources, with the index of the next one and the ids seen. -/
def collectSources : ℕ → List JsString → List Json → List MultiSourceEnvelopeIssue × List SourceEntry
  | _, _, [] => ([], [])
  | index, seen, .obj ref :: rest =>
      match validateSourceRef ref index, acceptedSourceRef ref with
      | [], some accepted =>
          let (issues, entries) := collectSources (index + 1) (setAdd seen accepted.sourceId) rest
          let duplicate :=
            if accepted.sourceId ∈ seen then
              [⟨.duplicateSourceId, some (sourcePath index "sourceId"), some accepted.sourceId⟩]
            else []
          (duplicate ++ issues, ⟨accepted, index⟩ :: entries)
      | refIssues, _ =>
          let (issues, entries) := collectSources (index + 1) seen rest
          (refIssues ++ issues, entries)
  | index, seen, _ :: rest =>
      let (issues, entries) := collectSources (index + 1) seen rest
      (⟨.invalidSourceKind, some (js "sources[" ++ numberText (.ofRat index) ++ js "]"),
        some (js "not_an_object")⟩ :: issues, entries)

/-- The loop over the Jira sources, with the first index of each issue key. -/
def issueKeyCollisions : List (JsString × ℕ) → List SourceEntry → List MultiSourceEnvelopeIssue
  | _, [] => []
  | seen, entry :: rest =>
      match entry.ref.canonicalIssueKey with
      | none => issueKeyCollisions seen rest
      | some key =>
          match mapGet seen key with
          | some firstIdx =>
              ⟨.duplicateJiraPasteCollision,
                some (sourcePath entry.originalIndex "canonicalIssueKey"),
                some (js "collides_with_sources[" ++ numberText (.ofRat firstIdx) ++ js "]")⟩ ::
                issueKeyCollisions seen rest
          | none => issueKeyCollisions (mapSet seen key entry.originalIndex) rest

def detectDuplicateJiraPasteCollision (entries : List SourceEntry) : List MultiSourceEnvelopeIssue :=
  let jiraSources := entries.filter (·.ref.kind.isJira)
  if jiraSources.length < 2 then [] else issueKeyCollisions [] jiraSources

/-! ## The priority order -/

/-- The loop over the priority order, with the index of the next value and the kinds seen. -/
def scanPriorityOrder : ℕ → List TestIntentSourceKind → List Json →
    List MultiSourceEnvelopeIssue × List TestIntentSourceKind
  | _, seen, [] => ([], seen)
  | index, seen, value :: rest =>
      let path := js "priorityOrder[" ++ numberText (.ofRat index) ++ js "]"
      match kindOf (some value) with
      | none =>
          let (issues, final) := scanPriorityOrder (index + 1) seen rest
          (⟨.priorityOrderInvalidKind, some path, none⟩ :: issues, final)
      | some kind =>
          let (issues, final) := scanPriorityOrder (index + 1) (setAdd seen kind) rest
          let duplicate :=
            if kind ∈ seen then [⟨.priorityOrderDuplicate, some path, some kind.text⟩] else []
          (duplicate ++ issues, final)

def validatePriorityOrder (policy : ConflictResolutionPolicy) (raw : Option Json)
    (sources : List TestIntentSourceRef) : List MultiSourceEnvelopeIssue :=
  if policy ≠ .priority then
    refuseUnless raw.isNone .priorityOrderRequired (js "priorityOrder")
      (some (js "only_for_priority_policy"))
  else
    match raw with
    | some (.arr values) =>
        let (issues, seen) := scanPriorityOrder 0 [] values
        let present := setOf (sources.map (·.kind))
        issues ++
          ((present.filter (· ∉ seen)).map fun kind ↦
            ⟨.priorityOrderIncomplete, some (js "priorityOrder"), some kind.text⟩) ++
          ((seen.filter (· ∉ present)).map fun kind ↦
            ⟨.priorityOrderInvalidKind, some (js "priorityOrder"),
              some (js "not_in_sources:" ++ kind.text)⟩)
    | _ => [⟨.priorityOrderRequired, some (js "priorityOrder"), none⟩]

/-! ## The validator -/

def isValidSourceMixPlan (plan : List (JsString × Json)) : Bool :=
  isTextWith (· == js "#1441") (mapGet plan (js "ownerIssue")) &&
    isTextWith (isHexOfLength 64) (mapGet plan (js "planHash"))

def validateSourceMixPlan : Option Json → List MultiSourceEnvelopeIssue
  | none => []
  | some (.obj plan) =>
      refuseUnless (isValidSourceMixPlan plan) .sourceMixPlanInvalid (js "sourceMixPlan") none
  | some _ => [⟨.sourceMixPlanInvalid, some (js "sourceMixPlan"), none⟩]

def policyOf (value : Option Json) : Option ConflictResolutionPolicy :=
  (textOf value).bind ConflictResolutionPolicy.ofText

/-- The kinds of a priority order without issues. -/
def priorityKinds : Option Json → Option (List TestIntentSourceKind)
  | some (.arr values) => some (values.filterMap fun value ↦ kindOf (some value))
  | _ => none

def planMembers : Option Json → Option (List (JsString × Json))
  | some (.obj plan) => if isValidSourceMixPlan plan then some plan else none
  | _ => none

/-- The issues before the aggregate hash is looked at, and the accepted sources. -/
def structuralIssues (candidate : List (JsString × Json)) (sourcesRaw : List Json) :
    List MultiSourceEnvelopeIssue × List TestIntentSourceRef :=
  let (sourceIssues, entries) := collectSources 0 [] sourcesRaw
  let validatedSources := entries.map (·.ref)
  let issues := sourceIssues ++
    (if validatedSources ≠ [] ∧ ¬ validatedSources.any (·.kind.isPrimary) then
      [⟨.primarySourceRequired, some (js "sources"), none⟩] else []) ++
    detectDuplicateJiraPasteCollision entries ++
    (match policyOf (mapGet candidate (js "conflictResolutionPolicy")) with
      | some policy =>
          validatePriorityOrder policy (mapGet candidate (js "priorityOrder")) validatedSources
      | none => []) ++
    validateSourceMixPlan (mapGet candidate (js "sourceMixPlan"))
  (issues, validatedSources)

/-- The issues with the version and the policy of a candidate. -/
def headerIssues (candidate : List (JsString × Json)) : List MultiSourceEnvelopeIssue :=
  refuseUnless (isTextWith (· == envelopeSchemaVersion) (mapGet candidate (js "version")))
    .envelopeVersionMismatch (js "version") (some (js "expected " ++ envelopeSchemaVersion)) ++
    refuseUnless (policyOf (mapGet candidate (js "conflictResolutionPolicy"))).isSome
      .invalidConflictResolutionPolicy (js "conflictResolutionPolicy") none

variable (sha256 : Bytes → JsString)

/-- The check of the aggregate hash, once there is no other issue. -/
def checkAggregateHash (candidate : List (JsString × Json)) (sources : List TestIntentSourceRef)
    (policy : ConflictResolutionPolicy) :
    Except (List MultiSourceEnvelopeIssue) MultiSourceTestIntentEnvelope :=
  let priorityOrder := priorityKinds (mapGet candidate (js "priorityOrder"))
  let expected := computeAggregateContentHash sha256 sources policy priorityOrder
  match mapGet candidate (js "aggregateContentHash") with
  | some (.str aggregateContentHash) =>
      if expected = aggregateContentHash then
        .ok { sources, aggregateContentHash, conflictResolutionPolicy := policy, priorityOrder,
              sourceMixPlan := planMembers (mapGet candidate (js "sourceMixPlan")) }
      else .error [⟨.aggregateHashMismatch, some (js "aggregateContentHash"), some expected⟩]
  | _ =>
      .error [⟨.aggregateHashMismatch, some (js "aggregateContentHash"), some (js "missing")⟩]

def validateMultiSourceTestIntentEnvelope (candidate : Json) :
    Except (List MultiSourceEnvelopeIssue) MultiSourceTestIntentEnvelope :=
  match candidate with
  | .obj candidate =>
      match mapGet candidate (js "sources") with
      | some (.arr (source :: sourcesRaw)) =>
          let (issues, sources) := structuralIssues candidate (source :: sourcesRaw)
          match headerIssues candidate ++ issues,
              policyOf (mapGet candidate (js "conflictResolutionPolicy")) with
          | [], some policy => checkAggregateHash sha256 candidate sources policy
          | issues, _ => .error issues
      | _ => .error (headerIssues candidate ++ [⟨.sourcesEmpty, some (js "sources"), none⟩])
  | _ => .error [⟨.envelopeMissing, none, none⟩]

end TestIntelligence.MultiSource
