import TestIntelligence.MultiSource.Envelope

/-!
# The files behind the inspector's multi-source view

The removed sources and the conflict decisions of a job: what the reader takes a file
for, and the text that a call writes in its place.  The envelopes are kept as the
objects that the files hold, with every member that the readers do not look at.
-/

namespace TestIntelligence.MultiSource

open Js Security

structure RunDir where
  businessIntent : Option JsString
  conflictReport : Option JsString
  decisions : Option JsString
  removedSources : Option JsString

/-- `SAFE_ID_RE.test(value) && value !== "." && value !== ".."` -/
def isSafeId (value : JsString) : Bool :=
  1 ≤ value.length && value.length ≤ 128 &&
    (value.all fun u ↦ isAlphanumeric u || u == 0x5F || u == 0x2E || u == 0x2D) &&
    value != js "." && value != js ".."

def isText : Option Json → Bool := isTextWith fun _ ↦ true

def itemsOf : Option Json → List Json
  | some (.arr items) => items
  | _ => []

def objectOf : Option Json → Option (List (JsString × Json))
  | some (.obj members) => some members
  | _ => none

def textField (value : Json) (name : String) : Option JsString :=
  match value with
  | .obj members => textOf (mapGet members (js name))
  | _ => none

def inspectorFileVersion : JsString := js "1.0.0"

/-! ## Removed sources -/

def isRemovedSourceRecord : Json → Bool
  | .obj record =>
      isTextWith isSafeId (mapGet record (js "sourceId")) &&
        isText (mapGet record (js "removedAt")) &&
        ((mapGet record (js "removedBy")).isNone || isText (mapGet record (js "removedBy")))
  | _ => false

def isArrayOf (check : Json → Bool) : Option Json → Bool
  | some (.arr items) => items.all check
  | _ => false

def isRemovedSourcesEnvelope (envelope : List (JsString × Json)) : Bool :=
  isTextWith (· == inspectorFileVersion) (mapGet envelope (js "version")) &&
    isText (mapGet envelope (js "jobId")) &&
    isArrayOf isRemovedSourceRecord (mapGet envelope (js "removedSources"))

/-- The object that the text of a file holds, or nothing where it does not pass the check. -/
def readObject (check : List (JsString × Json) → Bool) (file : Option JsString) :
    Option (List (JsString × Json)) :=
  match file.bind Json.parse with
  | some (.obj members) => if check members then some members else none
  | _ => none

/-- What a missing or malformed file stands for. -/
def noRemovedSources : List (JsString × Json) :=
  [(js "version", .str inspectorFileVersion), (js "jobId", .str []), (js "removedSources", .arr [])]

def readRemovedSourcesEnvelope (file : Option JsString) : List (JsString × Json) :=
  (readObject isRemovedSourcesEnvelope file).getD noRemovedSources

def removedRecords (envelope : List (JsString × Json)) : List Json :=
  itemsOf (mapGet envelope (js "removedSources"))

def recordSourceId (record : Json) : JsString := (textField record "sourceId").getD []

def readRemovedSourceIds (file : Option JsString) : List JsString :=
  setOf ((removedRecords (readRemovedSourcesEnvelope file)).map recordSourceId)

/-- A call of `markInspectorSourceRemoved`, with the time that it takes for `removedAt`. -/
structure RemovalInput where
  jobId : JsString
  sourceId : JsString
  removedBy : Option JsString
  removedAt : JsString

def RemovalInput.record (input : RemovalInput) : Json :=
  .obj (presentMembers
    [(js "sourceId", some (.str input.sourceId)),
      (js "removedAt", some (.str input.removedAt)),
      (js "removedBy", input.removedBy.map .str)])

section

variable (localeCompare : JsString → JsString → ℤ)

def sortedRecords (records : List Json) : List Json :=
  sortBy (fun left right ↦ localeCompare (recordSourceId left) (recordSourceId right)) records

/-- The envelope that a removal writes, or nothing where the source is already marked. -/
def removalUpdate (envelope : List (JsString × Json)) (input : RemovalInput) :
    Option (List (JsString × Json)) :=
  let jobId := (textOf (mapGet envelope (js "jobId"))).getD []
  let records := removedRecords envelope
  if records.any (recordSourceId · == input.sourceId) then none
  else
    some (mapSet
      (mapSet envelope (js "jobId") (.str (if jobId ≠ [] then jobId else input.jobId)))
      (js "removedSources") (.arr (sortedRecords localeCompare (records ++ [input.record]))))

def markInspectorSourceRemoved (dir : RunDir) (input : RemovalInput) : RunDir :=
  match removalUpdate localeCompare (readRemovedSourcesEnvelope dir.removedSources) input with
  | none => dir
  | some envelope => { dir with removedSources := some (canonicalJson (.obj envelope)) }

end

/-! ## Conflict decisions -/

def isNumber : Option Json → Bool := isNumberWith fun _ ↦ true

def isConflictDecisionEvent : Json → Bool
  | .obj event =>
      isText (mapGet event (js "id")) && isNumber (mapGet event (js "sequence")) &&
        isText (mapGet event (js "jobId")) && isText (mapGet event (js "conflictId")) &&
        isTextWith (fun s ↦ s == js "approve" || s == js "reject") (mapGet event (js "action")) &&
        isText (mapGet event (js "at")) && isText (mapGet event (js "actor"))
  | _ => false

def isConflictDecisionEnvelope (envelope : List (JsString × Json)) : Bool :=
  isTextWith (· == inspectorFileVersion) (mapGet envelope (js "version")) &&
    isText (mapGet envelope (js "jobId")) && isNumber (mapGet envelope (js "nextSequence")) &&
    isArrayOf isConflictDecisionEvent (mapGet envelope (js "events"))

/-- What a missing or malformed file, and that of another job, stands for. -/
def noDecisions (jobId : JsString) : List (JsString × Json) :=
  [(js "version", .str inspectorFileVersion), (js "jobId", .str jobId), (js "nextSequence", .num 1),
    (js "events", .arr [])]

def isDecisionEnvelopeOf (jobId : JsString) (envelope : List (JsString × Json)) : Bool :=
  isConflictDecisionEnvelope envelope && isTextWith (· == jobId) (mapGet envelope (js "jobId"))

def readDecisionEnvelope (file : Option JsString) (jobId : JsString) : List (JsString × Json) :=
  (readObject (isDecisionEnvelopeOf jobId) file).getD (noDecisions jobId)

inductive DecisionAction
  | approve
  | reject
  deriving DecidableEq

def DecisionAction.text : DecisionAction → JsString
  | approve => js "approve"
  | reject => js "reject"

/-- A call of `resolveInspectorConflict`. -/
structure DecisionInput where
  jobId : JsString
  conflictId : JsString
  actor : JsString
  at' : JsString
  action : DecisionAction
  selectedSourceId : Option JsString
  selectedNormalizedValue : Option JsString
  note : Option JsString

inductive DecisionFailure
  | conflictNotFound
  | conflictResolutionInvalid
  | typeError
  deriving DecidableEq

/-- `isRecord(parsed) && Array.isArray(parsed["conflicts"])` -/
def readInspectorReconciliationReport (file : Option JsString) : Option (List Json) :=
  match file.bind Json.parse with
  | some (.obj report) =>
      match mapGet report (js "conflicts") with
      | some (.arr conflicts) => some conflicts
      | _ => none
  | _ => none

/-- `conflict[name].includes(value)`, or nothing where it throws. -/
def listIncludes (conflict : Json) (name : String) (value : JsString) : Option Bool :=
  match conflict with
  | .obj members =>
      match mapGet members (js name) with
      | some (.arr items) => some (items.any fun item ↦ textOf (some item) == some value)
      | some (.str s) => some (includes s value)
      | _ => none
  | _ => none

def findConflict (conflictId : JsString) : List Json → Except DecisionFailure Json
  | [] => .error .conflictNotFound
  | .null :: _ => .error .typeError
  | candidate :: rest =>
      if textField candidate "conflictId" = some conflictId then .ok candidate
      else findConflict conflictId rest

def checkSelected (conflict : Json) (name : String) :
    Option JsString → Except DecisionFailure Unit
  | none => .ok ()
  | some value =>
      match listIncludes conflict name value with
      | none => .error .typeError
      | some true => .ok ()
      | some false => .error .conflictResolutionInvalid

/-- The checks before the decisions are read. -/
def checkDecision (report : Option JsString) (input : DecisionInput) :
    Except DecisionFailure Unit := do
  let conflict ← findConflict input.conflictId ((readInspectorReconciliationReport report).getD [])
  if input.action = .approve ∧ input.selectedSourceId = none ∧
      input.selectedNormalizedValue = none then .error .conflictResolutionInvalid
  checkSelected conflict "participatingSourceIds" input.selectedSourceId
  checkSelected conflict "normalizedValues" input.selectedNormalizedValue

variable (sha256 : Bytes → JsString)

def DecisionInput.eventId (input : DecisionInput) (sequence : JsNumber) : JsString :=
  sha256Hex sha256 (.obj (presentMembers
    [(js "kind", some (.str (js "inspector_conflict_decision_event"))),
      (js "jobId", some (.str input.jobId)),
      (js "conflictId", some (.str input.conflictId)),
      (js "sequence", some (.num sequence)),
      (js "actor", some (.str input.actor)),
      (js "at", some (.str input.at')),
      (js "action", some (.str input.action.text)),
      (js "selectedSourceId", input.selectedSourceId.map .str),
      (js "selectedNormalizedValue", input.selectedNormalizedValue.map .str),
      (js "note", input.note.map .str)]))

def DecisionInput.event (input : DecisionInput) (sequence : JsNumber) : Json :=
  .obj (presentMembers
    [(js "id", some (.str (input.eventId sha256 sequence))),
      (js "sequence", some (.num sequence)),
      (js "jobId", some (.str input.jobId)),
      (js "conflictId", some (.str input.conflictId)),
      (js "action", some (.str input.action.text)),
      (js "at", some (.str input.at')),
      (js "actor", some (.str input.actor)),
      (js "selectedSourceId", input.selectedSourceId.map .str),
      (js "selectedNormalizedValue", input.selectedNormalizedValue.map .str),
      (js "note", input.note.map .str)])

def nextSequence (envelope : List (JsString × Json)) : JsNumber :=
  match mapGet envelope (js "nextSequence") with
  | some (.num x) => x
  | _ => .nan

def decisionEvents (envelope : List (JsString × Json)) : List Json :=
  itemsOf (mapGet envelope (js "events"))

/-- The envelope that a decision writes. -/
def decisionUpdate (envelope : List (JsString × Json)) (input : DecisionInput) :
    List (JsString × Json) :=
  mapSet (mapSet envelope (js "nextSequence") (.num ((nextSequence envelope).add 1)))
    (js "events")
    (.arr (decisionEvents envelope ++ [input.event sha256 (nextSequence envelope)]))

/-! ## The envelope without the removed sources -/

def readBusinessIntent (file : Option JsString) : Option (List (JsString × Json)) :=
  readObject (fun _ ↦ true) file

def sourceOfStored : Json → Option TestIntentSourceRef
  | .obj ref => acceptedSourceRef ref
  | _ => none

/-- `intent.sourceEnvelope`, as the type that the cast gives it. -/
def storedSourceEnvelope (intent : List (JsString × Json)) :
    Option MultiSourceTestIntentEnvelope := do
  let envelope ← objectOf (mapGet intent (js "sourceEnvelope"))
  let sources ← (itemsOf (mapGet envelope (js "sources"))).mapM sourceOfStored
  return {
    sources
    aggregateContentHash := ← textOf (mapGet envelope (js "aggregateContentHash"))
    conflictResolutionPolicy := ← policyOf (mapGet envelope (js "conflictResolutionPolicy"))
    priorityOrder := priorityKinds (mapGet envelope (js "priorityOrder"))
    sourceMixPlan := objectOf (mapGet envelope (js "sourceMixPlan")) }

def readInspectorSourceEnvelope (dir : RunDir) : Option MultiSourceTestIntentEnvelope := do
  let intent ← readBusinessIntent dir.businessIntent
  let stored ← storedSourceEnvelope intent
  let removedSourceIds := readRemovedSourceIds dir.removedSources
  let filteredSources := stored.sources.filter (·.sourceId ∉ removedSourceIds)
  if filteredSources = [] ∨ ¬ filteredSources.any (·.kind.isPrimary) then none
  else
    some (buildMultiSourceTestIntentEnvelope sha256
      { sources := filteredSources
        conflictResolutionPolicy := stored.conflictResolutionPolicy
        priorityOrder := stored.priorityOrder
        sourceMixPlan := stored.sourceMixPlan })

end TestIntelligence.MultiSource
