import TestIntelligence.Js.Patterns
import TestIntelligence.Security.Records

/-!
# Checkpoints of the agent harness

The data model, the builder and the verifier of `agent-harness-checkpoint.ts`.
The hash function and `Date.parse` are parameters.  Fields that the sources
declare as literal types are kept as the strings that are checked at run time.
-/

namespace TestIntelligence.AgenticHarness.Checkpoint

open Js Security

structure AgentHarnessCheckpoint where
  schemaVersion : JsString
  jobId : JsString
  roleStepId : JsString
  attempt : JsNumber
  status : JsString
  inputHash : JsString
  outputHash : Option JsString
  nextRoleStepIds : List JsString
  startedAt : JsString
  completedAt : JsString
  errorClass : Option JsString
  parentHash : JsString
  chainIndex : JsNumber
  runId : JsString
  parentRunId : Option JsString
  promptTokens : JsNumber
  completionTokens : JsNumber
  deriving DecidableEq

def schemaVersion : JsString := js "1.1.0"

def rootParentHash : JsString := List.replicate 64 0x30

def schemaViolationMarker : JsString := js "checkpoint_schema_violation:"

def checkpointStatuses : List JsString :=
  ["canceled", "completed", "failed", "skipped", "started"].map js

def AgentHarnessCheckpoint.fields (c : AgentHarnessCheckpoint) :
    List (JsString × Option Json) :=
  [(js "schemaVersion", some (.str c.schemaVersion)),
    (js "jobId", some (.str c.jobId)),
    (js "roleStepId", some (.str c.roleStepId)),
    (js "attempt", some (.num c.attempt)),
    (js "status", some (.str c.status)),
    (js "inputHash", some (.str c.inputHash)),
    (js "outputHash", c.outputHash.map .str),
    (js "nextRoleStepIds", some (.arr (c.nextRoleStepIds.map .str))),
    (js "startedAt", some (.str c.startedAt)),
    (js "completedAt", some (.str c.completedAt)),
    (js "errorClass", c.errorClass.map .str),
    (js "parentHash", some (.str c.parentHash)),
    (js "chainIndex", some (.num c.chainIndex)),
    (js "runId", some (.str c.runId)),
    (js "parentRunId", some (c.parentRunId.elim .null .str)),
    (js "promptTokens", some (.num c.promptTokens)),
    (js "completionTokens", some (.num c.completionTokens))]

def AgentHarnessCheckpoint.toJson (c : AgentHarnessCheckpoint) : Json :=
  .obj (presentMembers c.fields)

/-! ## Validators -/

def isNonEmptyString (s : JsString) : Bool := s != []

def isHex64 : JsString → Bool := isHexOfLength 64

def isNonNegativeInteger (x : JsNumber) : Bool := x.isInteger && JsNumber.le 0 x

/-- The string at the first position that repeats its predecessor. -/
def repeatedString : List JsString → Option JsString
  | a :: b :: rest => if b = a then some b else repeatedString (b :: rest)
  | _ => none

def dedupSortedStrings (values : List JsString) (site field : JsString) :
    Except JsString (List JsString) :=
  if values.any (· == []) then
    .error (site ++ js ": " ++ field ++ js " entries must be non-empty strings")
  else
    match repeatedString (sortStrings values) with
    | some entry =>
        .error (site ++ js ": duplicate " ++ field ++ js " entry \"" ++ entry ++ js "\"")
    | none => .ok (sortStrings values)

section

variable (sha256 : JsString → JsString) (dateParse : JsString → JsNumber)

def isIsoTimestamp (s : JsString) : Bool := isIsoDateTime s && (dateParse s).isFinite

/-- The text that `dedupSortedStrings` or the loop after it throws, if any. -/
def nextRoleStepIdsError (values : List JsString) (site : JsString) : Option JsString :=
  match dedupSortedStrings values site (js "nextRoleStepIds") with
  | .error message => some message
  | .ok sorted =>
      if values = sorted then none
      else some (site ++ js ": nextRoleStepIds must be sorted alphabetically")

/-- The checks of `assertAgentHarnessCheckpointInvariants` in their order; `none`
is a check that passes. -/
def invariantErrors (c : AgentHarnessCheckpoint) (site : JsString) : List (Option JsString) :=
  let error (passes : Bool) (text : String) : Option JsString :=
    if passes then none else some (site ++ js ": " ++ js text)
  let violation (passes : Bool) (text : String) : Option JsString :=
    if passes then none else some (site ++ js ": " ++ schemaViolationMarker ++ js " " ++ js text)
  [error (c.schemaVersion == schemaVersion) "schemaVersion must equal \"1.1.0\"",
    error (isNonEmptyString c.jobId) "jobId must be a non-empty string",
    error (isNonEmptyString c.roleStepId) "roleStepId must be a non-empty string",
    error (c.attempt.isInteger && !c.attempt.lt 1) "attempt must be a positive integer (>= 1)",
    error (checkpointStatuses.contains c.status)
      "status must be one of [canceled, completed, failed, skipped, started]",
    error (isHex64 c.inputHash) "inputHash must be a 64-char lowercase hex digest",
    error (c.outputHash.all isHex64)
      "outputHash must be a 64-char lowercase hex digest when present",
    nextRoleStepIdsError c.nextRoleStepIds site,
    violation (isIsoTimestamp dateParse c.startedAt) "startedAt must be an ISO-8601 timestamp",
    violation (isIsoTimestamp dateParse c.completedAt)
      "completedAt must be an ISO-8601 timestamp",
    violation (!(dateParse c.completedAt).lt (dateParse c.startedAt))
      "completedAt must be greater than or equal to startedAt",
    error (c.errorClass.all isNonEmptyString) "errorClass must be a non-empty string when present",
    error (isHex64 c.parentHash) "parentHash must be a 64-char lowercase hex digest",
    error (isNonNegativeInteger c.chainIndex) "chainIndex must be a non-negative integer",
    error (!c.chainIndex.strictEq 0 || c.parentHash == rootParentHash)
      "root checkpoint (chainIndex 0) must use the zero-hash sentinel as parentHash",
    violation (isUuidText c.runId) "runId must be a lowercase RFC-4122 UUID",
    violation (c.parentRunId.all isUuidText)
      "parentRunId must be a lowercase RFC-4122 UUID or null",
    violation (!c.chainIndex.strictEq 0 || c.parentRunId.isNone)
      "root checkpoint (chainIndex 0) must have parentRunId === null",
    violation (c.parentRunId != some c.runId)
      "parentRunId must not equal runId (self-reference forbidden)",
    violation (isNonNegativeInteger c.promptTokens) "promptTokens must be a non-negative integer",
    violation (isNonNegativeInteger c.completionTokens)
      "completionTokens must be a non-negative integer"]

def assertAgentHarnessCheckpointInvariants (c : AgentHarnessCheckpoint) (site : JsString) :
    Except JsString Unit :=
  match (invariantErrors dateParse c site).findSome? id with
  | none => .ok ()
  | some message => .error message

def sha256Hex (value : Json) : JsString := sha256 (canonicalJson value)

def computeAgentHarnessCheckpointHash (c : AgentHarnessCheckpoint) : JsString :=
  sha256Hex sha256 c.toJson

/-! ## The builder -/

structure AppendAgentHarnessCheckpointInput where
  jobId : JsString
  roleStepId : JsString
  attempt : JsNumber
  status : JsString
  inputHash : JsString
  outputHash : Option JsString
  nextRoleStepIds : Option (List JsString)
  startedAt : JsString
  completedAt : JsString
  errorClass : Option JsString
  runId : JsString
  parentRunId : Option JsString
  promptTokens : JsNumber
  completionTokens : JsNumber
  deriving DecidableEq

def appendSite : JsString := js "appendAgentHarnessCheckpoint"

/-- The object literal of `appendAgentHarnessCheckpoint`. -/
def nextCheckpoint (previous : Option AgentHarnessCheckpoint)
    (input : AppendAgentHarnessCheckpointInput) (nextRoleStepIds : List JsString) :
    AgentHarnessCheckpoint where
  schemaVersion := schemaVersion
  jobId := input.jobId
  roleStepId := input.roleStepId
  attempt := input.attempt
  status := input.status
  inputHash := input.inputHash
  outputHash := input.outputHash
  nextRoleStepIds := nextRoleStepIds
  startedAt := input.startedAt
  completedAt := input.completedAt
  errorClass := input.errorClass
  parentHash := previous.elim rootParentHash (computeAgentHarnessCheckpointHash sha256)
  chainIndex := previous.elim 0 (·.chainIndex.add 1)
  runId := input.runId
  parentRunId := input.parentRunId
  promptTokens := input.promptTokens
  completionTokens := input.completionTokens

/-- The checks on `previous`. -/
def assertPrevious (previous : Option AgentHarnessCheckpoint)
    (input : AppendAgentHarnessCheckpointInput) : Except JsString Unit :=
  match previous with
  | none => .ok ()
  | some previous => do
      assertAgentHarnessCheckpointInvariants dateParse previous (appendSite ++ js ": previous")
      if previous.jobId = input.jobId then .ok ()
      else .error (appendSite ++ js ": jobId mismatch (previous=" ++ previous.jobId ++
        js ", next=" ++ input.jobId ++ js ")")

def appendAgentHarnessCheckpoint (previous : Option AgentHarnessCheckpoint)
    (input : AppendAgentHarnessCheckpointInput) : Except JsString AgentHarnessCheckpoint := do
  assertPrevious dateParse previous input
  let nextRoleStepIds ← dedupSortedStrings (input.nextRoleStepIds.getD []) appendSite
    (js "nextRoleStepIds")
  let checkpoint := nextCheckpoint sha256 previous input nextRoleStepIds
  assertAgentHarnessCheckpointInvariants dateParse checkpoint appendSite
  .ok checkpoint

/-- The chain that folding the builder over the inputs gives, in order. -/
def appendAll (previous : Option AgentHarnessCheckpoint) :
    List AppendAgentHarnessCheckpointInput → Except JsString (List AgentHarnessCheckpoint)
  | [] => .ok []
  | input :: rest => do
      let checkpoint ← appendAgentHarnessCheckpoint sha256 dateParse previous input
      let chain ← appendAll (some checkpoint) rest
      .ok (checkpoint :: chain)

/-! ## The verifier -/

inductive BreakReason
  | chainIndexMismatch
  | checkpointSchemaViolation
  | duplicateChainIndex
  | missingRoot
  | parentHashMismatch
  | schemaInvalid
  deriving DecidableEq, Repr

structure ChainBreak where
  firstBreakIndex : ℕ
  reason : BreakReason
  detail : JsString
  deriving DecidableEq

inductive VerifyResult
  | ok (headOfChainHash : JsString) (chainLength : ℕ)
  | chainBreak (failure : ChainBreak)
  deriving DecidableEq

structure VerifierState where
  seenIndexes : List JsNumber
  runIdToParent : List (JsString × Option JsString)
  previousHash : JsString

def VerifierState.start : VerifierState := ⟨[], [], rootParentHash⟩

def natText (n : ℕ) : JsString := if n = 0 then js "0" else digitsText n

/-- The rule on `parentRunId`, with the map it leaves behind. -/
def registerRun (runIdToParent : List (JsString × Option JsString)) (i : ℕ)
    (current : AgentHarnessCheckpoint) : Except JsString (List (JsString × Option JsString)) :=
  match mapGet runIdToParent current.runId with
  | none =>
      if i = 0 then .ok (mapSet runIdToParent current.runId current.parentRunId)
      else
        match current.parentRunId with
        | none =>
            .error (schemaViolationMarker ++ js " new runId at chainIndex " ++ natText i ++
              js " must reference a parent runId observed earlier (parentRunId may not be null)")
        | some parentRunId =>
            if (mapGet runIdToParent parentRunId).isNone then
              .error (schemaViolationMarker ++ js " parentRunId \"" ++ parentRunId ++
                js "\" at chainIndex " ++ natText i ++
                  js " does not reference any earlier runId in the chain")
            else .ok (mapSet runIdToParent current.runId (some parentRunId))
  | some existingParent =>
      if existingParent = current.parentRunId then .ok runIdToParent
      else
        .error (schemaViolationMarker ++ js " runId \"" ++ current.runId ++ js "\" at chainIndex " ++
          natText i ++ js " declares parentRunId \"" ++ current.parentRunId.getD (js "null") ++
            js "\" but earlier checkpoint of the same runId declared \"" ++
              existingParent.getD (js "null") ++ js "\"")

/-- One turn of the loop.  `Set` compares zeros as equal, and a position of an
array is a number that is represented exactly. -/
def verifyAt (state : VerifierState) (i : ℕ) (current : AgentHarnessCheckpoint) :
    Except ChainBreak VerifierState :=
  if current.chainIndex.unsigned ∈ state.seenIndexes then
    .error ⟨current.chainIndex.toRat.num.toNat, .duplicateChainIndex,
      js "chainIndex " ++ numberText current.chainIndex ++ js " appears more than once"⟩
  else if !current.chainIndex.eqNat i then
    .error ⟨i, .chainIndexMismatch, js "expected chainIndex " ++ natText i ++ js ", found " ++
      numberText current.chainIndex⟩
  else
    match assertAgentHarnessCheckpointInvariants dateParse current
        (js "verifyAgentHarnessCheckpointChain[" ++ natText i ++ js "]") with
    | .error detail =>
        .error ⟨i, if includes detail schemaViolationMarker then .checkpointSchemaViolation
          else .schemaInvalid, detail⟩
    | .ok () =>
        if i = 0 ∧ current.parentHash ≠ rootParentHash then
          .error ⟨0, .missingRoot,
            js "root checkpoint must reference the zero-hash sentinel as parentHash"⟩
        else if i ≠ 0 ∧ current.parentHash ≠ state.previousHash then
          .error ⟨i, .parentHashMismatch, js "parentHash mismatch at chainIndex " ++ natText i ++
            js ": expected " ++ state.previousHash ++ js ", found " ++ current.parentHash⟩
        else
          match registerRun state.runIdToParent i current with
          | .error detail => .error ⟨i, .checkpointSchemaViolation, detail⟩
          | .ok runIdToParent =>
              .ok ⟨setAdd state.seenIndexes current.chainIndex.unsigned, runIdToParent,
                computeAgentHarnessCheckpointHash sha256 current⟩

def verifyFrom (state : VerifierState) (i : ℕ) :
    List AgentHarnessCheckpoint → Except ChainBreak VerifierState
  | [] => .ok state
  | current :: rest =>
      match verifyAt sha256 dateParse state i current with
      | .error failure => .error failure
      | .ok state' => verifyFrom state' (i + 1) rest

def verifyAgentHarnessCheckpointChain (checkpoints : List AgentHarnessCheckpoint) :
    VerifyResult :=
  if checkpoints.length = 0 then .ok rootParentHash 0
  else
    match verifyFrom sha256 dateParse .start 0 checkpoints with
    | .error failure => .chainBreak failure
    | .ok state => .ok state.previousHash checkpoints.length

end

end TestIntelligence.AgenticHarness.Checkpoint
