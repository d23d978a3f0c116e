import TestIntelligence.Js.Outcome
import TestIntelligence.Js.Patterns
import TestIntelligence.Security.Records

/-!
# The idempotency cache of the model gateway

Results of successful calls are kept under the HMAC of their inputs: in memory,
in insertion order and up to a number of entries, and in files that outlive the
process.  The HMAC is a parameter.  An operation takes the reading of the clock
and says whether the file system answers; a file is named by its HMAC.
-/

namespace TestIntelligence.ModelGateway.Idempotency

open Js Security

structure GatewayIdempotencyInputs where
  jobId : JsString
  roleStepId : JsString
  attempt : JsNumber
  promptVersion : JsString
  schemaHash : JsString
  inputHash : JsString
  deriving DecidableEq

structure GatewayIdempotencyKey where
  jobId : JsString
  roleStepId : JsString
  attempt : JsNumber
  promptVersion : JsString
  schemaHash : JsString
  inputHash : JsString
  hmac : JsString
  deriving DecidableEq

def keySchemaVersion : JsString := js "1.0.0"

inductive LlmFinishReason where
  | stop
  | length
  | contentFilter
  | toolCalls
  | other
  deriving DecidableEq

def LlmFinishReason.text : LlmFinishReason → JsString
  | .stop => js "stop"
  | .length => js "length"
  | .contentFilter => js "content_filter"
  | .toolCalls => js "tool_calls"
  | .other => js "other"

def allowedFinishReasons : List LlmFinishReason :=
  [.stop, .length, .contentFilter, .toolCalls, .other]

structure LlmUsage where
  inputTokens : Option JsNumber
  outputTokens : Option JsNumber

/-- `content` is `unknown`; `none` is `undefined`. -/
structure LlmGenerationSuccess where
  content : Option Json
  rawTextContent : Option JsString
  constrainedDecoding : Option Json
  finishReason : LlmFinishReason
  usage : LlmUsage
  modelDeployment : JsString
  modelRevision : JsString
  gatewayRelease : JsString
  attempt : JsNumber

/-- A literal secret, or a callback with the value it provides. -/
inductive SecretProvider where
  | literal (secret : JsString)
  | callback (provided : Json)

structure CacheOptions where
  hmacSecret : SecretProvider
  ttlMs : Option JsNumber
  diskRoot : Option JsString
  maxEntries : Option JsNumber

structure MemoryEntry where
  key : GatewayIdempotencyKey
  result : LlmGenerationSuccess
  storedAtMs : JsNumber

/-- What `createLlmGatewayIdempotencyCache` closes over. -/
structure LlmGatewayIdempotencyCache where
  hmacSecret : SecretProvider
  ttlMs : JsNumber
  diskRoot : Option JsString
  maxEntries : JsNumber

structure GatewayIdempotencyMetrics where
  replays : ℕ
  stores : ℕ
  misses : ℕ
  diskReads : ℕ
  diskReadFailures : ℕ
  diskWrites : ℕ
  diskWriteFailures : ℕ
  memoryEvictions : ℕ
  ttlExpirations : ℕ

/-- The map, the counters and the files below the cache root. -/
structure CacheState where
  memory : List (JsString × MemoryEntry)
  counters : GatewayIdempotencyMetrics
  files : List (JsString × JsString)

inductive LookupResult where
  | hit (key : GatewayIdempotencyKey) (result : LlmGenerationSuccess)
  | miss (key : GatewayIdempotencyKey)

/-! ## Options and inputs -/

def cacheError (text : String) : JsString := js "GatewayIdempotencyCache: " ++ js text

def defaultTtlMs : JsNumber := .ofRat 86400000

def defaultMaxEntries : JsNumber := .ofRat 1024

def validateSecret : SecretProvider → Except JsString Unit
  | .literal [] => .error (cacheError "hmacSecret must be a non-empty string")
  | _ => .ok ()

def validateTtlMs : Option JsNumber → Except JsString Unit
  | some ttlMs =>
      if !ttlMs.isFinite || ttlMs.le 0 then .error (cacheError "ttlMs must be a positive number")
      else .ok ()
  | none => .ok ()

def validateMaxEntries : Option JsNumber → Except JsString Unit
  | some maxEntries =>
      if !maxEntries.isInteger || maxEntries.lt 1 then
        .error (cacheError "maxEntries must be a positive integer")
      else .ok ()
  | none => .ok ()

def validateDiskRoot : Option JsString → Except JsString Unit
  | some [] => .error (cacheError "diskRoot must be a non-empty string")
  | _ => .ok ()

def validateOptions (options : CacheOptions) : Except JsString Unit := do
  validateSecret options.hmacSecret
  validateTtlMs options.ttlMs
  validateMaxEntries options.maxEntries
  validateDiskRoot options.diskRoot

def createLlmGatewayIdempotencyCache (options : CacheOptions) :
    Except JsString LlmGatewayIdempotencyCache := do
  validateOptions options
  return {
    hmacSecret := options.hmacSecret
    ttlMs := options.ttlMs.getD defaultTtlMs
    diskRoot := options.diskRoot
    maxEntries := options.maxEntries.getD defaultMaxEntries }

def assertNonEmptyString (value : JsString) (field : String) : Except JsString Unit :=
  if value.length = 0 then .error (cacheError "" ++ js field ++ js " must be a non-empty string")
  else .ok ()

def assertHexDigest (value : JsString) (field : String) : Except JsString Unit :=
  if isHexOfLength 64 value then .ok ()
  else
    .error (cacheError "" ++ js field ++ js " must be a 64-char lowercase sha256 hex digest")

def validateInputs (inputs : GatewayIdempotencyInputs) : Except JsString Unit := do
  assertNonEmptyString inputs.jobId "jobId"
  assertNonEmptyString inputs.roleStepId "roleStepId"
  assertNonEmptyString inputs.promptVersion "promptVersion"
  assertHexDigest inputs.schemaHash "schemaHash"
  assertHexDigest inputs.inputHash "inputHash"
  if !inputs.attempt.isInteger || inputs.attempt.lt 1 then
    .error (cacheError "attempt must be a positive integer")
  else .ok ()

/-! ## Keys -/

/-- The object of `toCanonicalInputs`. -/
def GatewayIdempotencyInputs.fields (inputs : GatewayIdempotencyInputs) :
    List (JsString × Option Json) :=
  [(js "attempt", some (.num inputs.attempt)),
    (js "inputHash", some (.str inputs.inputHash)),
    (js "jobId", some (.str inputs.jobId)),
    (js "promptVersion", some (.str inputs.promptVersion)),
    (js "roleStepId", some (.str inputs.roleStepId)),
    (js "schemaHash", some (.str inputs.schemaHash))]

def GatewayIdempotencyInputs.payload (inputs : GatewayIdempotencyInputs) : JsString :=
  canonicalJson (.obj (presentMembers inputs.fields))

def resolveSecret : SecretProvider → Except JsString JsString
  | .literal secret => .ok secret
  | .callback (.str provided) => .ok provided
  | .callback _ => .error (cacheError "hmac secret provider returned a non-string value")

section Model

variable (hmacSha256 : JsString → JsString → JsString)

/-- `hmacSha256 secret payload` is `createHmac("sha256", secret).update(payload).digest("hex")`. -/
def computeGatewayIdempotencyHmac (inputs : GatewayIdempotencyInputs) (secret : SecretProvider) :
    Except JsString JsString := do
  let resolvedSecret ← resolveSecret secret
  if resolvedSecret.length = 0 then .error (cacheError "hmac secret must be a non-empty string")
  else .ok (hmacSha256 resolvedSecret inputs.payload)

def computeKey (cache : LlmGatewayIdempotencyCache) (inputs : GatewayIdempotencyInputs) :
    Except JsString GatewayIdempotencyKey := do
  validateInputs inputs
  let hmac ← computeGatewayIdempotencyHmac hmacSha256 inputs cache.hmacSecret
  return {
    jobId := inputs.jobId
    roleStepId := inputs.roleStepId
    attempt := inputs.attempt
    promptVersion := inputs.promptVersion
    schemaHash := inputs.schemaHash
    inputHash := inputs.inputHash
    hmac := hmac }

end Model

/-- `Buffer.from(s, "hex")`: pairs of digits up to the first one that is not a pair. -/
def decodeHex : JsString → List ℕ
  | a :: b :: rest =>
      match hexValue a, hexValue b with
      | some x, some y => (16 * x + y) :: decodeHex rest
      | _, _ => []
  | _ => []

/-- `timingSafeEqual` throws on buffers of different length. -/
def hmacMatches (a b : JsString) : Except JsString Bool :=
  if a.length ≠ b.length then .ok false
  else if (decodeHex a).length ≠ (decodeHex b).length then
    .error (js "Input buffers must have the same byte length")
  else .ok (decodeHex a = decodeHex b)

/-! ## Files -/

def GatewayIdempotencyKey.fields (key : GatewayIdempotencyKey) : List (JsString × Option Json) :=
  [(js "schemaVersion", some (.str keySchemaVersion)),
    (js "jobId", some (.str key.jobId)),
    (js "roleStepId", some (.str key.roleStepId)),
    (js "attempt", some (.num key.attempt)),
    (js "promptVersion", some (.str key.promptVersion)),
    (js "schemaHash", some (.str key.schemaHash)),
    (js "inputHash", some (.str key.inputHash)),
    (js "hmac", some (.str key.hmac))]

def LlmUsage.fields (usage : LlmUsage) : List (JsString × Option Json) :=
  [(js "inputTokens", usage.inputTokens.map .num),
    (js "outputTokens", usage.outputTokens.map .num)]

def LlmGenerationSuccess.fields (result : LlmGenerationSuccess) :
    List (JsString × Option Json) :=
  [(js "outcome", some (.str (js "success"))),
    (js "content", result.content),
    (js "rawTextContent", result.rawTextContent.map .str),
    (js "constrainedDecoding", result.constrainedDecoding),
    (js "finishReason", some (.str result.finishReason.text)),
    (js "usage", some (.obj (presentMembers result.usage.fields))),
    (js "modelDeployment", some (.str result.modelDeployment)),
    (js "modelRevision", some (.str result.modelRevision)),
    (js "gatewayRelease", some (.str result.gatewayRelease)),
    (js "attempt", some (.num result.attempt))]

def MemoryEntry.fields (entry : MemoryEntry) : List (JsString × Option Json) :=
  [(js "schemaVersion", some (.str keySchemaVersion)),
    (js "storedAtMs", some (.num entry.storedAtMs)),
    (js "key", some (.obj (presentMembers entry.key.fields))),
    (js "result", some (.obj (presentMembers entry.result.fields)))]

def serialiseDiskEntry (entry : MemoryEntry) : JsString :=
  canonicalJson (.obj (presentMembers entry.fields))

/-- `value[name]` for an object value. -/
def member (value : Json) (name : String) : Option Json :=
  match value with
  | .obj members => mapGet members (js name)
  | _ => none

/-- `typeof value === "object" && value !== null`. -/
def isObject : Json → Bool
  | .obj _ | .arr _ => true
  | _ => false

def stringMember (value : Json) (name : String) : Option JsString :=
  match member value name with
  | some (.str s) => some s
  | _ => none

def numberMember (value : Json) (name : String) : Option JsNumber :=
  match member value name with
  | some (.num x) => some x
  | _ => none

def parseKey (value : Json) : Option GatewayIdempotencyKey := do
  guard (isObject value)
  guard (stringMember value "schemaVersion" = some keySchemaVersion)
  let jobId ← stringMember value "jobId"
  let roleStepId ← stringMember value "roleStepId"
  let promptVersion ← stringMember value "promptVersion"
  let schemaHash ← stringMember value "schemaHash"
  let inputHash ← stringMember value "inputHash"
  let hmac ← stringMember value "hmac"
  let attempt ← numberMember value "attempt"
  guard attempt.isInteger
  return ⟨jobId, roleStepId, attempt, promptVersion, schemaHash, inputHash, hmac⟩

def parseSuccess (value : Json) : Option LlmGenerationSuccess := do
  guard (isObject value)
  guard (stringMember value "outcome" = some (js "success"))
  let modelDeployment ← stringMember value "modelDeployment"
  let modelRevision ← stringMember value "modelRevision"
  let gatewayRelease ← stringMember value "gatewayRelease"
  let finishReasonText ← stringMember value "finishReason"
  let attempt ← numberMember value "attempt"
  guard attempt.isInteger
  let finishReason ← allowedFinishReasons.find? (·.text = finishReasonText)
  let usage ← member value "usage"
  guard (isObject usage)
  return {
    content := member value "content"
    rawTextContent := none
    constrainedDecoding := none
    finishReason := finishReason
    usage := ⟨numberMember usage "inputTokens", numberMember usage "outputTokens"⟩
    modelDeployment := modelDeployment
    modelRevision := modelRevision
    gatewayRelease := gatewayRelease
    attempt := attempt }

/-- Everything `parseDiskEntry` reads before it compares the HMACs, and what it reads after. -/
def parseEnvelope (raw : JsString) :
    Option (JsNumber × GatewayIdempotencyKey × Option LlmGenerationSuccess) := do
  let envelope ← Json.parse raw
  guard (isObject envelope)
  guard (stringMember envelope "schemaVersion" = some keySchemaVersion)
  let storedAtMs ← numberMember envelope "storedAtMs"
  guard storedAtMs.isFinite
  let key ← (member envelope "key").bind parseKey
  return (storedAtMs, key, (member envelope "result").bind parseSuccess)

def parseDiskEntry (raw : JsString) (expectedKey : GatewayIdempotencyKey) :
    Except JsString (Option MemoryEntry) :=
  match parseEnvelope raw with
  | none => .ok none
  | some (storedAtMs, key, result) =>
      match hmacMatches key.hmac expectedKey.hmac with
      | .error message => .error message
      | .ok false => .ok none
      | .ok true => .ok (result.map fun result ↦ ⟨key, result, storedAtMs⟩)

/-- `resolveCachePath`; below the cache root a file is told by its HMAC. -/
def resolveCachePath (hmac : JsString) : Except JsString JsString :=
  if isHexOfLength 64 hmac then .ok hmac
  else .error (cacheError "refusing to resolve cache path for non-hex hmac")

def sanitiseResultForStorage (result : LlmGenerationSuccess) : LlmGenerationSuccess where
  content := result.content
  rawTextContent := none
  constrainedDecoding := none
  finishReason := result.finishReason
  usage := ⟨result.usage.inputTokens, result.usage.outputTokens⟩
  modelDeployment := result.modelDeployment
  modelRevision := result.modelRevision
  gatewayRelease := result.gatewayRelease
  attempt := result.attempt

/-! ## Operations -/

/-- `count >= bound` for a count that is represented exactly. -/
def atLeast (count : ℕ) (bound : JsNumber) : Bool :=
  bound.isFinite && decide (bound.toRat ≤ count)

def LlmGatewayIdempotencyCache.isFresh (cache : LlmGatewayIdempotencyCache)
    (storedAtMs nowMs : JsNumber) : Bool :=
  (nowMs.sub storedAtMs).lt cache.ttlMs

def evictOldest (st : CacheState) : CacheState :=
  match st.memory with
  | [] => st
  | (oldest, _) :: _ =>
      { st with
        memory := mapDelete st.memory oldest
        counters.memoryEvictions := st.counters.memoryEvictions + 1 }

/-- `readable` says whether an existing file can be read. -/
def tryDiskRead (cache : LlmGatewayIdempotencyCache) (st : CacheState)
    (key : GatewayIdempotencyKey) (readable : Bool) :
    CacheState × Except JsString (Option MemoryEntry) :=
  if cache.diskRoot = none then (st, .ok none)
  else
    match resolveCachePath key.hmac with
    | .error message => (st, .error message)
    | .ok path =>
        let failed : CacheState :=
          { st with counters.diskReadFailures := st.counters.diskReadFailures + 1 }
        match if readable then mapGet st.files path else none with
        | none => (failed, .ok none)
        | some raw =>
            match parseDiskEntry raw key with
            | .error message => (st, .error message)
            | .ok none => (failed, .ok none)
            | .ok (some entry) =>
                ({ st with counters.diskReads := st.counters.diskReads + 1 }, .ok (some entry))

/-- `writable` says whether all three file operations succeed. -/
def persistDiskEntry (cache : LlmGatewayIdempotencyCache) (st : CacheState) (entry : MemoryEntry)
    (writable : Bool) : CacheState × Except JsString Unit :=
  if cache.diskRoot = none then (st, .ok ())
  else
    match resolveCachePath entry.key.hmac with
    | .error message => (st, .error message)
    | .ok path =>
        if writable then
          ({ st with
              files := mapSet st.files path (serialiseDiskEntry entry)
              counters.diskWrites := st.counters.diskWrites + 1 }, .ok ())
        else
          ({ st with counters.diskWriteFailures := st.counters.diskWriteFailures + 1 }, .ok ())

/-- The part of `lookup` after the map. -/
def lookupDisk (cache : LlmGatewayIdempotencyCache) (st : CacheState)
    (key : GatewayIdempotencyKey) (nowMs : JsNumber) (readable : Bool) :
    CacheState × Except JsString LookupResult :=
  let missed (st : CacheState) : CacheState × Except JsString LookupResult :=
    ({ st with counters.misses := st.counters.misses + 1 }, .ok (.miss key))
  match tryDiskRead cache st key readable with
  | (st, .error message) => (st, .error message)
  | (st, .ok none) => missed st
  | (st, .ok (some entry)) =>
      if !cache.isFresh entry.storedAtMs nowMs then
        missed { st with counters.ttlExpirations := st.counters.ttlExpirations + 1 }
      else
        match hmacMatches entry.key.hmac key.hmac with
        | .error message => (st, .error message)
        | .ok false => missed st
        | .ok true =>
            ({ st with
                memory := mapSet st.memory key.hmac entry
                counters.replays := st.counters.replays + 1 }, .ok (.hit key entry.result))

def lookupKey (cache : LlmGatewayIdempotencyCache) (st : CacheState) (key : GatewayIdempotencyKey)
    (nowMs : JsNumber) (readable : Bool) : CacheState × Except JsString LookupResult :=
  match mapGet st.memory key.hmac with
  | none => lookupDisk cache st key nowMs readable
  | some inMemory =>
      if !cache.isFresh inMemory.storedAtMs nowMs then
        lookupDisk cache
          { st with
            memory := mapDelete st.memory key.hmac
            counters.ttlExpirations := st.counters.ttlExpirations + 1 } key nowMs readable
      else
        match hmacMatches inMemory.key.hmac key.hmac with
        | .error message => (st, .error message)
        | .ok false => lookupDisk cache st key nowMs readable
        | .ok true =>
            ({ st with counters.replays := st.counters.replays + 1 },
              .ok (.hit key inMemory.result))

def store (cache : LlmGatewayIdempotencyCache) (st : CacheState) (key : GatewayIdempotencyKey)
    (result : LlmGenerationSuccess) (nowMs : JsNumber) (writable : Bool) :
    CacheState × Except JsString Unit :=
  let st :=
    if atLeast st.memory.length cache.maxEntries && (mapGet st.memory key.hmac).isNone then
      evictOldest st
    else st
  let entry : MemoryEntry := ⟨key, sanitiseResultForStorage result, nowMs⟩
  persistDiskEntry cache
    { st with
      memory := mapSet st.memory key.hmac entry
      counters.stores := st.counters.stores + 1 } entry writable

section Model

variable (hmacSha256 : JsString → JsString → JsString)

def lookup (cache : LlmGatewayIdempotencyCache) (st : CacheState)
    (inputs : GatewayIdempotencyInputs) (nowMs : JsNumber) (readable : Bool) :
    CacheState × Except JsString LookupResult :=
  match computeKey hmacSha256 cache inputs with
  | .error message => (st, .error message)
  | .ok key => lookupKey cache st key nowMs readable

end Model

end TestIntelligence.ModelGateway.Idempotency
