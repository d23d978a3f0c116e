import TestIntelligence.Js.Outcome
import TestIntelligence.Js.Patterns
import TestIntelligence.Security.Records

/-!
# The human-review queue

The verdicts, the queue items and the checks of `human-review-queue.ts`.  The
functions of `node:crypto` are parameters.  A queue item is checked as it was
parsed; a refusal carries the code and the message of its error.
-/

namespace TestIntelligence.Review.HumanReviewQueue

open Js Security

/-- `thrown` is a `HumanReviewQueueError`; `malformed` stands for the errors of
`JSON.parse` and of reading a property of `null`, `missing` for `ENOENT`. -/
inductive QueueFailure
  | thrown (code message : JsString)
  | malformed
  | missing
  deriving DecidableEq

/-- A check that fails with a code and a message, or passes. -/
abbrev Check := Option (JsString × JsString)

def check (passes : Bool) (code : String) (message : JsString) : Check :=
  if passes then none else some (js code, message)

def runChecks (checks : List Check) : Except QueueFailure Unit :=
  match checks.findSome? id with
  | none => .ok ()
  | some (code, message) => .error (.thrown code message)

def contractVersion : JsString := js "1.39.0"

def queueItemSchemaVersion : JsString := js "1.0.0"

def verdictSchemaVersion : JsString := js "1.0.0"

def rationaleMaxChars : ℕ := 4096

inductive VerdictLabel
  | approved
  | rejected
  | revised
  deriving DecidableEq, Repr

def VerdictLabel.text : VerdictLabel → JsString
  | .approved => js "approved"
  | .rejected => js "rejected"
  | .revised => js "revised"

def verdictLabels : List JsString := [VerdictLabel.approved, .rejected, .revised].map VerdictLabel.text

/-! ## Field checks -/

mutual

/-- The text of a value in a template literal. -/
def interpolated : Json → JsString
  | .null => js "null"
  | .bool b => js (if b then "true" else "false")
  | .num x => numberText x
  | .str s => s
  | .arr items => join (js ",") (interpolatedItems items)
  | .obj _ => js "[object Object]"

def interpolatedItems : List Json → List JsString
  | [] => []
  | .null :: rest => [] :: interpolatedItems rest
  | item :: rest => interpolated item :: interpolatedItems rest

end

def memberText (value : Option Json) : JsString := value.elim (js "undefined") interpolated

/-- `/^[A-Za-z0-9][A-Za-z0-9._-]{0,127}$/u` -/
def matchesSafePathSegment : JsString → Bool
  | [] => false
  | u :: rest => isAlphanumeric u && rest.length ≤ 127 &&
      rest.all fun v ↦ isAlphanumeric v || v == 0x2E || v == 0x5F || v == 0x2D

def isSafeSegment (value : JsString) : Bool :=
  !(value == js "." || value == js ".." || value.contains 0x2F || value.contains 0x5C ||
    !matchesSafePathSegment value)

/-- `assertSafeSegment` -/
def segmentChecks (value : Option Json) (label : String) : List Check :=
  [check (isTextWith (· != []) value) "E_INVALID_SEGMENT"
      (js label ++ js " must be a non-empty string"),
    check (isTextWith isSafeSegment value) "E_INVALID_SEGMENT"
      (js label ++ js " \"" ++ memberText value ++
        js "\" is not a safe single-path-segment value (must match " ++
          js "/^[A-Za-z0-9][A-Za-z0-9._-]\x7b0,127\x7d$/u)")]

/-- `assertIso8601` -/
def isoCheck (value : Option Json) (label : String) : Check :=
  check (isTextWith isIsoDateTime value) "E_INVALID_TIMESTAMP"
    (js label ++ js " must be a strict ISO-8601 timestamp, got \"" ++ memberText value ++ js "\"")

/-- `FORBIDDEN_RATIONALE_CHARS` with their code points. -/
def forbiddenRationaleChars : List (CodeUnit × String) :=
  [(0x0A, "000A"), (0x0D, "000D"), (0x2028, "2028"), (0x2029, "2029"), (0x00, "0000")]

/-- `assertRationale` -/
def rationaleChecks (rationale : JsString) (label : String) : List Check :=
  [check (rationale != []) "E_INVALID_RATIONALE" (js label ++ js " must be a non-empty string"),
    check (rationale.length ≤ rationaleMaxChars) "E_INVALID_RATIONALE"
      (js label ++ js " exceeds HUMAN_REVIEW_VERDICT_RATIONALE_MAX_CHARS (4096), got " ++
        numberText (.ofRat rationale.length))] ++
  forbiddenRationaleChars.map fun forbidden ↦
    check (!rationale.contains forbidden.1) "E_INVALID_RATIONALE"
      (js label ++ js " contains a forbidden control / line-separator codepoint (U+" ++
        js forbidden.2 ++ js ")")

/-! ## Queue items -/

/-- The member of a parsed value; `null` has none to read. -/
def memberOf (value : Json) (key : String) : Option Json :=
  match value with
  | .obj members => mapGet members (js key)
  | _ => none

def isRate : Option Json → Bool :=
  isNumberWith fun x ↦ x.isFinite && !x.lt 0 && !JsNumber.lt 1 x

/-- `item.slaDeadlineAt < item.enqueuedAt` -/
def precedes : Option Json → Option Json → Bool
  | some (.str s), some (.str t) => decide (s < t)
  | _, _ => false

/-- The checks of `assertHumanReviewQueueItemInvariants` in their order. -/
def queueItemChecks (item : Json) : List Check :=
  let field := memberOf item
  let judgeDisagreement (key : String) : Option Json := (field "judgeDisagreement").bind (memberOf · key)
  [check (isTextWith (· == queueItemSchemaVersion) (field "schemaVersion")) "E_INVALID_SCHEMA"
      (js "HumanReviewQueueItem.schemaVersion must be \"1.0.0\", got \"" ++
        memberText (field "schemaVersion") ++ js "\""),
    check (isTextWith (· == contractVersion) (field "contractVersion")) "E_INVALID_SCHEMA"
      (js "HumanReviewQueueItem.contractVersion must be \"1.39.0\", got \"" ++
        memberText (field "contractVersion") ++ js "\"")] ++
  segmentChecks (field "itemId") "HumanReviewQueueItem.itemId" ++
  segmentChecks (field "tenantId") "HumanReviewQueueItem.tenantId" ++
  segmentChecks (field "profileId") "HumanReviewQueueItem.profileId" ++
  segmentChecks (field "runId") "HumanReviewQueueItem.runId" ++
  [check (isTextWith (· != []) (field "testCaseId")) "E_INVALID_FIELD"
      (js "HumanReviewQueueItem.testCaseId must be a non-empty string"),
    isoCheck (field "enqueuedAt") "HumanReviewQueueItem.enqueuedAt",
    isoCheck (field "slaDeadlineAt") "HumanReviewQueueItem.slaDeadlineAt",
    check (!precedes (field "slaDeadlineAt") (field "enqueuedAt")) "E_INVALID_SLA"
      (js "HumanReviewQueueItem.slaDeadlineAt (" ++ memberText (field "slaDeadlineAt") ++
        js ") must be >= enqueuedAt (" ++ memberText (field "enqueuedAt") ++ js ")"),
    check (isTextWith (fun _ ↦ true) (field "proposedDecision")) "E_INVALID_FIELD"
      (js "HumanReviewQueueItem.proposedDecision must be a TestCasePolicyDecision string"),
    check (isRate (judgeDisagreement "disagreementRate")) "E_INVALID_FIELD"
      (js "HumanReviewQueueItem.judgeDisagreement.disagreementRate " ++
        js "must be a finite number in [0,1]"),
    check (match judgeDisagreement "judges" with | some (.arr _) => true | _ => false)
      "E_INVALID_FIELD" (js "HumanReviewQueueItem.judgeDisagreement.judges must be an array")]

/-- `readJsonFile` and `assertHumanReviewQueueItemInvariants`. -/
def parseQueueItem (raw : JsString) : Except QueueFailure Json :=
  match Json.parse raw with
  | none | some .null => .error .malformed
  | some item =>
      match runChecks (queueItemChecks item) with
      | .error failure => .error failure
      | .ok () => .ok item

/-! ## Verdicts -/

/-- The member `revisedTestCase` is an opaque object of the caller. -/
structure HumanReviewVerdict where
  schemaVersion : JsString
  contractVersion : JsString
  itemId : JsString
  reviewerPrincipalHash : JsString
  verdict : JsString
  rationale : JsString
  revisedTestCase : Option Json
  decidedAt : JsString
  signatureHex : JsString
  publicKeyFingerprintSha256 : JsString
  publicKeyPem : JsString
  ordered : ∀ value ∈ revisedTestCase, value.Ordered

/-- Every field but `signatureHex`. -/
def HumanReviewVerdict.bodyFields (verdict : HumanReviewVerdict) :
    List (JsString × Option Json) :=
  [(js "schemaVersion", some (.str verdict.schemaVersion)),
    (js "contractVersion", some (.str verdict.contractVersion)),
    (js "itemId", some (.str verdict.itemId)),
    (js "reviewerPrincipalHash", some (.str verdict.reviewerPrincipalHash)),
    (js "verdict", some (.str verdict.verdict)),
    (js "rationale", some (.str verdict.rationale)),
    (js "revisedTestCase", verdict.revisedTestCase),
    (js "decidedAt", some (.str verdict.decidedAt)),
    (js "publicKeyFingerprintSha256", some (.str verdict.publicKeyFingerprintSha256)),
    (js "publicKeyPem", some (.str verdict.publicKeyPem))]

def HumanReviewVerdict.fields (verdict : HumanReviewVerdict) : List (JsString × Option Json) :=
  (js "signatureHex", some (.str verdict.signatureHex)) :: verdict.bodyFields

/-- `canonicalJson(verdict)` -/
def HumanReviewVerdict.text (verdict : HumanReviewVerdict) : JsString :=
  canonicalJson (.obj (presentMembers verdict.fields))

/-- The text that the signature covers. -/
def verdictBodyForSigning (verdict : HumanReviewVerdict) : JsString :=
  canonicalJson (.obj (presentMembers verdict.bodyFields))

def isObject : Option Json → Bool
  | some (.obj _) => true
  | _ => false

/-- The checks of `assertHumanReviewVerdictInvariants` in their order. -/
def verdictChecks (verdict : HumanReviewVerdict) : List Check :=
  let revised := verdict.verdict == VerdictLabel.revised.text
  [check (verdict.schemaVersion == verdictSchemaVersion) "E_INVALID_SCHEMA"
      (js "HumanReviewVerdict.schemaVersion must be \"1.0.0\", got \"" ++ verdict.schemaVersion ++
        js "\""),
    check (verdict.contractVersion == contractVersion) "E_INVALID_SCHEMA"
      (js "HumanReviewVerdict.contractVersion must be \"1.39.0\", got \"" ++
        verdict.contractVersion ++ js "\"")] ++
  segmentChecks (some (.str verdict.itemId)) "HumanReviewVerdict.itemId" ++
  [check (verdictLabels.contains verdict.verdict) "E_INVALID_VERDICT"
      (js "HumanReviewVerdict.verdict \"" ++ verdict.verdict ++
        js "\" is not a known HumanReviewQueueVerdictLabel")] ++
  rationaleChecks verdict.rationale "HumanReviewVerdict.rationale" ++
  [isoCheck (some (.str verdict.decidedAt)) "HumanReviewVerdict.decidedAt",
    check (isHexOfLength 64 verdict.reviewerPrincipalHash) "E_INVALID_FIELD"
      (js "HumanReviewVerdict.reviewerPrincipalHash must be 64 lowercase hex chars (sha256), got \"" ++
        verdict.reviewerPrincipalHash ++ js "\""),
    check (isHexOfLength 128 verdict.signatureHex) "E_INVALID_SIGNATURE"
      (js "HumanReviewVerdict.signatureHex must be 128 lowercase hex chars (ed25519 detached), " ++
        js "got \"" ++ verdict.signatureHex ++ js "\""),
    check (isHexOfLength 64 verdict.publicKeyFingerprintSha256) "E_INVALID_FIELD"
      (js "HumanReviewVerdict.publicKeyFingerprintSha256 must be 64 lowercase hex chars (sha256)"),
    check (includes verdict.publicKeyPem (js "BEGIN PUBLIC KEY")) "E_INVALID_FIELD"
      (js "HumanReviewVerdict.publicKeyPem must be a PEM-encoded SPKI public key"),
    check (revised || verdict.revisedTestCase.isNone) "E_INVALID_FIELD"
      (js "HumanReviewVerdict.revisedTestCase is only allowed when verdict === \"revised\""),
    check (!revised || isObject verdict.revisedTestCase) "E_INVALID_FIELD"
      (js "HumanReviewVerdict.revisedTestCase must be a JSON object when verdict === \"revised\"")]

/-- The functions of `node:crypto`: the key in a PEM text or the message of the
error, its type, the sha256 of its SPKI form, and the check of a signature. -/
structure PublicKeys (κ : Type) where
  createPublicKey : JsString → Except JsString κ
  asymmetricKeyType : κ → JsString
  spkiSha256 : κ → JsString
  verify : JsString → κ → JsString → Bool

section

variable {κ : Type} (keys : PublicKeys κ)

def verifyVerdictSignature (verdict : HumanReviewVerdict) : Except QueueFailure Unit :=
  match keys.createPublicKey verdict.publicKeyPem with
  | .error message => .error (.thrown (js "E_INVALID_KEY")
      (js "HumanReviewVerdict.publicKeyPem could not be parsed as a PEM-encoded SPKI key: " ++
        message))
  | .ok publicKey =>
      let fingerprint := keys.spkiSha256 publicKey
      runChecks
        [check (keys.asymmetricKeyType publicKey == js "ed25519") "E_INVALID_KEY"
            (js "HumanReviewVerdict.publicKeyPem must encode an ed25519 key, got \"" ++
              keys.asymmetricKeyType publicKey ++ js "\""),
          check (fingerprint == verdict.publicKeyFingerprintSha256) "E_KEY_FINGERPRINT_MISMATCH"
            (js "HumanReviewVerdict.publicKeyFingerprintSha256 (" ++
              verdict.publicKeyFingerprintSha256 ++
                js ") does not match the SPKI sha256 of the supplied PEM (" ++ fingerprint ++ js ")"),
          check (keys.verify (verdictBodyForSigning verdict) publicKey verdict.signatureHex)
            "E_SIGNATURE_INVALID" (js "HumanReviewVerdict.signatureHex did not verify " ++
              js "against the supplied ed25519 public key")]

/-- What `recordVerdict` checks before it touches a file. -/
def validateVerdict (verdict : HumanReviewVerdict) (tenantId : JsString) :
    Except QueueFailure Unit := do
  runChecks (verdictChecks verdict)
  verifyVerdictSignature keys verdict
  runChecks (segmentChecks (some (.str tenantId)) "tenantId")

end

def itemNotFound (verdict : HumanReviewVerdict) (tenantId : JsString) : QueueFailure :=
  .thrown (js "E_QUEUE_ITEM_NOT_FOUND") (js "queue item \"" ++ verdict.itemId ++
    js "\" not found for tenant \"" ++ tenantId ++ js "\"")

def alreadyRecorded (verdict : HumanReviewVerdict) : QueueFailure :=
  .thrown (js "E_VERDICT_ALREADY_RECORDED") (js "verdict for item \"" ++ verdict.itemId ++
    js "\" is already recorded; verdicts are append-only")

/-- The recorded verdict is read as it was parsed and compared in canonical form. -/
def compareRecorded (raw : JsString) (verdict : HumanReviewVerdict) (item : Json) :
    Except QueueFailure Json :=
  match Json.parse raw with
  | none => .error .malformed
  | some existing =>
      if canonicalJson existing ≠ verdict.text then .error (alreadyRecorded verdict) else .ok item

end TestIntelligence.Review.HumanReviewQueue
