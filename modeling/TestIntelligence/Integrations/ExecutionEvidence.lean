import TestIntelligence.Js.Outcome
import TestIntelligence.Js.Patterns
import TestIntelligence.Js.Sorting
import TestIntelligence.Js.Utf8
import TestIntelligence.Security.Records

/-!
# Ingesting execution evidence

`ingestExecutionEvidence` checks the entries of a pull, verifies the signature over the signed
fields of each entry, and writes the accepted entries under the digest of those fields.  The
paths are given from the directory of the evidence on, and the record of the read in a tenant
scope is left out.
-/

namespace TestIntelligence.Integrations

open Js Security

/-! ## Constants -/

def EXECUTION_EVIDENCE_SCHEMA_VERSION : JsString := js "1.0.0"

def MAX_REVIEWER_RATIONALE_CHARS : ℕ := 4096

def MAX_TMS_CASE_ID_CHARS : ℕ := 256

def EXECUTION_EVIDENCE_MIN_EXECUTED_AT : JsString := js "1970-01-01T00:00:00.000Z"

inductive ExecutionVerdict
  | pass
  | fail
  | blocked
  | skipped
  deriving DecidableEq

def ExecutionVerdict.text : ExecutionVerdict → JsString
  | .pass => js "pass"
  | .fail => js "fail"
  | .blocked => js "blocked"
  | .skipped => js "skipped"

def ALLOWED_EXECUTION_VERDICTS : List ExecutionVerdict := [.pass, .fail, .blocked, .skipped]

def ALLOWED_REVIEWER_VERDICTS : List JsString := [js "approved", js "rejected", js "revised"]

inductive ExecutionEvidenceRejectionCode
  | schemaInvalid
  | tenantMismatch
  | signatureInvalid
  | staleExecutedAt
  deriving DecidableEq

inductive ExecutionEvidenceConflictCode
  | executionFailReviewerApproved
  | executionPassReviewerRejected
  deriving DecidableEq

/-! ## Entries -/

/-- A JSON value: its objects have distinct keys in enumeration order. -/
structure EvidenceEntry where
  value : Json
  ordered : value.Ordered

/-- The keys that `stripSignature` copies. -/
def signedKeys : List JsString :=
  [js "testCaseId", js "tenantId", js "tmsAdapterId", js "tmsCaseId", js "executionVerdict",
    js "executedAt", js "reviewerVerdict", js "reviewerRationale"]

def stripSignature (evidence : Json) : Json :=
  .obj (presentMembers (signedKeys.map fun key ↦ (key, property evidence key)))

def textOf : Option Json → JsString
  | some (.str s) => s
  | _ => []

/-- `evidence[key]` of a member that was found to be a text. -/
def text (evidence : Json) (key : String) : JsString := textOf (property evidence (js key))

/-- `stringify`, of a value that may be missing. -/
def stringifyMember : Option Json → JsString
  | some (.str s) => s
  | none => js "undefined"
  | some .null => js "null"
  | some value => value.stringify

/-- A non-empty string, of at most so many code units. -/
def isBoundedText (bound : Option ℕ) : Option Json → Bool :=
  isTextWith fun s ↦ s != [] && (bound.elim true fun limit ↦ decide (s.length ≤ limit))

/-- `/^\d{4}-\d{2}-\d{2}T\d{2}:\d{2}:\d{2}(?:\.\d{1,9})?Z$/` -/
def isUtcTimestamp (s : JsString) : Bool :=
  matchesClasses dateTimeClasses (s.take 19) && afterFraction (s.drop 19) == [0x5A]

def isObjectOrArray : Json → Bool
  | .obj _ | .arr _ => true
  | _ => false

def allowedVerdict (value : Option Json) : Option ExecutionVerdict :=
  ALLOWED_EXECUTION_VERDICTS.find? fun verdict ↦ isTextWith (· == verdict.text) value

def validateEvidenceShape (evidence : Json) : Option JsString :=
  let raw (key : String) : Option Json := property evidence (js key)
  if !isObjectOrArray evidence then some (js "evidence must be a non-null object")
  else if !isBoundedText none (raw "testCaseId") then
    some (js "testCaseId must be a non-empty string")
  else if !isBoundedText none (raw "tenantId") then some (js "tenantId must be a non-empty string")
  else if !isBoundedText none (raw "tmsAdapterId") then
    some (js "tmsAdapterId must be a non-empty string")
  else if !isBoundedText (some MAX_TMS_CASE_ID_CHARS) (raw "tmsCaseId") then
    some (js "tmsCaseId must be a 1.." ++ digitsText MAX_TMS_CASE_ID_CHARS ++ js "-char string")
  else if allowedVerdict (raw "executionVerdict") = none then
    some (js "executionVerdict \"" ++ stringifyMember (raw "executionVerdict") ++
      js "\" is not allowed")
  else if (raw "reviewerVerdict").isSome &&
      !isTextWith ALLOWED_REVIEWER_VERDICTS.contains (raw "reviewerVerdict") then
    some (js "reviewerVerdict \"" ++ stringifyMember (raw "reviewerVerdict") ++
      js "\" is not allowed")
  else if (raw "reviewerRationale").isSome &&
      !isTextWith (fun s ↦ decide (s.length ≤ MAX_REVIEWER_RATIONALE_CHARS))
        (raw "reviewerRationale") then
    some (js "reviewerRationale must be a string ≤ " ++ digitsText MAX_REVIEWER_RATIONALE_CHARS ++
      js " chars")
  else if !isTextWith isUtcTimestamp (raw "executedAt") then
    some (js "executedAt must be an ISO-8601 UTC timestamp ending with Z")
  else if !isTextWith (fun _ ↦ true) (raw "attestationSignatureHex") then
    some (js "attestationSignatureHex must be a string")
  else none

def safeId : Option Json → JsString
  | some (.str raw) =>
      if raw = [] then js "(empty)"
      else if raw.length > 128 then raw.take 125 ++ js "..." else raw
  | _ => js "(unknown)"

def detectConflict (evidence : Json) : Option ExecutionEvidenceConflictCode :=
  if property evidence (js "reviewerVerdict") = none then none
  else if text evidence "executionVerdict" = js "fail" ∧
      text evidence "reviewerVerdict" = js "approved" then some .executionFailReviewerApproved
  else if text evidence "executionVerdict" = js "pass" ∧
      text evidence "reviewerVerdict" = js "rejected" then some .executionPassReviewerRejected
  else none

def monthPartition (executedAt : JsString) : JsString := executedAt.take 7

/-- `Buffer.from(text, "hex")` -/
def hexBuffer : JsString → Bytes
  | high :: low :: rest =>
      match hexValue high, hexValue low with
      | some h, some l => .ofNat (16 * h + l) :: hexBuffer rest
      | _, _ => []
  | _ => []

/-! ## Signatures -/

structure EvidencePlatform (Key : Type) where
  createPublicKey : JsString → Except JsString Key
  asymmetricKeyType : Key → JsString
  /-- The base64 text of the SPKI encoding. -/
  exportDer : Key → JsString
  /-- `verify(null, data, key, signature)` -/
  verify : Key → Bytes → Bytes → Bool
  sha256 : Bytes → JsString
  localeCompare : JsString → JsString → ℤ
  /-- The names of a directory, in the order of the file system. -/
  readdir : List JsString → List JsString
  /-- The texts of the members that every object inherits. -/
  inherited : JsString → Option JsString

section

variable {Key : Type} (platform : EvidencePlatform Key)

def EvidencePlatform.sha256Hex (value : Json) : JsString :=
  platform.sha256 (utf8Encode (canonicalJson value))

def buildExecutionEvidenceSigningBytes (evidence : Json) : Bytes :=
  utf8Encode (canonicalJson (stripSignature evidence))

def computeVerifyingKeyFingerprint (key : Key) : JsString :=
  platform.sha256Hex (.str (platform.exportDer key))

def verifyEvidenceSignature (evidence : Json) (key : Key) : Option JsString :=
  let signature := text evidence "attestationSignatureHex"
  if signature = [] then some (js "missing attestationSignatureHex")
  else if !signature.all fun u ↦ (hexValue u).isSome then
    some (js "attestationSignatureHex is not lower-case hex")
  else if signature.length ≠ 128 then
    some (js "attestationSignatureHex must be 64 bytes (128 hex chars)")
  else if !platform.verify key (buildExecutionEvidenceSigningBytes evidence)
      (hexBuffer signature) then
    some (js "signature verification failed")
  else none

end

/-! ## The corpus -/

structure EvidencePath where
  monthPartition : JsString
  file : JsString
  deriving DecidableEq

def EvidencePath.text (path : EvidencePath) : JsString :=
  path.monthPartition ++ js "/" ++ path.file

abbrev EvidenceCorpus := List (EvidencePath × JsString)

/-- `writeAtomicJson` -/
def writeAtomicJson (corpus : EvidenceCorpus) (path : EvidencePath) (payload : Json) :
    EvidenceCorpus :=
  mapSet corpus path (canonicalJson payload ++ [0x0A])

def EvidenceCorpus.partitions (corpus : EvidenceCorpus) : List JsString :=
  setOf (corpus.map (·.1.monthPartition))

def EvidenceCorpus.files (corpus : EvidenceCorpus) (partition : JsString) : List JsString :=
  (corpus.filter (·.1.monthPartition = partition)).map (·.1.file)

inductive EvidenceLoadError
  | missing (path : EvidencePath)
  | syntaxError (path : EvidencePath)

structure PersistedExecutionEvidenceRecord where
  ingestedAt : JsString
  signingKeyFingerprintSha256 : JsString
  evidence : Json

def PersistedExecutionEvidenceRecord.fields (record : PersistedExecutionEvidenceRecord) :
    List (JsString × Option Json) := [
  (js "schemaVersion", some (.str EXECUTION_EVIDENCE_SCHEMA_VERSION)),
  (js "ingestedAt", some (.str record.ingestedAt)),
  (js "signingKeyFingerprintSha256", some (.str record.signingKeyFingerprintSha256)),
  (js "evidence", some record.evidence)]

def PersistedExecutionEvidenceRecord.toJson (record : PersistedExecutionEvidenceRecord) : Json :=
  .obj (presentMembers record.fields)

section

variable {Key : Type} (platform : EvidencePlatform Key)

def readEvidenceFile (corpus : EvidenceCorpus) (path : EvidencePath) :
    Except EvidenceLoadError Json :=
  match mapGet corpus path with
  | none => .error (.missing path)
  | some raw =>
      match Json.parse raw with
      | none => .error (.syntaxError path)
      | some value => .ok value

/-- The paths of the corpus in the order of the loader. -/
def evidencePaths (corpus : EvidenceCorpus) : List EvidencePath :=
  (sortBy platform.localeCompare (platform.readdir corpus.partitions)).flatMap fun partition ↦
    ((sortBy platform.localeCompare (platform.readdir (corpus.files partition))).filter
      (endsWith · (js ".json"))).map (⟨partition, ·⟩)

def loadPersistedExecutionEvidence (corpus : EvidenceCorpus) :
    Except EvidenceLoadError (List Json) :=
  (evidencePaths platform corpus).mapM (readEvidenceFile corpus)

end

/-! ## Ingesting a pull -/

structure VerdictCounts where
  pass : ℕ
  fail : ℕ
  blocked : ℕ
  skipped : ℕ
  deriving DecidableEq

def VerdictCounts.zero : VerdictCounts := ⟨0, 0, 0, 0⟩

def VerdictCounts.total (counts : VerdictCounts) : ℕ :=
  counts.pass + counts.fail + counts.blocked + counts.skipped

/-- `verdictCounts[verdict] += 1` -/
def VerdictCounts.add (counts : VerdictCounts) : Option ExecutionVerdict → VerdictCounts
  | some .pass => { counts with pass := counts.pass + 1 }
  | some .fail => { counts with fail := counts.fail + 1 }
  | some .blocked => { counts with blocked := counts.blocked + 1 }
  | some .skipped => { counts with skipped := counts.skipped + 1 }
  | none => counts

structure ReviewerConflictCounts where
  executionFailReviewerApproved : ℕ
  executionPassReviewerRejected : ℕ
  deriving DecidableEq

def ReviewerConflictCounts.zero : ReviewerConflictCounts := ⟨0, 0⟩

/-- `reviewerConflictCounts[code] += 1` -/
def ReviewerConflictCounts.add (counts : ReviewerConflictCounts) :
    Option ExecutionEvidenceConflictCode → ReviewerConflictCounts
  | some .executionFailReviewerApproved =>
      { counts with executionFailReviewerApproved := counts.executionFailReviewerApproved + 1 }
  | some .executionPassReviewerRejected =>
      { counts with executionPassReviewerRejected := counts.executionPassReviewerRejected + 1 }
  | none => counts

structure ExecutionEvidenceRejectionEntry where
  testCaseId : JsString
  tmsCaseId : JsString
  tmsAdapterId : Option Json
  code : ExecutionEvidenceRejectionCode
  detail : JsString

structure ExecutionEvidenceConflictEntry where
  testCaseId : JsString
  tmsAdapterId : JsString
  tmsCaseId : JsString
  executionVerdict : JsString
  reviewerVerdict : JsString
  code : ExecutionEvidenceConflictCode
  evidencePath : EvidencePath

/-- The batch of a call, its context and the dates of its clock, reading by reading. -/
structure IngestExecutionEvidenceInput where
  evidence : List EvidenceEntry
  tenantId : JsString
  verifyingPublicKeyPem : JsString
  tmsAdapterId : JsString
  projectId : JsString
  sinceIso : JsString
  now : ℕ → JsString

structure ExecutionEvidenceReport where
  generatedAt : JsString
  tenantId : JsString
  tmsAdapterId : JsString
  projectId : JsString
  sinceIso : JsString
  acceptedCount : ℕ
  rejectedCount : ℕ
  conflictCount : ℕ
  verdictCounts : VerdictCounts
  reviewerConflictCounts : ReviewerConflictCounts
  rejections : List ExecutionEvidenceRejectionEntry
  conflicts : List ExecutionEvidenceConflictEntry
  signingKeyFingerprintSha256 : JsString

structure IngestExecutionEvidenceResult where
  accepted : ℕ
  rejected : ℕ
  report : ExecutionEvidenceReport
  acceptedEvidencePaths : List EvidencePath

inductive IngestError
  | publicKey (message : JsString)
  | notEd25519
  | typeError (message : JsString)

structure IngestState where
  corpus : EvidenceCorpus
  clockReadings : ℕ
  rejections : List ExecutionEvidenceRejectionEntry
  conflicts : List ExecutionEvidenceConflictEntry
  acceptedPaths : List EvidencePath
  verdictCounts : VerdictCounts
  reviewerConflictCounts : ReviewerConflictCounts

def IngestState.start (corpus : EvidenceCorpus) : IngestState :=
  ⟨corpus, 0, [], [], [], .zero, .zero⟩

/-- `rejections.push({ … })` -/
def IngestState.reject (state : IngestState) (entry : Json) (testCaseId tmsCaseId : JsString)
    (code : ExecutionEvidenceRejectionCode) (detail : JsString) : IngestState :=
  { state with
    rejections := state.rejections ++
      [⟨testCaseId, tmsCaseId, property entry (js "tmsAdapterId"), code, detail⟩] }

/-- A rejection of an entry that has the shape of evidence. -/
def IngestState.rejectEvidence (state : IngestState) (entry : Json)
    (code : ExecutionEvidenceRejectionCode) (detail : JsString) : IngestState :=
  state.reject entry (text entry "testCaseId") (text entry "tmsCaseId") code detail

section

variable {Key : Type} (platform : EvidencePlatform Key)

def evidencePath (entry : Json) : EvidencePath where
  monthPartition := monthPartition (text entry "executedAt")
  file := platform.sha256Hex (.str (canonicalJson (stripSignature entry))) ++ js ".json"

def persistedRecord (fingerprint ingestedAt : JsString) (entry : Json) :
    PersistedExecutionEvidenceRecord :=
  ⟨ingestedAt, fingerprint, entry⟩

def IngestState.accept (input : IngestExecutionEvidenceInput) (fingerprint : JsString)
    (state : IngestState) (entry : Json) : IngestState :=
  let path := evidencePath platform entry
  let conflict := detectConflict entry
  { state with
    corpus := writeAtomicJson state.corpus path
      (persistedRecord fingerprint (input.now state.clockReadings) entry).toJson
    clockReadings := state.clockReadings + 1
    acceptedPaths := state.acceptedPaths ++ [path]
    verdictCounts := state.verdictCounts.add
      (allowedVerdict (property entry (js "executionVerdict")))
    conflicts := state.conflicts ++ (conflict.map fun code ↦
      (⟨text entry "testCaseId", text entry "tmsAdapterId", text entry "tmsCaseId",
        text entry "executionVerdict", text entry "reviewerVerdict", code, path⟩ :
          ExecutionEvidenceConflictEntry)).toList
    reviewerConflictCounts := state.reviewerConflictCounts.add conflict }

def ingestEntry (input : IngestExecutionEvidenceInput) (key : Key) (fingerprint : JsString)
    (state : IngestState) (entry : Json) : Except IngestError IngestState :=
  match validateEvidenceShape entry with
  | some detail =>
      match entry with
      | .null => .error (.typeError (js "Cannot read properties of null (reading 'testCaseId')"))
      | _ => .ok (state.reject entry (safeId (property entry (js "testCaseId")))
          (safeId (property entry (js "tmsCaseId"))) .schemaInvalid detail)
  | none =>
      if text entry "tenantId" ≠ input.tenantId then
        .ok (state.rejectEvidence entry .tenantMismatch
          (js "evidence tenantId \"" ++ text entry "tenantId" ++
            js "\" does not match context tenantId \"" ++ input.tenantId ++ js "\""))
      else if text entry "executedAt" < EXECUTION_EVIDENCE_MIN_EXECUTED_AT then
        .ok (state.rejectEvidence entry .staleExecutedAt
          (js "executedAt \"" ++ text entry "executedAt" ++ js "\" predates the hard floor \"" ++
            EXECUTION_EVIDENCE_MIN_EXECUTED_AT ++ js "\""))
      else
        match verifyEvidenceSignature platform entry key with
        | some detail => .ok (state.rejectEvidence entry .signatureInvalid detail)
        | none => .ok (state.accept platform input fingerprint entry)

/-- The state in which the loop ends, and the error that ends it early. -/
def ingestEntries (input : IngestExecutionEvidenceInput) (key : Key) (fingerprint : JsString)
    (state : IngestState) : List EvidenceEntry → IngestState × Option IngestError
  | [] => (state, none)
  | entry :: rest =>
      match ingestEntry platform input key fingerprint state entry.value with
      | .error error => (state, some error)
      | .ok next => ingestEntries input key fingerprint next rest

def buildEvidenceReport (input : IngestExecutionEvidenceInput) (fingerprint : JsString)
    (state : IngestState) : ExecutionEvidenceReport where
  generatedAt := input.now state.clockReadings
  tenantId := input.tenantId
  tmsAdapterId := input.tmsAdapterId
  projectId := input.projectId
  sinceIso := input.sinceIso
  acceptedCount := state.acceptedPaths.length
  rejectedCount := state.rejections.length
  conflictCount := state.conflicts.length
  verdictCounts := state.verdictCounts
  reviewerConflictCounts := state.reviewerConflictCounts
  rejections := sortBy (fun a b ↦ platform.localeCompare a.testCaseId b.testCaseId)
    state.rejections
  conflicts := sortBy (fun a b ↦ platform.localeCompare a.testCaseId b.testCaseId) state.conflicts
  signingKeyFingerprintSha256 := fingerprint

def verifyingKeyOf (input : IngestExecutionEvidenceInput) : Except IngestError Key :=
  match platform.createPublicKey input.verifyingPublicKeyPem with
  | .error message => .error (.publicKey message)
  | .ok key =>
      if platform.asymmetricKeyType key ≠ js "ed25519" then .error .notEd25519 else .ok key

def ingestExecutionEvidence (corpus : EvidenceCorpus) (input : IngestExecutionEvidenceInput) :
    EvidenceCorpus × Except IngestError IngestExecutionEvidenceResult :=
  match verifyingKeyOf platform input with
  | .error error => (corpus, .error error)
  | .ok key =>
      let fingerprint := computeVerifyingKeyFingerprint platform key
      match ingestEntries platform input key fingerprint (.start corpus) input.evidence with
      | (state, some error) => (state.corpus, .error error)
      | (state, none) => (state.corpus, .ok {
          accepted := state.acceptedPaths.length
          rejected := state.rejections.length
          report := buildEvidenceReport platform input fingerprint state
          acceptedEvidencePaths := sortBy
            (fun a b ↦ platform.localeCompare a.text b.text) state.acceptedPaths })

end

/-! ## The summary of the dossier -/

/-- A member of `adapterCounts`: a count, or the text that adding one to an inherited member
leaves. -/
inductive AdapterCount
  | count (n : ℕ)
  | text (s : JsString)
  deriving DecidableEq

def AdapterCount.plusOne : AdapterCount → AdapterCount
  | .count n => .count (n + 1)
  | .text s => .text (s ++ js "1")

structure ExecutionEvidenceDossierSummary where
  totalEvidence : ℕ
  verdictCounts : VerdictCounts
  reviewerConflictCounts : ReviewerConflictCounts
  tmsAdapterCounts : List (JsString × AdapterCount)
  distinctSigningKeyFingerprints : List JsString
  earliestExecutedAt : JsString
  latestExecutedAt : JsString
  deriving DecidableEq

def evidenceOf (record : Json) : Json := (property record (js "evidence")).getD .null

section

variable {Key : Type} (platform : EvidencePlatform Key)

/-- `adapterCounts[adapter] = (adapterCounts[adapter] ?? 0) + 1` -/
def countAdapter (counts : List (JsString × AdapterCount)) (adapter : JsString) :
    List (JsString × AdapterCount) :=
  if adapter = protoKey then counts
  else
    let before := (mapGet counts adapter).or ((platform.inherited adapter).map .text)
    defineProperty counts adapter (before.getD (.count 0)).plusOne

def summarizeRecord (summary : ExecutionEvidenceDossierSummary) (record : Json) :
    ExecutionEvidenceDossierSummary :=
  let evidence := evidenceOf record
  let executedAt := text evidence "executedAt"
  { totalEvidence := summary.totalEvidence + 1
    verdictCounts := summary.verdictCounts.add
      (allowedVerdict (property evidence (js "executionVerdict")))
    reviewerConflictCounts := summary.reviewerConflictCounts.add (detectConflict evidence)
    tmsAdapterCounts := countAdapter platform summary.tmsAdapterCounts
      (text evidence "tmsAdapterId")
    distinctSigningKeyFingerprints := setAdd summary.distinctSigningKeyFingerprints
      (text record "signingKeyFingerprintSha256")
    earliestExecutedAt :=
      if summary.earliestExecutedAt = [] ∨ executedAt < summary.earliestExecutedAt then executedAt
      else summary.earliestExecutedAt
    latestExecutedAt :=
      if summary.latestExecutedAt = [] ∨ summary.latestExecutedAt < executedAt then executedAt
      else summary.latestExecutedAt }

def summarizeExecutionEvidenceForDossier (records : List Json) : ExecutionEvidenceDossierSummary :=
  let summary := records.foldl (summarizeRecord platform) ⟨0, .zero, .zero, [], [], [], []⟩
  { summary with
    distinctSigningKeyFingerprints :=
      sortBy platform.localeCompare summary.distinctSigningKeyFingerprints }

end

end TestIntelligence.Integrations
