import TestIntelligence.Files.FileTree
import TestIntelligence.ProductionRunner.EvidenceSeal
import TestIntelligence.ProductionRunner.SealMerkle

/-!
# The seal verifier

`verifySealBundle` finds the seal in a bundle, recomputes the digests of the files that
the seal refers to, their Merkle root and the HMAC of the seal, and compares.
-/

namespace TestIntelligence.ProductionRunner.Seal

open Js Security Files

/-! ## Reports -/

inductive SealArtifactStatus
  | ok
  | tampered
  | missing
  | extra
  deriving DecidableEq

def SealArtifactStatus.text : SealArtifactStatus → JsString
  | .ok => js "OK"
  | .tampered => js "TAMPERED"
  | .missing => js "MISSING"
  | .extra => js "EXTRA"

structure SealArtifactReport where
  status : SealArtifactStatus
  reference : JsString
  expectedSha256 : Option JsString
  observedSha256 : Option JsString
  note : Option JsString

inductive SealVerifyFailureCode
  | bundleMissing
  | sealMissing
  | sealUnparseable
  | artifactMissing
  | artifactTampered
  | merkleRootMismatch
  | hmacMismatch
  | provenanceMismatch
  | regionAttestationMismatch

structure SealVerifyFailure where
  code : SealVerifyFailureCode
  reference : JsString
  message : JsString

inductive CrossCheckName
  | provenanceGraph
  | regionAttestations
  | finopsBySourceHash
  | genealogyDagHash
  | visualSidecarEvidence

structure SealVerifyCrossCheck where
  name : CrossCheckName
  ok : Bool
  detail : JsString

/-- The fields of a run whose seal was read; the others are without them. -/
structure SealDigests where
  jobId : JsString
  generatedAt : JsString
  merkleRoot : JsString
  manifestSha256 : JsString
  manifestHmacSha256 : JsString
  hmacKeyFingerprint : JsString

structure SealVerificationReport where
  ok : Bool
  bundlePath : JsString
  sealPath : JsString
  digests : Option SealDigests
  artifacts : List SealArtifactReport
  crossChecks : List SealVerifyCrossCheck
  failures : List SealVerifyFailure

structure VerifySealBundleInput where
  bundleDir : JsString
  key : Option Bytes
  expectedHmacHex : Option JsString
  expectedMerkleRootHex : Option JsString

/-! ## Files of a bundle -/

def provenanceArtifactFilename : JsString := js "provenance.jsonld"

def regionAttestationReportFilename : JsString := js "region-attestations.json"

section

variable (disk : Disk)

def safeStat (path : JsString) : Except FsError Bool := Option.isSome <$> disk.stat path

/-- The bytes of a file, or nothing where there is none. -/
def readBytes (path : JsString) : Except FsError (Option Bytes) :=
  match disk.readFile path with
  | .ok bytes => .ok (some bytes)
  | .error .enoent => .ok none
  | .error error => .error error

/-- `/^[a-zA-Z]:/` -/
def hasDriveLetter : JsString → Bool
  | letter :: 0x3A :: _ => isAlphanumeric letter && !isDigit letter
  | _ => false

def isSafeRelativeArtifactPath (runDir artifactPath : JsString) : Bool :=
  let segments := (split slash (artifactPath.map fun u ↦ if u = 0x5C then slash else u)).filter
    (· ≠ [])
  let rel := relative (resolveParts disk.cwd runDir) (resolveInParts disk.cwd runDir artifactPath)
  trim artifactPath ≠ [] && !artifactPath.contains 0 && !isAbsolute artifactPath &&
    !hasDriveLetter artifactPath && !segments.contains dotDot &&
    !(rel == dotDot || (dotDot ++ [slash]).isPrefixOf rel || isAbsolute rel)

def findSealInDirectories (bundleDir : JsString) :
    List (Bytes × Node) → Except FsError (Option JsString)
  | [] => .ok none
  | (name, node) :: entries =>
      if node.isDirectory then do
        let candidate := joinPaths [bundleDir, utf8Decode name, sealArtifactFilename]
        if ← safeStat disk candidate then return some candidate
        else findSealInDirectories bundleDir entries
      else findSealInDirectories bundleDir entries

def findSealPath (bundleDir : JsString) : Except FsError (Option JsString) := do
  let direct := joinPaths [bundleDir, sealArtifactFilename]
  if ← safeStat disk direct then return some direct
  else
    match disk.readDirectory bundleDir with
    | .error _ => return none
    | .ok entries => findSealInDirectories disk bundleDir entries

def parseJson (bytes : Bytes) : Option Json := Json.parse (utf8Decode bytes)

end

mutual

/-- The files below a directory, by their paths from it.  Subdirectories are taken from a
stack, the last one first. -/
def enumerateNode (path : List JsString) : Node → List JsString
  | .file _ => [join [slash] path]
  | .directory entries =>
      enumerateFiles path entries ++ enumerateDirectories path entries

def enumerateFiles (path : List JsString) : List (Bytes × Node) → List JsString
  | [] => []
  | (name, .file _) :: entries =>
      join [slash] (path ++ [utf8Decode name]) :: enumerateFiles path entries
  | (_, .directory _) :: entries => enumerateFiles path entries

def enumerateDirectories (path : List JsString) : List (Bytes × Node) → List JsString
  | [] => []
  | (_, .file _) :: entries => enumerateDirectories path entries
  | (name, .directory children) :: entries =>
      enumerateDirectories path entries ++
        enumerateNode (path ++ [utf8Decode name]) (.directory children)

end

/-! ## Artifacts -/

def isAuxiliaryRunFile (reference : JsString) : Bool :=
  reference == sealArtifactFilename || reference == provenanceArtifactFilename ||
    reference == regionAttestationReportFilename || endsWith reference (js ".md") ||
    endsWith reference (js ".log") || endsWith reference (js ".txt") ||
    reference == js "policy-report.json" || (js "checkpoints/").isPrefixOf reference ||
    (js "repro/").isPrefixOf reference

structure ArtifactOutcome where
  report : SealArtifactReport
  leaf : Option SealLeaf
  failure : Option SealVerifyFailure

section

variable (sha256 : Bytes → JsString) (hmacSha256 : Bytes → Bytes → JsString)
  (localeCompare : JsString → JsString → ℤ) (disk : Disk)

def verifyArtifact (runDir : JsString) (ref : SealReference) : Except FsError ArtifactOutcome :=
  if !isSafeRelativeArtifactPath disk runDir ref.reference then
    .ok {
      report := ⟨.tampered, ref.reference, none, none,
        some (js "Seal references an artifact path that escapes the run directory.")⟩
      leaf := none
      failure := some ⟨.artifactTampered, ref.reference, js "Seal references unsafe artifact path '" ++
        ref.reference ++ js "'; refusing to read outside the bundle."⟩ }
  else do
    match ← readBytes disk (joinPaths [runDir, ref.reference]) with
    | none =>
        return {
          report := ⟨.missing, ref.reference, none, none, none⟩
          leaf := none
          failure := some ⟨.artifactMissing, ref.reference, js "Bundle is missing artifact '" ++
            ref.reference ++ js "' referenced by the seal."⟩ }
    | some bytes =>
        let observed := sha256 bytes
        match ref.expectedSha256.filter fun expected ↦
            isHexOfLength 64 expected && expected != observed with
        | some expected =>
            return {
              report := ⟨.tampered, ref.reference, some expected, some observed,
                some (js "Recomputed SHA-256 does not match the seal manifest entry.")⟩
              leaf := some ⟨ref.reference, observed⟩
              failure := some ⟨.artifactTampered, ref.reference, js "Artifact '" ++ ref.reference ++
                js "' SHA-256 " ++ observed ++ js " does not match the seal value " ++ expected ++
                js "."⟩ }
        | none =>
            return {
              report := ⟨.ok, ref.reference, ref.expectedSha256, some observed, none⟩
              leaf := some ⟨ref.reference, observed⟩
              failure := none }

def verifyArtifacts (runDir : JsString) (evidenceSeal : ProductionRunnerEvidenceSeal) :
    Except FsError (List ArtifactOutcome) :=
  (collectSealReferences evidenceSeal).mapM (verifyArtifact sha256 disk runDir)

def extraReport (runDir reference : JsString) : Except FsError SealArtifactReport := do
  let bytes ← readBytes disk (joinPaths [runDir, reference])
  return ⟨.extra, reference, none, bytes.map sha256,
    some (js "Bundle file not referenced by the seal manifest.")⟩

def detectExtras (runDir : JsString) (knownReferences : List JsString) :
    Except FsError (List SealArtifactReport) := do
  let entries ← match disk.readDirectory runDir with
    | .ok entries => .ok entries
    | .error .enoent => .ok []
    | .error error => .error error
  let all := sortBy localeCompare (enumerateNode [] (.directory entries))
  (all.filter fun reference ↦ !knownReferences.contains reference &&
    !isAuxiliaryRunFile reference).mapM (extraReport sha256 disk runDir)

/-! ## Cross-checks -/

def resolveSealReferencedPath (runDir reference : JsString) : Option JsString :=
  if isSafeRelativeArtifactPath disk runDir reference then some (joinPaths [runDir, reference])
  else none

def computePerSourceCostBreakdownHashFromReport (report : List (JsString × Json)) : JsString :=
  sha256Text sha256 (canonicalJson (.obj (presentMembers [
    (js "schemaVersion", some (.str (js "1.0.0"))),
    (js "jobId", mapGet report (js "jobId")),
    (js "bySource", mapGet report (js "bySource")),
    (js "total", mapGet report (js "bySourceTotal")),
    (js "sealedAt", mapGet report (js "bySourceSealedAt"))])))

def verifyFinopsBySourceHash (runDir : JsString) (evidenceSeal : ProductionRunnerEvidenceSeal) :
    Except FsError SealVerifyCrossCheck :=
  let filename := evidenceSeal.finopsArtifactFilename
  match resolveSealReferencedPath disk runDir filename with
  | none => .ok ⟨.finopsBySourceHash, false, js "Seal references unsafe FinOps path '" ++ filename ++
      js "'; refusing to read outside the bundle."⟩
  | some path => do
      match ← readBytes disk path with
      | none => return ⟨.finopsBySourceHash, false,
          js "FinOps artifact '" ++ filename ++ js "' not found."⟩
      | some bytes =>
          match parseJson bytes with
          | none => return ⟨.finopsBySourceHash, false,
              js "FinOps artifact '" ++ filename ++ js "' is not valid JSON."⟩
          | some (.obj report) =>
              let recomputed := computePerSourceCostBreakdownHashFromReport sha256 report
              let matched := recomputed == evidenceSeal.bySourceHash
              return ⟨.finopsBySourceHash, matched, js "FinOps bySource hash " ++ recomputed ++
                if matched then js " matches."
                else js " does not match seal value " ++ evidenceSeal.bySourceHash ++ js "."⟩
          | some _ => return ⟨.finopsBySourceHash, false,
              js "FinOps artifact is not a JSON object."⟩

def verifyGenealogyDagHash (runDir : JsString) (evidenceSeal : ProductionRunnerEvidenceSeal) :
    Except FsError SealVerifyCrossCheck :=
  match resolveSealReferencedPath disk runDir genealogyArtifactFilename with
  | none => .ok ⟨.genealogyDagHash, false, js "Seal references unsafe genealogy path '" ++
      genealogyArtifactFilename ++ js "'; refusing to read outside the bundle."⟩
  | some path => do
      match ← readBytes disk path with
      | none => return ⟨.genealogyDagHash, false,
          js "Genealogy artifact '" ++ genealogyArtifactFilename ++ js "' not found."⟩
      | some bytes =>
          let observed := sha256 bytes
          let matched := observed == evidenceSeal.genealogyDagHash
          return ⟨.genealogyDagHash, matched, js "Genealogy DAG hash " ++ observed ++
            if matched then js " matches."
            else js " does not match seal value " ++ evidenceSeal.genealogyDagHash ++ js "."⟩

/-- The first node of the graph that disagrees with the seal: its path, its hash and that
of the seal. -/
def provenanceDisagreement (sealRefs : List (JsString × Option JsString)) (node : Json) :
    Option (JsString × JsString × JsString) := do
  let members ← recordOf node
  let artifactPath ← textField members "ti:artifactPath"
  let expectedSha ← textField members "ti:sha256"
  let sealHash ← (← mapGet sealRefs artifactPath)
  if sealHash ≠ expectedSha then some (artifactPath, expectedSha, sealHash) else none

def verifyProvenanceCrossLink (runDir : JsString) (evidenceSeal : ProductionRunnerEvidenceSeal) :
    Except FsError (Option SealVerifyCrossCheck) := do
  let path := joinPaths [runDir, provenanceArtifactFilename]
  if !(← safeStat disk path) then return none
  match ← readBytes disk path with
  | none => return none
  | some bytes =>
      match parseJson bytes with
      | none => return some ⟨.provenanceGraph, false,
          js "provenance.jsonld present but not valid JSON."⟩
      | some document =>
          match (recordOf document).bind fun members ↦ arrayField members "@graph" with
          | none => return some ⟨.provenanceGraph, false,
              js "provenance.jsonld @graph is missing or not an array."⟩
          | some graph =>
              let sealRefs := (collectSealReferences evidenceSeal).map fun ref ↦
                (ref.reference, ref.expectedSha256)
              match graph.findSome? (provenanceDisagreement sealRefs) with
              | some (artifactPath, expectedSha, sealHash) =>
                  return some ⟨.provenanceGraph, false, js "Provenance graph hash " ++ expectedSha ++
                    js " for '" ++ artifactPath ++ js "' disagrees with seal hash " ++ sealHash ++
                    js "."⟩
              | none => return some ⟨.provenanceGraph, true,
                  js "Provenance graph cross-links resolve consistently with the seal."⟩

def visualSortKey (value : EvidenceVisualHash) : JsString :=
  value.screenId ++ js "|" ++ value.modelDeployment ++ js "|" ++ value.evidenceHash

def compareVisualHashSets (expected actual : List EvidenceVisualHash) : Bool :=
  expected.length == actual.length &&
    sortBy localeCompare (expected.map visualSortKey) ==
      sortBy localeCompare (actual.map visualSortKey)

def visualSidecarCheck (evidenceSeal : ProductionRunnerEvidenceSeal) (bytes : Bytes) :
    SealVerifyCrossCheck :=
  match parseJson bytes with
  | none => ⟨.visualSidecarEvidence, false, js "visual-sidecar-result.json is not valid JSON."⟩
  | some (.obj members) =>
      match mapGet members (js "visualEvidenceRefs") with
      | none => visualRefsCheck []
      | some (.arr refs) => visualRefsCheck refs
      | some _ => ⟨.visualSidecarEvidence, false,
          js "visual-sidecar-result.json visualEvidenceRefs is present but is not an array."⟩
  | some _ => ⟨.visualSidecarEvidence, false,
      js "visual-sidecar-result.json is not a JSON object."⟩
where
  visualRefsCheck (refs : List Json) : SealVerifyCrossCheck :=
    match refs.mapM parseVisualEvidenceHash with
    | none => ⟨.visualSidecarEvidence, false,
        js "visual-sidecar-result.json contains a visualEvidenceRefs entry with an invalid shape."⟩
    | some observed =>
        if compareVisualHashSets localeCompare evidenceSeal.visualEvidenceHashes observed then
          ⟨.visualSidecarEvidence, true,
            js "Visual sidecar evidence refs match the seal's visualEvidenceHashes."⟩
        else ⟨.visualSidecarEvidence, false,
          js "Visual sidecar evidence refs disagree with the seal's visualEvidenceHashes."⟩

def verifyVisualSidecarCrossLink (runDir : JsString)
    (evidenceSeal : ProductionRunnerEvidenceSeal) :
    Except FsError (Option SealVerifyCrossCheck) := do
  if evidenceSeal.visualEvidenceHashes.length = 0 then return none
  let sidecarPath := joinPaths [runDir, visualSidecarResultFilename]
  if !(← safeStat disk sidecarPath) then
    return some ⟨.visualSidecarEvidence, false,
      js "Seal references visual evidence hashes but visual-sidecar-result.json is missing."⟩
  match ← readBytes disk sidecarPath with
  | none => return some ⟨.visualSidecarEvidence, false,
      js "visual-sidecar-result.json is unreadable."⟩
  | some bytes => return some (visualSidecarCheck localeCompare evidenceSeal bytes)

/-- The deployments that the attestations of a report name. -/
def attestedDeployments (report : List (JsString × Json)) : List JsString :=
  ((arrayField report "attestations").getD []).flatMap fun entry ↦
    ((recordOf entry).elim [] fun members ↦
      (arrayField members "regionAttestations").getD []).filterMap fun attestation ↦
        (recordOf attestation).bind fun members ↦ textField members "deploymentId"

def regionAttestationCheck (report : List (JsString × Json)) (finopsBytes : Bytes) :
    SealVerifyCrossCheck :=
  match parseJson finopsBytes with
  | none => ⟨.regionAttestations, false, js "FinOps deployment record is not valid JSON."⟩
  | some finops =>
      match (recordOf finops).bind fun members ↦ arrayField members "bySource" with
      | none => ⟨.regionAttestations, true,
          js "Region attestations present; FinOps record has no bySource list to cross-check."⟩
      | some bySource =>
          let deploymentIds := setOf (bySource.filterMap fun entry ↦
            (recordOf entry).bind fun members ↦ textField members "deploymentId")
          match (attestedDeployments report).find? fun deploymentId ↦
              !deploymentIds.isEmpty && !deploymentIds.contains deploymentId with
          | some deploymentId => ⟨.regionAttestations, false,
              js "Region attestation references deploymentId '" ++ deploymentId ++
                js "' that is absent from the FinOps bySource record."⟩
          | none => ⟨.regionAttestations, true, js "Region attestations are internally " ++
              js "consistent with the FinOps deployment record."⟩

def verifyRegionAttestationCrossLink (runDir : JsString)
    (evidenceSeal : ProductionRunnerEvidenceSeal) :
    Except FsError (Option SealVerifyCrossCheck) := do
  let reportPath := joinPaths [runDir, regionAttestationReportFilename]
  if !(← safeStat disk reportPath) then return none
  match ← readBytes disk reportPath with
  | none => return none
  | some reportBytes =>
      match parseJson reportBytes with
      | none => return some ⟨.regionAttestations, false,
          js "region-attestations.json present but not valid JSON."⟩
      | some (.obj report) =>
          let filename := evidenceSeal.finopsArtifactFilename
          match resolveSealReferencedPath disk runDir filename with
          | none => return some ⟨.regionAttestations, false,
              js "Seal references unsafe FinOps path '" ++ filename ++
                js "'; refusing to cross-check region attestations."⟩
          | some finopsAbs =>
              match ← readBytes disk finopsAbs with
              | none => return some ⟨.regionAttestations, false,
                  js "Region attestations present but FinOps deployment record is missing."⟩
              | some finopsBytes => return some (regionAttestationCheck report finopsBytes)
      | some _ => return some ⟨.regionAttestations, false,
          js "region-attestations.json is not a JSON object."⟩

/-! ## The bundle -/

/-- `Buffer.from(text, "hex")`: the pairs of digits before the first that is none. -/
def fromHex : JsString → Bytes
  | high :: low :: rest =>
      match hexValue high, hexValue low with
      | some h, some l => .ofNat (16 * h + l) :: fromHex rest
      | _, _ => []
  | _ => []

def defaultKey : Bytes := fromHex (sha256Text sha256 (js "test-intelligence:seal-verify:v1"))

def hmacFailure (expectedHmacHex : Option JsString) (manifestHmac : JsString) :
    Option SealVerifyFailure :=
  (expectedHmacHex.filter fun expected ↦
    isHexOfLength 64 expected && fromHex expected != fromHex manifestHmac).map fun expected ↦
      ⟨.hmacMismatch, sealArtifactFilename, js "HMAC " ++ manifestHmac ++
        js " does not match expected " ++ expected ++ js "."⟩

def merkleFailure (expectedMerkleRootHex : Option JsString) (merkleRoot : JsString) :
    Option SealVerifyFailure :=
  (expectedMerkleRootHex.filter fun expected ↦
    isHexOfLength 64 expected && expected != merkleRoot).map fun expected ↦
      ⟨.merkleRootMismatch, sealArtifactFilename, js "Merkle root " ++ merkleRoot ++
        js " does not match expected " ++ expected ++ js "."⟩

def crossCheckFailure (code : SealVerifyFailureCode) (reference : JsString)
    (check : Option SealVerifyCrossCheck) : List SealVerifyFailure :=
  match check with
  | some check => if check.ok then [] else [⟨code, reference, check.detail⟩]
  | none => []

/-- The order of the artifact reports. -/
def compareReports (left right : SealArtifactReport) : ℤ :=
  if left.status ≠ right.status then localeCompare left.status.text right.status.text
  else localeCompare left.reference right.reference

def unsealed (bundlePath sealPath : JsString) (failure : SealVerifyFailure) :
    SealVerificationReport :=
  ⟨false, bundlePath, sealPath, none, [], [], [failure]⟩

/-- The report on a seal that was read from `sealPath`. -/
def verifySeal (input : VerifySealBundleInput) (sealPath : JsString)
    (evidenceSeal : ProductionRunnerEvidenceSeal) : Except FsError SealVerificationReport := do
  let runDir := dirname sealPath
  let outcomes ← verifyArtifacts sha256 disk runDir evidenceSeal
  let reports := outcomes.map (·.report)
  let extras ← detectExtras sha256 localeCompare disk runDir (reports.map (·.reference))
  let merkleRoot := computeMerkleRoot sha256
    (buildLeaves localeCompare (outcomes.filterMap (·.leaf)))
  let key := input.key.getD (defaultKey sha256)
  let manifestHmac := hmacSha256 key (utf8Encode (canonicalSeal evidenceSeal))
  let finopsCheck ← verifyFinopsBySourceHash sha256 disk runDir evidenceSeal
  let genealogyCheck ← verifyGenealogyDagHash sha256 disk runDir evidenceSeal
  let visual ← verifyVisualSidecarCrossLink localeCompare disk runDir evidenceSeal
  let provenance ← verifyProvenanceCrossLink disk runDir evidenceSeal
  let region ← verifyRegionAttestationCrossLink disk runDir evidenceSeal
  let failures := outcomes.filterMap (·.failure) ++
    (hmacFailure input.expectedHmacHex manifestHmac).toList ++
    (merkleFailure input.expectedMerkleRootHex merkleRoot).toList ++
    crossCheckFailure .artifactTampered evidenceSeal.finopsArtifactFilename (some finopsCheck) ++
    crossCheckFailure .artifactTampered genealogyArtifactFilename (some genealogyCheck) ++
    crossCheckFailure .artifactTampered visualSidecarResultFilename visual ++
    crossCheckFailure .provenanceMismatch provenanceArtifactFilename provenance ++
    crossCheckFailure .regionAttestationMismatch regionAttestationReportFilename region
  return {
    ok := failures.isEmpty
    bundlePath := input.bundleDir
    sealPath
    digests := some {
      jobId := evidenceSeal.jobId
      generatedAt := evidenceSeal.generatedAt
      merkleRoot
      manifestSha256 := sha256Text sha256 (canonicalSeal evidenceSeal)
      manifestHmacSha256 := manifestHmac
      hmacKeyFingerprint := (sha256 key).take 16 }
    artifacts := sortBy (compareReports localeCompare) (reports ++ extras)
    crossChecks := [finopsCheck, genealogyCheck] ++ visual.toList ++ provenance.toList ++
      region.toList
    failures }

def verifySealBundle (input : VerifySealBundleInput) : Except FsError SealVerificationReport := do
  let bundlePath := input.bundleDir
  if !(← safeStat disk bundlePath) then
    return unsealed bundlePath [] ⟨.bundleMissing, bundlePath,
      js "Bundle path '" ++ bundlePath ++ js "' does not exist."⟩
  match ← findSealPath disk bundlePath with
  | none => return unsealed bundlePath [] ⟨.sealMissing, sealArtifactFilename,
      js "Bundle does not contain " ++ sealArtifactFilename ++ js "."⟩
  | some sealPath =>
      match ← readBytes disk sealPath with
      | none => return unsealed bundlePath sealPath ⟨.sealMissing, sealPath,
          js "Bundle seal file disappeared during read."⟩
      | some sealBytes =>
          match (parseJson sealBytes).bind (parseSeal localeCompare) with
          | none => return unsealed bundlePath sealPath ⟨.sealUnparseable, sealPath,
              js "Seal JSON is malformed or schema-incompatible."⟩
          | some evidenceSeal =>
              verifySeal sha256 hmacSha256 localeCompare disk input sealPath evidenceSeal

end

end TestIntelligence.ProductionRunner.Seal
