import TestIntelligence.Js.Patterns
import TestIntelligence.Js.Sorting
import TestIntelligence.Security.ContentHash

/-!
# The evidence seal

The parsed form of `production-runner-evidence-seal.json` and the files it refers to.
-/

namespace TestIntelligence.ProductionRunner.Seal

open Js Security

def sealSchemaVersion : JsString := js "1.0.0"

def sealArtifactFilename : JsString := js "production-runner-evidence-seal.json"

def genealogyArtifactFilename : JsString := js "genealogy.json"

/-- An entry keeps the keys that are not read here. -/
structure EvidenceVisualHash where
  screenId : JsString
  modelDeployment : JsString
  evidenceHash : JsString
  entry : Json

structure EvidenceCustomMarkdownHash where
  sourceId : JsString
  markdownContentHash : JsString
  plainContentHash : JsString

structure ProductionRunnerEvidenceSeal where
  jobId : JsString
  generatedAt : JsString
  harnessArtifactFilenames : List JsString
  headOfChainHash : JsString
  chainLength : JsNumber
  finopsArtifactFilename : JsString
  bySourceHash : JsString
  genealogyDagHash : JsString
  visualEvidenceHashes : List EvidenceVisualHash
  customContextMarkdownHashes : Option (List EvidenceCustomMarkdownHash)

/-! ## Reading values -/

/-- `isRecord(value)`, with the members of the record. -/
def recordOf : Json → Option (List (JsString × Json))
  | .obj members => some members
  | _ => none

def textField (members : List (JsString × Json)) (key : String) : Option JsString :=
  match mapGet members (js key) with
  | some (.str s) => some s
  | _ => none

def arrayField (members : List (JsString × Json)) (key : String) : Option (List Json) :=
  match mapGet members (js key) with
  | some (.arr items) => some items
  | _ => none

/-- A string field that passes `HEX64.test`. -/
def hashField (members : List (JsString × Json)) (key : String) : Option JsString :=
  (textField members key).filter (isHexOfLength 64)

def parseVisualEvidenceHash (entry : Json) : Option EvidenceVisualHash := do
  let members ← recordOf entry
  return {
    screenId := ← textField members "screenId"
    modelDeployment := ← textField members "modelDeployment"
    evidenceHash := ← hashField members "evidenceHash"
    entry }

def parseCustomMarkdownHash (entry : Json) : Option EvidenceCustomMarkdownHash := do
  let members ← recordOf entry
  return {
    sourceId := ← textField members "sourceId"
    markdownContentHash := ← hashField members "markdownContentHash"
    plainContentHash := ← hashField members "plainContentHash" }

def parseText : Json → Option JsString
  | .str s => some s
  | _ => none

def parseChainLength (members : List (JsString × Json)) : Option JsNumber :=
  match mapGet members (js "chainLength") with
  | some (.num x) => if x.isInteger && !x.lt 0 then some x else none
  | _ => none

/-- Nothing, where the field is absent; `none`, where it is malformed. -/
def parseCustomMarkdownHashes (members : List (JsString × Json)) :
    Option (Option (List EvidenceCustomMarkdownHash)) :=
  match mapGet members (js "customContextMarkdownHashes") with
  | none => some none
  | some (.arr entries) => some <$> entries.mapM parseCustomMarkdownHash
  | some _ => none

section

variable (localeCompare : JsString → JsString → ℤ)

/-- The first comparison that is not zero. -/
def compareInTurn : List (JsString × JsString) → ℤ
  | [] => 0
  | (left, right) :: rest =>
      if localeCompare left right ≠ 0 then localeCompare left right else compareInTurn rest

def uniqueSortedStrings (values : List JsString) : List JsString :=
  sortBy localeCompare (setOf values)

def sortVisualEvidenceHashes (values : List EvidenceVisualHash) : List EvidenceVisualHash :=
  sortBy (fun left right ↦ compareInTurn localeCompare [(left.screenId, right.screenId),
    (left.modelDeployment, right.modelDeployment), (left.evidenceHash, right.evidenceHash)]) values

def sortCustomContextMarkdownHashes (values : List EvidenceCustomMarkdownHash) :
    List EvidenceCustomMarkdownHash :=
  sortBy (fun left right ↦ compareInTurn localeCompare [(left.sourceId, right.sourceId),
    (left.markdownContentHash, right.markdownContentHash),
    (left.plainContentHash, right.plainContentHash)]) values

def parseSeal (raw : Json) : Option ProductionRunnerEvidenceSeal := do
  let members ← recordOf raw
  let harnessArtifactFilenames ← (← arrayField members "harnessArtifactFilenames").mapM parseText
  let visualEvidenceHashes ←
    (← arrayField members "visualEvidenceHashes").mapM parseVisualEvidenceHash
  guard (textField members "schemaVersion" = some sealSchemaVersion)
  guard (textField members "genealogyArtifactFilename" = some genealogyArtifactFilename)
  let customContextMarkdownHashes ← parseCustomMarkdownHashes members
  return {
    jobId := ← textField members "jobId"
    generatedAt := ← textField members "generatedAt"
    harnessArtifactFilenames := uniqueSortedStrings localeCompare harnessArtifactFilenames
    headOfChainHash := ← hashField members "headOfChainHash"
    chainLength := ← parseChainLength members
    finopsArtifactFilename := ← textField members "finopsArtifactFilename"
    bySourceHash := ← hashField members "bySourceHash"
    genealogyDagHash := ← hashField members "genealogyDagHash"
    visualEvidenceHashes := sortVisualEvidenceHashes localeCompare visualEvidenceHashes
    customContextMarkdownHashes := customContextMarkdownHashes.map
      (sortCustomContextMarkdownHashes localeCompare) }

end

/-! ## The seal as a value -/

def EvidenceCustomMarkdownHash.toJson (value : EvidenceCustomMarkdownHash) : Json :=
  .obj [(js "sourceId", .str value.sourceId),
    (js "markdownContentHash", .str value.markdownContentHash),
    (js "plainContentHash", .str value.plainContentHash)]

def ProductionRunnerEvidenceSeal.toJson (evidenceSeal : ProductionRunnerEvidenceSeal) : Json :=
  .obj (presentMembers [
    (js "schemaVersion", some (.str sealSchemaVersion)),
    (js "jobId", some (.str evidenceSeal.jobId)),
    (js "generatedAt", some (.str evidenceSeal.generatedAt)),
    (js "harnessArtifactFilenames", some (.arr (evidenceSeal.harnessArtifactFilenames.map .str))),
    (js "headOfChainHash", some (.str evidenceSeal.headOfChainHash)),
    (js "chainLength", some (.num evidenceSeal.chainLength)),
    (js "finopsArtifactFilename", some (.str evidenceSeal.finopsArtifactFilename)),
    (js "bySourceHash", some (.str evidenceSeal.bySourceHash)),
    (js "genealogyArtifactFilename", some (.str genealogyArtifactFilename)),
    (js "genealogyDagHash", some (.str evidenceSeal.genealogyDagHash)),
    (js "visualEvidenceHashes", some (.arr (evidenceSeal.visualEvidenceHashes.map (·.entry)))),
    (js "customContextMarkdownHashes",
      evidenceSeal.customContextMarkdownHashes.map fun values ↦
        .arr (values.map EvidenceCustomMarkdownHash.toJson))])

def canonicalSeal (evidenceSeal : ProductionRunnerEvidenceSeal) : JsString :=
  canonicalJson evidenceSeal.toJson

/-! ## References -/

structure SealReference where
  reference : JsString
  expectedSha256 : Option JsString

def visualSidecarResultFilename : JsString := js "visual-sidecar-result.json"

/-- The references in the order of the source, with repetitions. -/
def sealReferences (evidenceSeal : ProductionRunnerEvidenceSeal) : List SealReference :=
  evidenceSeal.harnessArtifactFilenames.map (⟨·, none⟩) ++
    [⟨evidenceSeal.finopsArtifactFilename, none⟩,
      ⟨genealogyArtifactFilename, some evidenceSeal.genealogyDagHash⟩] ++
    if evidenceSeal.visualEvidenceHashes.length > 0 then [⟨visualSidecarResultFilename, none⟩]
    else []

/-- The names that were seen and the references that were kept. -/
def keepReference (state : List JsString × List SealReference) (ref : SealReference) :
    List JsString × List SealReference :=
  if ref.reference ∈ state.1 then state
  else (setAdd state.1 ref.reference, state.2 ++ [ref])

/-- The first reference to each file. -/
def dedupReferences (refs : List SealReference) : List SealReference :=
  (refs.foldl keepReference ([], [])).2

def collectSealReferences (evidenceSeal : ProductionRunnerEvidenceSeal) : List SealReference :=
  dedupReferences (sealReferences evidenceSeal)

end TestIntelligence.ProductionRunner.Seal
