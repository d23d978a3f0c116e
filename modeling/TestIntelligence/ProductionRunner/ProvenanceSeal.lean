import TestIntelligence.Js.JsonText
import TestIntelligence.Js.Outcome
import TestIntelligence.ProductionRunner.SealExpectations
import TestIntelligence.Security.Records

/-!
# The provenance graph of a run directory

The Merkle root of a provenance graph is recomputed from the file, and the artifacts that
its nodes attest are hashed again.  The root determines which nodes are listed.
-/

namespace TestIntelligence.ProductionRunner.Provenance

open Js Security Files Trees Seal

abbrev ProvenanceNode := List (JsString × Json)

structure ProvenanceMerkleSeal where
  algorithm : JsString
  root : JsString
  leafCount : ℕ

def leafHashKey : JsString := js "ti:leafHash"

/-- What is hashed of a node. -/
def leafText (node : ProvenanceNode) : JsString := canonicalJson (.obj (mapDelete node leafHashKey))

section

variable (sha256 : Bytes → JsString) (localeCompare : JsString → JsString → ℤ)

def computeMerkleRoot (hashes : List JsString) : ProvenanceMerkleSeal :=
  let sorted := sortBy localeCompare hashes
  { algorithm := js "sha256_merkle_v1"
    root := (root (pairDigest sha256) sorted).getD (sha256Text sha256 [])
    leafCount := sorted.length }

def leafHash (node : ProvenanceNode) : JsString := sha256Text sha256 (leafText node)

def computeProvenanceMerkleSeal (nodes : List ProvenanceNode) : ProvenanceMerkleSeal :=
  computeMerkleRoot sha256 localeCompare (nodes.map (leafHash sha256))

end

/-! ## Verification -/

inductive ProvenanceVerificationFailureCode
  | provenanceMissing
  | provenanceUnparseable
  | provenanceContextInvalid
  | artifactPathInvalid
  | artifactMissing
  | artifactHashMismatch
  | merkleRootMismatch
  | policyReportMissing
  | policyReportUnparseable
  | policyReportMerkleMismatch

structure ProvenanceVerificationFailure where
  code : ProvenanceVerificationFailureCode
  reference : JsString
  message : JsString

structure ProvenanceVerificationResult where
  ok : Bool
  runDir : JsString
  merkleRoot : Option JsString
  leafCount : Option ℕ
  failures : List ProvenanceVerificationFailure

def provJsonldContextUrl : JsString := js "https://www.w3.org/ns/prov.jsonld"

def policyReportFilename : JsString := js "policy-report.json"

def isSafeRelativeArtifactPath (artifactPath : JsString) : Bool :=
  let normalized := (normalize artifactPath).map fun u ↦ if u = 0x5C then slash else u
  trim artifactPath ≠ [] && !isAbsolute artifactPath && normalized ≠ [] &&
    !(dotDot ++ [slash]).isPrefixOf normalized && normalized ≠ dotDot

inductive JsonFile
  | value (value : Json)
  | missing
  | unparseable

def contextFailure (document : List (JsString × Json)) : List ProvenanceVerificationFailure :=
  if ((arrayField document "@context").getD []).any fun
      | .str entry => entry == provJsonldContextUrl
      | _ => false then []
  else [⟨.provenanceContextInvalid, provenanceArtifactFilename,
    js "Provenance graph must include the official PROV-O JSON-LD context URL."⟩]

/-- The nodes of `@graph`; what is not an object is passed over. -/
def graphOf (document : List (JsString × Json)) : List ProvenanceNode :=
  ((arrayField document "@graph").getD []).filterMap recordOf

def merkleFailure (document : List (JsString × Json)) (observedRoot : JsString) :
    List ProvenanceVerificationFailure :=
  let expectedSeal := (mapGet document (js "ti:merkleSeal")).bind recordOf
  if (expectedSeal.bind fun members ↦ textField members "root") = some observedRoot then []
  else [⟨.merkleRootMismatch, provenanceArtifactFilename,
    js "Merkle root does not match the canonical provenance graph."⟩]

def policyFailure (policyJson : JsonFile) (observedRoot : JsString) :
    List ProvenanceVerificationFailure :=
  match policyJson with
  | .value (.obj policy) =>
      let summary := (mapGet policy (js "provenance")).bind recordOf
      if (summary.bind fun members ↦ textField members "merkleRoot") = some observedRoot then []
      else [⟨.policyReportMerkleMismatch, policyReportFilename,
        js "Policy report provenance summary does not match the recomputed Merkle root."⟩]
  | .missing => [⟨.policyReportMissing, policyReportFilename, js "Policy report is missing."⟩]
  | _ => [⟨.policyReportUnparseable, policyReportFilename, js "Policy report is malformed."⟩]

section

variable (sha256 : Bytes → JsString) (localeCompare : JsString → JsString → ℤ) (disk : Disk)

def readJson (path : JsString) : Except FsError JsonFile := do
  match ← readBytes disk path with
  | none => return .missing
  | some bytes => return (parseJson bytes).elim .unparseable .value

def artifactFailure (runDir : JsString) (node : ProvenanceNode) :
    Except FsError (Option ProvenanceVerificationFailure) :=
  match textField node "ti:artifactPath", textField node "ti:sha256" with
  | some artifactPath, some expectedSha =>
      if !isSafeRelativeArtifactPath artifactPath then
        .ok (some ⟨.artifactPathInvalid, artifactPath,
          js "Attested provenance artifact path must stay within the run directory."⟩)
      else do
        let diskPath := joinPaths [runDir, artifactPath]
        if !(← safeStat disk diskPath) then
          return some ⟨.artifactMissing, artifactPath,
            js "Attested provenance artifact '" ++ artifactPath ++ js "' is missing."⟩
        let bytes ← disk.readFile diskPath
        if sha256 bytes ≠ expectedSha then
          return some ⟨.artifactHashMismatch, artifactPath,
            js "Artifact '" ++ artifactPath ++ js "' hash does not match the provenance graph."⟩
        return none
  | _, _ => .ok none

def verifyProvenanceFromDisk (runDir : JsString) : Except FsError ProvenanceVerificationResult := do
  match ← readJson disk (joinPaths [runDir, provenanceArtifactFilename]) with
  | .value (.obj document) =>
      let graph := graphOf document
      let artifactFailures ← graph.mapM (artifactFailure sha256 disk runDir)
      let observedSeal := computeProvenanceMerkleSeal sha256 localeCompare graph
      let policyJson ← readJson disk (joinPaths [runDir, policyReportFilename])
      let failures := contextFailure document ++ artifactFailures.filterMap id ++
        merkleFailure document observedSeal.root ++ policyFailure policyJson observedSeal.root
      return ⟨failures.isEmpty, runDir, some observedSeal.root, some observedSeal.leafCount,
        failures⟩
  | .missing =>
      return ⟨false, runDir, none, none, [⟨.provenanceMissing, provenanceArtifactFilename,
        js "Provenance graph is missing."⟩]⟩
  | _ =>
      return ⟨false, runDir, none, none, [⟨.provenanceUnparseable, provenanceArtifactFilename,
        js "Provenance graph is malformed JSON-LD."⟩]⟩

end

/-! ## Leaves -/

section

variable {sha256 : Bytes → JsString} {node node' : ProvenanceNode}

theorem head_leafText (node : ProvenanceNode) : (leafText node).head? = some 0x7B := rfl

theorem isWellFormed_leafText (node : ProvenanceNode) : isWellFormed (leafText node) = true :=
  isWellFormed_stringify _

theorem head_colonText_of_hex {left right : JsString} (h : left.all isLowerHex = true) :
    (colonText left right).head? ≠ some 0x7B := by
  cases left with
  | nil => simp [colonText]
  | cons u left =>
      have hu := List.all_eq_true.mp h u List.mem_cons_self
      rintro hhead
      rw [Option.some.inj hhead] at hu
      exact absurd hu (by decide)

/-- The text of a node is no pair of digests. -/
theorem isLeaf_leafHash (hinj : Function.Injective sha256)
    (hhex : ∀ bytes, (sha256 bytes).all isLowerHex = true) (node : ProvenanceNode) :
    IsLeaf (pairDigest sha256) {d | d.all isLowerHex = true} (leafHash sha256 node) := by
  refine ⟨hhex _, fun a ha b hb heq ↦ ?_⟩
  have htext := sha256Text_inj hinj (isWellFormed_leafText node)
    (isWellFormed_colonText (isWellFormed_of_hex ha) hb) heq
  exact head_colonText_of_hex ha (htext ▸ head_leafText node)

theorem leafText_eq_of_leafHash_eq (hinj : Function.Injective sha256)
    (h : leafHash sha256 node = leafHash sha256 node') : leafText node = leafText node' :=
  sha256Text_inj hinj (isWellFormed_leafText node) (isWellFormed_leafText node') h

theorem ordered_mapDelete (h : (Json.obj node).Ordered) (key : JsString) :
    (Json.obj (mapDelete node key)).Ordered := by
  obtain ⟨⟨hnodup, hsorted⟩, hvalues⟩ := Json.ordered_obj.mp h
  have hsub : ((mapDelete node key).map Prod.fst).Sublist (node.map Prod.fst) :=
    List.filter_sublist.map _
  exact Json.ordered_obj.mpr ⟨⟨hnodup.sublist hsub, hsorted.sublist hsub⟩,
    fun p hp ↦ hvalues p (List.mem_of_mem_filter hp)⟩

theorem stored_eq_str_iff {v : Json} {s : JsString} : stored v = .str s ↔ v = .str s := by
  cases v with
  | num x =>
      rw [stored, Json.printed]
      split <;> simp [sortValue]
  | _ => simp [stored, Json.printed, sortValue]

/-- The text of a node determines its text fields. -/
theorem textField_of_leafText_eq (hnode : (Json.obj node).Ordered)
    (hnode' : (Json.obj node').Ordered) (h : leafText node = leafText node') {key : String}
    (hproto : js key ≠ protoKey) (hleaf : js key ≠ leafHashKey) :
    textField node key = textField node' key := by
  have hparse := parse_canonicalJson_stored (ordered_mapDelete hnode leafHashKey)
  rw [← leafText, h, leafText,
    parse_canonicalJson_stored (ordered_mapDelete hnode' leafHashKey)] at hparse
  have hmembers : storedMembers (mapDelete node' leafHashKey) =
      storedMembers (mapDelete node leafHashKey) := by simpa using hparse
  have hget := congrArg (mapGet · (js key)) hmembers
  simp only [mapGet_storedMembers (keys_mapDelete_nodup (Json.ordered_obj.mp hnode).1.1 _) hproto,
    mapGet_storedMembers (keys_mapDelete_nodup (Json.ordered_obj.mp hnode').1.1 _) hproto,
    mapGet_mapDelete, if_neg hleaf] at hget
  have htext : ∀ members : ProvenanceNode, ∀ s, textField members key = some s ↔
      (mapGet members (js key)).map stored = some (.str s) := by
    intro members s
    rw [textField]
    cases mapGet members (js key) with
    | none => simp
    | some v =>
        rw [Option.map_some, Option.some.injEq, stored_eq_str_iff]
        cases v <;> simp
  apply Option.ext
  intro s
  rw [htext, htext, hget]

end

/-! ## Seals -/

section

variable {sha256 : Bytes → JsString} {localeCompare localeCompare' : JsString → JsString → ℤ}
  {nodes nodes' : List ProvenanceNode}

def sortedLeaves (sha256 : Bytes → JsString) (localeCompare : JsString → JsString → ℤ)
    (nodes : List ProvenanceNode) : List JsString :=
  sortBy localeCompare (nodes.map (leafHash sha256))

theorem eq_of_getD_eq {α : Type*} {x y : Option α} {d : α} (hx : x ≠ some d) (hy : y ≠ some d)
    (h : x.getD d = y.getD d) : x = y := by
  cases x <;> cases y <;> simp_all

variable (hinj : Function.Injective sha256)
  (hhex : ∀ bytes, (sha256 bytes).all isLowerHex = true)

include hinj hhex

theorem isLeaf_of_mem_sortedLeaves :
    ∀ d ∈ sortedLeaves sha256 localeCompare nodes,
      IsLeaf (pairDigest sha256) {d | d.all isLowerHex = true} d := by
  intro d hd
  obtain ⟨node, -, rfl⟩ := List.mem_map.mp (mem_sortBy.mp hd)
  exact isLeaf_leafHash hinj hhex node

/-- The root of no node is that of no others. -/
theorem root_sortedLeaves_ne (nodes : List ProvenanceNode) :
    root (pairDigest sha256) (sortedLeaves sha256 localeCompare nodes) ≠
      some (sha256Text sha256 []) := by
  have hempty : ∀ text, isWellFormed text = true → text ≠ [] →
      sha256Text sha256 text ≠ sha256Text sha256 [] :=
    fun text hwf hne heq ↦ hne (sha256Text_inj hinj hwf rfl heq)
  have hcombine : ∀ d e, d.all isLowerHex = true ∧ d ≠ sha256Text sha256 [] →
      e.all isLowerHex = true ∧ e ≠ sha256Text sha256 [] →
      (pairDigest sha256 d e).all isLowerHex = true ∧ pairDigest sha256 d e ≠ sha256Text sha256 [] :=
    fun d e hd he ↦ ⟨hhex _, hempty _ (isWellFormed_colonText (isWellFormed_of_hex hd.1) he.1)
      (by simp [colonText])⟩
  have hleaves : ∀ d ∈ sortedLeaves sha256 localeCompare nodes,
      d.all isLowerHex = true ∧ d ≠ sha256Text sha256 [] := by
    intro d hd
    obtain ⟨node, -, rfl⟩ := List.mem_map.mp (mem_sortBy.mp hd)
    have hne : leafText node ≠ [] := fun hnil ↦ by simpa [hnil] using head_leafText node
    exact ⟨hhex _, hempty _ (isWellFormed_leafText node) hne⟩
  intro hroot
  by_cases hnil : sortedLeaves sha256 localeCompare nodes = []
  · rw [root_eq_none_iff.mpr hnil] at hroot
    cases hroot
  · obtain ⟨d, hd, -, hne⟩ := exists_root hcombine hleaves hnil
    exact hne (Option.some.inj (hd.symm.trans hroot))

theorem root_eq_of_seal_eq
    (h : (computeProvenanceMerkleSeal sha256 localeCompare nodes).root =
      (computeProvenanceMerkleSeal sha256 localeCompare' nodes').root) :
    root (pairDigest sha256) (sortedLeaves sha256 localeCompare nodes) =
      root (pairDigest sha256) (sortedLeaves sha256 localeCompare' nodes') :=
  eq_of_getD_eq (root_sortedLeaves_ne hinj hhex nodes) (root_sortedLeaves_ne hinj hhex nodes') h

/-- One root: every node of the one graph is listed in the other. -/
theorem mem_leafText_of_seal_eq
    (h : (computeProvenanceMerkleSeal sha256 localeCompare nodes).root =
      (computeProvenanceMerkleSeal sha256 localeCompare' nodes').root) {node : ProvenanceNode}
    (hnode : node ∈ nodes) : ∃ node' ∈ nodes', leafText node = leafText node' := by
  have hmem := mem_iff_of_root_eq (binding_pairDigest hinj hhex)
    (isLeaf_of_mem_sortedLeaves hinj hhex) (isLeaf_of_mem_sortedLeaves hinj hhex)
    (root_eq_of_seal_eq hinj hhex h) (leafHash sha256 node)
  rw [sortedLeaves, sortedLeaves, mem_sortBy, mem_sortBy] at hmem
  obtain ⟨node', hnode', heq⟩ := List.mem_map.mp (hmem.mp (List.mem_map_of_mem hnode))
  exact ⟨node', hnode', leafText_eq_of_leafHash_eq hinj heq.symm⟩

end

/-! ## Verified run directories -/

section

variable {sha256 : Bytes → JsString} {localeCompare localeCompare' : JsString → JsString → ℤ}
  {disk disk' : Disk} {runDir runDir' : JsString} {result result' : ProvenanceVerificationResult}

/-- The graph in the provenance file of a run directory. -/
def provenanceGraph (disk : Disk) (runDir : JsString) : Option (List ProvenanceNode) :=
  match readJson disk (joinPaths [runDir, provenanceArtifactFilename]) with
  | .ok (.value (.obj document)) => some (graphOf document)
  | _ => none

/-- A node of the graph attests the digest of the file at a path. -/
def Attests (graph : List ProvenanceNode) (artifactPath digest : JsString) : Prop :=
  ∃ node ∈ graph, textField node "ti:artifactPath" = some artifactPath ∧
    textField node "ti:sha256" = some digest

/-- What an accepting verification has found. -/
structure Verified (sha256 : Bytes → JsString) (localeCompare : JsString → JsString → ℤ)
    (disk : Disk) (runDir : JsString) (result : ProvenanceVerificationResult)
    (graph : List ProvenanceNode) : Prop where
  reads : provenanceGraph disk runDir = some graph
  ordered : ∀ node ∈ graph, (Json.obj node).Ordered
  root : result.merkleRoot = some (computeProvenanceMerkleSeal sha256 localeCompare graph).root
  files : ∀ artifactPath digest, Attests graph artifactPath digest →
    ∃ bytes, disk.readFile (joinPaths [runDir, artifactPath]) = .ok bytes ∧ sha256 bytes = digest

theorem ordered_of_readJson {path : JsString} {value : Json}
    (h : readJson disk path = .ok (.value value)) : value.Ordered := by
  obtain ⟨bytes, -, h⟩ := bind_eq_ok h
  cases bytes with
  | none => cases h
  | some bytes =>
      have h := Except.ok.inj h
      cases hparse : parseJson bytes with
      | none =>
          rw [hparse] at h
          cases h
      | some parsed =>
          rw [hparse] at h
          obtain rfl := JsonFile.value.inj h
          exact Json.ordered_of_parse hparse

theorem ordered_of_mem_graphOf {document : List (JsString × Json)}
    (h : (Json.obj document).Ordered) {node : ProvenanceNode} (hnode : node ∈ graphOf document) :
    (Json.obj node).Ordered := by
  obtain ⟨item, hitem, hrecord⟩ := List.mem_filterMap.mp hnode
  obtain ⟨-, hvalues⟩ := Json.ordered_obj.mp h
  unfold arrayField at hitem
  split at hitem
  · next items hget =>
      have hitems : ∀ v ∈ items, v.Ordered := Json.ordered_arr.mp (hvalues _ (mem_of_mapGet hget))
      cases item with
      | obj members =>
          obtain rfl := Option.some.inj hrecord
          exact hitems _ hitem
      | _ => cases hrecord
  · cases hitem

theorem readFile_of_artifactFailure {node : ProvenanceNode} {artifactPath digest : JsString}
    (h : artifactFailure sha256 disk runDir node = .ok none)
    (hpath : textField node "ti:artifactPath" = some artifactPath)
    (hdigest : textField node "ti:sha256" = some digest) :
    ∃ bytes, disk.readFile (joinPaths [runDir, artifactPath]) = .ok bytes ∧
      sha256 bytes = digest := by
  unfold artifactFailure at h
  simp only [hpath, hdigest] at h
  split at h
  · cases h
  · obtain ⟨found, -, h⟩ := bind_eq_ok h
    cases found with
    | false => cases h
    | true =>
        obtain ⟨bytes, hread, h⟩ := bind_eq_ok h
        refine ⟨bytes, hread, ?_⟩
        by_contra hne
        rw [if_pos hne] at h
        cases h

theorem exists_verified (h : verifyProvenanceFromDisk sha256 localeCompare disk runDir = .ok result)
    (hok : result.ok = true) : ∃ graph, Verified sha256 localeCompare disk runDir result graph := by
  unfold verifyProvenanceFromDisk at h
  obtain ⟨file, hfile, h⟩ := bind_eq_ok h
  split at h
  · next document =>
      obtain ⟨failures, hfailures, h⟩ := bind_eq_ok h
      obtain ⟨policyJson, -, h⟩ := bind_eq_ok h
      obtain rfl := Except.ok.inj h
      have hnone : failures.filterMap id = [] := by
        rw [List.isEmpty_iff] at hok
        simp only [List.append_eq_nil_iff] at hok
        exact hok.1.1.2
      refine ⟨graphOf document, ?_, fun node hnode ↦ ?_, rfl, ?_⟩
      · rw [provenanceGraph, hfile]
      · exact ordered_of_mem_graphOf (ordered_of_readJson hfile) hnode
      · rintro artifactPath digest ⟨node, hnode, hpath, hdigest⟩
        obtain ⟨failure, hfailure, hmem⟩ := exists_of_mapM_eq_ok hfailures hnode
        cases failure with
        | none => exact readFile_of_artifactFailure hmem hpath hdigest
        | some failure =>
            have hlisted : failure ∈ failures.filterMap id :=
              List.mem_filterMap.mpr ⟨some failure, hfailure, rfl⟩
            rw [hnone] at hlisted
            cases hlisted
  · obtain rfl := Except.ok.inj h
    cases hok
  · obtain rfl := Except.ok.inj h
    cases hok

theorem mem_leafTexts_of_nodes {graph graph' : List ProvenanceNode}
    (hnodes : ∀ node ∈ graph, ∃ node' ∈ graph', leafText node = leafText node') {text : JsString}
    (htext : text ∈ graph.map leafText) : text ∈ graph'.map leafText := by
  obtain ⟨node, hnode, rfl⟩ := List.mem_map.mp htext
  obtain ⟨node', hnode', heq⟩ := hnodes node hnode
  exact heq ▸ List.mem_map_of_mem hnode'

/-- Nodes with the same texts attest the same digests. -/
theorem attests_of_nodes {graph graph' : List ProvenanceNode}
    (h : ∀ node ∈ graph, (Json.obj node).Ordered) (h' : ∀ node ∈ graph', (Json.obj node).Ordered)
    (hnodes : ∀ node ∈ graph, ∃ node' ∈ graph', leafText node = leafText node')
    {artifactPath digest : JsString} (hattests : Attests graph artifactPath digest) :
    Attests graph' artifactPath digest := by
  obtain ⟨node, hnode, hpath, hdigest⟩ := hattests
  obtain ⟨node', hnode', heq⟩ := hnodes node hnode
  refine ⟨node', hnode', ?_, ?_⟩
  · rw [← textField_of_leafText_eq (h node hnode) (h' node' hnode') heq (by decide) (by decide)]
    exact hpath
  · rw [← textField_of_leafText_eq (h node hnode) (h' node' hnode') heq (by decide) (by decide)]
    exact hdigest

def sampleNode : ProvenanceNode :=
  [(js "@id", .str (js "urn:a")), (js "ti:artifactPath", .str (js "a.json")),
    (js "ti:sha256", .str emptyObjectDigest)]

def sampleRoot : JsString :=
  hexText 64 0xe720db9969c1d6948312c7ceb427bc3e788c2f20e4dafce7aaa7c31fb77ccbb2

def sampleDocument : Json :=
  .obj [(js "@context", .arr [.str provJsonldContextUrl]),
    (js "ti:merkleSeal", .obj [(js "root", .str sampleRoot)]),
    (js "@graph", .arr [.obj sampleNode])]

def samplePolicy : Json := .obj [(js "provenance", .obj [(js "merkleRoot", .str sampleRoot)])]

def sampleRun : Node := .directory [
  (utf8Encode provenanceArtifactFilename, .file (utf8Encode sampleDocument.stringify)),
  (utf8Encode policyReportFilename, .file (utf8Encode samplePolicy.stringify)),
  (utf8Encode (js "a.json"), .file emptyObject)]

def sampleDigests : List (Bytes × JsString) :=
  [(emptyObject, emptyObjectDigest), (utf8Encode (leafText sampleNode), sampleRoot)]

theorem isDigestTable_sampleDigests : IsDigestTable sampleDigests := by
  refine ⟨by decide, ?_⟩
  simp only [sampleDigests, List.forall_mem_cons]
  exact ⟨isHexOfLength_hexText _ _, isHexOfLength_hexText _ _, nofun⟩

theorem readJson_of_stringify {path : JsString} {value : Json}
    (hread : disk.readFile path = .ok (utf8Encode value.stringify)) (hordered : value.Ordered)
    (hplain : value.PlainNumbers) : readJson disk path = .ok (.value value) := by
  rw [readJson, readBytes, hread]
  change Except.ok ((parseJson _).elim _ _) = _
  rw [parseJson, utf8Decode_utf8Encode (isWellFormed_stringify _),
    Json.parse_stringify hordered hplain, Option.elim_some]

theorem sampleDocument_parses : sampleDocument.Ordered ∧ sampleDocument.PlainNumbers ∧
    samplePolicy.Ordered ∧ samplePolicy.PlainNumbers := by
  have hnode : (Json.obj sampleNode).Ordered :=
    Json.ordered_obj.mpr ⟨⟨by decide, by decide⟩, by simp [sampleNode]⟩
  have htext : ∀ s, (Json.str s).PlainNumbers := fun _ ↦ trivial
  refine ⟨?_, ?_, ?_, ?_⟩
  · refine Json.ordered_obj.mpr ⟨⟨by decide, by decide⟩, ?_⟩
    simp only [List.forall_mem_cons]
    exact ⟨by simp, Json.ordered_obj.mpr ⟨⟨by decide, by decide⟩, by simp⟩,
      by simpa using hnode, nofun⟩
  · simp [sampleDocument, sampleNode, htext]
  · refine Json.ordered_obj.mpr ⟨⟨by decide, by decide⟩, ?_⟩
    simp only [List.forall_mem_cons]
    exact ⟨Json.ordered_obj.mpr ⟨⟨by decide, by decide⟩, by simp⟩, nofun⟩
  · simp [samplePolicy, htext]

theorem verify_sampleRun (hdocument : disk.readFile
      (joinPaths [runDir, provenanceArtifactFilename]) = .ok (utf8Encode sampleDocument.stringify))
    (hpolicy : disk.readFile (joinPaths [runDir, policyReportFilename]) =
      .ok (utf8Encode samplePolicy.stringify))
    (hstat : safeStat disk (joinPaths [runDir, js "a.json"]) = .ok true)
    (hfile : disk.readFile (joinPaths [runDir, js "a.json"]) = .ok emptyObject) :
    verifyProvenanceFromDisk (tabledSha256 sampleDigests) codeUnitCompare disk runDir =
      .ok ⟨true, runDir, some sampleRoot, some 1, []⟩ := by
  obtain ⟨hordered, hplain, hordered', hplain'⟩ := sampleDocument_parses
  have hnode : artifactFailure (tabledSha256 sampleDigests) disk runDir sampleNode = .ok none := by
    have hdigest : tabledSha256 sampleDigests emptyObject = emptyObjectDigest := by
      decide +kernel
    have hpath : textField sampleNode "ti:artifactPath" = some (js "a.json") := by rfl
    have hsha : textField sampleNode "ti:sha256" = some emptyObjectDigest := by rfl
    have hsafe : isSafeRelativeArtifactPath (js "a.json") = true := by decide
    simp [artifactFailure, hpath, hsha, hsafe, hstat, hfile, hdigest]
  have hleaf : leafHash (tabledSha256 sampleDigests) sampleNode = sampleRoot := by
    decide +kernel
  have hseal : computeProvenanceMerkleSeal (tabledSha256 sampleDigests) codeUnitCompare
      [sampleNode] = ⟨js "sha256_merkle_v1", sampleRoot, 1⟩ := by
    simp [computeProvenanceMerkleSeal, computeMerkleRoot, sortBy, hleaf, Trees.root]
  have hgraph : graphOf [(js "@context", .arr [.str provJsonldContextUrl]),
      (js "ti:merkleSeal", .obj [(js "root", .str sampleRoot)]),
      (js "@graph", .arr [.obj sampleNode])] = [sampleNode] := by rfl
  rw [verifyProvenanceFromDisk, readJson_of_stringify hdocument hordered hplain]
  simp only [sampleDocument, ok_bind, hgraph, List.mapM_cons, List.mapM_nil, hnode, pure_eq_ok,
    readJson_of_stringify hpolicy hordered' hplain', hseal]
  rfl

end

end TestIntelligence.ProductionRunner.Provenance
