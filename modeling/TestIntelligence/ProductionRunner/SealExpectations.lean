import TestIntelligence.Js.JsonText
import TestIntelligence.Js.Outcome
import TestIntelligence.ProductionRunner.SealVerifier

/-!
# What a successful seal verification has compared

Every file of the seal is read from inside the run directory and the genealogy is
compared with the seal.  The two digests that the caller expects are compared when they
have the form of a digest, and passed over otherwise.
-/

namespace TestIntelligence.ProductionRunner.Seal

open Js Security Files

/-! ## The expectations -/

def referencedFiles (evidenceSeal : ProductionRunnerEvidenceSeal) : List JsString :=
  (sealReferences evidenceSeal).map (·.reference)

/-- The path leads to a place below the directory. -/
def Inside (cwd runDir path : JsString) : Prop :=
  resolveParts cwd runDir <+: resolveInParts cwd runDir path

/-- The bytes of a file of the run directory. -/
def contentOf (disk : Disk) (runDir reference : JsString) : Bytes :=
  match disk.readFile (joinPaths [runDir, reference]) with
  | .ok bytes => bytes
  | .error _ => []

section

variable (sha256 : Bytes → JsString) (hmacSha256 : Bytes → Bytes → JsString)
  (localeCompare : JsString → JsString → ℤ) (disk : Disk)

def artifactLeaves (runDir : JsString) (evidenceSeal : ProductionRunnerEvidenceSeal) :
    List SealLeaf :=
  (collectSealReferences evidenceSeal).map fun ref ↦
    ⟨ref.reference, sha256 (contentOf disk runDir ref.reference)⟩

/-- What the verification of the seal in `runDir` stands for. -/
structure Upheld (input : VerifySealBundleInput) (runDir : JsString)
    (evidenceSeal : ProductionRunnerEvidenceSeal) : Prop where
  hmac : ∀ expected ∈ input.expectedHmacHex, expected =
    hmacSha256 (input.key.getD (defaultKey sha256)) (utf8Encode (canonicalSeal evidenceSeal))
  merkleRoot : ∀ expected ∈ input.expectedMerkleRootHex, expected = computeMerkleRoot sha256
    (buildLeaves localeCompare (artifactLeaves sha256 disk runDir evidenceSeal))
  genealogy : sha256 (contentOf disk runDir genealogyArtifactFilename) =
    evidenceSeal.genealogyDagHash
  files : ∀ reference ∈ referencedFiles evidenceSeal, Inside disk.cwd runDir reference ∧
    disk.readFile (joinPaths [runDir, reference]) = .ok (contentOf disk runDir reference)

/-- A successful report is about a seal of the bundle whose expectations are upheld. -/
def SuccessUpholds (input : VerifySealBundleInput) : Prop :=
  ∀ report, verifySealBundle sha256 hmacSha256 localeCompare disk input = .ok report →
    report.ok = true → ∃ sealBytes evidenceSeal,
      disk.readFile report.sealPath = .ok sealBytes ∧
      (parseJson sealBytes).bind (parseSeal localeCompare) = some evidenceSeal ∧
      Upheld sha256 hmacSha256 localeCompare disk input (dirname report.sealPath) evidenceSeal

end

/-! ## Artifacts -/

theorem inside_of_isSafe {disk : Disk} {runDir path : JsString}
    (h : isSafeRelativeArtifactPath disk runDir path = true) : Inside disk.cwd runDir path := by
  simp only [isSafeRelativeArtifactPath, Bool.and_eq_true, Bool.not_eq_true'] at h
  obtain ⟨⟨⟨⟨⟨-, -⟩, habsolute⟩, -⟩, hsegments⟩, -⟩ := h
  have hdotDot : dotDot ∉ split slash path := by
    intro hmem
    have hsplit : dotDot ∈ split slash (path.map fun u ↦ if u = 0x5C then slash else u) := by
      rw [split_map (by decide)]
      exact List.mem_flatMap.mpr ⟨dotDot, hmem, by decide⟩
    have hkept : dotDot ∈ (split slash (path.map fun u ↦
        if u = 0x5C then slash else u)).filter (· ≠ []) :=
      List.mem_filter.mpr ⟨hsplit, by decide⟩
    exact absurd (List.contains_iff_mem.mpr hkept) (by rw [hsegments]; exact Bool.false_ne_true)
  rw [Inside, resolveInParts_of_no_dotDot habsolute hdotDot]
  exact List.prefix_append _ _

theorem readBytes_eq_some {disk : Disk} {path : JsString} {bytes : Bytes}
    (h : readBytes disk path = .ok (some bytes)) : disk.readFile path = .ok bytes := by
  unfold readBytes at h
  cases hread : disk.readFile path with
  | ok bytes' =>
      rw [hread] at h
      rw [Option.some.inj (Except.ok.inj h)]
  | error error =>
      rw [hread] at h
      cases error <;> cases h

theorem contentOf_eq {disk : Disk} {runDir reference : JsString} {bytes : Bytes}
    (h : disk.readFile (joinPaths [runDir, reference]) = .ok bytes) :
    contentOf disk runDir reference = bytes := by
  rw [contentOf, h]

variable {sha256 : Bytes → JsString} {hmacSha256 : Bytes → Bytes → JsString}
  {localeCompare : JsString → JsString → ℤ} {disk : Disk} {runDir : JsString}
  {evidenceSeal : ProductionRunnerEvidenceSeal}

/-- The file of a reference, where its verification does not fail. -/
structure ArtifactRead (sha256 : Bytes → JsString) (disk : Disk) (runDir : JsString)
    (ref : SealReference) (outcome : ArtifactOutcome) : Prop where
  inside : Inside disk.cwd runDir ref.reference
  read : disk.readFile (joinPaths [runDir, ref.reference]) =
    .ok (contentOf disk runDir ref.reference)
  leaf : outcome.leaf = some ⟨ref.reference, sha256 (contentOf disk runDir ref.reference)⟩

theorem artifactRead_of_no_failure {ref : SealReference} {outcome : ArtifactOutcome}
    (h : verifyArtifact sha256 disk runDir ref = .ok outcome) (hfailure : outcome.failure = none) :
    ArtifactRead sha256 disk runDir ref outcome := by
  unfold verifyArtifact at h
  split at h
  · obtain rfl := Except.ok.inj h
    cases hfailure
  · next hsafe =>
    obtain ⟨read, hread, h⟩ := bind_eq_ok h
    cases read with
    | none =>
        obtain rfl := Except.ok.inj h
        cases hfailure
    | some bytes =>
        have hread := readBytes_eq_some hread
        have hcontent := contentOf_eq hread
        refine ⟨inside_of_isSafe (by simpa using hsafe), hread.trans (by rw [hcontent]), ?_⟩
        rw [hcontent]
        dsimp only at h
        split at h
        · obtain rfl := Except.ok.inj h
          cases hfailure
        · obtain rfl := Except.ok.inj h
          rfl

theorem leaves_of_no_failure {refs : List SealReference} {outcomes : List ArtifactOutcome}
    (h : refs.mapM (verifyArtifact sha256 disk runDir) = .ok outcomes)
    (hfailures : outcomes.filterMap (·.failure) = []) :
    (∀ ref ∈ refs, Inside disk.cwd runDir ref.reference ∧
      disk.readFile (joinPaths [runDir, ref.reference]) =
        .ok (contentOf disk runDir ref.reference)) ∧
    outcomes.filterMap (·.leaf) = refs.map fun ref ↦
      ⟨ref.reference, sha256 (contentOf disk runDir ref.reference)⟩ := by
  have houtcomes := forall₂_of_mapM_eq_ok h
  clear h
  induction houtcomes with
  | nil => exact ⟨nofun, rfl⟩
  | @cons ref outcome refs outcomes houtcome _ ih =>
      cases hfailure : outcome.failure with
      | some failure => simp [hfailure] at hfailures
      | none =>
          have hread := artifactRead_of_no_failure houtcome hfailure
          obtain ⟨hfiles, hleaves⟩ := ih (by simpa [hfailure] using hfailures)
          refine ⟨fun ref' href' ↦ ?_, ?_⟩
          · rcases List.mem_cons.mp href' with rfl | href'
            · exact ⟨hread.inside, hread.read⟩
            · exact hfiles ref' href'
          · rw [List.filterMap_cons_some hread.leaf, hleaves, List.map_cons]

/-- Each name that was seen belongs to a reference that was kept. -/
def AllKept (state : List JsString × List SealReference) : Prop :=
  ∀ name ∈ state.1, ∃ ref ∈ state.2, ref.reference = name

theorem AllKept.keepReference {state : List JsString × List SealReference} (h : AllKept state)
    (ref : SealReference) : AllKept (keepReference state ref) ∧
      ref.reference ∈ (keepReference state ref).1 ∧ state.1 ⊆ (keepReference state ref).1 := by
  unfold Seal.keepReference
  split
  · next hseen => exact ⟨h, hseen, List.Subset.refl _⟩
  · refine ⟨fun name hname ↦ ?_, mem_setAdd.mpr (.inr rfl), fun name hname ↦
      mem_setAdd.mpr (.inl hname)⟩
    rcases mem_setAdd.mp hname with hname | rfl
    · obtain ⟨ref', href', heq⟩ := h name hname
      exact ⟨ref', List.mem_append_left _ href', heq⟩
    · exact ⟨ref, by simp, rfl⟩

theorem AllKept.foldl {state : List JsString × List SealReference} (h : AllKept state)
    (refs : List SealReference) : AllKept (refs.foldl Seal.keepReference state) ∧
      (∀ ref ∈ refs, ref.reference ∈ (refs.foldl Seal.keepReference state).1) ∧
      state.1 ⊆ (refs.foldl Seal.keepReference state).1 := by
  induction refs generalizing state with
  | nil => exact ⟨h, nofun, List.Subset.refl _⟩
  | cons ref refs ih =>
      obtain ⟨hkept, hseen, hsub⟩ := h.keepReference ref
      obtain ⟨hall, hrefs, hsub'⟩ := ih hkept
      refine ⟨hall, fun ref' href' ↦ ?_, List.Subset.trans hsub hsub'⟩
      rcases List.mem_cons.mp href' with rfl | href'
      · exact hsub' hseen
      · exact hrefs ref' href'

/-- Leaving out repeated references loses no file. -/
theorem exists_dedupReferences {refs : List SealReference} {name : JsString}
    (h : name ∈ refs.map (·.reference)) : ∃ ref ∈ dedupReferences refs, ref.reference = name := by
  obtain ⟨ref, href, rfl⟩ := List.mem_map.mp h
  have hempty : AllKept ([], []) := nofun
  obtain ⟨hall, hrefs, -⟩ := hempty.foldl refs
  exact hall ref.reference (hrefs ref href)

theorem genealogy_of_ok {check : SealVerifyCrossCheck}
    (h : verifyGenealogyDagHash sha256 disk runDir evidenceSeal = .ok check)
    (hok : check.ok = true) :
    sha256 (contentOf disk runDir genealogyArtifactFilename) = evidenceSeal.genealogyDagHash := by
  unfold verifyGenealogyDagHash at h
  split at h
  · obtain rfl := Except.ok.inj h
    cases hok
  · next path hpath =>
    rw [resolveSealReferencedPath] at hpath
    split at hpath
    · obtain rfl := Option.some.inj hpath
      obtain ⟨read, hread, h⟩ := bind_eq_ok h
      cases read with
      | none =>
          obtain rfl := Except.ok.inj h
          cases hok
      | some bytes =>
          obtain rfl := Except.ok.inj h
          rw [contentOf_eq (readBytes_eq_some hread)]
          simpa using hok
    · cases hpath

/-! ## The expected digests -/

theorem exists_hexUnit_of_isLowerHex {u : CodeUnit} (h : isLowerHex u = true) :
    ∃ d < 16, u = hexUnit d := by
  have h30 : (0x30 : CodeUnit).toNat = 0x30 := rfl
  have h39 : (0x39 : CodeUnit).toNat = 0x39 := rfl
  have h61 : (0x61 : CodeUnit).toNat = 0x61 := rfl
  have h66 : (0x66 : CodeUnit).toNat = 0x66 := rfl
  simp only [isLowerHex, isDigit, Bool.or_eq_true, Bool.and_eq_true, decide_eq_true_eq,
    UInt16.le_iff_toNat_le, h30, h39, h61, h66] at h
  rcases h with hdigit | hletter
  · refine ⟨u.toNat - 0x30, by omega, UInt16.toNat_inj.mp ?_⟩
    rw [hexUnit, if_pos (by omega), Nat.toUInt16_eq, UInt16.toNat_ofNat']
    omega
  · refine ⟨u.toNat - 0x61 + 10, by omega, UInt16.toNat_inj.mp ?_⟩
    rw [hexUnit, if_neg (by omega), Nat.toUInt16_eq, UInt16.toNat_ofNat']
    omega

theorem fromHex_hexUnit {d e : ℕ} (hd : d < 16) (he : e < 16) (rest : JsString) :
    fromHex (hexUnit d :: hexUnit e :: rest) = .ofNat (16 * d + e) :: fromHex rest := by
  rw [fromHex, hexValue_hexUnit d hd, hexValue_hexUnit e he]

theorem fromHex_inj {s t : JsString} (hs : s.all isLowerHex = true) (ht : t.all isLowerHex = true)
    (hlength : s.length = t.length) {n : ℕ} (heven : s.length = 2 * n)
    (h : fromHex s = fromHex t) : s = t := by
  induction n generalizing s t with
  | zero =>
      obtain rfl := List.length_eq_zero_iff.mp heven
      exact (List.length_eq_zero_iff.mp hlength.symm).symm
  | succ n ih =>
      match s, t with
      | a :: b :: s, a' :: b' :: t =>
          simp only [List.all_cons, Bool.and_eq_true] at hs ht
          obtain ⟨d, hd, rfl⟩ := exists_hexUnit_of_isLowerHex hs.1
          obtain ⟨e, he, rfl⟩ := exists_hexUnit_of_isLowerHex hs.2.1
          obtain ⟨d', hd', rfl⟩ := exists_hexUnit_of_isLowerHex ht.1
          obtain ⟨e', he', rfl⟩ := exists_hexUnit_of_isLowerHex ht.2.1
          rw [fromHex_hexUnit hd he, fromHex_hexUnit hd' he'] at h
          obtain ⟨hbyte, hrest⟩ := List.cons.inj h
          have hbyte := congrArg UInt8.toNat hbyte
          simp only [UInt8.toNat_ofNat'] at hbyte
          obtain rfl : d = d' := by omega
          obtain rfl : e = e' := by omega
          rw [ih hs.2.2 ht.2.2 (by simpa using hlength) (by simp at heven; omega) hrest]

theorem eq_of_hmacFailure {expectedHmacHex : Option JsString} {manifestHmac : JsString}
    (hhmac : isHexOfLength 64 manifestHmac = true)
    (hformat : ∀ expected ∈ expectedHmacHex, isHexOfLength 64 expected = true)
    (h : hmacFailure expectedHmacHex manifestHmac = none) :
    ∀ expected ∈ expectedHmacHex, expected = manifestHmac := by
  rintro expected rfl
  have hexpected := hformat expected rfl
  have hbytes : fromHex expected = fromHex manifestHmac := by
    simpa [hmacFailure, hexpected] using h
  simp only [isHexOfLength, Bool.and_eq_true, beq_iff_eq] at hhmac hexpected
  exact fromHex_inj hexpected.2 hhmac.2 (hexpected.1.trans hhmac.1.symm)
    (hexpected.1.trans (by rfl : 64 = 2 * 32)) hbytes

theorem eq_of_merkleFailure {expectedMerkleRootHex : Option JsString} {merkleRoot : JsString}
    (hformat : ∀ expected ∈ expectedMerkleRootHex, isHexOfLength 64 expected = true)
    (h : merkleFailure expectedMerkleRootHex merkleRoot = none) :
    ∀ expected ∈ expectedMerkleRootHex, expected = merkleRoot := by
  rintro expected rfl
  simpa [merkleFailure, hformat expected rfl] using h

/-! ## A successful run -/

theorem crossCheckFailure_eq_nil {code : SealVerifyFailureCode} {reference : JsString}
    {check : SealVerifyCrossCheck} (h : crossCheckFailure code reference (some check) = []) :
    check.ok = true := by
  by_contra hok
  simp [crossCheckFailure, hok] at h

theorem upheld_of_verifySeal {input : VerifySealBundleInput} {sealPath : JsString}
    {report : SealVerificationReport}
    (hhmac : ∀ key message, isHexOfLength 64 (hmacSha256 key message) = true)
    (hformat : ∀ expected ∈ input.expectedHmacHex, isHexOfLength 64 expected = true)
    (hformat' : ∀ expected ∈ input.expectedMerkleRootHex, isHexOfLength 64 expected = true)
    (h : verifySeal sha256 hmacSha256 localeCompare disk input sealPath evidenceSeal = .ok report)
    (hok : report.ok = true) :
    report.sealPath = sealPath ∧
      Upheld sha256 hmacSha256 localeCompare disk input (dirname sealPath) evidenceSeal := by
  unfold verifySeal at h
  obtain ⟨outcomes, houtcomes, h⟩ := bind_eq_ok h
  obtain ⟨extras, -, h⟩ := bind_eq_ok h
  obtain ⟨finopsCheck, -, h⟩ := bind_eq_ok h
  obtain ⟨genealogyCheck, hgenealogy, h⟩ := bind_eq_ok h
  obtain ⟨visual, -, h⟩ := bind_eq_ok h
  obtain ⟨provenance, -, h⟩ := bind_eq_ok h
  obtain ⟨region, -, h⟩ := bind_eq_ok h
  obtain rfl := Except.ok.inj h
  simp only [List.isEmpty_iff, List.append_eq_nil_iff, Option.toList_eq_nil_iff] at hok
  obtain ⟨⟨⟨⟨⟨⟨⟨hfailures, hhmacFailure⟩, hmerkleFailure⟩, -⟩, hcheck⟩, -⟩, -⟩, -⟩ := hok
  obtain ⟨hfiles, hleaves⟩ := leaves_of_no_failure houtcomes hfailures
  refine ⟨rfl, eq_of_hmacFailure (hhmac _ _) hformat hhmacFailure, ?_,
    genealogy_of_ok hgenealogy (crossCheckFailure_eq_nil hcheck), fun reference hreference ↦ ?_⟩
  · have hmerkle := eq_of_merkleFailure hformat' hmerkleFailure
    rw [hleaves] at hmerkle
    exact hmerkle
  · obtain ⟨ref, href, rfl⟩ := exists_dedupReferences hreference
    exact hfiles ref href

theorem successUpholds_of_format {input : VerifySealBundleInput}
    (hhmac : ∀ key message, isHexOfLength 64 (hmacSha256 key message) = true)
    (hformat : ∀ expected ∈ input.expectedHmacHex, isHexOfLength 64 expected = true)
    (hformat' : ∀ expected ∈ input.expectedMerkleRootHex, isHexOfLength 64 expected = true) :
    SuccessUpholds sha256 hmacSha256 localeCompare disk input := by
  intro report h hok
  unfold verifySealBundle at h
  obtain ⟨found, -, h⟩ := bind_eq_ok h
  split at h
  · obtain rfl := Except.ok.inj h
    cases hok
  obtain ⟨sealPath, -, h⟩ := bind_eq_ok h
  cases sealPath with
  | none =>
      obtain rfl := Except.ok.inj h
      cases hok
  | some sealPath =>
      obtain ⟨read, hread, h⟩ := bind_eq_ok h
      cases read with
      | none =>
          obtain rfl := Except.ok.inj h
          cases hok
      | some sealBytes =>
          dsimp only at h
          split at h
          · obtain rfl := Except.ok.inj h
            cases hok
          · next evidenceSeal hparse =>
            obtain ⟨hpath, hupheld⟩ := upheld_of_verifySeal hhmac hformat hformat' h hok
            rw [hpath]
            exact ⟨sealBytes, evidenceSeal, readBytes_eq_some hread, hparse, hupheld⟩

/-! ## A bundle that verifies -/

theorem verifyArtifact_of_read {ref : SealReference} {bytes : Bytes}
    (hsafe : isSafeRelativeArtifactPath disk runDir ref.reference = true)
    (hread : readBytes disk (joinPaths [runDir, ref.reference]) = .ok (some bytes))
    (hexpected : ∀ expected ∈ ref.expectedSha256, expected = sha256 bytes) :
    verifyArtifact sha256 disk runDir ref = .ok
      ⟨⟨.ok, ref.reference, ref.expectedSha256, some (sha256 bytes), none⟩,
        some ⟨ref.reference, sha256 bytes⟩, none⟩ := by
  have hfilter : (ref.expectedSha256.filter fun expected ↦
      isHexOfLength 64 expected && expected != sha256 bytes) = none := by
    rw [Option.filter_eq_none_iff]
    intro expected hmem
    simp [hexpected expected hmem]
  rw [verifyArtifact, hsafe, Bool.not_true, if_neg Bool.false_ne_true, hread]
  simp only [ok_bind, hfilter, pure_eq_ok]

theorem verifyFinopsBySourceHash_of_read {bytes : Bytes} {report : List (JsString × Json)}
    (hsafe : isSafeRelativeArtifactPath disk runDir evidenceSeal.finopsArtifactFilename = true)
    (hread : readBytes disk (joinPaths [runDir, evidenceSeal.finopsArtifactFilename]) =
      .ok (some bytes)) (hparse : parseJson bytes = some (.obj report))
    (hhash : computePerSourceCostBreakdownHashFromReport sha256 report =
      evidenceSeal.bySourceHash) :
    ∃ check, verifyFinopsBySourceHash sha256 disk runDir evidenceSeal = .ok check ∧
      check.ok = true := by
  rw [verifyFinopsBySourceHash, resolveSealReferencedPath, if_pos hsafe]
  simp only [hread, ok_bind, hparse, pure_eq_ok]
  exact ⟨_, rfl, by simp [hhash]⟩

theorem verifyGenealogyDagHash_of_read {bytes : Bytes}
    (hsafe : isSafeRelativeArtifactPath disk runDir genealogyArtifactFilename = true)
    (hread : readBytes disk (joinPaths [runDir, genealogyArtifactFilename]) = .ok (some bytes))
    (hhash : sha256 bytes = evidenceSeal.genealogyDagHash) :
    ∃ check, verifyGenealogyDagHash sha256 disk runDir evidenceSeal = .ok check ∧
      check.ok = true := by
  rw [verifyGenealogyDagHash, resolveSealReferencedPath, if_pos hsafe]
  simp only [hread, ok_bind, pure_eq_ok]
  exact ⟨_, rfl, by simp [hhash]⟩

def emptyObjectDigest : JsString :=
  hexText 64 0x44136fa355b3678a1146ad16f7e8649e94fb4fc21fe77e8310c060f61caaff8a

def emptyCostDigest : JsString :=
  hexText 64 0x503d87b8989b9ab9abe75c4af3d31297a21202880dc36902c54af1683c561790

def finopsLeafDigest : JsString :=
  hexText 64 0x64029f281384c4a2d3a7b3fa79ae844fdf0ddb33b0207fc8a5663aeeb470a2d6

def genealogyLeafDigest : JsString :=
  hexText 64 0x16670547155ba2db4159cd4a4c39b06dd35a4c02a4cc44293349b4a01116d7cf

def headDigest : JsString :=
  hexText 64 0xe3b0c44298fc1c149afbf4c8996fb92427ae41e4649b934ca495991b7852b855

def bundleSealJson : Json :=
  .obj [(js "schemaVersion", .str sealSchemaVersion), (js "jobId", .str (js "job-1")),
    (js "generatedAt", .str (js "2026-05-01T00:00:00Z")), (js "harnessArtifactFilenames", .arr []),
    (js "headOfChainHash", .str headDigest), (js "chainLength", .num 0),
    (js "finopsArtifactFilename", .str (js "finops.json")), (js "bySourceHash", .str emptyCostDigest),
    (js "genealogyArtifactFilename", .str genealogyArtifactFilename),
    (js "genealogyDagHash", .str emptyObjectDigest), (js "visualEvidenceHashes", .arr [])]

def bundleSeal : ProductionRunnerEvidenceSeal where
  jobId := js "job-1"
  generatedAt := js "2026-05-01T00:00:00Z"
  harnessArtifactFilenames := []
  headOfChainHash := headDigest
  chainLength := 0
  finopsArtifactFilename := js "finops.json"
  bySourceHash := emptyCostDigest
  genealogyDagHash := emptyObjectDigest
  visualEvidenceHashes := []
  customContextMarkdownHashes := none

def emptyObject : Bytes := utf8Encode (js "\x7b\x7d")

def bundleDisk : Disk where
  root := .directory [
    (utf8Encode sealArtifactFilename, .file (utf8Encode bundleSealJson.stringify)),
    (utf8Encode (js "finops.json"), .file emptyObject),
    (utf8Encode genealogyArtifactFilename, .file emptyObject)]
  cwd := [slash]

theorem parse_bundleSeal :
    (parseJson (utf8Encode bundleSealJson.stringify)).bind (parseSeal codeUnitCompare) =
      some bundleSeal := by
  have hordered : bundleSealJson.Ordered := by
    refine Json.ordered_obj.mpr ⟨⟨by decide, by decide⟩, ?_⟩
    simp
  have hplain : bundleSealJson.PlainNumbers := by
    refine Json.plainNumbers_obj.mpr ?_
    simp only [List.forall_mem_cons]
    refine ⟨?_, ?_, ?_, ?_, ?_, ?_, ?_, ?_, ?_, ?_, ?_, nofun⟩
    all_goals first | trivial | exact ⟨_, rfl⟩
  rw [parseJson, utf8Decode_utf8Encode (isWellFormed_stringify _), Json.parse_stringify hordered hplain]
  rfl

def bundleDigests : List (Bytes × JsString) :=
  [(emptyObject, emptyObjectDigest),
    (utf8Encode (canonicalJson (.obj [(js "schemaVersion", .str (js "1.0.0"))])), emptyCostDigest),
    (utf8Encode (colonText (js "finops.json") emptyObjectDigest), finopsLeafDigest),
    (utf8Encode (colonText genealogyArtifactFilename emptyObjectDigest), genealogyLeafDigest),
    (utf8Encode (js "test-intelligence:seal-verify:v1"),
      hexText 64 0x0c68ca96b3cdd7f8dacb726e627e46ad1bc13576a4449947de999238c5bf5e22),
    (utf8Encode (canonicalSeal bundleSeal),
      hexText 64 0xf8dbd1842ee92230677d6cb8ed069e09d317a206623df54d4c07b5abf9c6409c)]

def bundleRootText : JsString := colonText finopsLeafDigest genealogyLeafDigest

/-- The digests of the bundle under a given Merkle root. -/
def rootedSha256 (root : JsString) (bytes : Bytes) : JsString :=
  if bytes = utf8Encode bundleRootText then root
  else tabled bundleDigests (fun _ ↦ hexText 64 0) bytes

/-- The lookups up to the entry of the genealogy leaf. -/
theorem bundleDigests_tabled : ∀ entry ∈ bundleDigests.take 4, entry.1 ≠ utf8Encode bundleRootText ∧
    tabled bundleDigests (fun _ ↦ hexText 64 0) entry.1 = entry.2 := by
  decide

theorem rootedSha256_of_entry {root digest : JsString} {bytes : Bytes}
    (hentry : (bytes, digest) ∈ bundleDigests.take 4) : rootedSha256 root bytes = digest := by
  obtain ⟨hroot, htabled⟩ := bundleDigests_tabled _ hentry
  rw [rootedSha256, if_neg hroot, htabled]

theorem isHexOfLength_rootedSha256 {root : JsString} (hroot : isHexOfLength 64 root = true)
    (bytes : Bytes) : isHexOfLength 64 (rootedSha256 root bytes) = true := by
  unfold rootedSha256
  split
  · exact hroot
  · apply tabled_of_forall (P := fun digest ↦ isHexOfLength 64 digest = true)
    · simp only [bundleDigests, List.forall_mem_cons]
      exact ⟨isHexOfLength_hexText _ _, isHexOfLength_hexText _ _, isHexOfLength_hexText _ _,
        isHexOfLength_hexText _ _, isHexOfLength_hexText _ _, isHexOfLength_hexText _ _, nofun⟩
    · exact fun _ ↦ isHexOfLength_hexText _ _

def bundleSealPath : JsString := slash :: sealArtifactFilename

theorem eq_ok_of_toOption {ε α : Type} {x : Except ε α} {a : α} (h : x.toOption = some a) :
    x = .ok a := by
  cases x with
  | ok b => exact congrArg Except.ok (Option.some.inj h)
  | error e => cases h

/-- What the disk of the bundle answers. -/
theorem bundleDisk_answers :
    (findSealPath bundleDisk [slash]).toOption = some (some bundleSealPath) ∧
      (∀ reference ∈ [js "finops.json", genealogyArtifactFilename],
        isSafeRelativeArtifactPath bundleDisk [slash] reference = true ∧
          (readBytes bundleDisk (joinPaths [[slash], reference])).toOption =
            some (some emptyObject)) ∧
      (safeStat bundleDisk [slash]).toOption = some true ∧
      (∀ reference ∈ [provenanceArtifactFilename, regionAttestationReportFilename],
        (safeStat bundleDisk (joinPaths [[slash], reference])).toOption = some false) ∧
      dirname bundleSealPath = [slash] ∧
      ((sortBy codeUnitCompare (enumerateNode [] bundleDisk.root)).filter fun reference ↦
        !([js "finops.json", genealogyArtifactFilename] : List JsString).contains reference &&
          !isAuxiliaryRunFile reference) = [] := by
  decide

theorem findSealPath_bundle : findSealPath bundleDisk [slash] = .ok (some bundleSealPath) :=
  eq_ok_of_toOption bundleDisk_answers.1

theorem readBytes_bundleSeal :
    readBytes bundleDisk bundleSealPath = .ok (some (utf8Encode bundleSealJson.stringify)) := by
  rfl

theorem readBytes_bundle {reference : JsString}
    (h : reference ∈ [js "finops.json", genealogyArtifactFilename]) :
    isSafeRelativeArtifactPath bundleDisk [slash] reference = true ∧
      readBytes bundleDisk (joinPaths [[slash], reference]) = .ok (some emptyObject) := by
  obtain ⟨hsafe, hread⟩ := bundleDisk_answers.2.1 _ h
  exact ⟨hsafe, eq_ok_of_toOption hread⟩

theorem bundleFinops_mem : js "finops.json" ∈ [js "finops.json", genealogyArtifactFilename] :=
  List.mem_cons_self

theorem bundleGenealogy_mem :
    genealogyArtifactFilename ∈ [js "finops.json", genealogyArtifactFilename] :=
  List.mem_cons_of_mem _ List.mem_cons_self

theorem rootedSha256_emptyObject (root : JsString) :
    rootedSha256 root emptyObject = emptyObjectDigest :=
  rootedSha256_of_entry (.head _)

def finopsLeaf : SealLeaf := ⟨js "finops.json", emptyObjectDigest⟩

def genealogyLeaf : SealLeaf := ⟨genealogyArtifactFilename, emptyObjectDigest⟩

theorem verifyArtifacts_bundle (root : JsString) :
    ∃ outcomes, verifyArtifacts (rootedSha256 root) bundleDisk [slash] bundleSeal = .ok outcomes ∧
      outcomes.map (·.report.reference) = [js "finops.json", genealogyArtifactFilename] ∧
      outcomes.filterMap (·.failure) = [] ∧
      outcomes.filterMap (·.leaf) =
        [finopsLeaf, genealogyLeaf] := by
  have hempty := rootedSha256_emptyObject root
  obtain ⟨hsafeFinops, hreadFinops⟩ := readBytes_bundle bundleFinops_mem
  obtain ⟨hsafeGenealogy, hreadGenealogy⟩ := readBytes_bundle bundleGenealogy_mem
  have hrefs : collectSealReferences bundleSeal =
      [⟨js "finops.json", none⟩, ⟨genealogyArtifactFilename, some emptyObjectDigest⟩] := by rfl
  have hfinops : verifyArtifact (rootedSha256 root) bundleDisk [slash]
      ⟨js "finops.json", none⟩ = .ok _ :=
    verifyArtifact_of_read hsafeFinops hreadFinops nofun
  have hgenealogy : verifyArtifact (rootedSha256 root) bundleDisk [slash]
      ⟨genealogyArtifactFilename, some emptyObjectDigest⟩ = .ok _ :=
    verifyArtifact_of_read hsafeGenealogy hreadGenealogy (by
      rintro expected ⟨⟩
      exact hempty.symm)
  rw [verifyArtifacts, hrefs]
  simp only [List.mapM_cons, List.mapM_nil, hfinops, hgenealogy, ok_bind, pure_eq_ok]
  exact ⟨_, rfl, rfl, rfl, by rw [hempty]; rfl⟩

theorem computeMerkleRoot_bundle (root : JsString) :
    computeMerkleRoot (rootedSha256 root) (buildLeaves codeUnitCompare
      [finopsLeaf, genealogyLeaf]) = root := by
  have hsorted : buildLeaves codeUnitCompare
      [finopsLeaf, genealogyLeaf] =
      [finopsLeaf, genealogyLeaf] := by decide
  have hfinops : leafDigest (rootedSha256 root) finopsLeaf = finopsLeafDigest := by
    rw [leafDigest, sha256Text]
    exact rootedSha256_of_entry (.tail _ (.tail _ (.head _)))
  have hgenealogy : leafDigest (rootedSha256 root) genealogyLeaf = genealogyLeafDigest := by
    rw [leafDigest, sha256Text]
    exact rootedSha256_of_entry (.tail _ (.tail _ (.tail _ (.head _))))
  have hroot : leafDigest (rootedSha256 root) ⟨finopsLeafDigest, genealogyLeafDigest⟩ = root := by
    rw [leafDigest, sha256Text, rootedSha256]
    exact if_pos rfl
  rw [hsorted, computeMerkleRoot_pair, hfinops, hgenealogy, computeMerkleRoot]
  simp [Trees.root, hroot]

theorem detectExtras_bundle (root : JsString) :
    detectExtras (rootedSha256 root) codeUnitCompare bundleDisk [slash]
      [js "finops.json", genealogyArtifactFilename] = .ok [] :=
  congrArg (List.mapM (extraReport (rootedSha256 root) bundleDisk [slash]))
    bundleDisk_answers.2.2.2.2.2

theorem safeStat_bundle : safeStat bundleDisk [slash] = .ok true :=
  eq_ok_of_toOption bundleDisk_answers.2.2.1

theorem verifyProvenanceCrossLink_bundle :
    verifyProvenanceCrossLink bundleDisk [slash] bundleSeal = .ok none := by
  have hstat : safeStat bundleDisk (joinPaths [[slash], provenanceArtifactFilename]) = .ok false :=
    eq_ok_of_toOption (bundleDisk_answers.2.2.2.1 _ (.head _))
  rw [verifyProvenanceCrossLink, hstat]
  rfl

theorem verifyRegionAttestationCrossLink_bundle :
    verifyRegionAttestationCrossLink bundleDisk [slash] bundleSeal = .ok none := by
  have hstat : safeStat bundleDisk (joinPaths [[slash], regionAttestationReportFilename]) =
      .ok false := eq_ok_of_toOption (bundleDisk_answers.2.2.2.1 _ (.tail _ (.head _)))
  rw [verifyRegionAttestationCrossLink, hstat]
  rfl

theorem verifySeal_bundle (root : JsString) (input : VerifySealBundleInput) :
    ∃ report, verifySeal (rootedSha256 root) hmacSha256 codeUnitCompare bundleDisk input
        bundleSealPath bundleSeal = .ok report ∧
      report.ok = ((hmacFailure input.expectedHmacHex
          (hmacSha256 (input.key.getD (defaultKey (rootedSha256 root)))
            (utf8Encode (canonicalSeal bundleSeal)))).toList ++
        (merkleFailure input.expectedMerkleRootHex root).toList).isEmpty := by
  have hdir : dirname bundleSealPath = [slash] := bundleDisk_answers.2.2.2.2.1
  have hparse : parseJson emptyObject = some (.obj []) := by rfl
  obtain ⟨outcomes, houtcomes, hnames, hfailures, hleaves⟩ := verifyArtifacts_bundle root
  have hcost : computePerSourceCostBreakdownHashFromReport (rootedSha256 root) [] =
      bundleSeal.bySourceHash := by
    rw [computePerSourceCostBreakdownHashFromReport, sha256Text]
    exact rootedSha256_of_entry (.tail _ (.head _))
  have hdag : rootedSha256 root emptyObject = bundleSeal.genealogyDagHash :=
    rootedSha256_emptyObject root
  obtain ⟨hsafeFinops, hreadFinops⟩ := readBytes_bundle bundleFinops_mem
  obtain ⟨hsafeGenealogy, hreadGenealogy⟩ := readBytes_bundle bundleGenealogy_mem
  have hsafeNamed : isSafeRelativeArtifactPath bundleDisk [slash]
      bundleSeal.finopsArtifactFilename = true := hsafeFinops
  obtain ⟨finopsCheck, hfinops, hfinopsOk⟩ := verifyFinopsBySourceHash_of_read hsafeNamed
    hreadFinops hparse hcost
  obtain ⟨genealogyCheck, hgenealogy, hgenealogyOk⟩ := verifyGenealogyDagHash_of_read
    hsafeGenealogy hreadGenealogy hdag
  have hvisual : verifyVisualSidecarCrossLink codeUnitCompare bundleDisk [slash] bundleSeal =
      .ok none := rfl
  rw [verifySeal, hdir]
  simp only [houtcomes, ok_bind, List.map_map, Function.comp_def, hnames, hleaves, hfailures,
    detectExtras_bundle, computeMerkleRoot_bundle, hfinops, hgenealogy, hvisual,
    verifyProvenanceCrossLink_bundle, verifyRegionAttestationCrossLink_bundle, pure_eq_ok]
  refine ⟨_, rfl, ?_⟩
  simp [crossCheckFailure, hfinopsOk, hgenealogyOk]

theorem verifySealBundle_of_read {input : VerifySealBundleInput} {sealPath : JsString}
    {sealBytes : Bytes} (hbundle : safeStat disk input.bundleDir = .ok true)
    (hfind : findSealPath disk input.bundleDir = .ok (some sealPath))
    (hread : readBytes disk sealPath = .ok (some sealBytes))
    (hparse : (parseJson sealBytes).bind (parseSeal localeCompare) = some evidenceSeal) :
    verifySealBundle sha256 hmacSha256 localeCompare disk input =
      verifySeal sha256 hmacSha256 localeCompare disk input sealPath evidenceSeal := by
  rw [verifySealBundle]
  simp only [hbundle, hfind, hread, hparse, ok_bind]
  rfl

/-- The bundle verifies, unless an expected digest in the form of a digest fails. -/
theorem verifySealBundle_bundle (hmacSha256 : Bytes → Bytes → JsString) (root : JsString)
    {input : VerifySealBundleInput} (hdir : input.bundleDir = [slash]) :
    ∃ report, verifySealBundle (rootedSha256 root) hmacSha256 codeUnitCompare bundleDisk input =
        .ok report ∧
      report.ok = ((hmacFailure input.expectedHmacHex
          (hmacSha256 (input.key.getD (defaultKey (rootedSha256 root)))
            (utf8Encode (canonicalSeal bundleSeal)))).toList ++
        (merkleFailure input.expectedMerkleRootHex root).toList).isEmpty := by
  obtain ⟨report, hreport, hok⟩ := verifySeal_bundle root input
  refine ⟨report, ?_, hok⟩
  rw [verifySealBundle_of_read (by rw [hdir, safeStat_bundle]) (by rw [hdir, findSealPath_bundle])
    readBytes_bundleSeal parse_bundleSeal]
  exact hreport

/-! ## The expectations that are compared -/

theorem exists_accepted_hmac (expectedHmacHex : Option JsString) :
    ∃ hmac, isHexOfLength 64 hmac = true ∧ hmacFailure expectedHmacHex hmac = none := by
  cases expectedHmacHex with
  | none => exact ⟨headDigest, isHexOfLength_hexText _ _, rfl⟩
  | some expected =>
      by_cases hformat : isHexOfLength 64 expected = true
      · exact ⟨expected, hformat, by simp [hmacFailure]⟩
      · exact ⟨headDigest, isHexOfLength_hexText _ _, by simp [hmacFailure, hformat]⟩

theorem exists_accepted_root (expectedMerkleRootHex : Option JsString) :
    ∃ root, isHexOfLength 64 root = true ∧ merkleFailure expectedMerkleRootHex root = none := by
  cases expectedMerkleRootHex with
  | none => exact ⟨headDigest, isHexOfLength_hexText _ _, rfl⟩
  | some expected =>
      by_cases hformat : isHexOfLength 64 expected = true
      · exact ⟨expected, hformat, by simp [merkleFailure]⟩
      · exact ⟨headDigest, isHexOfLength_hexText _ _, by simp [merkleFailure, hformat]⟩

/-- A Merkle root is a digest. -/
theorem isHexOfLength_computeMerkleRoot (hsha : ∀ bytes, isHexOfLength 64 (sha256 bytes) = true)
    (leaves : List SealLeaf) : isHexOfLength 64 (computeMerkleRoot sha256 leaves) = true := by
  by_cases hne : leaves.map (leafDigest sha256) = []
  · rw [computeMerkleRoot, hne, Trees.root_eq_none_iff.mpr rfl]
    exact hsha _
  · have hpairs : ∀ d e : JsString, isHexOfLength 64 d = true → isHexOfLength 64 e = true →
        isHexOfLength 64 (pairDigest sha256 d e) = true := fun _ _ _ _ ↦ hsha _
    have hleaves : ∀ d ∈ leaves.map (leafDigest sha256), isHexOfLength 64 d = true := by
      intro d hd
      obtain ⟨leaf, -, rfl⟩ := List.mem_map.mp hd
      exact hsha _
    obtain ⟨d, hroot, hd⟩ := Trees.exists_root hpairs hleaves hne
    rw [computeMerkleRoot, hroot]
    exact hd

/-- The options for which a successful run, on whatever disk, upholds all it was given. -/
theorem verifySealBundle_upholds_iff (key : Option Bytes)
    (expectedHmacHex expectedMerkleRootHex : Option JsString) :
    (∀ sha256 hmacSha256 localeCompare disk bundleDir,
      (∀ bytes, isHexOfLength 64 (sha256 bytes) = true) →
      (∀ key message, isHexOfLength 64 (hmacSha256 key message) = true) →
      SuccessUpholds sha256 hmacSha256 localeCompare disk
        ⟨bundleDir, key, expectedHmacHex, expectedMerkleRootHex⟩) ↔
    (∀ expected ∈ expectedHmacHex, isHexOfLength 64 expected = true) ∧
      ∀ expected ∈ expectedMerkleRootHex, isHexOfLength 64 expected = true := by
  constructor
  · intro h
    obtain ⟨hmac, hhmac, hhmacFailure⟩ := exists_accepted_hmac expectedHmacHex
    obtain ⟨root, hroot, hmerkleFailure⟩ := exists_accepted_root expectedMerkleRootHex
    have hsha := isHexOfLength_rootedSha256 hroot
    have hdir : (⟨[slash], key, expectedHmacHex, expectedMerkleRootHex⟩ :
      VerifySealBundleInput).bundleDir = [slash] := rfl
    obtain ⟨report, hreport, hok⟩ := verifySealBundle_bundle (fun _ _ ↦ hmac) root hdir
    rw [hhmacFailure, hmerkleFailure] at hok
    obtain ⟨-, evidenceSeal, -, -, hupheld⟩ :=
      h _ _ _ _ _ hsha (fun _ _ ↦ hhmac) report hreport hok
    refine ⟨fun expected hexpected ↦ ?_, fun expected hexpected ↦ ?_⟩
    · rw [hupheld.hmac expected hexpected]
      exact hhmac
    · rw [hupheld.merkleRoot expected hexpected]
      exact isHexOfLength_computeMerkleRoot hsha _
  · rintro ⟨hformat, hformat'⟩ sha256 hmacSha256 localeCompare disk bundleDir - hhmac
    exact successUpholds_of_format hhmac hformat hformat'

def bundleRoot : JsString :=
  hexText 64 0x9f4a04b71e15d62bac0785e5b1fc2df29fd7a9ee72bacd112a020a5d6f7b2198

def bundleHmac : JsString :=
  hexText 64 0x72f8c44e7b7c6cb3995949204a4e100fc3e35b8b6d02f0778997d27089857b55

/-- An expected HMAC of eight digits is passed over. -/
theorem verifySealBundle_passes_over :
    ¬ SuccessUpholds (rootedSha256 bundleRoot) (fun _ _ ↦ bundleHmac) codeUnitCompare bundleDisk
      ⟨[slash], none, some (js "deadbeef"), none⟩ := by
  intro h
  have hdir : (⟨[slash], none, some (js "deadbeef"), none⟩ : VerifySealBundleInput).bundleDir =
    [slash] := rfl
  obtain ⟨report, hreport, hok⟩ := verifySealBundle_bundle (fun _ _ ↦ bundleHmac) bundleRoot hdir
  obtain ⟨-, evidenceSeal, -, -, hupheld⟩ := h report hreport (hok.trans (by rfl))
  exact absurd (hupheld.hmac (js "deadbeef") rfl) (by decide)

end TestIntelligence.ProductionRunner.Seal
