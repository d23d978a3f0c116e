import TestIntelligence.Binary.Crc32
import TestIntelligence.Binary.LittleEndian
import TestIntelligence.Binary.ZipArchive
import TestIntelligence.Js.Sorting
import TestIntelligence.Js.Utf8

/-!
# The customer ZIP bundle

The archive is written entry by entry, in the order of the file names.  A number that does not
fit its field makes the whole call fail.
-/

namespace TestIntelligence.CustomerMarkdown

open Js Binary

structure PerCaseFile where
  filename : JsString
  body : JsString
  deriving DecidableEq

structure CustomerMarkdownZipBundle where
  jobId : JsString
  combinedMarkdown : JsString
  perCase : List PerCaseFile
  businessIntentIrJson : JsString
  evidenceManifestJson : Option JsString
  regulatoryRelevanceSummaryJson : JsString

structure ZipEntry where
  filename : JsString
  body : Bytes
  crc32 : BitVec 32

def fixedDosDate : ℕ := ((2026 - 1980) <<< 9) ||| (1 <<< 5) ||| 1

def fixedDosTime : ℕ := 0

def sigLocalFileHeader : ℕ := 0x04034b50

def sigCentralDirectory : ℕ := 0x02014b50

def sigEndOfCentralDir : ℕ := 0x06054b50

/-! ## The check -/

/-- The inner loop of `buildCrc32Table` -/
def crcTableStep (c : BitVec 32) : BitVec 32 :=
  if c &&& 1#32 ≠ 0#32 then 0xedb88320#32 ^^^ (c >>> 1) else c >>> 1

def buildCrc32Table : List (BitVec 32) :=
  (List.range 256).map fun i ↦ crcTableStep^[8] (BitVec.ofNat 32 i)

def crc32 (data : Bytes) : BitVec 32 :=
  data.foldl (fun c byte ↦
    buildCrc32Table.getD ((c ^^^ BitVec.ofNat 32 byte.toNat) &&& 0xff#32).toNat 0#32 ^^^ (c >>> 8))
    0xffffffff#32 ^^^ 0xffffffff#32

/-! ## Entries -/

/-- The files of the bundle in the order in which they are pushed. -/
def rawEntries (bundle : CustomerMarkdownZipBundle) : List (JsString × Bytes) :=
  (js "testfaelle.md", utf8Encode bundle.combinedMarkdown) ::
    bundle.perCase.map (fun file ↦ (js "cases/" ++ file.filename, utf8Encode file.body)) ++
    [(js "business-intent-ir.json", utf8Encode bundle.businessIntentIrJson)] ++
    (bundle.evidenceManifestJson.elim [] fun json ↦
      [(js "evidence-manifest.json", utf8Encode json)]) ++
    [(js "regulatoryRelevance-summary.json", utf8Encode bundle.regulatoryRelevanceSummaryJson)]

def compareNames (a b : JsString × Bytes) : ℤ := if a.1 < b.1 then -1 else 1

def collectEntries (bundle : CustomerMarkdownZipBundle) : List ZipEntry :=
  (sortBy compareNames (rawEntries bundle)).map fun entry ↦ ⟨entry.1, entry.2, crc32 entry.2⟩

/-! ## Headers -/

def encodeLocalFileHeader (entry : ZipEntry) : Option Bytes := do
  let filenameBuf := utf8Encode entry.filename
  let buf ← writeFields (alloc (30 + filenameBuf.length)) [
    u32 sigLocalFileHeader 0,
    u16 20 4,
    u16 0x0800 6,
    u16 0 8,
    u16 fixedDosTime 10,
    u16 fixedDosDate 12,
    u32 entry.crc32.toNat 14,
    u32 entry.body.length 18,
    u32 entry.body.length 22,
    u16 filenameBuf.length 26,
    u16 0 28]
  some (copyInto filenameBuf buf 30)

def encodeCentralDirectoryHeader (entry : ZipEntry) (localHeaderOffset : ℕ) : Option Bytes := do
  let filenameBuf := utf8Encode entry.filename
  let buf ← writeFields (alloc (46 + filenameBuf.length)) [
    u32 sigCentralDirectory 0,
    u16 20 4,
    u16 20 6,
    u16 0x0800 8,
    u16 0 10,
    u16 fixedDosTime 12,
    u16 fixedDosDate 14,
    u32 entry.crc32.toNat 16,
    u32 entry.body.length 20,
    u32 entry.body.length 24,
    u16 filenameBuf.length 28,
    u16 0 30,
    u16 0 32,
    u16 0 34,
    u16 0 36,
    u32 0 38,
    u32 localHeaderOffset 42]
  some (copyInto filenameBuf buf 46)

structure EocdInput where
  totalEntries : ℕ
  centralDirectorySize : ℕ
  centralDirectoryOffset : ℕ

def encodeEndOfCentralDirectory (input : EocdInput) : Option Bytes :=
  writeFields (alloc 22) [
    u32 sigEndOfCentralDir 0,
    u16 0 4,
    u16 0 6,
    u16 input.totalEntries 8,
    u16 input.totalEntries 10,
    u32 input.centralDirectorySize 12,
    u32 input.centralDirectoryOffset 16,
    u16 0 20]

/-! ## The archive -/

structure Chunks where
  localChunks : List Bytes
  centralChunks : List Bytes
  offset : ℕ

/-- One turn of the loop over the entries. -/
def addEntry (chunks : Chunks) (entry : ZipEntry) : Option Chunks := do
  let localHeader ← encodeLocalFileHeader entry
  let centralHeader ← encodeCentralDirectoryHeader entry chunks.offset
  some {
    localChunks := chunks.localChunks ++ [localHeader, entry.body]
    centralChunks := chunks.centralChunks ++ [centralHeader]
    offset := chunks.offset + (localHeader.length + entry.body.length) }

def buildCustomerMarkdownZipBundle (bundle : CustomerMarkdownZipBundle) : Option Bytes := do
  let entries := collectEntries bundle
  let chunks ← entries.foldlM addEntry ⟨[], [], 0⟩
  let centralDirectory := chunks.centralChunks.flatten
  let eocd ← encodeEndOfCentralDirectory {
    totalEntries := entries.length
    centralDirectorySize := centralDirectory.length
    centralDirectoryOffset := chunks.offset }
  some (chunks.localChunks.flatten ++ (centralDirectory ++ eocd))

end TestIntelligence.CustomerMarkdown

/-!
## Reading the customer ZIP bundle

The bytes of the bundle are an archive of the format, whose members are the collected entries
in their order.  The order of the cases in the bundle leaves no trace.
-/

namespace TestIntelligence.CustomerMarkdown

open Js Binary

/-! ## The check -/

/-- The polynomial of the checks in ZIP archives, with its bits reflected. -/
def zipPolynomial : BitVec 32 := 0xedb88320#32

theorem crcTableStep_eq (c : BitVec 32) : crcTableStep c = crcShift zipPolynomial c := by
  have hbit : c &&& 1#32 ≠ 0#32 ↔ c.getLsbD 0 = true := by
    rw [BitVec.and_one_eq_setWidth_ofBool_getLsbD]
    cases c.getLsbD 0 <;> decide
  rw [crcTableStep, crcShift]
  by_cases hc : c.getLsbD 0 = true
  · rw [if_pos (hbit.mpr hc), if_pos hc]
    rfl
  · rw [if_neg (fun h ↦ hc (hbit.mp h)), if_neg hc]

theorem buildCrc32Table_getD {i : ℕ} (hi : i < 256) :
    buildCrc32Table.getD i 0#32 = crcWord zipPolynomial (BitVec.ofNat 32 i) := by
  have hstep : crcTableStep = crcShift zipPolynomial := funext crcTableStep_eq
  rw [buildCrc32Table, hstep, List.getD_eq_getElem?_getD, List.getElem?_map,
    List.getElem?_range hi]
  rfl

/-- The table-driven check is the bitwise one. -/
theorem crc32_eq_bitwiseCrc (data : Bytes) : crc32 data = bitwiseCrc zipPolynomial data := by
  have hbyte : ∀ (c : BitVec 32) (b : UInt8),
      buildCrc32Table.getD ((c ^^^ BitVec.ofNat 32 b.toNat) &&& 0xff#32).toNat 0#32 ^^^ (c >>> 8) =
        crcWord zipPolynomial ((c ^^^ lowByte b) &&& 255#32) ^^^ (c >>> 8) := by
    intro c b
    have hlt : ((c ^^^ BitVec.ofNat 32 b.toNat) &&& 0xff#32).toNat < 256 := by
      rw [BitVec.toNat_and]
      exact Nat.lt_succ_of_le Nat.and_le_right
    rw [buildCrc32Table_getD hlt, BitVec.ofNat_toNat, BitVec.setWidth_eq]
    rfl
  have hnot : ∀ c : BitVec 32, c ^^^ 0xffffffff#32 = ~~~ c := by
    intro c
    exact BitVec.xor_allOnes
  rw [bitwiseCrc_eq_foldl, crc32, hnot]
  simp only [hbyte]
  rfl

/-! ## Headers -/

/-- What both headers of an entry have to say. -/
def fileHeader (entry : ZipEntry) : Zip.FileHeader where
  versionNeeded := 20
  flags := 0x0800
  method := 0
  time := fixedDosTime
  date := fixedDosDate
  crc := entry.crc32.toNat
  compressedSize := entry.body.length
  uncompressedSize := entry.body.length
  name := utf8Encode entry.filename
  extra := []

def centralHeader (offset : ℕ) (entry : ZipEntry) : Zip.CentralHeader where
  versionMadeBy := 20
  file := fileHeader entry
  comment := []
  diskStart := 0
  internalAttributes := 0
  externalAttributes := 0
  localOffset := offset

def zipMember (offset : ℕ) (entry : ZipEntry) : Zip.Member where
  localHeader := fileHeader entry
  central := centralHeader offset entry
  body := entry.body

/-- The members for the entries, each after the one before it. -/
def zipMembers : ℕ → List ZipEntry → List Zip.Member
  | _, [] => []
  | offset, entry :: entries =>
      zipMember offset entry ::
        zipMembers (offset + (zipMember offset entry).record.length) entries

theorem writeFields_sized {fields : List PlacedField} {sized : List SizedField}
    (hsized : fields.map PlacedField.sized = sized) (hfit : Zip.Fit sized)
    (hplaces : Contiguous 0 fields) {n : ℕ} (hsize : (sized.map Prod.fst).sum = n)
    (rest : Bytes) :
    writeFields (alloc n ++ rest) fields = some (encodeFields sized ++ rest) := by
  subst hsized
  have hfits : ∀ field ∈ fields, field.value < 256 ^ field.width :=
    fun _ hfield ↦ hfit _ (List.mem_map_of_mem hfield)
  have hwidths : (fields.map PlacedField.width).sum = n := by
    rw [← hsize, List.map_map]
    rfl
  exact writeFields_contiguous hfits [] rest hplaces hwidths

/-- A header is its fields and the name. -/
theorem header_eq {fields : List PlacedField} {sized : List SizedField}
    (hsized : fields.map PlacedField.sized = sized) (hfit : Zip.Fit sized)
    (hplaces : Contiguous 0 fields) {n : ℕ} (hsize : (sized.map Prod.fst).sum = n)
    (name : Bytes) :
    ((writeFields (alloc (n + name.length)) fields).bind fun buf ↦ some (copyInto name buf n)) =
      some (encodeFields sized ++ name) := by
  have halloc : alloc (n + name.length) = alloc n ++ alloc name.length :=
    (List.replicate_append_replicate ..).symm
  have hlength : (encodeFields sized).length = n := by
    rw [length_encodeFields, hsize]
  rw [halloc, writeFields_sized hsized hfit hplaces hsize, Option.bind_some, copyInto,
    List.take_left' hlength]
  simp [hlength, alloc]

theorem sum_localFields (h : Zip.FileHeader) : ((Zip.localFields h).map Prod.fst).sum = 30 := by
  simp [Zip.localFields, Zip.FileHeader.fields, Zip.FileHeader.sizes]

theorem sum_centralFields (c : Zip.CentralHeader) :
    ((Zip.centralFields c).map Prod.fst).sum = 46 := by
  simp [Zip.centralFields, Zip.FileHeader.fields, Zip.FileHeader.sizes]

theorem sum_endFields (last : Zip.EndRecord) : ((Zip.endFields last).map Prod.fst).sum = 22 := by
  simp [Zip.endFields]

theorem encodeLocalFileHeader_eq {entry : ZipEntry}
    (hfit : Zip.Fit (Zip.localFields (fileHeader entry))) :
    encodeLocalFileHeader entry = some (Zip.encodeLocal (fileHeader entry)) := by
  rw [encodeLocalFileHeader, Zip.encodeLocal]
  refine (header_eq ?_ hfit ?_ (sum_localFields _) (utf8Encode entry.filename)).trans ?_
  · rfl
  · simp [Contiguous, u16, u32]
  · simp [fileHeader]

theorem encodeCentralDirectoryHeader_eq {entry : ZipEntry} {offset : ℕ}
    (hfit : Zip.Fit (Zip.centralFields (centralHeader offset entry))) :
    encodeCentralDirectoryHeader entry offset =
      some (Zip.encodeCentral (centralHeader offset entry)) := by
  rw [encodeCentralDirectoryHeader, Zip.encodeCentral]
  refine (header_eq ?_ hfit ?_ (sum_centralFields _) (utf8Encode entry.filename)).trans ?_
  · rfl
  · simp [Contiguous, u16, u32]
  · simp [centralHeader, fileHeader]

theorem encodeEndOfCentralDirectory_eq {input : EocdInput} {last : Zip.EndRecord}
    (hlast : last = ⟨0, 0, input.totalEntries, input.totalEntries, input.centralDirectorySize,
      input.centralDirectoryOffset⟩) (hfit : Zip.Fit (Zip.endFields last)) :
    encodeEndOfCentralDirectory input = some (encodeFields (Zip.endFields last)) := by
  subst hlast
  rw [encodeEndOfCentralDirectory, ← List.append_nil (alloc 22)]
  refine (writeFields_sized ?_ hfit ?_ (sum_endFields _) []).trans ?_
  · rfl
  · simp [Contiguous, u16, u32]
  · rw [List.append_nil]

/-! ## The loop -/

/-- Every member of the archive fits its fields. -/
def FitsFrom (offset : ℕ) (entries : List ZipEntry) : Prop :=
  ∀ m ∈ zipMembers offset entries, m.Sound

theorem foldlM_addEntry {entries : List ZipEntry} {chunks : Chunks}
    (hfits : FitsFrom chunks.offset entries) :
    ∃ result, entries.foldlM addEntry chunks = some result ∧
      result.localChunks.flatten = chunks.localChunks.flatten ++
        (zipMembers chunks.offset entries).flatMap Zip.Member.record ∧
      result.centralChunks.flatten = chunks.centralChunks.flatten ++
        Zip.directory (zipMembers chunks.offset entries) ∧
      result.offset = chunks.offset +
        ((zipMembers chunks.offset entries).flatMap Zip.Member.record).length := by
  induction entries generalizing chunks with
  | nil => exact ⟨chunks, rfl, by simp [zipMembers], by simp [zipMembers, Zip.directory],
      by simp [zipMembers]⟩
  | cons entry entries ih =>
      obtain ⟨hmember, hrest⟩ := List.forall_mem_cons.mp hfits
      have hadd : addEntry chunks entry = some {
          localChunks := chunks.localChunks ++
            [Zip.encodeLocal (fileHeader entry), entry.body]
          centralChunks := chunks.centralChunks ++
            [Zip.encodeCentral (centralHeader chunks.offset entry)]
          offset := chunks.offset + (zipMember chunks.offset entry).record.length } := by
        rw [addEntry, encodeLocalFileHeader_eq hmember.localFit,
          encodeCentralDirectoryHeader_eq hmember.centralFit]
        simp [Zip.Member.record, zipMember]
      obtain ⟨result, hfold, hlocal, hcentral, hoffset⟩ := @ih ⟨_, _, chunks.offset +
        (zipMember chunks.offset entry).record.length⟩ hrest
      refine ⟨result, ?_, ?_, ?_, ?_⟩
      · rw [List.foldlM_cons, hadd]
        exact hfold
      · rw [hlocal]
        simp [zipMembers, Zip.Member.record, zipMember]
      · rw [hcentral]
        simp [zipMembers, Zip.directory, zipMember]
      · rw [hoffset]
        simp [zipMembers]
        omega

theorem placed_zipMembers (offset : ℕ) (entries : List ZipEntry) :
    Zip.Placed offset (zipMembers offset entries) := by
  induction entries generalizing offset with
  | nil => trivial
  | cons entry entries ih => exact ⟨rfl, ih _⟩

/-! ## Sizes -/

def archiveSize (entries : List ZipEntry) : ℕ :=
  (entries.map fun entry ↦
    30 + (utf8Encode entry.filename).length + entry.body.length +
      (46 + (utf8Encode entry.filename).length)).sum + 22

theorem length_encodeLocal (entry : ZipEntry) :
    (Zip.encodeLocal (fileHeader entry)).length = 30 + (utf8Encode entry.filename).length := by
  rw [Zip.encodeLocal, List.length_append, List.length_append, length_encodeFields,
    sum_localFields]
  simp [fileHeader]

theorem length_encodeCentral (offset : ℕ) (entry : ZipEntry) :
    (Zip.encodeCentral (centralHeader offset entry)).length =
      46 + (utf8Encode entry.filename).length := by
  rw [Zip.encodeCentral, List.length_append, List.length_append, List.length_append,
    length_encodeFields, sum_centralFields]
  simp [centralHeader, fileHeader]

theorem length_record (offset : ℕ) (entry : ZipEntry) :
    (zipMember offset entry).record.length =
      30 + (utf8Encode entry.filename).length + entry.body.length := by
  rw [Zip.Member.record, List.length_append, zipMember, length_encodeLocal]

theorem length_zipMembers (offset : ℕ) (entries : List ZipEntry) :
    (zipMembers offset entries).length = entries.length := by
  induction entries generalizing offset with
  | nil => rfl
  | cons entry entries ih => simp [zipMembers, ih]

/-- The two halves of an archive and its end record. -/
theorem length_archive (offset : ℕ) (entries : List ZipEntry) :
    ((zipMembers offset entries).flatMap Zip.Member.record).length +
      (Zip.directory (zipMembers offset entries)).length + 22 = archiveSize entries := by
  induction entries generalizing offset with
  | nil => simp [zipMembers, Zip.directory, archiveSize]
  | cons entry entries ih =>
      have hrest := ih (offset + (zipMember offset entry).record.length)
      have hcentral := length_encodeCentral offset entry
      simp only [zipMembers, List.flatMap_cons, Zip.directory, List.map_cons, List.length_append,
        archiveSize, List.sum_cons, length_record] at hrest ⊢
      simp only [zipMember] at hcentral ⊢
      omega

/-- Entries whose archive is small enough fit their fields. -/
theorem fitsFrom_of_small {entries : List ZipEntry} {offset : ℕ}
    (hnames : ∀ entry ∈ entries, (utf8Encode entry.filename).length < 2 ^ 16)
    (hsize : offset + archiveSize entries < 2 ^ 32) : FitsFrom offset entries := by
  induction entries generalizing offset with
  | nil => simp [FitsFrom, zipMembers]
  | cons entry entries ih =>
      obtain ⟨hname, hnames⟩ := List.forall_mem_cons.mp hnames
      have hcrc : entry.crc32.toNat < 2 ^ 32 := entry.crc32.isLt
      have hdate : fixedDosDate < 2 ^ 16 := by decide
      simp only [archiveSize, List.map_cons, List.sum_cons] at hsize
      rw [FitsFrom, zipMembers]
      refine List.forall_mem_cons.mpr ⟨⟨?_, ?_, rfl⟩, ih hnames ?_⟩
      · simp only [Zip.Fit, Zip.localFields, Zip.FileHeader.fields, Zip.FileHeader.sizes,
          zipMember, fileHeader, List.cons_append, List.nil_append, List.forall_mem_cons]
        norm_num [fixedDosTime, Zip.localSignature]
        omega
      · simp only [Zip.Fit, Zip.centralFields, Zip.FileHeader.fields, Zip.FileHeader.sizes,
          zipMember, centralHeader, fileHeader, List.cons_append, List.nil_append, List.forall_mem_cons]
        norm_num [fixedDosTime, Zip.centralSignature]
        omega
      · rw [length_record, archiveSize]
        omega

/-! ## The order of the entries -/

def byName (a b : JsString × Bytes) : ℤ := codeUnitCompare a.1 b.1

theorem sortBy_compareNames {entries : List (JsString × Bytes)}
    (h : (entries.map Prod.fst).Nodup) : sortBy compareNames entries = sortBy byName entries := by
  apply sortBy_congr
  refine (List.pairwise_map.mp h).imp fun {a b} hne ↦ ?_
  rw [byName, compareNames, codeUnitCompare]
  by_cases hlt : a.1 < b.1
  · rw [if_pos hlt, if_pos hlt]
  · rw [if_neg hlt, if_neg hlt, if_neg hne]

/-- Entries of different names are sorted in one way only. -/
theorem sortBy_compareNames_perm {xs ys : List (JsString × Bytes)}
    (h : (xs.map Prod.fst).Nodup) (hperm : xs.Perm ys) :
    sortBy compareNames xs = sortBy compareNames ys := by
  have hnodup : (ys.map Prod.fst).Nodup := (hperm.map Prod.fst).nodup h
  rw [sortBy_compareNames h, sortBy_compareNames hnodup]
  have hsort := consistent_codeUnitCompare.comap (Prod.fst (α := JsString) (β := Bytes))
  have hsorted := (sortBy_perm byName xs).trans (hperm.trans (sortBy_perm byName ys).symm)
  refine hsorted.eq_of_pairwise ?_ (hsort.pairwise_sortBy xs) (hsort.pairwise_sortBy ys)
  intro a b ha hb hab hba
  have hname : a.1 = b.1 :=
    Std.le_antisymm (codeUnitCompare_nonpos.mp hab) (codeUnitCompare_nonpos.mp hba)
  exact List.inj_on_of_nodup_map h (mem_sortBy.mp ha) (hperm.mem_iff.mpr (mem_sortBy.mp hb)) hname

def caseName (file : PerCaseFile) : JsString := js "cases/" ++ file.filename

/-- The names that are the same in every bundle. -/
def fixedNames : List JsString :=
  [js "testfaelle.md", js "business-intent-ir.json", js "evidence-manifest.json",
    js "regulatoryRelevance-summary.json"]

theorem caseName_notMem_fixedNames (file : PerCaseFile) : caseName file ∉ fixedNames := by
  intro hmem
  have hfixed : ∀ name ∈ fixedNames, (js "cases/").isPrefixOf name = false := by decide
  have hstart : (js "cases/").isPrefixOf (caseName file) = true :=
    List.isPrefixOf_iff_prefix.mpr (List.prefix_append _ _)
  exact Bool.false_ne_true ((hfixed _ hmem).symm.trans hstart)

theorem rawEntries_names (bundle : CustomerMarkdownZipBundle) :
    ∃ fixed, List.Sublist fixed fixedNames ∧
      ((rawEntries bundle).map Prod.fst).Perm (fixed ++ bundle.perCase.map caseName) := by
  obtain ⟨jobId, combined, perCase, intent, manifest, summary⟩ := bundle
  have hcases : (perCase.map fun file ↦ (js "cases/" ++ file.filename,
      utf8Encode file.body)).map Prod.fst = perCase.map caseName := by
    rw [List.map_map]
    rfl
  cases manifest with
  | none =>
      refine ⟨[js "testfaelle.md", js "business-intent-ir.json",
        js "regulatoryRelevance-summary.json"], by decide, ?_⟩
      simp only [rawEntries, List.map_cons, List.map_append, hcases]
      simpa using @List.perm_append_comm _ (perCase.map caseName) [js "business-intent-ir.json",
        js "regulatoryRelevance-summary.json"]
  | some json =>
      refine ⟨fixedNames, List.Sublist.refl _, ?_⟩
      simp only [rawEntries, List.map_cons, List.map_append, hcases]
      simpa [fixedNames] using @List.perm_append_comm _ (perCase.map caseName)
        [js "business-intent-ir.json", js "evidence-manifest.json",
          js "regulatoryRelevance-summary.json"]

theorem nodup_rawEntries {bundle : CustomerMarkdownZipBundle}
    (h : (bundle.perCase.map PerCaseFile.filename).Nodup) :
    ((rawEntries bundle).map Prod.fst).Nodup := by
  obtain ⟨fixed, hfixed, hperm⟩ := rawEntries_names bundle
  have hcases : (bundle.perCase.map caseName).Nodup := by
    have hinj : Function.Injective fun name : JsString ↦ js "cases/" ++ name :=
      List.append_right_injective _
    have hmap := h.map hinj
    rwa [List.map_map] at hmap
  rw [hperm.nodup_iff]
  refine List.Nodup.append (hfixed.nodup (by decide)) hcases ?_
  intro name hname hcase
  obtain ⟨file, -, rfl⟩ := List.mem_map.mp hcase
  exact caseName_notMem_fixedNames file (hfixed.subset hname)

theorem rawEntries_perm {bundle : CustomerMarkdownZipBundle} {perCase : List PerCaseFile}
    (h : bundle.perCase.Perm perCase) :
    (rawEntries bundle).Perm (rawEntries { bundle with perCase := perCase }) :=
  ((((h.map _).append_right _).append_right _).append_right _).cons _

/-- The order of the cases in the bundle leaves no trace. -/
theorem collectEntries_perm {bundle : CustomerMarkdownZipBundle} {perCase : List PerCaseFile}
    (hnodup : (bundle.perCase.map PerCaseFile.filename).Nodup)
    (h : bundle.perCase.Perm perCase) :
    collectEntries { bundle with perCase := perCase } = collectEntries bundle := by
  rw [collectEntries, collectEntries,
    sortBy_compareNames_perm (nodup_rawEntries hnodup) (rawEntries_perm h)]

/-! ## Reading back -/

/-- The collected entries fit an archive. -/
structure CustomerMarkdownZipBundle.Fits (bundle : CustomerMarkdownZipBundle) : Prop where
  distinct : (bundle.perCase.map PerCaseFile.filename).Nodup
  names : ∀ entry ∈ collectEntries bundle, (utf8Encode entry.filename).length < 2 ^ 16
  count : (collectEntries bundle).length < 2 ^ 16
  size : archiveSize (collectEntries bundle) < 2 ^ 32

theorem fit_endRecord {entries : List ZipEntry} (hcount : entries.length < 2 ^ 16)
    (hsize : archiveSize entries < 2 ^ 32) :
    Zip.Fit (Zip.endFields (Zip.endRecord (zipMembers 0 entries))) := by
  have hlength := length_archive 0 entries
  simp only [Zip.Fit, Zip.endFields, Zip.endRecord, length_zipMembers, List.forall_mem_cons]
  norm_num [Zip.endSignature, -List.length_flatMap]
  omega

theorem buildCustomerMarkdownZipBundle_eq {bundle : CustomerMarkdownZipBundle}
    (hfits : FitsFrom 0 (collectEntries bundle))
    (hend : Zip.Fit (Zip.endFields (Zip.endRecord (zipMembers 0 (collectEntries bundle))))) :
    buildCustomerMarkdownZipBundle bundle =
      some (Zip.encode (zipMembers 0 (collectEntries bundle))) := by
  obtain ⟨result, hfold, hlocal, hcentral, hoffset⟩ :=
    @foldlM_addEntry (collectEntries bundle) ⟨[], [], 0⟩ hfits
  rw [List.flatten_nil, List.nil_append] at hlocal hcentral
  rw [Nat.zero_add] at hoffset
  have hrecord : encodeEndOfCentralDirectory ⟨(collectEntries bundle).length,
      result.centralChunks.flatten.length, result.offset⟩ =
      some (encodeFields (Zip.endFields
        (Zip.endRecord (zipMembers 0 (collectEntries bundle))))) := by
    refine encodeEndOfCentralDirectory_eq ?_ hend
    rw [Zip.endRecord, length_zipMembers, hcentral, hoffset]
  rw [buildCustomerMarkdownZipBundle, hfold]
  simp only [Option.bind_eq_bind, Option.bind_some]
  rw [hrecord, hlocal, hcentral]
  rfl

/-- What reading the archive of a bundle gives. -/
structure ReadsBack (bundle : CustomerMarkdownZipBundle) (bytes : Bytes)
    (members : List Zip.Member) : Prop where
  parse : Zip.parse bytes = some (Zip.endRecord members, members)
  size : bytes.length = archiveSize (collectEntries bundle)
  collected : ((collectEntries bundle).map fun entry ↦ (entry.filename, entry.body)).Perm
    (rawEntries bundle)
  files : members.map (fun m ↦ (m.localHeader.name, m.body)) =
    (collectEntries bundle).map fun entry ↦ (utf8Encode entry.filename, entry.body)
  names : ∀ entry ∈ collectEntries bundle, isWellFormed entry.filename = true →
    utf8Decode (utf8Encode entry.filename) = entry.filename
  headers : ∀ m ∈ members, ∃ offset, m.central = ⟨20, m.localHeader, [], 0, 0, 0, offset⟩ ∧
    m.localHeader = ⟨20, 0x0800, 0, fixedDosTime, fixedDosDate,
      (bitwiseCrc zipPolynomial m.body).toNat, m.body.length, m.body.length, m.localHeader.name,
      []⟩
  offsets : Zip.Placed 0 members

theorem crc32_of_mem_collectEntries {bundle : CustomerMarkdownZipBundle} {entry : ZipEntry}
    (h : entry ∈ collectEntries bundle) :
    entry.crc32 = bitwiseCrc zipPolynomial entry.body := by
  obtain ⟨raw, -, rfl⟩ := List.mem_map.mp h
  exact crc32_eq_bitwiseCrc raw.2

theorem mem_zipMembers {entries : List ZipEntry} {offset : ℕ} {m : Zip.Member}
    (h : m ∈ zipMembers offset entries) :
    ∃ entry ∈ entries, ∃ place, m = zipMember place entry := by
  induction entries generalizing offset with
  | nil => exact absurd h List.not_mem_nil
  | cons entry entries ih =>
      rcases List.mem_cons.mp h with rfl | h
      · exact ⟨entry, List.mem_cons_self, offset, rfl⟩
      · obtain ⟨other, hother, place, rfl⟩ := ih h
        exact ⟨other, List.mem_cons_of_mem _ hother, place, rfl⟩

theorem map_zipMembers (offset : ℕ) (entries : List ZipEntry) :
    (zipMembers offset entries).map (fun m ↦ (m.localHeader.name, m.body)) =
      entries.map fun entry ↦ (utf8Encode entry.filename, entry.body) := by
  induction entries generalizing offset with
  | nil => rfl
  | cons entry entries ih =>
      rw [zipMembers, List.map_cons, List.map_cons, ih]
      rfl

theorem readsBack_zipMembers {bundle : CustomerMarkdownZipBundle}
    (hfits : FitsFrom 0 (collectEntries bundle))
    (hend : Zip.Fit (Zip.endFields (Zip.endRecord (zipMembers 0 (collectEntries bundle))))) :
    ReadsBack bundle (Zip.encode (zipMembers 0 (collectEntries bundle)))
      (zipMembers 0 (collectEntries bundle)) where
  parse := Zip.parse_encode hfits (placed_zipMembers 0 _) hend
  size := by
    rw [← length_archive 0, Zip.encode, List.length_append, List.length_append,
      length_encodeFields, sum_endFields, Nat.add_assoc]
  collected := by
    rw [collectEntries, List.map_map]
    exact (List.map_id _).symm ▸ sortBy_perm compareNames (rawEntries bundle)
  files := map_zipMembers 0 _
  names := fun _ _ hwell ↦ utf8Decode_utf8Encode hwell
  headers := by
    intro m hm
    obtain ⟨entry, hentry, place, rfl⟩ := mem_zipMembers hm
    refine ⟨place, rfl, ?_⟩
    rw [zipMember, fileHeader, crc32_of_mem_collectEntries hentry]
  offsets := placed_zipMembers 0 _

/-- The bytes of a bundle are an archive whose members are the files of the bundle, and they do
not depend on the order of the cases. -/
theorem customerZip_readsBack (bundle : CustomerMarkdownZipBundle) (hfits : bundle.Fits) :
    ∃ bytes, buildCustomerMarkdownZipBundle bundle = some bytes ∧
      (∃ members, ReadsBack bundle bytes members) ∧
      ∀ perCase, bundle.perCase.Perm perCase →
        buildCustomerMarkdownZipBundle { bundle with perCase := perCase } = some bytes := by
  have hfitsFrom : FitsFrom 0 (collectEntries bundle) := by
    apply fitsFrom_of_small hfits.names
    rw [Nat.zero_add]
    exact hfits.size
  have hend := fit_endRecord hfits.count hfits.size
  have hbuild := buildCustomerMarkdownZipBundle_eq hfitsFrom hend
  refine ⟨_, hbuild, ⟨_, readsBack_zipMembers hfitsFrom hend⟩, fun perCase hperm ↦ ?_⟩
  rw [← hbuild, buildCustomerMarkdownZipBundle, buildCustomerMarkdownZipBundle,
    collectEntries_perm hfits.distinct hperm]

def sampleBundle : CustomerMarkdownZipBundle where
  jobId := js "job"
  combinedMarkdown := js "#"
  perCase := [⟨js "b.md", js "two"⟩, ⟨js "a.md", js "one"⟩]
  businessIntentIrJson := js "{}"
  evidenceManifestJson := none
  regulatoryRelevanceSummaryJson := js "{}"

theorem customerZip_readsBack_sample :
    sampleBundle.Fits ∧ ∃ bytes, buildCustomerMarkdownZipBundle sampleBundle = some bytes ∧
      (∃ members, ReadsBack sampleBundle bytes members) ∧
      ∀ perCase, sampleBundle.perCase.Perm perCase →
        buildCustomerMarkdownZipBundle { sampleBundle with perCase := perCase } = some bytes :=
  have hfits : sampleBundle.Fits := {
    distinct := by decide
    names := by decide
    count := by decide
    size := by decide }
  ⟨hfits, customerZip_readsBack sampleBundle hfits⟩

end TestIntelligence.CustomerMarkdown
