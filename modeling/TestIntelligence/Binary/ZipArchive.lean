import TestIntelligence.Binary.Crc32
import TestIntelligence.Binary.LittleEndian

/-!
# ZIP archives

An archive is read from its end: the end record says where the central directory lies, each
header of the directory says where the member lies.  Extra fields and comments are allowed,
an archive comment is not.
-/

namespace TestIntelligence.Binary.Zip

/-- What both headers of a member say. -/
structure FileHeader where
  versionNeeded : ℕ
  flags : ℕ
  method : ℕ
  time : ℕ
  date : ℕ
  crc : ℕ
  compressedSize : ℕ
  uncompressedSize : ℕ
  name : List UInt8
  extra : List UInt8
  deriving DecidableEq

structure CentralHeader where
  versionMadeBy : ℕ
  file : FileHeader
  comment : List UInt8
  diskStart : ℕ
  internalAttributes : ℕ
  externalAttributes : ℕ
  localOffset : ℕ
  deriving DecidableEq

structure Member where
  localHeader : FileHeader
  central : CentralHeader
  body : List UInt8
  deriving DecidableEq

structure EndRecord where
  disk : ℕ
  directoryDisk : ℕ
  diskEntries : ℕ
  totalEntries : ℕ
  directorySize : ℕ
  directoryOffset : ℕ
  deriving DecidableEq

def localSignature : ℕ := 0x04034b50

def centralSignature : ℕ := 0x02014b50

def endSignature : ℕ := 0x06054b50

/-! ## Reading -/

def readLocal (bytes : List UInt8) : Option (FileHeader × List UInt8) := do
  let (fields, rest) ← readFields [4, 2, 2, 2, 2, 2, 4, 4, 4, 2, 2] bytes
  match fields with
  | [signature, versionNeeded, flags, method, time, date, crc, compressedSize, uncompressedSize,
      nameLength, extraLength] =>
      if signature = localSignature then
        let (name, rest) ← readBytes nameLength rest
        let (extra, rest) ← readBytes extraLength rest
        some (⟨versionNeeded, flags, method, time, date, crc, compressedSize, uncompressedSize,
          name, extra⟩, rest)
      else none
  | _ => none

def readCentral (bytes : List UInt8) : Option (CentralHeader × List UInt8) := do
  let (fields, rest) ← readFields [4, 2, 2, 2, 2, 2, 2, 4, 4, 4, 2, 2, 2, 2, 2, 4, 4] bytes
  match fields with
  | [signature, versionMadeBy, versionNeeded, flags, method, time, date, crc, compressedSize,
      uncompressedSize, nameLength, extraLength, commentLength, diskStart, internalAttributes,
      externalAttributes, localOffset] =>
      if signature = centralSignature then
        let (name, rest) ← readBytes nameLength rest
        let (extra, rest) ← readBytes extraLength rest
        let (comment, rest) ← readBytes commentLength rest
        some (⟨versionMadeBy, ⟨versionNeeded, flags, method, time, date, crc, compressedSize,
          uncompressedSize, name, extra⟩, comment, diskStart, internalAttributes,
          externalAttributes, localOffset⟩, rest)
      else none
  | _ => none

def readDirectory : ℕ → List UInt8 → Option (List CentralHeader × List UInt8)
  | 0, bytes => some ([], bytes)
  | n + 1, bytes => do
      let (central, rest) ← readCentral bytes
      let (centrals, rest) ← readDirectory n rest
      some (central :: centrals, rest)

/-- The end record takes all of the bytes. -/
def readEnd (bytes : List UInt8) : Option EndRecord := do
  let (fields, rest) ← readFields [4, 2, 2, 2, 2, 4, 4, 2] bytes
  match fields with
  | [signature, disk, directoryDisk, diskEntries, totalEntries, directorySize, directoryOffset,
      commentLength] =>
      if signature = endSignature ∧ commentLength = 0 ∧ rest = [] then
        some ⟨disk, directoryDisk, diskEntries, totalEntries, directorySize, directoryOffset⟩
      else none
  | _ => none

/-- The member that a header of the directory points to. -/
def readMember (archive : List UInt8) (central : CentralHeader) : Option Member := do
  let (file, rest) ← readLocal (archive.drop central.localOffset)
  let (body, _) ← readBytes central.file.compressedSize rest
  some ⟨file, central, body⟩

def parse (archive : List UInt8) : Option (EndRecord × List Member) := do
  if archive.length < 22 then none
  let last ← readEnd (archive.drop (archive.length - 22))
  if last.directoryOffset + last.directorySize + 22 ≠ archive.length then none
  let (centrals, rest) ← readDirectory last.totalEntries (archive.drop last.directoryOffset)
  if rest.length ≠ 22 then none
  let members ← centrals.mapM (readMember archive)
  some (last, members)

/-! ## Writing -/

namespace FileHeader

def sizes (h : FileHeader) : List SizedField :=
  [(4, h.crc), (4, h.compressedSize), (4, h.uncompressedSize), (2, h.name.length),
    (2, h.extra.length)]

def fields (h : FileHeader) : List SizedField :=
  [(2, h.versionNeeded), (2, h.flags), (2, h.method), (2, h.time), (2, h.date)] ++ h.sizes

end FileHeader

def localFields (h : FileHeader) : List SizedField := (4, localSignature) :: h.fields

def encodeLocal (h : FileHeader) : List UInt8 := encodeFields (localFields h) ++ h.name ++ h.extra

def centralFields (c : CentralHeader) : List SizedField :=
  (4, centralSignature) :: (2, c.versionMadeBy) :: c.file.fields ++
    [(2, c.comment.length), (2, c.diskStart), (2, c.internalAttributes),
      (4, c.externalAttributes), (4, c.localOffset)]

def encodeCentral (c : CentralHeader) : List UInt8 :=
  encodeFields (centralFields c) ++ c.file.name ++ c.file.extra ++ c.comment

def endFields (e : EndRecord) : List SizedField :=
  [(4, endSignature), (2, e.disk), (2, e.directoryDisk), (2, e.diskEntries), (2, e.totalEntries),
    (4, e.directorySize), (4, e.directoryOffset), (2, 0)]

def Fit (fields : List SizedField) : Prop := ∀ field ∈ fields, field.2 < 256 ^ field.1

instance (fields : List SizedField) : Decidable (Fit fields) :=
  inferInstanceAs (Decidable (∀ field ∈ fields, field.2 < 256 ^ field.1))

theorem readLocal_encodeLocal {h : FileHeader} (hfit : Fit (localFields h)) (rest : List UInt8) :
    readLocal (encodeLocal h ++ rest) = some (h, rest) := by
  have hread := readFields_encodeFields hfit (h.name ++ (h.extra ++ rest))
  have hwidths : (localFields h).map Prod.fst = [4, 2, 2, 2, 2, 2, 4, 4, 4, 2, 2] := rfl
  rw [hwidths] at hread
  rw [readLocal, encodeLocal, List.append_assoc, List.append_assoc, hread]
  simp [localFields, FileHeader.fields, FileHeader.sizes, readBytes_append]

theorem readCentral_encodeCentral {c : CentralHeader} (hfit : Fit (centralFields c))
    (rest : List UInt8) : readCentral (encodeCentral c ++ rest) = some (c, rest) := by
  have hread := readFields_encodeFields hfit (c.file.name ++ (c.file.extra ++ (c.comment ++ rest)))
  have hwidths : (centralFields c).map Prod.fst =
      [4, 2, 2, 2, 2, 2, 2, 4, 4, 4, 2, 2, 2, 2, 2, 4, 4] := rfl
  rw [hwidths] at hread
  rw [readCentral, encodeCentral, List.append_assoc, List.append_assoc, List.append_assoc, hread]
  simp [centralFields, FileHeader.fields, FileHeader.sizes, readBytes_append]

theorem readEnd_encodeFields {e : EndRecord} (hfit : Fit (endFields e)) :
    readEnd (encodeFields (endFields e)) = some e := by
  have hread := readFields_encodeFields hfit []
  have hwidths : (endFields e).map Prod.fst = [4, 2, 2, 2, 2, 4, 4, 2] := rfl
  rw [hwidths, List.append_nil] at hread
  rw [readEnd, hread]
  simp [endFields]

theorem readDirectory_flatMap {centrals : List CentralHeader}
    (hfit : ∀ c ∈ centrals, Fit (centralFields c)) (rest : List UInt8) :
    readDirectory centrals.length (centrals.flatMap encodeCentral ++ rest) =
      some (centrals, rest) := by
  induction centrals with
  | nil => rfl
  | cons c centrals ih =>
      obtain ⟨hc, hfit⟩ := List.forall_mem_cons.mp hfit
      rw [List.length_cons, readDirectory, List.flatMap_cons, List.append_assoc,
        readCentral_encodeCentral hc]
      simp [ih hfit]

/-! ## Archives -/

def Member.record (m : Member) : List UInt8 := encodeLocal m.localHeader ++ m.body

/-- The members lie one after the other from the offset on. -/
def Placed : ℕ → List Member → Prop
  | _, [] => True
  | offset, m :: ms => m.central.localOffset = offset ∧ Placed (offset + m.record.length) ms

/-- Both headers fit their fields, and the directory knows the size of the body. -/
structure Member.Sound (m : Member) : Prop where
  localFit : Fit (localFields m.localHeader)
  centralFit : Fit (centralFields m.central)
  size : m.central.file.compressedSize = m.body.length

def directory (members : List Member) : List UInt8 :=
  (members.map Member.central).flatMap encodeCentral

def endRecord (members : List Member) : EndRecord where
  disk := 0
  directoryDisk := 0
  diskEntries := members.length
  totalEntries := members.length
  directorySize := (directory members).length
  directoryOffset := (members.flatMap Member.record).length

def encode (members : List Member) : List UInt8 :=
  members.flatMap Member.record ++
    (directory members ++ encodeFields (endFields (endRecord members)))

theorem readMember_of_placed {m : Member} (h : m.Sound) {archive before after : List UInt8}
    (harchive : archive = before ++ (m.record ++ after))
    (hplace : m.central.localOffset = before.length) : readMember archive m.central = some m := by
  have hdrop : archive.drop m.central.localOffset =
      encodeLocal m.localHeader ++ (m.body ++ after) := by
    rw [hplace, harchive, List.drop_left' rfl, Member.record, List.append_assoc]
  rw [readMember, hdrop, readLocal_encodeLocal h.localFit]
  simp [readBytes_append h.size.symm]

theorem mapM_readMember {members : List Member} (hsound : ∀ m ∈ members, m.Sound)
    {archive before after : List UInt8}
    (harchive : archive = before ++ (members.flatMap Member.record ++ after))
    (hplaced : Placed before.length members) :
    (members.map Member.central).mapM (readMember archive) = some members := by
  induction members generalizing before with
  | nil => rfl
  | cons m members ih =>
      obtain ⟨hm, hsound⟩ := List.forall_mem_cons.mp hsound
      obtain ⟨hplace, hplaced⟩ := hplaced
      rw [List.flatMap_cons, List.append_assoc] at harchive
      have hrest := @ih hsound (before ++ m.record) (by rw [harchive, List.append_assoc])
        (by rwa [List.length_append])
      rw [List.map_cons, List.mapM_cons, readMember_of_placed hm harchive hplace, hrest]
      rfl

/-- An archive reads back. -/
theorem parse_encode {members : List Member} (hsound : ∀ m ∈ members, m.Sound)
    (hplaced : Placed 0 members) (hend : Fit (endFields (endRecord members))) :
    parse (encode members) = some (endRecord members, members) := by
  have hendLength : (encodeFields (endFields (endRecord members))).length = 22 := by
    rw [length_encodeFields]
    rfl
  have hlength : (encode members).length = (endRecord members).directoryOffset +
      (endRecord members).directorySize + 22 := by
    rw [encode, List.length_append, List.length_append, hendLength]
    exact (Nat.add_assoc _ _ _).symm
  have hdirectory : (encode members).drop (endRecord members).directoryOffset =
      directory members ++ encodeFields (endFields (endRecord members)) :=
    List.drop_left' rfl
  have hlast : (encode members).drop ((encode members).length - 22) =
      encodeFields (endFields (endRecord members)) := by
    have hassoc : encode members = (members.flatMap Member.record ++ directory members) ++
        encodeFields (endFields (endRecord members)) := (List.append_assoc ..).symm
    rw [hassoc, List.length_append, hendLength, Nat.add_sub_cancel, List.drop_left' rfl]
  have hread : readDirectory (endRecord members).totalEntries (directory members ++
      encodeFields (endFields (endRecord members))) = some (members.map Member.central,
        encodeFields (endFields (endRecord members))) := by
    have hfit : ∀ c ∈ members.map Member.central, Fit (centralFields c) := by
      intro c hc
      obtain ⟨m, hm, rfl⟩ := List.mem_map.mp hc
      exact (hsound m hm).centralFit
    have hflatMap := readDirectory_flatMap hfit (encodeFields (endFields (endRecord members)))
    rwa [List.length_map] at hflatMap
  have hmembers : (members.map Member.central).mapM (readMember (encode members)) = some members :=
    @mapM_readMember members hsound (encode members) []
      (directory members ++ encodeFields (endFields (endRecord members)))
      (by rw [encode, List.nil_append]) hplaced
  rw [parse, if_neg (by omega), hlast, readEnd_encodeFields hend]
  simp only [Option.bind_eq_bind, Option.bind_some, hdirectory, hlength, ne_eq, not_true, if_false]
  rw [hread]
  simp [hendLength, hmembers]

end TestIntelligence.Binary.Zip
