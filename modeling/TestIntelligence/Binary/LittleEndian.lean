import Mathlib.Algebra.Order.Ring.Nat
import Mathlib.Data.List.Basic
import Mathlib.Tactic.Common

/-!
# Little-endian fields

Numbers of a given width in bytes, one after the other or at given offsets of a buffer.
-/

namespace TestIntelligence.Binary

def leBytes : ℕ → ℕ → List UInt8
  | 0, _ => []
  | width + 1, value => UInt8.ofNat value :: leBytes width (value / 256)

def leValue : List UInt8 → ℕ
  | [] => 0
  | b :: bytes => b.toNat + 256 * leValue bytes

@[simp] theorem length_leBytes (width value : ℕ) : (leBytes width value).length = width := by
  induction width generalizing value with
  | zero => rfl
  | succ width ih => simp [leBytes, ih]

theorem leValue_leBytes {width value : ℕ} (h : value < 256 ^ width) :
    leValue (leBytes width value) = value := by
  induction width generalizing value with
  | zero =>
      have hzero : value = 0 := by simpa using h
      rw [hzero]
      rfl
  | succ width ih =>
      have hdiv : value / 256 < 256 ^ width := by
        rw [Nat.div_lt_iff_lt_mul (by decide), ← Nat.pow_succ]
        exact h
      rw [leBytes, leValue, ih hdiv, UInt8.toNat_ofNat']
      omega

/-! ## Fields in a row -/

/-- The width and the value of a field. -/
abbrev SizedField := ℕ × ℕ

def encodeFields (fields : List SizedField) : List UInt8 :=
  fields.flatMap fun field ↦ leBytes field.1 field.2

/-- The fields of the given widths, and the bytes after them. -/
def readFields : List ℕ → List UInt8 → Option (List ℕ × List UInt8)
  | [], bytes => some ([], bytes)
  | width :: widths, bytes =>
      if bytes.length < width then none
      else (readFields widths (bytes.drop width)).map fun r ↦
        (leValue (bytes.take width) :: r.1, r.2)

def readBytes (n : ℕ) (bytes : List UInt8) : Option (List UInt8 × List UInt8) :=
  if bytes.length < n then none else some (bytes.take n, bytes.drop n)

theorem readFields_encodeFields {fields : List SizedField}
    (h : ∀ field ∈ fields, field.2 < 256 ^ field.1) (rest : List UInt8) :
    readFields (fields.map Prod.fst) (encodeFields fields ++ rest) =
      some (fields.map Prod.snd, rest) := by
  induction fields with
  | nil => rfl
  | cons field fields ih =>
      obtain ⟨hfield, hfields⟩ := List.forall_mem_cons.mp h
      have hcons : encodeFields (field :: fields) ++ rest =
          leBytes field.1 field.2 ++ (encodeFields fields ++ rest) := by
        rw [encodeFields, List.flatMap_cons, List.append_assoc]
        rfl
      have htake : (leBytes field.1 field.2 ++ (encodeFields fields ++ rest)).take field.1 =
          leBytes field.1 field.2 := List.take_left' (length_leBytes _ _)
      have hdrop : (leBytes field.1 field.2 ++ (encodeFields fields ++ rest)).drop field.1 =
          encodeFields fields ++ rest := List.drop_left' (length_leBytes _ _)
      rw [hcons, List.map_cons, readFields, if_neg (by simp), htake, hdrop, ih hfields,
        leValue_leBytes hfield]
      rfl

theorem readBytes_append {n : ℕ} {bytes : List UInt8} (h : bytes.length = n) (rest : List UInt8) :
    readBytes n (bytes ++ rest) = some (bytes, rest) := by
  rw [readBytes, if_neg (by simp [h]), List.take_left' h, List.drop_left' h]

theorem length_encodeFields (fields : List SizedField) :
    (encodeFields fields).length = (fields.map Prod.fst).sum := by
  simp [encodeFields, List.length_flatMap]

/-! ## Buffers -/

def alloc (n : ℕ) : List UInt8 := List.replicate n 0

/-- A field with its offset in a buffer. -/
structure PlacedField where
  width : ℕ
  value : ℕ
  offset : ℕ

/-- `buf.writeUInt16LE(value, offset)` -/
def u16 (value offset : ℕ) : PlacedField := ⟨2, value, offset⟩

/-- `buf.writeUInt32LE(value, offset)` -/
def u32 (value offset : ℕ) : PlacedField := ⟨4, value, offset⟩

/-- A write fails for a value that does not fit and for an offset outside the buffer. -/
def writeField (buf : List UInt8) (field : PlacedField) : Option (List UInt8) :=
  if field.value < 256 ^ field.width ∧ field.offset + field.width ≤ buf.length then
    some (buf.take field.offset ++ leBytes field.width field.value ++
      buf.drop (field.offset + field.width))
  else none

def writeFields (buf : List UInt8) (fields : List PlacedField) : Option (List UInt8) :=
  fields.foldlM writeField buf

/-- `source.copy(buf, offset)` -/
def copyInto (source buf : List UInt8) (offset : ℕ) : List UInt8 :=
  buf.take offset ++ source ++ buf.drop (offset + source.length)

/-- Each field starts where the one before it ends. -/
def Contiguous : ℕ → List PlacedField → Prop
  | _, [] => True
  | start, field :: fields => field.offset = start ∧ Contiguous (start + field.width) fields

def PlacedField.sized (field : PlacedField) : SizedField := (field.width, field.value)

/-- The checked writes do the same to values that fit. -/
theorem writeFields_contiguous {fields : List PlacedField}
    (hfits : ∀ field ∈ fields, field.value < 256 ^ field.width) (written rest : List UInt8)
    (hplaces : Contiguous written.length fields) {n : ℕ}
    (hsize : (fields.map PlacedField.width).sum = n) :
    writeFields (written ++ alloc n ++ rest) fields =
      some (written ++ encodeFields (fields.map PlacedField.sized) ++ rest) := by
  induction fields generalizing written n with
  | nil =>
      obtain rfl : n = 0 := hsize.symm
      simp [writeFields, alloc, encodeFields]
  | cons field fields ih =>
      obtain ⟨hfield, hfits⟩ := List.forall_mem_cons.mp hfits
      obtain ⟨hoffset, hplaces⟩ := hplaces
      obtain ⟨left, rfl⟩ : ∃ left, n = field.width + left :=
        ⟨(fields.map PlacedField.width).sum, by rw [← hsize]; simp⟩
      have hleft : (fields.map PlacedField.width).sum = left := by
        simpa using hsize
      have halloc : alloc (field.width + left) = alloc field.width ++ alloc left :=
        (List.replicate_append_replicate ..).symm
      have hwrite : writeField (written ++ alloc (field.width + left) ++ rest) field =
          some (written ++ leBytes field.width field.value ++ alloc left ++ rest) := by
        rw [writeField, if_pos ⟨hfield, by simp [alloc, hoffset]; omega⟩, hoffset, halloc]
        congr 1
        have htake : (written ++ (alloc field.width ++ alloc left) ++ rest).take written.length =
            written := by simp
        have hdrop : (written ++ (alloc field.width ++ alloc left) ++ rest).drop
            (written.length + field.width) = alloc left ++ rest := by
          simp [alloc, List.drop_append]
        rw [htake, hdrop]
        simp
      have hrest := ih hfits (written ++ leBytes field.width field.value)
        (by simpa using hplaces) hleft
      rw [writeFields, List.foldlM_cons, hwrite]
      change writeFields _ fields = _
      rw [hrest]
      simp [encodeFields, PlacedField.sized]

end TestIntelligence.Binary
