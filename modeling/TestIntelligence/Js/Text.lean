import Mathlib.Data.List.Sort
import Mathlib.Data.UInt
import Mathlib.Tactic.Common

/-!
# ECMAScript strings

A string value is a finite sequence of UTF-16 code units, lone surrogates
included.  Comparison, sorting, trimming and splitting follow the language:
code units are compared as numbers, and no normalization takes place.
-/

namespace TestIntelligence.Js

abbrev CodeUnit := UInt16

abbrev JsString := List CodeUnit

instance lawfulBEqJsString : LawfulBEq JsString := List.instLawfulBEq

/-- The UTF-16 encoding of one Unicode scalar value. -/
def encodeScalar (n : ℕ) : JsString :=
  if n < 0x10000 then [n.toUInt16]
  else [(0xD800 + (n - 0x10000) / 0x400).toUInt16, (0xDC00 + (n - 0x10000) % 0x400).toUInt16]

def encodeUtf16 (c : Char) : JsString := encodeScalar c.toNat

/-- The code units of text in UTF-8; the numbers are the bits of a character that has been
begun and its bytes that are still to come. -/
def unitsOfUtf8 (bits more : ℕ) : List UInt8 → JsString
  | [] => []
  | b :: rest =>
      match more with
      | 0 =>
          if b.toNat < 0x80 then b.toUInt16 :: unitsOfUtf8 0 0 rest
          else if b.toNat < 0xE0 then unitsOfUtf8 (b.toNat % 32) 1 rest
          else if b.toNat < 0xF0 then unitsOfUtf8 (b.toNat % 16) 2 rest
          else unitsOfUtf8 (b.toNat % 8) 3 rest
      | 1 => encodeScalar (bits * 64 + b.toNat % 64) ++ unitsOfUtf8 0 0 rest
      | more + 1 => unitsOfUtf8 (bits * 64 + b.toNat % 64) more rest

/-- The string value of a literal, which is held in UTF-8. -/
def js (s : String) : JsString := unitsOfUtf8 0 0 s.toByteArray.data.toList

theorem toNat_ofNat_byte {n : ℕ} (h : n < 256) : (UInt8.ofNat n).toNat = n := by
  simp [Nat.mod_eq_of_lt h]

theorem unitsOfUtf8_utf8EncodeChar (c : Char) (rest : List UInt8) :
    unitsOfUtf8 0 0 (String.utf8EncodeChar c ++ rest) = encodeUtf16 c ++ unitsOfUtf8 0 0 rest := by
  have hc : c.toNat < 0x110000 := by
    have hvalid : c.toNat < 0xD800 ∨ 0xDFFF < c.toNat ∧ c.toNat < 0x110000 := c.valid
    omega
  change unitsOfUtf8 0 0 (String.utf8EncodeChar c ++ rest) =
    encodeScalar c.toNat ++ unitsOfUtf8 0 0 rest
  have hbytes : String.utf8EncodeChar c = (fun v ↦
      if v ≤ 127 then [UInt8.ofNat v]
      else if v ≤ 2047 then [UInt8.ofNat (v / 64 % 32 + 192), UInt8.ofNat (v % 64 + 128)]
      else if v ≤ 65535 then
        [UInt8.ofNat (v / 4096 % 16 + 224), UInt8.ofNat (v / 64 % 64 + 128),
          UInt8.ofNat (v % 64 + 128)]
      else
        [UInt8.ofNat (v / 262144 % 8 + 240), UInt8.ofNat (v / 4096 % 64 + 128),
          UInt8.ofNat (v / 64 % 64 + 128), UInt8.ofNat (v % 64 + 128)]) c.toNat := rfl
  rw [hbytes]
  generalize c.toNat = n at hc ⊢
  dsimp only
  have hlast := toNat_ofNat_byte (show n % 64 + 128 < 256 by omega)
  have hmiddle := toNat_ofNat_byte (show n / 64 % 64 + 128 < 256 by omega)
  have hthird := toNat_ofNat_byte (show n / 4096 % 64 + 128 < 256 by omega)
  split
  · next hone =>
    have hlead := toNat_ofNat_byte (show n < 256 by omega)
    have hunit : (UInt8.ofNat n).toUInt16 = n.toUInt16 := by
      apply UInt16.toNat_inj.mp
      rw [UInt8.toNat_toUInt16, hlead]
      exact (Nat.mod_eq_of_lt (by omega)).symm
    rw [List.singleton_append, unitsOfUtf8, hlead, if_pos (by omega), hunit, encodeScalar,
      if_pos (by omega), List.singleton_append]
  · next hone =>
    split
    · next htwo =>
      have hlead := toNat_ofNat_byte (show n / 64 % 32 + 192 < 256 by omega)
      have hbits : (n / 64 % 32 + 192) % 32 * 64 + (n % 64 + 128) % 64 = n := by omega
      simp only [List.cons_append, List.nil_append, unitsOfUtf8, hlead, hlast, hbits]
      rw [if_neg (by omega), if_pos (by omega)]
    · next htwo =>
      split
      · next hthree =>
        have hlead := toNat_ofNat_byte (show n / 4096 % 16 + 224 < 256 by omega)
        have hbits : ((n / 4096 % 16 + 224) % 16 * 64 + (n / 64 % 64 + 128) % 64) * 64 +
            (n % 64 + 128) % 64 = n := by omega
        simp only [List.cons_append, List.nil_append, unitsOfUtf8, hlead, hmiddle, hlast, hbits]
        rw [if_neg (by omega), if_neg (by omega), if_pos (by omega)]
      · next hthree =>
        have hlead := toNat_ofNat_byte (show n / 262144 % 8 + 240 < 256 by omega)
        have hbits : (((n / 262144 % 8 + 240) % 8 * 64 + (n / 4096 % 64 + 128) % 64) * 64 +
            (n / 64 % 64 + 128) % 64) * 64 + (n % 64 + 128) % 64 = n := by omega
        simp only [List.cons_append, List.nil_append, unitsOfUtf8, hlead, hthird, hmiddle, hlast,
          hbits]
        rw [if_neg (by omega), if_neg (by omega), if_neg (by omega)]

theorem js_ofList (cs : List Char) : js (String.ofList cs) = cs.flatMap encodeUtf16 := by
  rw [js, String.toByteArray_ofList, List.utf8Encode, List.data_toByteArray]
  induction cs with
  | nil => rfl
  | cons c cs ih => rw [List.flatMap_cons, unitsOfUtf8_utf8EncodeChar, ih, List.flatMap_cons]

theorem js_eq_flatMap (s : String) : js s = s.toList.flatMap encodeUtf16 := by
  rw [← js_ofList, String.ofList_toList]

/-- No encoding of a scalar value starts another one. -/
theorem encodeUtf16_append_inj {c d : Char} {s t : JsString}
    (h : encodeUtf16 c ++ s = encodeUtf16 d ++ t) : c = d ∧ s = t := by
  have hvalid : ∀ e : Char, e.toNat < 0xD800 ∨ 0xDFFF < e.toNat ∧ e.toNat < 0x110000 :=
    fun e ↦ e.valid
  have hunit : ∀ n m : ℕ, n < 0x10000 → m < 0x10000 → n.toUInt16 = m.toUInt16 → n = m := by
    intro n m hn hm hnm
    have := congrArg UInt16.toNat hnm
    simpa [Nat.mod_eq_of_lt hn, Nat.mod_eq_of_lt hm] using this
  have hc := hvalid c
  have hd := hvalid d
  unfold encodeUtf16 encodeScalar at h
  split at h
  · next hlow =>
      split at h
      · next hlow' =>
          obtain ⟨hhead, hrest⟩ := List.cons.inj h
          exact ⟨Char.toNat_inj.mp (hunit _ _ hlow hlow' hhead), hrest⟩
      · next hhigh' =>
          have hhead := hunit _ _ hlow (by omega) (List.cons.inj h).1
          omega
  · next hhigh =>
      split at h
      · next hlow' =>
          have hhead := hunit _ _ (by omega) hlow' (List.cons.inj h).1
          omega
      · next hhigh' =>
          obtain ⟨hfirst, hrest⟩ := List.cons.inj h
          obtain ⟨hsecond, hrest⟩ := List.cons.inj hrest
          have hfirst := hunit _ _ (by omega) (by omega) hfirst
          have hsecond := hunit _ _ (by omega) (by omega) hsecond
          exact ⟨Char.toNat_inj.mp (by omega), hrest⟩

theorem js_injective : Function.Injective js := by
  intro s t h
  apply String.toList_inj.mp
  rw [js_eq_flatMap, js_eq_flatMap] at h
  generalize s.toList = cs at h ⊢
  generalize t.toList = ds at h ⊢
  induction cs generalizing ds with
  | nil =>
      cases ds with
      | nil => rfl
      | cons d ds =>
          have hne : encodeUtf16 d ≠ [] := by
            unfold encodeUtf16 encodeScalar
            split <;> simp
          simp [hne] at h
  | cons c cs ih =>
      cases ds with
      | nil =>
          have hne : encodeUtf16 c ≠ [] := by
            unfold encodeUtf16 encodeScalar
            split <;> simp
          simp [hne] at h
      | cons d ds =>
          obtain ⟨rfl, hrest⟩ := encodeUtf16_append_inj h
          rw [ih _ hrest]

@[simp] theorem js_inj {s t : String} : js s = js t ↔ s = t := js_injective.eq_iff

theorem nodup_map_js {names : List String} : (names.map js).Nodup ↔ names.Nodup :=
  List.nodup_map_iff js_injective

/-- `Array.prototype.sort` without a comparator, on an array of strings. -/
def sortStrings (xs : List JsString) : List JsString := xs.insertionSort (· ≤ ·)

theorem sortStrings_perm (xs : List JsString) : (sortStrings xs).Perm xs :=
  List.perm_insertionSort _ xs

@[simp] theorem mem_sortStrings {xs : List JsString} {x : JsString} :
    x ∈ sortStrings xs ↔ x ∈ xs := (sortStrings_perm xs).mem_iff

@[simp] theorem sortStrings_nil : sortStrings [] = [] := rfl

@[simp] theorem sortStrings_singleton (x : JsString) : sortStrings [x] = [x] := rfl

instance : Std.Total (α := JsString) (· ≤ ·) := ⟨fun _ _ ↦ Std.le_total⟩

instance : IsTrans JsString (· ≤ ·) := ⟨fun _ _ _ ↦ Std.le_trans⟩

theorem sortStrings_pairwise (xs : List JsString) : (sortStrings xs).Pairwise (· ≤ ·) :=
  List.pairwise_insertionSort _ xs

/-- Sorting forgets the order in which the strings were given. -/
theorem sortStrings_eq_of_perm {xs ys : List JsString} (h : xs.Perm ys) :
    sortStrings xs = sortStrings ys := by
  have hperm : (sortStrings xs).Perm (sortStrings ys) :=
    (sortStrings_perm xs).trans (h.trans (sortStrings_perm ys).symm)
  exact hperm.eq_of_pairwise (fun a b _ _ hab hba ↦ Std.le_antisymm hab hba)
    (sortStrings_pairwise xs) (sortStrings_pairwise ys)

/-- `Array.prototype.sort` without a comparator, on values that stand for strings. -/
def sortOn {α : Type*} (text : α → JsString) (xs : List α) : List α :=
  xs.insertionSort (fun a b ↦ text a ≤ text b)

theorem sortOn_perm {α : Type*} (text : α → JsString) (xs : List α) :
    (sortOn text xs).Perm xs :=
  List.perm_insertionSort _ xs

@[simp] theorem mem_sortOn {α : Type*} {text : α → JsString} {xs : List α} {x : α} :
    x ∈ sortOn text xs ↔ x ∈ xs := List.mem_insertionSort _

theorem map_sortOn {α : Type*} (text : α → JsString) (xs : List α) :
    (sortOn text xs).map text = sortStrings (xs.map text) := by
  apply List.map_insertionSort
  exact fun _ _ _ _ ↦ Iff.rfl

/-- The code units that end a line: LF, CR, LS and PS. -/
def isLineTerminator (u : CodeUnit) : Bool :=
  u == 0x0A || u == 0x0D || u == 0x2028 || u == 0x2029

/-- The code units removed by `String.prototype.trim`. -/
def isWhiteSpace (u : CodeUnit) : Bool :=
  isLineTerminator u || u == 0x09 || u == 0x0B || u == 0x0C || u == 0x20 ||
    u == 0xA0 || u == 0x1680 || (0x2000 ≤ u && u ≤ 0x200A) || u == 0x202F ||
    u == 0x205F || u == 0x3000 || u == 0xFEFF

/-- `String.prototype.trim`. -/
def trim (s : JsString) : JsString :=
  ((s.dropWhile isWhiteSpace).reverse.dropWhile isWhiteSpace).reverse

/-- `String.prototype.split` at a single code unit. -/
def split (sep : CodeUnit) : JsString → List JsString
  | [] => [[]]
  | u :: rest =>
      if u = sep then [] :: split sep rest
      else
        match split sep rest with
        | [] => [[u]]
        | part :: parts => (u :: part) :: parts

/-- `Array.prototype.join`. -/
def join (sep : JsString) : List JsString → JsString
  | [] => []
  | [s] => s
  | s :: t :: rest => s ++ sep ++ join sep (t :: rest)

/-- The text after `pre`, when the string starts with it. -/
def stripPrefix (pre s : JsString) : Option JsString :=
  if pre.isPrefixOf s then some (s.drop pre.length) else none

/-- `s.replace(/u/g, text)`, for one code unit -/
def replaceUnit (u : CodeUnit) (text s : JsString) : JsString :=
  s.flatMap fun v ↦ if v = u then text else [v]

/-- The text before `suf`, when the string ends with it. -/
def stripSuffix (suf s : JsString) : Option JsString :=
  if suf.isSuffixOf s then some (s.take (s.length - suf.length)) else none

end TestIntelligence.Js
