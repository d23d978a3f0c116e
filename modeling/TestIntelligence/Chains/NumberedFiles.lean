import TestIntelligence.Js.Collections
import TestIntelligence.Js.Patterns

/-!
# Directories of numbered files

The records of a chain are kept one file each, named by their positions.  A record
is written under a temporary name first and moved into place.  The names are
listed in some order, so a reader sorts them and then sorts the records by their
positions.
-/

namespace TestIntelligence.Chains

open Js

/-- The name of the file at a position. -/
def numberedName (index : JsNumber) : JsString := padStartZero 8 (numberText index) ++ js ".json"

theorem endsWith_numberedName (index : JsNumber) :
    endsWith (numberedName index) (js ".json") = true := by
  rw [endsWith, List.isSuffixOf_iff_suffix]
  exact List.suffix_append _ _

theorem numberedName_ne_append {s : JsString} (hs : s.getLast? = some 0x70) (index : JsNumber) :
    numberedName index ≠ s := by
  rintro rfl
  have hlast : (numberedName index).getLast? = some 0x6E := by
    rw [numberedName, List.getLast?_append]
    rfl
  exact absurd (hlast.symm.trans hs) (by decide)

/-- The files of distinct positions have distinct names. -/
theorem position_eq_of_numberedName_eq {x y : JsNumber} {m n : ℕ} (hx : x.eqNat m = true)
    (hy : y.eqNat n = true) (h : numberedName x = numberedName y) : m = n := by
  obtain ⟨hxfinite, hxrat⟩ := JsNumber.eqNat_iff.mp hx
  obtain ⟨hyfinite, hyrat⟩ := JsNumber.eqNat_iff.mp hy
  have hpadded := List.append_cancel_right h
  have htext : numberText x = numberText y := by
    apply padStartZero_injective _ _ hpadded
    · exact noLeadingZeros_numberText hxfinite (by rw [hxrat]; positivity)
    · exact noLeadingZeros_numberText hyfinite (by rw [hyrat]; positivity)
  obtain ⟨d, hd⟩ := JsNumber.exists_unsigned_eq_finite hxfinite
  obtain ⟨e, he⟩ := JsNumber.exists_unsigned_eq_finite hyfinite
  have hnumber : JsNumber.finite d = .finite e := by
    rw [← stringToNumber_numberText d, ← stringToNumber_numberText e, ← hd, ← he,
      numberText_unsigned, numberText_unsigned, htext]
  have hrat : x.toRat = y.toRat := by
    rw [← JsNumber.toRat_unsigned, ← JsNumber.toRat_unsigned y, hd, he, hnumber]
  rw [hxrat, hyrat] at hrat
  exact_mod_cast hrat

/-- A file that is written under an unused name and renamed to another one. -/
theorem rename_eq_append {files : List (JsString × JsString)} {temporary name : JsString}
    (htemporary : temporary ∉ files.map Prod.fst) (hname : name ∉ files.map Prod.fst)
    (text : JsString) :
    mapSet (mapDelete (mapSet files temporary text) temporary) name text =
      files ++ [(name, text)] := by
  have hdelete : mapDelete (files ++ [(temporary, text)]) temporary = files := by
    rw [mapDelete, List.filter_append]
    have hkept : files.filter (·.1 ≠ temporary) = files :=
      mapDelete_eq_self (mapGet_eq_none_iff.mpr htemporary)
    rw [hkept]
    simp
  rw [mapSet_of_not_mem htemporary, hdelete, mapSet_of_not_mem hname]

section

variable {ρ : Type} (index : ρ → JsNumber)

/-- The index of each record is its position. -/
def InOrder (records : List ρ) : Prop := ∀ i r, records[i]? = some r → (index r).eqNat i = true

variable {index} {records : List ρ}

theorem inOrder_nil : InOrder index [] := by
  simp [InOrder]

theorem InOrder.concat (h : InOrder index records) {r : ρ}
    (hr : (index r).eqNat records.length = true) : InOrder index (records ++ [r]) := by
  intro i s hs
  rcases lt_or_ge i records.length with hi | hi
  · rw [List.getElem?_append_left hi] at hs
    exact h i s hs
  · rw [List.getElem?_append_right hi] at hs
    have hlast : i - records.length < 1 := (List.getElem?_eq_some_iff.mp hs).1
    obtain rfl : i = records.length := by omega
    obtain rfl : r = s := by simpa using hs
    exact hr

theorem InOrder.nodup_names (h : InOrder index records) :
    (records.map fun r ↦ numberedName (index r)).Nodup := by
  rw [List.nodup_iff_getElem?_ne_getElem?]
  intro i j hij hj heq
  rw [List.length_map] at hj
  obtain ⟨r, hr⟩ : ∃ r, records[i]? = some r := ⟨_, List.getElem?_eq_getElem (by omega)⟩
  obtain ⟨s, hs⟩ : ∃ s, records[j]? = some s := ⟨_, List.getElem?_eq_getElem hj⟩
  rw [List.getElem?_map, List.getElem?_map, hr, hs] at heq
  have := position_eq_of_numberedName_eq (h i r hr) (h j s hs) (Option.some.inj heq)
  omega

theorem InOrder.name_not_mem (h : InOrder index records) {x : JsNumber}
    (hx : x.eqNat records.length = true) :
    numberedName x ∉ records.map fun r ↦ numberedName (index r) := by
  intro hmem
  obtain ⟨r, hr, heq⟩ := List.mem_map.mp hmem
  obtain ⟨i, hi⟩ := List.mem_iff_getElem?.mp hr
  have hlt := (List.getElem?_eq_some_iff.mp hi).1
  have := position_eq_of_numberedName_eq (h i r hi) hx heq
  omega

theorem InOrder.pairwise (h : InOrder index records) :
    records.Pairwise fun r s ↦ (index r).toRat < (index s).toRat := by
  rw [List.pairwise_iff_getElem]
  intro i j hi hj hij
  have hposition (k : ℕ) (hk : k < records.length) : (index records[k]).toRat = k :=
    (JsNumber.eqNat_iff.mp (h k records[k] (List.getElem?_eq_getElem hk))).2
  rw [hposition i hi, hposition j hj]
  exact_mod_cast hij

/-- Sorting by index puts the records back in their order. -/
theorem InOrder.insertionSort_of_perm (h : InOrder index records) {found : List ρ}
    (hperm : found.Perm records) :
    found.insertionSort (fun r s ↦ (index r).toRat ≤ (index s).toRat) = records := by
  have hsorted : (found.insertionSort fun r s ↦ (index r).toRat ≤ (index s).toRat).Pairwise
      fun r s ↦ (index r).toRat ≤ (index s).toRat :=
    List.pairwise_insertionSort _ _
  have hsame := (List.perm_insertionSort (fun r s ↦ (index r).toRat ≤ (index s).toRat)
    found).trans hperm
  apply hsame.eq_of_pairwise _ hsorted (h.pairwise.imp le_of_lt)
  intro r s hr hs hrs hsr
  have hkeys : (records.map fun r ↦ (index r).toRat).Nodup := by
    rw [List.Nodup, List.pairwise_map]
    exact h.pairwise.imp ne_of_lt
  exact List.inj_on_of_nodup_map hkeys (hsame.mem_iff.mp hr) hs (le_antisymm hrs hsr)

/-- The names that a reader lists, those of the records in some order. -/
theorem sorted_names (index : ρ → JsNumber) (records : List ρ) (text : ρ → JsString) :
    sortStrings (((records.map fun r ↦ (numberedName (index r), text r)).map Prod.fst).filter
        (endsWith · (js ".json"))) =
      (sortOn (fun r ↦ numberedName (index r)) records).map fun r ↦ numberedName (index r) := by
  rw [List.map_map, List.filter_eq_self.mpr]
  · exact (map_sortOn _ records).symm
  · intro name hname
    obtain ⟨r, -, rfl⟩ := List.mem_map.mp hname
    exact endsWith_numberedName (index r)

/-- Reading the listed files. -/
theorem InOrder.mapM_read {ε : Type} (h : InOrder index records) (text : ρ → JsString)
    (read : JsString → JsString → Except ε ρ)
    (hread : ∀ r ∈ records, read (numberedName (index r)) (text r) = .ok r) {picked : List ρ}
    (hpicked : ∀ r ∈ picked, r ∈ records) :
    ((picked.map fun r ↦ numberedName (index r)).mapM fun name ↦ read name
        ((mapGet (records.map fun r ↦ (numberedName (index r), text r)) name).getD [])) =
      .ok picked := by
  induction picked with
  | nil => rfl
  | cons r picked ih =>
      have hr := hpicked r List.mem_cons_self
      have hnodup : ((records.map fun r ↦ (numberedName (index r), text r)).map Prod.fst).Nodup := by
        rw [List.map_map]
        exact h.nodup_names
      have hget : mapGet (records.map fun r ↦ (numberedName (index r), text r))
          (numberedName (index r)) = some (text r) :=
        mapGet_eq_some_of_mem hnodup (List.mem_map.mpr ⟨r, hr, rfl⟩)
      rw [List.map_cons, List.mapM_cons, hget, Option.getD_some, hread r hr,
        ih fun s hs ↦ hpicked s (List.mem_cons_of_mem r hs)]
      rfl

end

end TestIntelligence.Chains
