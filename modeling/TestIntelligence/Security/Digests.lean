import TestIntelligence.Js.Collections
import TestIntelligence.Js.Patterns
import TestIntelligence.Js.Utf8

/-!
# Digests on a few inputs

Injective functions that agree with a table of digests, on texts and on bytes.
-/

namespace TestIntelligence.Security

open Js

/-- The lower-case hexadecimal digits of a number. -/
def hexText : ℕ → ℕ → JsString
  | 0, _ => []
  | length + 1, n =>
      hexText length (n / 16) ++ [.ofNat (if n % 16 < 10 then n % 16 + 0x30 else n % 16 + 0x57)]

theorem length_hexText (length n : ℕ) : (hexText length n).length = length := by
  induction length generalizing n with
  | zero => rfl
  | succ length ih => rw [hexText, List.length_append, ih, List.length_singleton]

theorem hexDigit_isLowerHex : ∀ d < 16,
    isLowerHex (.ofNat (if d < 10 then d + 0x30 else d + 0x57)) = true := by
  decide

theorem all_hexText (length n : ℕ) : (hexText length n).all isLowerHex = true := by
  induction length generalizing n with
  | zero => rfl
  | succ length ih =>
      have hdigit := hexDigit_isLowerHex (n % 16) (Nat.mod_lt n (by decide))
      rw [hexText, List.all_append, ih, List.all_cons, hdigit]
      rfl

theorem isHexOfLength_hexText (length n : ℕ) : isHexOfLength length (hexText length n) = true := by
  rw [isHexOfLength, length_hexText, all_hexText, beq_self_eq_true]
  rfl

section

variable {κ : Type*} [DecidableEq κ]

def tabled (table : List (κ × JsString)) (otherwise : κ → JsString) (input : κ) : JsString :=
  (mapGet table input).getD (otherwise input)

theorem tabled_injective {table : List (κ × JsString)} {otherwise : κ → JsString}
    (hdigests : (table.map Prod.snd).Nodup) (hinj : Function.Injective otherwise)
    (hfresh : ∀ entry ∈ table, ∀ input, otherwise input ≠ entry.2) :
    Function.Injective (tabled table otherwise) := by
  have hmem : ∀ {input digest}, mapGet table input = some digest → (input, digest) ∈ table :=
    fun h ↦ mem_of_mapGet h
  intro input input' h
  unfold tabled at h
  cases hinput : mapGet table input with
  | none =>
      cases hinput' : mapGet table input' with
      | none =>
          rw [hinput, hinput'] at h
          exact hinj h
      | some digest' =>
          rw [hinput, hinput'] at h
          exact absurd h (hfresh _ (hmem hinput') input)
  | some digest =>
      cases hinput' : mapGet table input' with
      | none =>
          rw [hinput, hinput'] at h
          exact absurd h.symm (hfresh _ (hmem hinput) input')
      | some digest' =>
          rw [hinput, hinput'] at h
          have hentry := List.inj_on_of_nodup_map hdigests (hmem hinput) (hmem hinput') h
          exact congrArg Prod.fst hentry

theorem tabled_of_forall {P : JsString → Prop} {table : List (κ × JsString)}
    {otherwise : κ → JsString} (htable : ∀ entry ∈ table, P entry.2)
    (hotherwise : ∀ input, P (otherwise input)) (input : κ) : P (tabled table otherwise input) := by
  unfold tabled
  cases hinput : mapGet table input with
  | none => exact hotherwise input
  | some digest => exact htable _ (mem_of_mapGet hinput)

end

/-! ## Digests of texts -/

/-- A text outside the table is mapped to one that is no hexadecimal digest. -/
def tabledDigest (table : List (JsString × JsString)) : JsString → JsString :=
  tabled table fun text ↦ 0 :: text

theorem tabledDigest_injective {table : List (JsString × JsString)}
    (hdigests : (table.map Prod.snd).Nodup) (hheads : ∀ entry ∈ table, entry.2.head? ≠ some 0) :
    Function.Injective (tabledDigest table) := by
  apply tabled_injective hdigests (List.cons_injective)
  intro entry hentry text htext
  exact hheads entry hentry (congrArg List.head? htext.symm)

/-! ## Digests of bytes -/

def hexBytes (bytes : Bytes) : JsString :=
  bytes.flatMap fun b ↦ [hexUnit (b.toNat / 16), hexUnit (b.toNat % 16)]

theorem length_hexBytes (bytes : Bytes) : (hexBytes bytes).length = 2 * bytes.length := by
  induction bytes with
  | nil => rfl
  | cons b bytes ih =>
      rw [hexBytes, List.flatMap_cons, List.length_append, ← hexBytes, ih]
      simp only [List.length_cons, List.length_nil]
      omega

theorem hexUnit_inj : ∀ d < 16, ∀ e < 16, hexUnit d = hexUnit e → d = e := by
  decide

theorem isLowerHex_hexUnit : ∀ d < 16, isLowerHex (hexUnit d) = true := by
  decide

theorem hexBytes_injective : Function.Injective hexBytes := by
  intro bytes bytes' h
  induction bytes generalizing bytes' with
  | nil =>
      cases bytes' with
      | nil => rfl
      | cons b' bytes' => cases h
  | cons b bytes ih =>
      cases bytes' with
      | nil => cases h
      | cons b' bytes' =>
          have hb : b.toNat < 256 := b.toNat_lt_size
          have hb' : b'.toNat < 256 := b'.toNat_lt_size
          obtain ⟨hhigh, hrest⟩ := List.cons.inj h
          obtain ⟨hlow, hrest⟩ := List.cons.inj hrest
          have hhigh := hexUnit_inj _ (by omega) _ (by omega) hhigh
          have hlow := hexUnit_inj _ (by omega) _ (by omega) hlow
          have hbyte : b = b' := UInt8.toNat_inj.mp (by omega)
          rw [hbyte, ih hrest]

theorem all_hexBytes (bytes : Bytes) : (hexBytes bytes).all isLowerHex = true := by
  rw [List.all_eq_true]
  intro u hu
  obtain ⟨b, -, hu⟩ := List.mem_flatMap.mp hu
  have hb : b.toNat < 256 := b.toNat_lt_size
  rcases List.mem_cons.mp hu with rfl | hu
  · exact isLowerHex_hexUnit _ (by omega)
  · obtain rfl := List.mem_singleton.mp hu
    exact isLowerHex_hexUnit _ (by omega)

/-- Bytes outside the table are mapped to an odd number of hexadecimal digits. -/
def tabledSha256 (table : List (Bytes × JsString)) : Bytes → JsString :=
  tabled table fun bytes ↦ 0x30 :: hexBytes bytes

/-- The entries of a table that digests can come from. -/
def IsDigestTable {κ : Type*} (table : List (κ × JsString)) : Prop :=
  (table.map Prod.snd).Nodup ∧ ∀ entry ∈ table, isHexOfLength 64 entry.2 = true

theorem tabledSha256_injective {table : List (Bytes × JsString)} (h : IsDigestTable table) :
    Function.Injective (tabledSha256 table) := by
  apply tabled_injective h.1
  · intro bytes bytes' heq
    exact hexBytes_injective (List.cons.inj heq).2
  · intro entry hentry bytes heq
    have hlength := congrArg List.length heq
    have hentry := h.2 entry hentry
    rw [isHexOfLength, Bool.and_eq_true, beq_iff_eq] at hentry
    rw [hentry.1, List.length_cons, length_hexBytes] at hlength
    omega

theorem all_tabledSha256 {table : List (Bytes × JsString)} (h : IsDigestTable table)
    (bytes : Bytes) : (tabledSha256 table bytes).all isLowerHex = true := by
  apply tabled_of_forall (P := fun digest ↦ digest.all isLowerHex = true)
  · intro entry hentry
    have hentry := h.2 entry hentry
    rw [isHexOfLength, Bool.and_eq_true] at hentry
    exact hentry.2
  · intro bytes
    exact all_hexBytes bytes

end TestIntelligence.Security
