import TestIntelligence.Zod.Types
import TestIntelligence.Security.Records

/-!
# Zod types of stored values

A value that is written as canonical JSON and read back is taken by the types that took it.
Objects with fixed keys lose no member on the way.
-/

namespace TestIntelligence.Zod

open Js Security

/-- The values of the type have no `__proto__` keys and stay values of the type in a file. -/
def Durable (type : ZodType) : Prop :=
  ∀ v : Json, v.Ordered → v.PlainNumbers → type (some v) = true →
    ProtoFree v ∧ type (some (stored v)) = true

/-- A type of texts, numbers and booleans is durable. -/
theorem durable_of_scalar {type : ZodType} (harr : ∀ items, type (some (.arr items)) = false)
    (hobj : ∀ members, type (some (.obj members)) = false) : Durable type := by
  intro v _ hplain hv
  cases v with
  | arr items => simp [harr] at hv
  | obj members => simp [hobj] at hv
  | num x =>
      obtain ⟨d, rfl⟩ := hplain
      exact ⟨trivial, hv⟩
  | null => exact ⟨trivial, hv⟩
  | bool b => exact ⟨trivial, hv⟩
  | str s => exact ⟨trivial, hv⟩

theorem Durable.optional {type : ZodType} (h : Durable type) : Durable type.optional := h

theorem durable_array {item : ZodType} (h : Durable item) : Durable (array item) := by
  intro v hordered hplain hv
  cases v with
  | arr items =>
      rw [Json.ordered_arr] at hordered
      rw [Json.plainNumbers_arr] at hplain
      rw [array, List.all_eq_true] at hv
      have hitems : ∀ v ∈ items, ProtoFree v ∧ item (some (stored v)) = true :=
        fun v hmem ↦ h v (hordered v hmem) (hplain v hmem) (hv v hmem)
      rw [protoFree_arr, stored_arr, array, List.all_map, List.all_eq_true]
      exact ⟨fun v hmem ↦ (hitems v hmem).1, fun v hmem ↦ (hitems v hmem).2⟩
  | _ => cases hv

theorem Durable.minItems {item : ZodType} (h : Durable (array item)) (n : ℕ) :
    Durable ((array item).minItems n) := by
  intro v hordered hplain hv
  rw [ZodType.minItems, ZodType.check, Bool.and_eq_true] at hv
  obtain ⟨hfree, hstored⟩ := h v hordered hplain hv.1
  refine ⟨hfree, ?_⟩
  rw [ZodType.minItems, ZodType.check, hstored, Bool.true_and]
  cases v with
  | arr items => simpa using hv.2
  | _ => cases hv.1

theorem mem_keys_of_mem_storedMembers {members : List (JsString × Json)}
    (h : (members.map Prod.fst).Nodup) {p : JsString × Json} (hp : p ∈ storedMembers members) :
    p.1 ∈ members.map Prod.fst := by
  rw [storedMembers, mem_rebuild (by rwa [keys_map_sortValue, Json.keys_map_values])] at hp
  obtain ⟨q, hq, rfl⟩ := List.mem_map.mp hp.1
  obtain ⟨r, hr, rfl⟩ := List.mem_map.mp hq
  exact List.mem_map.mpr ⟨r, hr, rfl⟩

theorem durable_strictObject {fields : List (JsString × ZodType)}
    (hproto : protoKey ∉ fields.map Prod.fst) (h : ∀ field ∈ fields, Durable field.2) :
    Durable (strictObject fields) := by
  intro v hordered hplain hv
  cases v with
  | obj members =>
      obtain ⟨henum, hvalues⟩ := Json.ordered_obj.mp hordered
      rw [Json.plainNumbers_obj] at hplain
      simp only [strictObject, Bool.and_eq_true, List.all_eq_true, List.any_eq_true,
        beq_iff_eq] at hv
      obtain ⟨hkeys, hfields⟩ := hv
      have hfree : ∀ p ∈ members, p.1 ≠ protoKey ∧ ProtoFree p.2 := by
        intro p hp
        obtain ⟨field, hfield, hkey⟩ := hkeys p hp
        have hvalue := hfields field hfield
        rw [hkey, mapGet_eq_some_of_mem henum.1 hp] at hvalue
        refine ⟨?_, (h field hfield p.2 (hvalues p hp) (hplain p hp) hvalue).1⟩
        rintro heq
        exact hproto (heq ▸ hkey ▸ List.mem_map_of_mem hfield)
      rw [protoFree_obj, stored_obj]
      refine ⟨⟨?_, fun p hp ↦ (hfree p hp).2⟩, ?_⟩
      · intro hmem
        obtain ⟨p, hp, hkey⟩ := List.mem_map.mp hmem
        exact (hfree p hp).1 hkey
      · simp only [strictObject, Bool.and_eq_true, List.all_eq_true, List.any_eq_true, beq_iff_eq]
        constructor
        · intro p hp
          obtain ⟨q, hq, hkey⟩ := List.mem_map.mp (mem_keys_of_mem_storedMembers henum.1 hp)
          rw [← hkey]
          exact hkeys q hq
        · intro field hfield
          have hkey : field.1 ≠ protoKey := fun heq ↦ hproto (heq ▸ List.mem_map_of_mem hfield)
          have hvalue := hfields field hfield
          rw [mapGet_storedMembers henum.1 hkey]
          cases hget : mapGet members field.1 with
          | none => rwa [hget] at hvalue
          | some v =>
              rw [hget] at hvalue
              have hmem := mem_of_mapGet hget
              exact (h field hfield v (hvalues _ hmem) (hplain _ hmem) hvalue).2
  | _ => cases hv

end TestIntelligence.Zod
