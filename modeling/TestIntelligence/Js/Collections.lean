import Mathlib.Data.List.Forall2
import Mathlib.Data.List.Nodup
import Mathlib.Tactic.Common

/-!
# Insertion-ordered sets and maps

`Set` and `Map` enumerate their members in the order of first insertion.  A
set is a list of members, a map is a list of key/value pairs; adding a present
member changes nothing and setting a present key keeps its place.
-/

namespace TestIntelligence.Js

variable {α κ β : Type*} [DecidableEq α] [DecidableEq κ]

/-! ## Sets -/

/-- `Set.prototype.add`. -/
def setAdd (xs : List α) (x : α) : List α := if x ∈ xs then xs else xs ++ [x]

/-- `Set.prototype.delete`. -/
def setDelete (xs : List α) (x : α) : List α := xs.filter (· ≠ x)

/-- `new Set(values)`. -/
def setOf (xs : List α) : List α := xs.foldl setAdd []

@[simp] theorem mem_setAdd {xs : List α} {x y : α} : y ∈ setAdd xs x ↔ y ∈ xs ∨ y = x := by
  unfold setAdd
  split
  · next h =>
      constructor
      · exact Or.inl
      · rintro (hy | rfl)
        · exact hy
        · exact h
  · simp

@[simp] theorem mem_setDelete {xs : List α} {x y : α} :
    y ∈ setDelete xs x ↔ y ∈ xs ∧ y ≠ x := by
  simp [setDelete]

theorem nodup_setAdd {xs : List α} (h : xs.Nodup) (x : α) : (setAdd xs x).Nodup := by
  unfold setAdd
  split
  · exact h
  · next hx =>
      refine List.nodup_append.mpr ⟨h, List.nodup_singleton x, ?_⟩
      rintro a ha b hb rfl
      exact hx (List.mem_singleton.mp hb ▸ ha)

theorem mem_foldl_setAdd {xs acc : List α} {y : α} :
    y ∈ xs.foldl setAdd acc ↔ y ∈ acc ∨ y ∈ xs := by
  induction xs generalizing acc with
  | nil => simp
  | cons x xs ih =>
      rw [List.foldl_cons, ih, mem_setAdd, List.mem_cons, or_assoc]

theorem nodup_foldl_setAdd {xs acc : List α} (h : acc.Nodup) : (xs.foldl setAdd acc).Nodup := by
  induction xs generalizing acc with
  | nil => exact h
  | cons x xs ih => exact ih (nodup_setAdd h x)

@[simp] theorem mem_setOf {xs : List α} {y : α} : y ∈ setOf xs ↔ y ∈ xs := by
  simp [setOf, mem_foldl_setAdd]

/-! ## Maps -/

/-- `Map.prototype.set`. -/
def mapSet : List (κ × β) → κ → β → List (κ × β)
  | [], k, v => [(k, v)]
  | (k', v') :: rest, k, v =>
      if k' = k then (k, v) :: rest else (k', v') :: mapSet rest k v

/-- `Map.prototype.get`. -/
def mapGet (m : List (κ × β)) (k : κ) : Option β := m.lookup k

@[simp] theorem mapGet_nil (k : κ) : mapGet ([] : List (κ × β)) k = none := rfl

theorem mapGet_cons (k' : κ) (v : β) (m : List (κ × β)) (k : κ) :
    mapGet ((k', v) :: m) k = if k = k' then some v else mapGet m k := by
  unfold mapGet
  rw [List.lookup_cons]
  by_cases h : k = k'
  · simp [h]
  · have hb : (k == k') = false := by simpa using h
    simp only [hb, if_neg h]

theorem mapGet_mapSet (m : List (κ × β)) (k : κ) (v : β) (k' : κ) :
    mapGet (mapSet m k v) k' = if k' = k then some v else mapGet m k' := by
  induction m with
  | nil => simp [mapSet, mapGet_cons]
  | cons p m ih =>
      obtain ⟨k₀, v₀⟩ := p
      by_cases h₀ : k₀ = k
      · subst h₀
        simp only [mapSet, if_pos, mapGet_cons]
        split <;> rfl
      · simp only [mapSet, if_neg h₀, mapGet_cons, ih]
        by_cases hk : k' = k₀
        · subst hk
          simp [h₀]
        · simp [hk]

@[simp] theorem mapGet_mapSet_self (m : List (κ × β)) (k : κ) (v : β) :
    mapGet (mapSet m k v) k = some v := by simp [mapGet_mapSet]

theorem mem_mapSet {m : List (κ × β)} {k : κ} {v : β} {p : κ × β} (h : p ∈ mapSet m k v) :
    p = (k, v) ∨ p ∈ m := by
  induction m with
  | nil => simpa [mapSet] using h
  | cons q m ih =>
      obtain ⟨k₀, v₀⟩ := q
      unfold mapSet at h
      split at h
      · rcases List.mem_cons.mp h with h | h
        · exact Or.inl h
        · exact Or.inr (List.mem_cons_of_mem _ h)
      · rcases List.mem_cons.mp h with rfl | h
        · exact Or.inr List.mem_cons_self
        · exact (ih h).imp_right (List.mem_cons_of_mem _)

theorem mem_of_mapGet {m : List (κ × β)} {k : κ} {v : β} (h : mapGet m k = some v) :
    (k, v) ∈ m := by
  induction m with
  | nil => simp at h
  | cons p m ih =>
      obtain ⟨k₀, v₀⟩ := p
      rw [mapGet_cons] at h
      split at h
      · next hk => simp_all
      · exact List.mem_cons_of_mem _ (ih h)

theorem mapGet_eq_some_of_mem {m : List (κ × β)} (hm : (m.map Prod.fst).Nodup) {k : κ} {v : β}
    (h : (k, v) ∈ m) : mapGet m k = some v := by
  induction m with
  | nil => simp at h
  | cons p m ih =>
      obtain ⟨k₀, v₀⟩ := p
      rw [mapGet_cons]
      rcases List.mem_cons.mp h with heq | htail
      · simp_all
      · have hne : k ≠ k₀ := by
          rintro rfl
          exact (List.nodup_cons.mp hm).1 (List.mem_map.mpr ⟨(k, v), htail, rfl⟩)
        simp only [if_neg hne]
        exact ih (List.nodup_cons.mp hm).2 htail

theorem mapGet_eq_none_iff {m : List (κ × β)} {k : κ} :
    mapGet m k = none ↔ k ∉ m.map Prod.fst := by
  induction m with
  | nil => simp
  | cons p m ih =>
      obtain ⟨k₀, v₀⟩ := p
      rw [mapGet_cons]
      by_cases h : k = k₀ <;> simp [h, ih]

@[simp] theorem keys_mapSet (m : List (κ × β)) (k : κ) (v : β) :
    (mapSet m k v).map Prod.fst = setAdd (m.map Prod.fst) k := by
  induction m with
  | nil => simp [mapSet, setAdd]
  | cons p m ih =>
      obtain ⟨k₀, v₀⟩ := p
      by_cases h₀ : k₀ = k
      · subst h₀
        simp [mapSet, setAdd]
      · simp only [mapSet, if_neg h₀, List.map_cons, ih, setAdd, List.mem_cons, Ne.symm h₀,
          false_or]
        split <;> simp

/-- A new key goes to the end. -/
theorem mapSet_of_not_mem {m : List (κ × β)} {k : κ} (h : k ∉ m.map Prod.fst) (v : β) :
    mapSet m k v = m ++ [(k, v)] := by
  induction m with
  | nil => rfl
  | cons p m ih =>
      obtain ⟨k₀, v₀⟩ := p
      simp only [List.map_cons, List.mem_cons, not_or] at h
      rw [mapSet, if_neg (Ne.symm h.1), ih h.2, List.cons_append]

/-- `Map.prototype.delete`. -/
def mapDelete (m : List (κ × β)) (k : κ) : List (κ × β) := m.filter (·.1 ≠ k)

theorem mapGet_mapDelete (m : List (κ × β)) (k k' : κ) :
    mapGet (mapDelete m k) k' = if k' = k then none else mapGet m k' := by
  induction m with
  | nil => simp [mapDelete]
  | cons p m ih =>
      obtain ⟨k₀, v₀⟩ := p
      unfold mapDelete at ih ⊢
      by_cases h₀ : k₀ = k
      · subst h₀
        simp only [List.filter_cons, ne_eq, not_true_eq_false, decide_false, Bool.false_eq_true,
          if_false, ih, mapGet_cons]
        split <;> rfl
      · simp only [List.filter_cons, ne_eq, h₀, not_false_eq_true, decide_true, if_true,
          mapGet_cons, ih]
        by_cases hk : k' = k₀
        · subst hk
          simp [h₀]
        · simp [hk]

theorem mapDelete_eq_self {m : List (κ × β)} {k : κ} (h : mapGet m k = none) :
    mapDelete m k = m := by
  rw [mapDelete, List.filter_eq_self]
  intro p hp
  have hne : p.1 ≠ k := fun heq ↦ mapGet_eq_none_iff.mp h (heq ▸ List.mem_map_of_mem hp)
  simpa using hne

theorem keys_mapDelete_nodup {m : List (κ × β)} (h : (m.map Prod.fst).Nodup) (k : κ) :
    ((mapDelete m k).map Prod.fst).Nodup :=
  h.sublist (List.filter_sublist.map _)

theorem length_mapSet_of_none {m : List (κ × β)} {k : κ} (h : mapGet m k = none) (v : β) :
    (mapSet m k v).length = m.length + 1 := by
  rw [mapSet_of_not_mem (mapGet_eq_none_iff.mp h), List.length_append, List.length_singleton]

theorem length_mapSet_of_some {m : List (κ × β)} {k : κ} {w : β} (h : mapGet m k = some w) (v : β) :
    (mapSet m k v).length = m.length := by
  have hmem : k ∈ m.map Prod.fst := List.mem_map.mpr ⟨_, mem_of_mapGet h, rfl⟩
  rw [← List.length_map (f := Prod.fst), keys_mapSet, setAdd, if_pos hmem, List.length_map]

/-- A map filled from a list without repeated keys holds, for each key, the value
of the element with that key. -/
theorem mapGet_foldl_mapSet {γ : Type*} (key : γ → κ) (value : γ → β) {xs : List γ}
    (hxs : (xs.map key).Nodup) (m : List (κ × β)) (k : κ) :
    mapGet (xs.foldl (fun m x ↦ mapSet m (key x) (value x)) m) k =
      ((xs.find? (key · = k)).map value).or (mapGet m k) := by
  induction xs generalizing m with
  | nil => simp
  | cons x xs ih =>
      obtain ⟨hx, hxs⟩ := List.nodup_cons.mp hxs
      rw [List.foldl_cons, ih hxs, mapGet_mapSet, List.find?_cons]
      by_cases hk : key x = k
      · subst hk
        have hnone : xs.find? (key · = key x) = none := by
          rw [List.find?_eq_none]
          intro y hy hyx
          exact hx (List.mem_map.mpr ⟨y, hy, by simpa using hyx⟩)
        simp [hnone]
      · simp [hk, Ne.symm hk]

/-- In a list without repeated keys, a search by key finds the element that has it. -/
theorem find?_key_eq_some_iff {γ : Type*} {key : γ → κ} {xs : List γ} (hxs : (xs.map key).Nodup)
    {k : κ} {x : γ} : xs.find? (key · = k) = some x ↔ x ∈ xs ∧ key x = k := by
  constructor
  · intro h
    exact ⟨List.mem_of_find?_eq_some h, by simpa using List.find?_some h⟩
  · rintro ⟨hx, rfl⟩
    induction xs with
    | nil => simp at hx
    | cons y xs ih =>
        obtain ⟨hy, hxs⟩ := List.nodup_cons.mp hxs
        rcases List.mem_cons.mp hx with rfl | hx
        · simp
        · have hne : key y ≠ key x := fun h ↦ hy (List.mem_map.mpr ⟨x, hx, h.symm⟩)
          rw [List.find?_cons_of_neg (by simpa using hne), ih hxs hx]

/-- A partial map that keeps keys keeps their order. -/
theorem sublist_map_filterMap {γ δ : Type*} {φ : γ → Option δ} {key : γ → κ} {key' : δ → κ}
    (h : ∀ x y, φ x = some y → key' y = key x) (xs : List γ) :
    ((xs.filterMap φ).map key').Sublist (xs.map key) := by
  induction xs with
  | nil => exact List.Sublist.slnil
  | cons x xs ih =>
      rw [List.filterMap_cons, List.map_cons]
      cases hx : φ x with
      | none => exact ih.cons _
      | some y =>
          rw [List.map_cons, h x y hx]
          exact ih.cons_cons _

/-- In a list without repeated keys, a partial map that keeps keys gives each
element's image as the only one with its key. -/
theorem find?_filterMap_of_mem {γ δ : Type*} {key : γ → κ} {key' : δ → κ} {φ : γ → Option δ}
    (hφ : ∀ x y, φ x = some y → key' y = key x) {xs : List γ} (hxs : (xs.map key).Nodup) {x : γ}
    (hx : x ∈ xs) : (xs.filterMap φ).find? (key' · = key x) = φ x := by
  induction xs with
  | nil => simp at hx
  | cons a xs ih =>
      obtain ⟨ha, hxs⟩ := List.nodup_cons.mp hxs
      rcases List.mem_cons.mp hx with rfl | hx
      · cases hφx : φ x with
        | some y => simp [hφx, hφ x y hφx]
        | none =>
            rw [List.filterMap_cons_none hφx, List.find?_eq_none]
            intro y hy hyx
            obtain ⟨z, hz, hzy⟩ := List.mem_filterMap.mp hy
            refine ha (List.mem_map.mpr ⟨z, hz, ?_⟩)
            rw [← hφ z y hzy]
            simpa using hyx
      · have hne : key a ≠ key x := fun h ↦ ha (List.mem_map.mpr ⟨x, hx, h.symm⟩)
        cases hφa : φ a with
        | none => rw [List.filterMap_cons_none hφa, ih hxs hx]
        | some y =>
            rw [List.filterMap_cons_some hφa, List.find?_cons_of_neg, ih hxs hx]
            simpa [hφ a y hφa] using hne

/-! ## Related lists -/

theorem exists_of_forall₂_of_mem {γ δ : Type*} {R : γ → δ → Prop} {xs : List γ} {ys : List δ}
    (h : List.Forall₂ R xs ys) {x : γ} (hx : x ∈ xs) : ∃ y ∈ ys, R x y := by
  induction h with
  | nil => simp at hx
  | @cons x' y' xs ys hxy _ ih =>
      rcases List.mem_cons.mp hx with rfl | hx
      · exact ⟨y', List.mem_cons_self, hxy⟩
      · obtain ⟨y, hy, hR⟩ := ih hx
        exact ⟨y, List.mem_cons_of_mem _ hy, hR⟩

/-- Searching two related lists for related properties finds related elements. -/
theorem find?_of_forall₂ {γ δ : Type*} {R : γ → δ → Prop} {f : γ → Bool} {g : δ → Bool}
    (hR : ∀ x y, R x y → f x = g y) {xs : List γ} {ys : List δ} (h : List.Forall₂ R xs ys) {x : γ}
    (hx : xs.find? f = some x) : ∃ y, ys.find? g = some y ∧ R x y := by
  induction h with
  | nil => cases hx
  | @cons x' y' xs ys hxy _ ih =>
      rw [List.find?_cons] at hx ⊢
      rw [← hR x' y' hxy]
      cases hfx : f x' with
      | true =>
          simp only [hfx] at hx ⊢
          cases hx
          exact ⟨y', rfl, hxy⟩
      | false =>
          simp only [hfx] at hx ⊢
          exact ih hx

end TestIntelligence.Js
