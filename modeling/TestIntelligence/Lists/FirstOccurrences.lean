import Mathlib.Data.List.Nodup
import Mathlib.Data.List.Perm.Basic
import Mathlib.Tactic.Common

/-!
# First occurrences by a key

Of the items with one key only the first is kept.  The items kept have distinct keys, and
the key of every item is the key of one that is kept.
-/

namespace TestIntelligence.Lists

section

variable {α κ : Type*} [DecidableEq κ] (key : α → κ)

def firstsBy : List α → List α
  | [] => []
  | x :: xs => x :: (firstsBy xs).filter fun y ↦ key y ≠ key x

theorem firstsBy_sublist (xs : List α) : (firstsBy key xs).Sublist xs := by
  induction xs with
  | nil => exact List.Sublist.slnil
  | cons x xs ih => exact (List.filter_sublist.trans ih).cons_cons x

theorem nodup_keys_firstsBy (xs : List α) : ((firstsBy key xs).map key).Nodup := by
  induction xs with
  | nil => exact List.nodup_nil
  | cons x xs ih =>
      rw [firstsBy, List.map_cons, List.nodup_cons]
      refine ⟨?_, ih.sublist (List.filter_sublist.map key)⟩
      rw [List.mem_map]
      rintro ⟨y, hy, heq⟩
      exact absurd heq (by simpa using (List.mem_filter.mp hy).2)

variable {key}

theorem find?_of_mem_firstsBy {xs : List α} {x : α} (h : x ∈ firstsBy key xs) :
    xs.find? (fun y ↦ key y = key x) = some x := by
  induction xs with
  | nil => cases h
  | cons y xs ih =>
      rcases List.mem_cons.mp h with rfl | h
      · rw [List.find?_cons_of_pos (by simp)]
      · obtain ⟨hmem, hne⟩ := List.mem_filter.mp h
        have hkey : ¬ key y = key x := fun heq ↦ by simp [heq] at hne
        rw [List.find?_cons_of_neg (by simpa using hkey), ih hmem]

theorem mem_firstsBy_of_find? {xs : List α} {k : κ} {x : α}
    (h : xs.find? (fun y ↦ key y = k) = some x) : x ∈ firstsBy key xs := by
  have hx : key x = k := by simpa using List.find?_some h
  induction xs with
  | nil => cases h
  | cons y xs ih =>
      by_cases hy : key y = k
      · rw [List.find?_cons_of_pos (by simpa using hy)] at h
        exact Option.some.inj h ▸ List.mem_cons_self
      · rw [List.find?_cons_of_neg (by simpa using hy)] at h
        refine List.mem_cons_of_mem _ (List.mem_filter.mpr ⟨ih h, ?_⟩)
        simpa [hx] using fun heq : k = key y ↦ hy heq.symm

theorem exists_mem_firstsBy {xs : List α} {x : α} (h : x ∈ xs) :
    ∃ y ∈ firstsBy key xs, key y = key x := by
  have hsome : (xs.find? fun y ↦ key y = key x).isSome := by
    rw [List.find?_isSome]
    exact ⟨x, h, by simp⟩
  obtain ⟨y, hy⟩ := Option.isSome_iff_exists.mp hsome
  exact ⟨y, mem_firstsBy_of_find? hy, by simpa using List.find?_some hy⟩

theorem map_firstsBy {β : Type*} (f : α → β) (key : β → κ) (xs : List α) :
    (firstsBy (key ∘ f) xs).map f = firstsBy key (xs.map f) := by
  induction xs with
  | nil => rfl
  | cons x xs ih =>
      rw [firstsBy, List.map_cons, List.map_cons, firstsBy, ← ih, List.filter_map]
      rfl

/-- The items that a search for their key finds, told apart by their index. -/
theorem filter_find?_eq_firstsBy {ι : Type*} [DecidableEq ι] (index : α → ι) {xs : List α}
    (hindex : (xs.map index).Nodup) :
    (xs.filter fun x ↦ (xs.find? fun y ↦ key y = key x).map index = some (index x)) =
      firstsBy key xs := by
  induction xs with
  | nil => rfl
  | cons x xs ih =>
      obtain ⟨hx, hxs⟩ := List.nodup_cons.mp hindex
      rw [List.filter_cons_of_pos (by simp), firstsBy, ← ih hxs, List.filter_filter]
      congr 1
      apply List.filter_congr
      intro y hy
      by_cases hkey : key x = key y
      · have hne : index x ≠ index y := fun heq ↦ hx (heq ▸ List.mem_map_of_mem hy)
        rw [List.find?_cons_of_pos (by simpa using hkey)]
        simp [hkey, hne]
      · rw [List.find?_cons_of_neg (by simpa using hkey)]
        simp [Ne.symm hkey]

/-- An item can be brought in front of those with its key. -/
theorem exists_perm_find?_eq {xs : List α} {x : α} (h : x ∈ xs) :
    ∃ ys : List α, ys.Perm xs ∧ ys.find? (fun y ↦ key y = key x) = some x ∧
      ∀ k, k ≠ key x → ys.find? (fun y ↦ key y = k) = xs.find? fun y ↦ key y = k := by
  obtain ⟨front, back, rfl⟩ := List.append_of_mem h
  refine ⟨x :: (front ++ back), List.perm_middle.symm, List.find?_cons_of_pos (by simp), ?_⟩
  intro k hk
  have hneg : decide (key x = k) = false := decide_eq_false hk.symm
  simp [List.find?_append, hneg]

/-- The first items of two different keys, in either order. -/
theorem firstsBy_cons_cons {x y : α} {xs : List α} (h : key x ≠ key y) :
    ∃ rest, firstsBy key (x :: y :: xs) = x :: y :: rest := by
  rw [firstsBy, firstsBy, List.filter_cons_of_pos (by simpa using h.symm)]
  exact ⟨_, rfl⟩

end

end TestIntelligence.Lists
