import Mathlib.Data.List.Sym
import Mathlib.Tactic.Common

/-!
# The pairs of a list

Every item is paired with each item that comes after it.  In another order of the list the
same items are paired, some of them the other way round.
-/

namespace TestIntelligence.Lists

variable {α β : Type*}

def pairs : List α → List (α × α)
  | [] => []
  | x :: xs => xs.map (fun y ↦ (x, y)) ++ pairs xs

theorem mem_of_mem_pairs {xs : List α} {a b : α} (h : (a, b) ∈ pairs xs) : a ∈ xs ∧ b ∈ xs := by
  induction xs with
  | nil => cases h
  | cons x xs ih =>
      rcases List.mem_append.mp h with h | h
      · obtain ⟨y, hy, heq⟩ := List.mem_map.mp h
        obtain ⟨rfl, rfl⟩ := Prod.mk.inj heq
        exact ⟨List.mem_cons_self, List.mem_cons_of_mem _ hy⟩
      · exact ⟨List.mem_cons_of_mem x (ih h).1, List.mem_cons_of_mem x (ih h).2⟩

theorem rel_of_mem_pairs {R : α → α → Prop} {xs : List α} (h : xs.Pairwise R) {a b : α}
    (hab : (a, b) ∈ pairs xs) : R a b := by
  induction xs with
  | nil => cases hab
  | cons x xs ih =>
      obtain ⟨hx, hxs⟩ := List.pairwise_cons.mp h
      rcases List.mem_append.mp hab with hfirst | hrest
      · obtain ⟨y, hy, heq⟩ := List.mem_map.mp hfirst
        obtain ⟨rfl, rfl⟩ := Prod.mk.inj heq
        exact hx _ hy
      · exact ih hxs hrest

theorem pairs_map (f : α → β) (xs : List α) :
    pairs (xs.map f) = (pairs xs).map (Prod.map f f) := by
  induction xs with
  | nil => rfl
  | cons x xs ih =>
      rw [List.map_cons, pairs, pairs, ih, List.map_append, List.map_map, List.map_map]
      rfl

/-- Two items are paired one way or the other. -/
theorem mem_pairs_or {xs : List α} {a b : α} (ha : a ∈ xs) (hb : b ∈ xs) (hne : a ≠ b) :
    (a, b) ∈ pairs xs ∨ (b, a) ∈ pairs xs := by
  induction xs with
  | nil => cases ha
  | cons x xs ih =>
      rcases List.mem_cons.mp ha with rfl | ha'
      · rcases List.mem_cons.mp hb with rfl | hb'
        · exact absurd rfl hne
        · exact .inl (List.mem_append_left _ (List.mem_map.mpr ⟨b, hb', rfl⟩))
      · rcases List.mem_cons.mp hb with rfl | hb'
        · exact .inr (List.mem_append_left _ (List.mem_map.mpr ⟨a, ha', rfl⟩))
        · exact (ih ha' hb').imp (List.mem_append_right _) (List.mem_append_right _)

/-- No two items are paired twice. -/
theorem nodup_pairs {xs : List α} (h : xs.Nodup) :
    ((pairs xs).map fun p ↦ s(p.1, p.2)).Nodup := by
  have hsublist : ((pairs xs).map fun p ↦ s(p.1, p.2)).Sublist xs.sym2 := by
    clear h
    induction xs with
    | nil => exact List.Sublist.slnil
    | cons x xs ih =>
        rw [pairs, List.map_append, List.map_map, List.sym2, List.map_cons, List.cons_append]
        exact ((List.Sublist.refl _).append ih).cons _
  exact List.Nodup.sublist hsublist h.sym2

/-- What does not depend on the order in a pair is said of the same pairs. -/
theorem perm_filterMap_pairs {f : α × α → Option β} (hf : ∀ a b, f (a, b) = f (b, a))
    {xs ys : List α} (h : xs.Perm ys) :
    ((pairs xs).filterMap f).Perm ((pairs ys).filterMap f) := by
  induction h with
  | nil => exact List.Perm.nil
  | cons x hperm ih =>
      rw [pairs, pairs, List.filterMap_append, List.filterMap_append]
      exact ((hperm.map _).filterMap f).append ih
  | swap x y xs =>
      have hswap : ∀ a b : α, (pairs (a :: b :: xs)).filterMap f = (f (a, b)).toList ++
          ((xs.map fun z ↦ (a, z)).filterMap f ++ (xs.map fun z ↦ (b, z)).filterMap f) ++
            (pairs xs).filterMap f := by
        intro a b
        rw [pairs, pairs, List.map_cons, List.cons_append, List.filterMap_cons]
        cases f (a, b) <;> simp
      rw [hswap, hswap, hf y x]
      exact ((List.perm_append_comm).append_left _).append_right _
  | trans _ _ ih ih' => exact ih.trans ih'

end TestIntelligence.Lists
