import Mathlib.Data.List.Pairwise
import Mathlib.Data.List.Sort
import Mathlib.Tactic.Common

/-!
# Sorting keeps the order of values that tie

Insertion sort puts a value in front of the sorted values it ties with.  A relation that
holds between every value of a list and those behind it still holds, after sorting, between
the values that tie.
-/

namespace TestIntelligence.Lists

section

variable {α : Type*} {r Q : α → α → Prop}

/-- In order, and where two values tie the first is related to the second. -/
def Stable (r Q : α → α → Prop) (xs : List α) : Prop :=
  xs.Pairwise fun a b ↦ r a b ∧ (r b a → Q a b)

theorem Stable.orderedInsert {_ : DecidableRel r} [Std.Total r] [IsTrans α r] {x : α} {ys : List α}
    (hQ : ∀ y ∈ ys, Q x y) (h : Stable r Q ys) : Stable r Q (ys.orderedInsert r x) := by
  induction ys with
  | nil => exact List.pairwise_singleton _ x
  | cons y ys ih =>
      obtain ⟨hy, hys⟩ := List.pairwise_cons.mp h
      obtain ⟨hxy, hQ⟩ := List.forall_mem_cons.mp hQ
      rw [List.orderedInsert]
      split
      · next hle =>
        refine List.pairwise_cons.mpr ⟨fun z hz ↦ ?_, h⟩
        rcases List.mem_cons.mp hz with rfl | hz
        · exact ⟨hle, fun _ ↦ hxy⟩
        · exact ⟨IsTrans.trans _ _ _ hle (hy z hz).1, fun _ ↦ hQ z hz⟩
      · next hle =>
        refine List.pairwise_cons.mpr ⟨fun z hz ↦ ?_, ih hQ hys⟩
        rcases (List.mem_orderedInsert r).mp hz with rfl | hz
        · exact ⟨(Std.Total.total z y).resolve_left hle, fun hge ↦ absurd hge hle⟩
        · exact hy z hz

theorem stable_insertionSort {_ : DecidableRel r} [Std.Total r] [IsTrans α r] {xs : List α}
    (h : xs.Pairwise Q) : Stable r Q (xs.insertionSort r) := by
  induction xs with
  | nil => exact List.Pairwise.nil
  | cons x xs ih =>
      obtain ⟨hx, hxs⟩ := List.pairwise_cons.mp h
      exact Stable.orderedInsert (fun y hy ↦ hx y ((List.mem_insertionSort r).mp hy)) (ih hxs)

/-- The order of a stable list is that of its values, where no two of them tie both ways. -/
theorem Stable.eq_of_perm {xs ys : List α} (hxs : Stable r Q xs) (hys : Stable r Q ys)
    (hties : ∀ a ∈ xs, ∀ b ∈ xs, r a b → r b a → Q a b → Q b a → a = b) (hperm : xs.Perm ys) :
    xs = ys := by
  apply hperm.eq_of_pairwise _ hxs hys
  intro a b ha hb hab hba
  exact hties a ha b (hperm.mem_iff.mpr hb) hab.1 hba.1 (hab.2 hba.1) (hba.2 hab.1)

/-- One of two values that tie comes first. -/
theorem Stable.rel_or_rel {xs : List α} (h : Stable r Q xs) {a b : α} (ha : a ∈ xs) (hb : b ∈ xs)
    (hne : a ≠ b) (hab : r a b) (hba : r b a) : Q a b ∨ Q b a := by
  have hties : xs.Pairwise fun a b ↦ r a b → r b a → Q a b ∨ Q b a :=
    h.imp fun hQ _ hba ↦ Or.inl (hQ.2 hba)
  have : Std.Symm fun a b ↦ r a b → r b a → Q a b ∨ Q b a :=
    ⟨fun a b hQ hba hab ↦ (hQ hab hba).symm⟩
  exact hties.forall ha hb hne hab hba

/-- In a list without duplicates two values have one order. -/
theorem not_sublist_swap {xs : List α} (hxs : xs.Nodup) {a b : α} (hab : [a, b].Sublist xs) :
    ¬ [b, a].Sublist xs := by
  induction xs with
  | nil => cases hab
  | cons x xs ih =>
      obtain ⟨hx, hxs⟩ := List.nodup_cons.mp hxs
      intro hba
      cases hab with
      | cons _ hab =>
          cases hba with
          | cons _ hba => exact ih hxs hab hba
          | cons_cons _ ha => exact hx (hab.subset (by simp))
      | cons_cons _ hb =>
          have hb : b ∈ xs := List.singleton_sublist.mp hb
          cases hba with
          | cons _ hba => exact hx (hba.subset (by simp))
          | cons_cons _ _ => exact hx hb

/-- Two values that tie and have changed places are still so after sorting. -/
theorem insertionSort_ne_of_swapped {_ : DecidableRel r} [Std.Total r] [IsTrans α r]
    {xs ys : List α} (hxs : xs.Nodup) (hys : ys.Nodup) {a b : α} (hab : [a, b].Sublist xs)
    (hba : [b, a].Sublist ys) (hne : a ≠ b) (hle : r a b) (hge : r b a) :
    xs.insertionSort r ≠ ys.insertionSort r := by
  have hfirst : xs.Pairwise fun x y ↦ ¬ (x = b ∧ y = a) := by
    rw [List.pairwise_iff_forall_sublist]
    rintro x y hsub ⟨rfl, rfl⟩
    exact not_sublist_swap hxs hab hsub
  have hsecond : ys.Pairwise fun x y ↦ ¬ (x = a ∧ y = b) := by
    rw [List.pairwise_iff_forall_sublist]
    rintro x y hsub ⟨rfl, rfl⟩
    exact not_sublist_swap hys hba hsub
  intro heq
  have hstable : Stable r (fun x y ↦ ¬ (x = a ∧ y = b)) (ys.insertionSort r) :=
    stable_insertionSort hsecond
  rw [← heq] at hstable
  have hboth : Stable r (fun x y ↦ ¬ (x = b ∧ y = a) ∧ ¬ (x = a ∧ y = b)) (xs.insertionSort r) :=
    ((stable_insertionSort hfirst).and hstable).imp
      fun h ↦ ⟨h.1.1, fun hge ↦ ⟨h.1.2 hge, h.2.2 hge⟩⟩
  have ha := (List.mem_insertionSort r).mpr (hab.subset (show a ∈ [a, b] by simp))
  have hb := (List.mem_insertionSort r).mpr (hab.subset (show b ∈ [a, b] by simp))
  rcases hboth.rel_or_rel ha hb hne hle hge with h | h
  · exact h.2 ⟨rfl, rfl⟩
  · exact h.1 ⟨rfl, rfl⟩

theorem exists_perm_cons_cons {xs : List α} {a b : α} (ha : a ∈ xs) (hb : b ∈ xs) (hne : a ≠ b) :
    ∃ rest, (a :: b :: rest).Perm xs := by
  obtain ⟨front, back, rfl⟩ := List.append_of_mem ha
  have hb' : b ∈ front ++ back := by simpa [hne.symm] using hb
  obtain ⟨front', back', heq⟩ := List.append_of_mem hb'
  refine ⟨front' ++ back', ((List.perm_middle.symm.trans ?_).cons a).trans List.perm_middle.symm⟩
  rw [heq]

end

end TestIntelligence.Lists
