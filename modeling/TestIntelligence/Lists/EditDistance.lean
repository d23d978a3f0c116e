import Mathlib.Data.List.Basic
import Mathlib.Data.List.Infix
import Mathlib.Order.MinMax
import Mathlib.Tactic.Common

/-!
# The Levenshtein distance

The least number of items to insert, delete or replace.  An alignment writes two lists below
each other; the distance is the least cost of one.
-/

namespace TestIntelligence.Lists

variable {α : Type*} [DecidableEq α]

def replacementCost (x y : α) : ℕ := if x = y then 0 else 1

def editDistance : List α → List α → ℕ
  | [], ys => ys.length
  | x :: xs, [] => (x :: xs).length
  | x :: xs, y :: ys =>
      min (min (editDistance xs (y :: ys) + 1) (editDistance (x :: xs) ys + 1))
        (editDistance xs ys + replacementCost x y)
termination_by xs ys => xs.length + ys.length

inductive Alignment : List α → List α → ℕ → Prop
  | nil : Alignment [] [] 0
  | delete {xs ys : List α} {n : ℕ} (x : α) (h : Alignment xs ys n) :
      Alignment (x :: xs) ys (n + 1)
  | insert {xs ys : List α} {n : ℕ} (y : α) (h : Alignment xs ys n) :
      Alignment xs (y :: ys) (n + 1)
  | replace {xs ys : List α} {n : ℕ} (x y : α) (h : Alignment xs ys n) :
      Alignment (x :: xs) (y :: ys) (n + replacementCost x y)

section

variable {xs ys xs' ys' : List α} {n n' : ℕ}

/-! ## Alignments -/

theorem alignment_insertAll (ys : List α) : Alignment [] ys ys.length := by
  induction ys with
  | nil => exact .nil
  | cons y ys ih => exact .insert y ih

theorem alignment_deleteAll (xs : List α) : Alignment xs [] xs.length := by
  induction xs with
  | nil => exact .nil
  | cons x xs ih => exact .delete x ih

theorem replacementCost_comm (x y : α) : replacementCost x y = replacementCost y x := by
  simp only [replacementCost, eq_comm]

theorem Alignment.symm (h : Alignment xs ys n) : Alignment ys xs n := by
  induction h with
  | nil => exact .nil
  | delete x _ ih => exact .insert x ih
  | insert y _ ih => exact .delete y ih
  | replace x y _ ih => exact replacementCost_comm x y ▸ .replace y x ih

theorem Alignment.append (h : Alignment xs ys n) (h' : Alignment xs' ys' n') :
    Alignment (xs ++ xs') (ys ++ ys') (n + n') := by
  induction h with
  | nil => rwa [Nat.zero_add]
  | delete x _ ih => exact Nat.add_right_comm _ n' 1 ▸ .delete x ih
  | insert y _ ih => exact Nat.add_right_comm _ n' 1 ▸ .insert y ih
  | replace x y _ ih => exact Nat.add_right_comm _ n' _ ▸ .replace x y ih

theorem Alignment.reverse (h : Alignment xs ys n) : Alignment xs.reverse ys.reverse n := by
  induction h with
  | nil => exact .nil
  | delete x _ ih =>
      have hlast := ih.append (.delete x .nil)
      rwa [List.append_nil, ← List.reverse_cons] at hlast
  | insert y _ ih =>
      have hlast := ih.append (.insert y .nil)
      rwa [List.append_nil, ← List.reverse_cons] at hlast
  | replace x y _ ih =>
      rw [List.reverse_cons, List.reverse_cons]
      have hlast := ih.append (.replace x y .nil)
      rwa [Nat.zero_add] at hlast

/-- Where the first list is cut, the second one can be cut too. -/
theorem Alignment.exists_split (h : Alignment (xs ++ xs') ys n) :
    ∃ front back m m', ys = front ++ back ∧ Alignment xs front m ∧ Alignment xs' back m' ∧
      n = m + m' := by
  generalize hlist : xs ++ xs' = whole at h
  induction h generalizing xs with
  | nil =>
      obtain ⟨rfl, rfl⟩ := List.append_eq_nil_iff.mp hlist
      exact ⟨[], [], 0, 0, rfl, .nil, .nil, rfl⟩
  | @delete whole ys n x h ih =>
      cases xs with
      | nil =>
          rw [List.nil_append] at hlist
          exact ⟨[], ys, 0, n + 1, rfl, .nil, hlist ▸ .delete x h, (Nat.zero_add _).symm⟩
      | cons x' xs =>
          obtain ⟨rfl, hrest⟩ := List.cons.inj hlist
          obtain ⟨front, back, m, m', rfl, hfront, hback, rfl⟩ := ih hrest
          exact ⟨front, back, m + 1, m', rfl, .delete x' hfront, hback,
            Nat.add_right_comm m m' 1⟩
  | insert y _ ih =>
      obtain ⟨front, back, m, m', rfl, hfront, hback, rfl⟩ := ih hlist
      exact ⟨y :: front, back, m + 1, m', rfl, .insert y hfront, hback,
        Nat.add_right_comm m m' 1⟩
  | @replace whole ys n x y h ih =>
      cases xs with
      | nil =>
          rw [List.nil_append] at hlist
          exact ⟨[], y :: ys, 0, _, rfl, .nil, hlist ▸ .replace x y h, (Nat.zero_add _).symm⟩
      | cons x' xs =>
          obtain ⟨rfl, hrest⟩ := List.cons.inj hlist
          obtain ⟨front, back, m, m', rfl, hfront, hback, rfl⟩ := ih hrest
          exact ⟨y :: front, back, m + replacementCost x' y, m', rfl, .replace x' y hfront, hback,
            Nat.add_right_comm m m' _⟩

theorem Alignment.length_le (h : Alignment xs ys n) : xs.length ≤ ys.length + n := by
  induction h with
  | nil => exact le_rfl
  | delete x _ ih =>
      rw [List.length_cons]
      omega
  | insert y _ ih =>
      rw [List.length_cons]
      omega
  | replace x y _ ih =>
      rw [List.length_cons, List.length_cons]
      omega

theorem alignment_refl (xs : List α) : Alignment xs xs 0 := by
  induction xs with
  | nil => exact .nil
  | cons x xs ih =>
      have h := Alignment.replace x x ih
      rwa [replacementCost, if_pos rfl] at h

/-! ## The least cost -/

theorem alignment_editDistance (xs ys : List α) : Alignment xs ys (editDistance xs ys) := by
  fun_induction editDistance xs ys with
  | case1 ys => exact alignment_insertAll ys
  | case2 x xs => exact alignment_deleteAll (x :: xs)
  | case3 x xs y ys ihDelete ihInsert ihReplace =>
      rcases min_choice (min (editDistance xs (y :: ys) + 1) (editDistance (x :: xs) ys + 1))
        (editDistance xs ys + replacementCost x y) with h | h
      · rw [h]
        rcases min_choice (editDistance xs (y :: ys) + 1) (editDistance (x :: xs) ys + 1) with
          h | h
        · rw [h]
          exact .delete x ihDelete
        · rw [h]
          exact .insert y ihInsert
      · rw [h]
        exact .replace x y ihReplace

theorem Alignment.editDistance_le (h : Alignment xs ys n) : editDistance xs ys ≤ n := by
  induction h with
  | nil => rw [editDistance]; exact le_rfl
  | @delete xs ys n x h ih =>
      cases ys with
      | nil =>
          have hlength := h.length_le
          rw [editDistance, List.length_cons]
          rw [List.length_nil] at hlength
          omega
      | cons y ys =>
          rw [editDistance]
          exact (min_le_left _ _).trans ((min_le_left _ _).trans (Nat.succ_le_succ ih))
  | @insert xs ys n y h ih =>
      cases xs with
      | nil =>
          have hlength := h.symm.length_le
          rw [editDistance, List.length_cons]
          rw [List.length_nil] at hlength
          omega
      | cons x xs =>
          rw [editDistance]
          exact (min_le_left _ _).trans ((min_le_right _ _).trans (Nat.succ_le_succ ih))
  | replace x y _ ih =>
      rw [editDistance]
      exact (min_le_right _ _).trans (Nat.add_le_add_right ih _)

theorem editDistance_comm (xs ys : List α) : editDistance xs ys = editDistance ys xs :=
  le_antisymm (alignment_editDistance ys xs).symm.editDistance_le
    (alignment_editDistance xs ys).symm.editDistance_le

theorem editDistance_reverse (xs ys : List α) :
    editDistance xs.reverse ys.reverse = editDistance xs ys := by
  apply le_antisymm (alignment_editDistance xs ys).reverse.editDistance_le
  have hback := (alignment_editDistance xs.reverse ys.reverse).reverse
  rw [List.reverse_reverse, List.reverse_reverse] at hback
  exact hback.editDistance_le

@[simp] theorem editDistance_self (xs : List α) : editDistance xs xs = 0 :=
  Nat.le_zero.mp (alignment_refl xs).editDistance_le

@[simp] theorem editDistance_nil (ys : List α) : editDistance [] ys = ys.length := by
  rw [editDistance]

@[simp] theorem editDistance_nil_right (xs : List α) : editDistance xs [] = xs.length := by
  rw [editDistance_comm, editDistance_nil]

/-- The last items in place of the first ones. -/
theorem editDistance_concat (xs ys : List α) (x y : α) :
    editDistance (xs ++ [x]) (ys ++ [y]) =
      min (min (editDistance xs (ys ++ [y]) + 1) (editDistance (xs ++ [x]) ys + 1))
        (editDistance xs ys + replacementCost x y) := by
  have hconcat : ∀ (zs : List α) (z : α), zs ++ [z] = (z :: zs.reverse).reverse := by simp
  rw [hconcat xs, hconcat ys, editDistance_reverse, editDistance, ← editDistance_reverse xs.reverse,
    ← editDistance_reverse (x :: xs.reverse) ys.reverse, ← editDistance_reverse xs.reverse ys.reverse]
  simp

theorem length_le_add_editDistance (xs ys : List α) :
    xs.length ≤ ys.length + editDistance xs ys := (alignment_editDistance xs ys).length_le

/-- Every front of the first list is nearer to some front of the second one. -/
theorem exists_take_editDistance_le (xs ys : List α) (i : ℕ) :
    ∃ j ≤ ys.length, editDistance (xs.take i) (ys.take j) ≤ editDistance xs ys := by
  have hsplit := alignment_editDistance xs ys
  rw [← List.take_append_drop i xs] at hsplit
  obtain ⟨front, back, m, m', hys, hfront, -, hcost⟩ := hsplit.exists_split
  refine ⟨front.length, ?_, ?_⟩
  · rw [hys, List.length_append]
    omega
  · rw [hys, List.take_left', ← hys]
    · rw [List.take_append_drop] at hcost
      exact hfront.editDistance_le.trans (by omega)
    · rfl

end

end TestIntelligence.Lists
