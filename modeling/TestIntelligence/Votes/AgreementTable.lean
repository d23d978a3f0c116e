import Mathlib.Algebra.BigOperators.Group.Finset.Basic
import Mathlib.Algebra.Order.BigOperators.Group.Finset
import Mathlib.Algebra.BigOperators.Ring.Finset
import Mathlib.Data.Fintype.BigOperators
import Mathlib.Data.List.Count
import Mathlib.Tactic.Linarith
import Mathlib.Tactic.Ring

/-!
# Tables of two votes

Every item has two votes for one of finitely many labels.  The marginals count the items with a
first or a second vote for a label.  The products of the marginals are bounded by the number of
items and of agreements.
-/

namespace TestIntelligence.Votes

variable {α ι : Type*} [DecidableEq ι] (f g : α → ι) (xs : List α)

/-- The number of votes for a label. -/
def marginal (i : ι) : ℕ := xs.countP (f · = i)

/-- The number of items with both votes for a label. -/
def bothFor (i : ι) : ℕ := xs.countP fun x ↦ f x = i ∧ g x = i

def agreements : ℕ := xs.countP fun x ↦ f x = g x

variable {f g xs}

theorem marginal_cons (x : α) (i : ι) :
    marginal f (x :: xs) i = marginal f xs i + if f x = i then 1 else 0 := by
  simp [marginal, List.countP_cons]

theorem bothFor_cons (x : α) (i : ι) :
    bothFor f g (x :: xs) i = bothFor f g xs i + if f x = i ∧ g x = i then 1 else 0 := by
  simp [bothFor, List.countP_cons]

theorem agreements_cons (x : α) :
    agreements f g (x :: xs) = agreements f g xs + if f x = g x then 1 else 0 := by
  simp [agreements, List.countP_cons]

theorem agreements_le_length : agreements f g xs ≤ xs.length := List.countP_le_length

theorem agreements_eq_length_iff : agreements f g xs = xs.length ↔ ∀ x ∈ xs, f x = g x := by
  simp [agreements, List.countP_eq_length]

theorem marginal_add_marginal_le (i : ι) :
    marginal f xs i + marginal g xs i ≤ xs.length + bothFor f g xs i := by
  induction xs with
  | nil => simp [marginal, bothFor]
  | cons x xs ih =>
      rw [marginal_cons, marginal_cons, bothFor_cons, List.length_cons]
      by_cases hf : f x = i <;> by_cases hg : g x = i <;> simp [hf, hg] <;> omega

/-- The product of two marginals of one label. -/
theorem four_mul_marginal_mul_le (i : ι) :
    4 * (marginal f xs i * marginal g xs i) ≤
      xs.length * (marginal f xs i + marginal g xs i) + 2 * (xs.length * bothFor f g xs i) := by
  have hle := @marginal_add_marginal_le _ _ _ f g xs i
  have hf : marginal f xs i ≤ xs.length := List.countP_le_length
  have hg : marginal g xs i ≤ xs.length := List.countP_le_length
  generalize marginal f xs i = r at hle hf ⊢
  generalize marginal g xs i = c at hle hg ⊢
  generalize bothFor f g xs i = b at hle ⊢
  generalize xs.length = n at hle hf hg ⊢
  have hsquare : 4 * (r * c) ≤ (r + c) * (r + c) := by
    zify
    nlinarith [sq_nonneg ((r : ℤ) - c)]
  refine hsquare.trans ?_
  rcases Nat.le_total (r + c) n with hsmall | hlarge
  · exact (Nat.mul_le_mul_right _ hsmall).trans (Nat.le_add_right _ _)
  · -- The excess over `n` is at most twice `n`, and at most the number of both votes.
    obtain ⟨d, hd⟩ := Nat.exists_eq_add_of_le hlarge
    have hdb : d ≤ b := by omega
    have hdn : r + c ≤ 2 * n := by omega
    calc (r + c) * (r + c) = n * (r + c) + d * (r + c) := by rw [← add_mul, ← hd]
      _ ≤ n * (r + c) + b * (2 * n) := by gcongr
      _ = n * (r + c) + 2 * (n * b) := by ring

section Perm

variable {ys : List α}

theorem marginal_perm (h : xs.Perm ys) (i : ι) : marginal f xs i = marginal f ys i :=
  h.countP_eq _

theorem agreements_perm (h : xs.Perm ys) : agreements f g xs = agreements f g ys :=
  h.countP_eq _

end Perm

variable [Fintype ι]

theorem sum_marginal : ∑ i, marginal f xs i = xs.length := by
  induction xs with
  | nil => simp [marginal]
  | cons x xs ih => simp [marginal_cons, Finset.sum_add_distrib, ih]

theorem sum_bothFor : ∑ i, bothFor f g xs i = agreements f g xs := by
  induction xs with
  | nil => simp [bothFor, agreements]
  | cons x xs ih =>
      have hone : ∑ i, (if f x = i ∧ g x = i then 1 else 0) = if f x = g x then 1 else 0 := by
        by_cases h : f x = g x
        · simp [h]
        · rw [if_neg h]
          refine Finset.sum_eq_zero fun i _ ↦ if_neg ?_
          rintro ⟨rfl, hg⟩
          exact h hg.symm
      simp only [bothFor_cons, Finset.sum_add_distrib, ih, hone, agreements_cons]

theorem two_mul_sum_marginal_mul_le :
    2 * ∑ i, marginal f xs i * marginal g xs i ≤
      xs.length * (xs.length + agreements f g xs) := by
  have hsum : ∑ i, 4 * (marginal f xs i * marginal g xs i) ≤
      ∑ i, (xs.length * (marginal f xs i + marginal g xs i) +
        2 * (xs.length * bothFor f g xs i)) :=
    Finset.sum_le_sum fun i _ ↦ four_mul_marginal_mul_le i
  simp only [Finset.sum_add_distrib, ← Finset.mul_sum, mul_add, sum_marginal, sum_bothFor] at hsum
  rw [mul_add]
  omega

end TestIntelligence.Votes
