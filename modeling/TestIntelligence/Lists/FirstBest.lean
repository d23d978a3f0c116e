import Mathlib.Data.List.Perm.Basic
import Mathlib.Order.Defs.Unbundled
import Mathlib.Tactic.Common

/-!
# The first of the best

A fold keeps a value as long as it is at least as good as the next one.  It ends with the
first of the best values of the list, so its result does not depend on the order of the
list exactly if the best values look alike.
-/

namespace TestIntelligence.Lists

section

variable {α β : Type*} (r : α → α → Prop) [DecidableRel r]

def firstBest (xs : List α) : Option α :=
  xs.foldl (fun best x ↦ some (best.elim x fun best ↦ if r best x then best else x)) none

variable {r}

theorem foldl_firstBest [Std.Total r] [IsTrans α r] (xs : List α) (best : α) :
    ∃ b ∈ best :: xs, xs.foldl
        (fun best x ↦ some (best.elim x fun best ↦ if r best x then best else x)) (some best) =
          some b ∧ ∀ x ∈ best :: xs, r b x := by
  induction xs generalizing best with
  | nil =>
      refine ⟨best, List.mem_cons_self, rfl, fun x hx ↦ ?_⟩
      obtain rfl := List.mem_singleton.mp hx
      exact (Std.Total.total x x).elim id id
  | cons x xs ih =>
      obtain ⟨b, hb, hfold, hbest⟩ := ih (if r best x then best else x)
      have hnext : r b (if r best x then best else x) := hbest _ List.mem_cons_self
      refine ⟨b, ?_, hfold, fun y hy ↦ ?_⟩
      · rcases List.mem_cons.mp hb with rfl | hb
        · split <;> simp
        · exact List.mem_cons_of_mem _ (List.mem_cons_of_mem _ hb)
      · have hboth : r b best ∧ r b x := by
          split at hnext
          · next hkeep => exact ⟨hnext, IsTrans.trans _ _ _ hnext hkeep⟩
          · next hdrop =>
            have hge := (Std.Total.total best x).resolve_left hdrop
            exact ⟨IsTrans.trans _ _ _ hnext hge, hnext⟩
        rcases List.mem_cons.mp hy with rfl | hy
        · exact hboth.1
        rcases List.mem_cons.mp hy with rfl | hy
        · exact hboth.2
        · exact hbest y (List.mem_cons_of_mem _ hy)

theorem firstBest_cons [Std.Total r] [IsTrans α r] (x : α) (xs : List α) :
    ∃ b ∈ x :: xs, firstBest r (x :: xs) = some b ∧ ∀ y ∈ x :: xs, r b y :=
  foldl_firstBest xs x

theorem mem_of_firstBest [Std.Total r] [IsTrans α r] {xs : List α} {b : α}
    (h : firstBest r xs = some b) : b ∈ xs ∧ ∀ x ∈ xs, r b x := by
  cases xs with
  | nil => cases h
  | cons x xs =>
      obtain ⟨b', hb', hfirst, hbest⟩ := firstBest_cons (r := r) x xs
      obtain rfl := Option.some.inj (hfirst.symm.trans h)
      exact ⟨hb', hbest⟩

/-- A best value that comes first is kept. -/
theorem firstBest_cons_of_best {x : α} {xs : List α} (h : ∀ y ∈ xs, r x y) :
    firstBest r (x :: xs) = some x := by
  have hfold : xs.foldl
      (fun best x ↦ some (best.elim x fun best ↦ if r best x then best else x)) (some x) =
        some x := by
    induction xs with
    | nil => rfl
    | cons y xs ih =>
        rw [List.foldl_cons, Option.elim, if_pos (h y List.mem_cons_self)]
        exact ih fun z hz ↦ h z (List.mem_cons_of_mem _ hz)
  exact hfold

/-- The order does not matter exactly if the best of the values that count look alike. -/
theorem firstBest_filter_iff [Std.Total r] [IsTrans α r] (counts : α → Bool) (look : α → β)
    {xs : List α} :
    (∀ ys, xs.Perm ys → (firstBest r (ys.filter counts)).map look =
      (firstBest r (xs.filter counts)).map look) ↔
    ∀ a ∈ xs.filter counts, ∀ b ∈ xs.filter counts, (∀ x ∈ xs.filter counts, r a x) →
      (∀ x ∈ xs.filter counts, r b x) → look a = look b := by
  constructor
  · intro h
    have hlook : ∀ a ∈ xs.filter counts, (∀ x ∈ xs.filter counts, r a x) →
        (firstBest r (xs.filter counts)).map look = some (look a) := by
      intro a ha hbest
      obtain ⟨hmem, hcounts⟩ := List.mem_filter.mp ha
      obtain ⟨front, back, rfl⟩ := List.append_of_mem hmem
      have hperm : (front ++ a :: back).Perm (a :: (front ++ back)) := List.perm_middle
      rw [← h _ hperm, List.filter_cons_of_pos hcounts, firstBest_cons_of_best, Option.map_some]
      intro y hy
      apply hbest y
      rw [(hperm.filter counts).mem_iff, List.filter_cons_of_pos hcounts]
      exact List.mem_cons_of_mem _ hy
    intro a ha b hb hbest hbest'
    exact Option.some.inj ((hlook a ha hbest).symm.trans (hlook b hb hbest'))
  · intro h ys hperm
    have hfilter := hperm.filter counts
    cases hxs : firstBest r (xs.filter counts) with
    | none =>
        cases hlist : xs.filter counts with
        | nil =>
            rw [hlist] at hfilter
            rw [List.nil_perm.mp hfilter]
            rfl
        | cons x rest =>
            obtain ⟨b, -, hb, -⟩ := firstBest_cons (r := r) x rest
            rw [hlist, hb] at hxs
            cases hxs
    | some a =>
        obtain ⟨ha, hbest⟩ := mem_of_firstBest hxs
        obtain ⟨b, hb⟩ : ∃ b, firstBest r (ys.filter counts) = some b := by
          cases hlist : ys.filter counts with
          | nil =>
              rw [hlist] at hfilter
              rw [List.perm_nil.mp hfilter] at ha
              cases ha
          | cons y rest =>
              obtain ⟨b, -, hb, -⟩ := firstBest_cons (r := r) y rest
              exact ⟨b, hb⟩
        obtain ⟨hmem, hbest'⟩ := mem_of_firstBest hb
        rw [hb]
        refine congrArg some (h b (hfilter.mem_iff.mpr hmem) a ha (fun x hx ↦ ?_) hbest)
        exact hbest' x (hfilter.mem_iff.mp hx)

end

end TestIntelligence.Lists
