import TestIntelligence.Js.Collections
import Mathlib.Algebra.Order.Ring.Nat
import Mathlib.Data.List.Induction

/-!
# Counting with a map

A map from the values of a list to how often they occur, in the order of their first
occurrences.
-/

namespace TestIntelligence.Lists

open Js

variable {κ : Type*} [DecidableEq κ]

/-- One more occurrence of a value. -/
def countOne (counts : List (κ × ℕ)) (k : κ) : List (κ × ℕ) :=
  mapSet counts k ((mapGet counts k).getD 0 + 1)

def tally (xs : List κ) : List (κ × ℕ) := xs.foldl countOne []

theorem tally_append_singleton (xs : List κ) (k : κ) :
    tally (xs ++ [k]) = countOne (tally xs) k := by
  rw [tally, List.foldl_append, List.foldl_cons, List.foldl_nil, tally]

theorem getD_mapGet_tally (xs : List κ) (k : κ) : (mapGet (tally xs) k).getD 0 = xs.countP (· = k) := by
  induction xs using List.reverseRecOn with
  | nil => rfl
  | append_singleton xs x ih =>
      rw [tally_append_singleton, countOne, mapGet_mapSet, List.countP_append, List.countP_singleton]
      by_cases h : k = x
      · subst h
        simp [ih]
      · simp [h, Ne.symm h, ih]

theorem nodup_keys_tally (xs : List κ) : ((tally xs).map Prod.fst).Nodup := by
  induction xs using List.reverseRecOn with
  | nil => exact List.nodup_nil
  | append_singleton xs x ih =>
      rw [tally_append_singleton, countOne, keys_mapSet]
      exact nodup_setAdd ih x

theorem mem_keys_tally {xs : List κ} {k : κ} : k ∈ (tally xs).map Prod.fst ↔ k ∈ xs := by
  induction xs using List.reverseRecOn with
  | nil => simp [tally]
  | append_singleton xs x ih =>
      rw [tally_append_singleton, countOne, keys_mapSet, mem_setAdd, ih]
      simp [or_comm]

/-- The entries of the map. -/
theorem mem_tally {xs : List κ} {k : κ} {n : ℕ} :
    (k, n) ∈ tally xs ↔ k ∈ xs ∧ n = xs.countP (· = k) := by
  constructor
  · intro h
    have hget := mapGet_eq_some_of_mem (nodup_keys_tally xs) h
    refine ⟨mem_keys_tally.mp (List.mem_map.mpr ⟨_, h, rfl⟩), ?_⟩
    rw [← getD_mapGet_tally, hget, Option.getD_some]
  · rintro ⟨hmem, rfl⟩
    obtain ⟨⟨k', n⟩, hentry, rfl⟩ := List.mem_map.mp (mem_keys_tally.mpr hmem)
    have hget := mapGet_eq_some_of_mem (nodup_keys_tally xs) hentry
    rwa [← getD_mapGet_tally, hget, Option.getD_some]

theorem sum_countOne (counts : List (κ × ℕ)) (k : κ) :
    ((countOne counts k).map Prod.snd).sum = (counts.map Prod.snd).sum + 1 := by
  rw [countOne]
  induction counts with
  | nil => rfl
  | cons p counts ih =>
      obtain ⟨k', n⟩ := p
      rw [mapGet_cons]
      by_cases h : k' = k
      · subst h
        simp [mapSet]
        omega
      · simp only [mapSet, if_neg h, if_neg (Ne.symm h), List.map_cons, List.sum_cons, ih]
        omega

theorem sum_tally (xs : List κ) : ((tally xs).map Prod.snd).sum = xs.length := by
  induction xs using List.reverseRecOn with
  | nil => rfl
  | append_singleton xs x ih =>
      rw [tally_append_singleton, sum_countOne, ih, List.length_append, List.length_singleton]

end TestIntelligence.Lists
