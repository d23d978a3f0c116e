import Mathlib.Data.List.Induction
import TestIntelligence.Js.Collections

/-!
# Plurality votes

Votes are counted by key, and each key stands under the first value that was cast for it.
A key with more than half of the votes is the only one of its kind, and it wins.
-/

namespace TestIntelligence.Votes

open Js

structure Candidate (α : Type*) where
  count : ℕ
  value : α

section

variable {α κ : Type*} [DecidableEq κ] (key : α → κ)

def castVote (counts : List (κ × Candidate α)) (value : α) : List (κ × Candidate α) :=
  match mapGet counts (key value) with
  | none => mapSet counts (key value) ⟨1, value⟩
  | some existing => mapSet counts (key value) { existing with count := existing.count + 1 }

def countVotes (values : List α) : List (κ × Candidate α) := values.foldl (castVote key) []

def votesFor (values : List α) (k : κ) : ℕ := values.countP fun value ↦ key value = k

/-- The first value that was cast for the key. -/
def firstFor (values : List α) (k : κ) : Option α := values.find? fun value ↦ key value = k

end

section

variable {α : Type*} (prefers : α → α → Bool)

/-- Between candidates of equal counts, a preference decides. -/
def beats (candidate winner : Candidate α) : Bool :=
  winner.count < candidate.count ||
    (candidate.count == winner.count && prefers candidate.value winner.value)

def pickWinner (winner : Option (Candidate α)) (candidate : Candidate α) : Option (Candidate α) :=
  match winner with
  | none => some candidate
  | some w => if beats prefers candidate w then some candidate else some w

def leader (candidates : List (Candidate α)) : Option (Candidate α) :=
  candidates.foldl (pickWinner prefers) none

end

variable {α κ : Type*} [DecidableEq κ] {key : α → κ} {prefers : α → α → Bool}

/-! ## The count -/

theorem votesFor_append_singleton (values : List α) (value : α) (k : κ) :
    votesFor key (values ++ [value]) k = votesFor key values k + if key value = k then 1 else 0 := by
  rw [votesFor, List.countP_append, List.countP_singleton]
  by_cases h : key value = k <;> simp [h, votesFor]

theorem firstFor_append_singleton (values : List α) (value : α) (k : κ) :
    firstFor key (values ++ [value]) k =
      (firstFor key values k).or (if key value = k then some value else none) := by
  rw [firstFor, List.find?_append]
  by_cases h : key value = k <;> simp [h, firstFor]

theorem firstFor_eq_none_iff {values : List α} {k : κ} :
    firstFor key values k = none ↔ votesFor key values k = 0 := by
  simp [firstFor, votesFor, List.countP_eq_zero]

theorem key_of_firstFor {values : List α} {k : κ} {first : α}
    (h : firstFor key values k = some first) : key first = k := by
  simpa using List.find?_some h

theorem mapGet_countVotes (key : α → κ) (values : List α) (k : κ) :
    mapGet (countVotes key values) k =
      (firstFor key values k).map fun value ↦ ⟨votesFor key values k, value⟩ := by
  induction values using List.reverseRecOn with
  | nil => rfl
  | append_singleton values value ih =>
      rw [countVotes, List.foldl_append, List.foldl_cons, List.foldl_nil, ← countVotes,
        firstFor_append_singleton, votesFor_append_singleton]
      by_cases hk : key value = k
      · subst hk
        rw [castVote, ih, if_pos rfl, if_pos rfl]
        cases hfirst : firstFor key values (key value) with
        | none =>
            have hzero := firstFor_eq_none_iff.mp hfirst
            simp [hzero]
        | some first => simp
      · rw [if_neg hk, if_neg hk, Option.or_none, Nat.add_zero, castVote]
        cases mapGet (countVotes key values) (key value) with
        | none => simpa [mapGet_mapSet, Ne.symm hk] using ih
        | some existing => simpa [mapGet_mapSet, Ne.symm hk] using ih

theorem nodup_keys_countVotes (values : List α) :
    ((countVotes key values).map Prod.fst).Nodup := by
  induction values using List.reverseRecOn with
  | nil => exact List.nodup_nil
  | append_singleton values value ih =>
      rw [countVotes, List.foldl_append, List.foldl_cons, List.foldl_nil, ← countVotes, castVote]
      cases mapGet (countVotes key values) (key value) with
      | none =>
          rw [keys_mapSet]
          exact nodup_setAdd ih _
      | some existing =>
          rw [keys_mapSet]
          exact nodup_setAdd ih _

/-! ## The winner -/

theorem foldl_pickWinner (prefers : α → α → Bool) (candidates : List (Candidate α))
    (start : Candidate α) :
    ∃ winner, candidates.foldl (pickWinner prefers) (some start) = some winner ∧
      (winner = start ∨ winner ∈ candidates) ∧
      start.count ≤ winner.count ∧ ∀ c ∈ candidates, c.count ≤ winner.count := by
  induction candidates generalizing start with
  | nil => exact ⟨start, rfl, Or.inl rfl, Nat.le_refl _, by simp⟩
  | cons c candidates ih =>
      rw [List.foldl_cons, pickWinner]
      by_cases hbeats : beats prefers c start = true
      · have hcount : start.count ≤ c.count := by
          simp only [beats, Bool.or_eq_true, decide_eq_true_eq, Bool.and_eq_true, beq_iff_eq]
            at hbeats
          omega
        obtain ⟨winner, hfold, hmem, hstart, hall⟩ := ih c
        rw [if_pos hbeats]
        refine ⟨winner, hfold, ?_, by omega, List.forall_mem_cons.mpr ⟨hstart, hall⟩⟩
        rcases hmem with rfl | hmem
        · exact Or.inr List.mem_cons_self
        · exact Or.inr (List.mem_cons_of_mem _ hmem)
      · have hcount : c.count ≤ start.count := by
          simp only [beats, Bool.or_eq_true, decide_eq_true_eq, not_or] at hbeats
          omega
        obtain ⟨winner, hfold, hmem, hstart, hall⟩ := ih start
        rw [if_neg hbeats]
        refine ⟨winner, hfold, hmem.imp_right (List.mem_cons_of_mem _), hstart, ?_⟩
        exact List.forall_mem_cons.mpr ⟨by omega, hall⟩

theorem leader_spec (prefers : α → α → Bool) {candidates : List (Candidate α)} (h : candidates ≠ []) :
    ∃ winner ∈ candidates, leader prefers candidates = some winner ∧
      ∀ c ∈ candidates, c.count ≤ winner.count := by
  cases candidates with
  | nil => exact absurd rfl h
  | cons c candidates =>
      obtain ⟨winner, hfold, hmem, hstart, hall⟩ :=
        foldl_pickWinner prefers candidates c
      refine ⟨winner, ?_, hfold, List.forall_mem_cons.mpr ⟨hstart, hall⟩⟩
      rcases hmem with rfl | hmem
      · exact List.mem_cons_self
      · exact List.mem_cons_of_mem _ hmem

/-- The winner of a vote. -/
def winnerOf (key : α → κ) (prefers : α → α → Bool) (values : List α) : Option (Candidate α) :=
  leader prefers ((countVotes key values).map Prod.snd)

theorem winnerOf_spec (key : α → κ) (prefers : α → α → Bool) {values : List α} (h : values ≠ []) :
    ∃ k first, firstFor key values k = some first ∧
      winnerOf key prefers values = some ⟨votesFor key values k, first⟩ ∧
      ∀ k', votesFor key values k' ≤ votesFor key values k := by
  have hne : (countVotes key values).map Prod.snd ≠ [] := by
    intro hnil
    obtain ⟨value, values, rfl⟩ := List.exists_cons_of_ne_nil h
    have hget := mapGet_countVotes key (value :: values) (key value)
    rw [List.map_eq_nil_iff.mp hnil, firstFor, List.find?_cons_of_pos (by simp)] at hget
    exact absurd hget (by simp)
  obtain ⟨winner, hmem, hleader, hall⟩ := leader_spec prefers hne
  obtain ⟨⟨k, _⟩, hentry, rfl⟩ := List.mem_map.mp hmem
  have hget := mapGet_eq_some_of_mem (nodup_keys_countVotes values) hentry
  rw [mapGet_countVotes] at hget
  obtain ⟨first, hfirst, rfl⟩ := Option.map_eq_some_iff.mp hget
  refine ⟨k, first, hfirst, hleader, fun k' ↦ ?_⟩
  cases hother : firstFor key values k' with
  | none => rw [firstFor_eq_none_iff.mp hother]; exact Nat.zero_le _
  | some other =>
      have hget' : mapGet (countVotes key values) k' = some ⟨votesFor key values k', other⟩ := by
        rw [mapGet_countVotes, hother]
        rfl
      exact hall _ (List.mem_map.mpr ⟨_, mem_of_mapGet hget', rfl⟩)

/-! ## Majorities -/

theorem votesFor_add_le (key : α → κ) (values : List α) {k k' : κ} (h : k ≠ k') :
    votesFor key values k + votesFor key values k' ≤ values.length := by
  induction values with
  | nil => simp [votesFor]
  | cons value values ih =>
      simp only [votesFor, List.countP_cons, List.length_cons, decide_eq_true_eq] at ih ⊢
      by_cases hk : key value = k
      · rw [if_pos hk, if_neg (fun hk' ↦ h (hk.symm.trans hk'))]
        omega
      · rw [if_neg hk]
        split <;> omega

theorem majority_unique {values : List α} {k k' : κ}
    (h : values.length < 2 * votesFor key values k)
    (h' : values.length < 2 * votesFor key values k') : k = k' := by
  by_contra hne
  have hsum := votesFor_add_le key values hne
  omega

/-- A key with more than half of the votes wins. -/
theorem winnerOf_of_majority {values : List α} {k : κ}
    (h : values.length < 2 * votesFor key values k) :
    ∃ first, firstFor key values k = some first ∧
      winnerOf key prefers values = some ⟨votesFor key values k, first⟩ := by
  have hne : values ≠ [] := by
    rintro rfl
    simp [votesFor] at h
  obtain ⟨k', first, hfirst, hwinner, hall⟩ := winnerOf_spec key prefers hne
  have hk := hall k
  obtain rfl : k = k' := majority_unique h (by omega)
  exact ⟨first, hfirst, hwinner⟩

end TestIntelligence.Votes
