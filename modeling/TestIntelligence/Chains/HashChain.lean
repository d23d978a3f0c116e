import Mathlib.Data.List.Basic
import Mathlib.Data.List.Induction
import Mathlib.Tactic.Common

/-!
# Hash chains

A chain is a list of records.  Each record names the digest of its predecessor,
and the first one names a fixed root digest.  Under a hash without collisions
the digest of the last record determines the whole chain.
-/

namespace TestIntelligence.Chains

variable {ρ δ ν : Type*} (parent : ρ → δ) (hash : ρ → δ)

/-- The digest after the records, when `root` is the digest before them. -/
def head (root : δ) (records : List ρ) : δ := records.foldl (fun _ r ↦ hash r) root

def Linked : δ → List ρ → Prop
  | _, [] => True
  | root, r :: rest => parent r = root ∧ Linked (hash r) rest

variable {parent hash} {root : δ}

@[simp] theorem head_nil : head hash root [] = root := rfl

@[simp] theorem head_cons (r : ρ) (rest : List ρ) :
    head hash root (r :: rest) = head hash (hash r) rest := rfl

@[simp] theorem head_concat (records : List ρ) (r : ρ) :
    head hash root (records ++ [r]) = hash r := by
  simp [head]

theorem linked_append {before after : List ρ} :
    Linked parent hash root (before ++ after) ↔
      Linked parent hash root before ∧ Linked parent hash (head hash root before) after := by
  induction before generalizing root with
  | nil => simp [Linked]
  | cons r before ih => simp [Linked, ih, and_assoc]

theorem linked_concat {records : List ρ} {r : ρ} :
    Linked parent hash root (records ++ [r]) ↔
      Linked parent hash root records ∧ parent r = head hash root records := by
  simp [linked_append, Linked]

/-- The head binds the chain.  `norm` is the part of a record that its digest
covers; the digests of the listed records have no collisions and never equal the
root. -/
theorem map_norm_eq_of_head_eq {norm : ρ → ν}
    (hparent : ∀ r s, norm r = norm s → parent r = parent s) {xs ys : List ρ}
    (hinj : ∀ r ∈ xs, ∀ s ∈ ys, hash r = hash s → norm r = norm s)
    (hxroot : ∀ r ∈ xs, hash r ≠ root) (hyroot : ∀ s ∈ ys, hash s ≠ root)
    (hxs : Linked parent hash root xs) (hys : Linked parent hash root ys)
    (hhead : head hash root xs = head hash root ys) : xs.map norm = ys.map norm := by
  induction xs using List.reverseRecOn generalizing ys with
  | nil =>
      rcases List.eq_nil_or_concat' ys with rfl | ⟨ys, s, rfl⟩
      · rfl
      · rw [head_nil, head_concat] at hhead
        exact absurd hhead.symm (hyroot s (by simp))
  | append_singleton xs r ih =>
      rcases List.eq_nil_or_concat' ys with rfl | ⟨ys, s, rfl⟩
      · rw [head_nil, head_concat] at hhead
        exact absurd hhead (hxroot r (by simp))
      · rw [head_concat, head_concat] at hhead
        obtain ⟨hxs, hr⟩ := linked_concat.mp hxs
        obtain ⟨hys, hs⟩ := linked_concat.mp hys
        have hlast : norm r = norm s := hinj r (by simp) s (by simp) hhead
        have hbefore : xs.map norm = ys.map norm := by
          apply ih
          · exact fun a ha b hb ↦ hinj a (by simp [ha]) b (by simp [hb])
          · exact fun a ha ↦ hxroot a (by simp [ha])
          · exact fun b hb ↦ hyroot b (by simp [hb])
          · exact hxs
          · exact hys
          · rw [← hr, ← hs]
            exact hparent r s hlast
        simp [hbefore, hlast]

end TestIntelligence.Chains
