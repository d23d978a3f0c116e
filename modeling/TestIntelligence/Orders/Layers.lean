import Mathlib.Data.List.Chain
import Mathlib.Order.Bounds.Defs
import Mathlib.Tactic.Common

/-!
# Layers of a finite relation

The height of an item is the length of the longest chain of items above it.  A numbering
of the items is the height as soon as it grows below every item and never skips a number.
-/

namespace TestIntelligence.Orders

section

variable {ι : Type*} (above : ι → ι → Prop) (items : List ι)

/-- The first item of the chain is above `i`, and each further item above the one before. -/
def Climbs (i : ι) (chain : List ι) : Prop :=
  (i :: chain).IsChain (fun a b ↦ above b a) ∧ ∀ a ∈ chain, a ∈ items

def IsHeight (i : ι) (k : ℕ) : Prop :=
  IsGreatest {n | ∃ chain, Climbs above items i chain ∧ chain.length = n} k

structure IsLayering (layer : ι → ℕ) : Prop where
  lower : ∀ i ∈ items, ∀ a ∈ items, above a i → layer a < layer i
  climb : ∀ i ∈ items, ∀ k, layer i = k + 1 → ∃ a ∈ items, above a i ∧ layer a = k

end

variable {ι : Type*} {above : ι → ι → Prop} {items : List ι} {layer : ι → ℕ}

theorem climbs_nil (i : ι) : Climbs above items i [] := ⟨by simp, by simp⟩

theorem climbs_cons {i a : ι} {chain : List ι} :
    Climbs above items i (a :: chain) ↔ above a i ∧ a ∈ items ∧ Climbs above items a chain := by
  simp only [Climbs, List.isChain_cons_cons, List.forall_mem_cons]
  tauto

theorem IsLayering.length_le (h : IsLayering above items layer) {i : ι} (hi : i ∈ items)
    {chain : List ι} (hchain : Climbs above items i chain) : chain.length ≤ layer i := by
  induction chain generalizing i with
  | nil => exact Nat.zero_le _
  | cons a chain ih =>
      obtain ⟨habove, ha, hchain⟩ := climbs_cons.mp hchain
      have hlower := h.lower i hi a ha habove
      have hlength := ih ha hchain
      rw [List.length_cons]
      omega

theorem IsLayering.exists_climbs (h : IsLayering above items layer) {i : ι} (hi : i ∈ items) :
    ∃ chain, Climbs above items i chain ∧ chain.length = layer i := by
  induction hk : layer i generalizing i with
  | zero => exact ⟨[], climbs_nil i, rfl⟩
  | succ k ih =>
      obtain ⟨a, ha, habove, hlayer⟩ := h.climb i hi k hk
      obtain ⟨chain, hchain, hlength⟩ := ih ha hlayer
      exact ⟨a :: chain, climbs_cons.mpr ⟨habove, ha, hchain⟩, congrArg (· + 1) hlength⟩

theorem IsLayering.isHeight (h : IsLayering above items layer) {i : ι} (hi : i ∈ items) :
    IsHeight above items i (layer i) := by
  refine ⟨h.exists_climbs hi, ?_⟩
  rintro n ⟨chain, hchain, rfl⟩
  exact h.length_le hi hchain

end TestIntelligence.Orders
