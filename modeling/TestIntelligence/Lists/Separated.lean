import Mathlib.Data.List.Basic

/-!
# Two lists joined by a separator

Two pairs are joined to the same list just when they are equal or a piece has moved across
the separator.
-/

namespace TestIntelligence.Lists

variable {α : Type*} {sep : α} {p q : List α × List α}

def joined (sep : α) (p : List α × List α) : List α := p.1 ++ sep :: p.2

/-- The beginning of the second list, up to a separator in it, has moved to the first. -/
def Moved (sep : α) (p q : List α × List α) : Prop :=
  ∃ piece, q.1 = p.1 ++ sep :: piece ∧ p.2 = piece ++ sep :: q.2

theorem Moved.joined_eq (h : Moved sep p q) : joined sep p = joined sep q := by
  obtain ⟨piece, hfirst, hsecond⟩ := h
  rw [joined, joined, hfirst, hsecond, List.append_assoc, List.cons_append]

theorem Moved.ne (h : Moved sep p q) : p ≠ q := by
  rintro rfl
  obtain ⟨piece, hfirst, -⟩ := h
  have hlength := congrArg List.length hfirst
  rw [List.length_append, List.length_cons] at hlength
  omega

theorem joined_eq_iff : joined sep p = joined sep q ↔ p = q ∨ Moved sep p q ∨ Moved sep q p := by
  constructor
  · intro h
    rcases List.append_eq_append_iff.mp h with ⟨rest, hfirst, hsecond⟩ | ⟨rest, hfirst, hsecond⟩
    · cases rest with
      | nil =>
          left
          rw [List.append_nil] at hfirst
          exact Prod.ext hfirst.symm (List.cons.inj hsecond).2
      | cons u piece =>
          obtain ⟨rfl, htail⟩ := List.cons.inj hsecond
          exact .inr (.inl ⟨piece, hfirst, htail⟩)
    · cases rest with
      | nil =>
          left
          rw [List.append_nil] at hfirst
          exact Prod.ext hfirst (List.cons.inj hsecond).2.symm
      | cons u piece =>
          obtain ⟨rfl, htail⟩ := List.cons.inj hsecond
          exact .inr (.inr ⟨piece, hfirst, htail⟩)
  · rintro (rfl | h | h)
    · rfl
    · exact h.joined_eq
    · exact h.joined_eq.symm

end TestIntelligence.Lists
