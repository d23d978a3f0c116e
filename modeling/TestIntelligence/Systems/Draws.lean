import Mathlib.Data.Stream.Defs
import Mathlib.Tactic.Common

/-!
# Programs that draw random numbers

A program takes numbers from an endless stream and may fail.  `Produces` says that it
does not fail on any stream of admissible numbers, leaves a stream of admissible numbers
and returns a value with the given property.
-/

namespace TestIntelligence.Systems

abbrev Draws (K ε : Type) := StateT (Stream' K) (Except ε)

section

variable {K ε α β : Type} {admissible : K → Prop}

def draw : Draws K ε K := fun s ↦ .ok (s.head, s.tail)

def Produces (admissible : K → Prop) (program : Draws K ε α) (post : α → Prop) : Prop :=
  ∀ s : Stream' K, (∀ n, admissible (s.get n)) → ∃ a s', program s = .ok (a, s') ∧
    (∀ n, admissible (s'.get n)) ∧ post a

theorem produces_pure {a : α} {post : α → Prop} (h : post a) :
    Produces admissible (pure a : Draws K ε α) post := fun s hs ↦ ⟨a, s, rfl, hs, h⟩

theorem produces_draw : Produces admissible (draw : Draws K ε K) admissible :=
  fun s hs ↦ ⟨s.head, s.tail, rfl, fun n ↦ hs (n + 1), hs 0⟩

theorem produces_lift {x : Except ε α} {a : α} (h : x = .ok a) :
    Produces admissible (liftM x : Draws K ε α) (a = ·) := by
  subst h
  exact fun s hs ↦ ⟨a, s, rfl, hs, rfl⟩

theorem Produces.bind {program : Draws K ε α} {next : α → Draws K ε β} {mid : α → Prop}
    {post : β → Prop} (h : Produces admissible program mid)
    (h' : ∀ a, mid a → Produces admissible (next a) post) :
    Produces admissible (program >>= next) post := by
  intro s hs
  obtain ⟨a, s', hrun, hs', ha⟩ := h s hs
  obtain ⟨b, s'', hrun', hs'', hb⟩ := h' a ha s' hs'
  refine ⟨b, s'', ?_, hs'', hb⟩
  change (program s).bind (fun p ↦ next p.1 p.2) = _
  rw [hrun]
  exact hrun'

theorem Produces.imp {program : Draws K ε α} {post post' : α → Prop}
    (h : Produces admissible program post) (himp : ∀ a, post a → post' a) :
    Produces admissible program post' := by
  intro s hs
  obtain ⟨a, s', hrun, hs', ha⟩ := h s hs
  exact ⟨a, s', hrun, hs', himp a ha⟩

/-- The invariant speaks of the values that the loop has gone through. -/
theorem produces_foldlM {step : β → α → Draws K ε β} {xs : List α} {I : List α → β → Prop}
    (hstep : ∀ before, ∀ x ∈ xs, ∀ b, I before b →
      Produces admissible (step b x) (I (before ++ [x])))
    {b : β} (h : I [] b) : Produces admissible (xs.foldlM step b) (I xs) := by
  have hloop : ∀ rest before, before ++ rest = xs → ∀ b, I before b →
      Produces admissible (rest.foldlM step b) (I xs) := by
    intro rest
    induction rest with
    | nil =>
        rintro before hbefore b hb
        rw [List.append_nil] at hbefore
        exact produces_pure (hbefore ▸ hb)
    | cons x rest ih =>
        rintro before hbefore b hb
        rw [List.foldlM_cons]
        have hx : x ∈ xs := hbefore ▸ List.mem_append_right before List.mem_cons_self
        refine (hstep before x hx b hb).bind fun b' hb' ↦ ih _ ?_ b' hb'
        rw [List.append_assoc, List.singleton_append, hbefore]
  exact hloop xs [] rfl b h

end

end TestIntelligence.Systems
