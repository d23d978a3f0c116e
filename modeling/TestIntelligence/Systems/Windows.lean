import Mathlib.Algebra.Order.Group.Defs
import Mathlib.Data.List.Induction
import Mathlib.Tactic.Common

/-!
# Windows of a fixed width

Times that come in order are cut into windows.  A window starts at the first time
that the one before it does not reach any more.
-/

namespace TestIntelligence.Systems

structure Window (τ : Type*) where
  start : τ
  later : List τ

namespace Window

variable {τ : Type*}

def times (w : Window τ) : List τ := w.start :: w.later

def count (w : Window τ) : ℕ := w.later.length + 1

@[simp] theorem length_times (w : Window τ) : w.times.length = w.count := rfl

end Window

section

variable {τ : Type*} [LinearOrder τ] [Add τ] (width : τ)

/-- One more time, on the windows so far with the latest one first. -/
def place : List (Window τ) → τ → List (Window τ)
  | [], t => [⟨t, []⟩]
  | w :: ws, t =>
      if t < w.start + width then ⟨w.start, w.later ++ [t]⟩ :: ws else ⟨t, []⟩ :: w :: ws

def windowsOf (times : List τ) : List (Window τ) := times.foldl (place width) []

/-- The window that the last of the times belongs to. -/
def currentWindow (times : List τ) : Option (Window τ) := (windowsOf width times).head?

theorem windowsOf_append_singleton (times : List τ) (t : τ) :
    windowsOf width (times ++ [t]) = place width (windowsOf width times) t := by
  rw [windowsOf, List.foldl_append, List.foldl_cons, List.foldl_nil, windowsOf]

theorem flatMap_place (ws : List (Window τ)) (t : τ) :
    (place width ws t).reverse.flatMap Window.times = ws.reverse.flatMap Window.times ++ [t] := by
  cases ws with
  | nil => rfl
  | cons w ws =>
      rw [place]
      split
      · simp [Window.times]
      · simp [Window.times]

/-- The windows are a split of the times, in order. -/
theorem flatMap_windowsOf (times : List τ) :
    (windowsOf width times).reverse.flatMap Window.times = times := by
  induction times using List.reverseRecOn with
  | nil => rfl
  | append_singleton times t ih => rw [windowsOf_append_singleton, flatMap_place, ih]

end

variable {τ : Type*} [AddCommGroup τ] [LinearOrder τ] [IsOrderedAddMonoid τ] {width : τ}

/-- Times that come in order stand in their windows. -/
theorem mem_window (hwidth : 0 < width) {times : List τ} (hsorted : times.Pairwise (· ≤ ·)) :
    ∀ w ∈ windowsOf width times, ∀ t ∈ w.times, w.start ≤ t ∧ t < w.start + width := by
  induction times using List.reverseRecOn with
  | nil => simp [windowsOf]
  | append_singleton times t ih =>
      obtain ⟨hsorted, -, hlast⟩ := List.pairwise_append.mp hsorted
      have hlast : ∀ s ∈ times, s ≤ t := fun s hs ↦ hlast s hs t (List.mem_singleton_self t)
      have hstart : ∀ w ∈ windowsOf width times, w.start ≤ t := by
        intro w hw
        apply hlast
        rw [← flatMap_windowsOf width times]
        exact List.mem_flatMap.mpr ⟨w, List.mem_reverse.mpr hw, List.mem_cons_self⟩
      have hnew : ∀ t' ∈ (Window.mk t []).times, t ≤ t' ∧ t' < t + width := by
        intro t' ht'
        obtain rfl := List.mem_singleton.mp ht'
        exact ⟨le_rfl, lt_add_of_pos_right t' hwidth⟩
      have ih := ih hsorted
      rw [windowsOf_append_singleton]
      generalize windowsOf width times = ws at ih hstart
      cases ws with
      | nil => exact fun w hw ↦ by rwa [List.mem_singleton.mp hw]
      | cons w ws =>
          rw [place]
          split
          · next hinside =>
              obtain ⟨hw, hws⟩ := List.forall_mem_cons.mp ih
              refine List.forall_mem_cons.mpr ⟨fun t' ht' ↦ ?_, hws⟩
              have ht'' : t' ∈ w.times ++ [t] := ht'
              rcases List.mem_append.mp ht'' with ht' | ht'
              · exact hw t' ht'
              · rw [List.mem_singleton.mp ht']
                exact ⟨hstart w List.mem_cons_self, hinside⟩
          · exact List.forall_mem_cons.mpr ⟨hnew, ih⟩

end TestIntelligence.Systems
