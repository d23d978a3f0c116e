import Mathlib.Algebra.Order.Ring.Nat
import Mathlib.Data.List.Infix
import Mathlib.Data.List.Nodup
import Mathlib.Tactic.Common

/-!
# Caches that evict the least recently used items

A cache is the list of its items with their keys, the least recently used one first.  Items
have a weight, and a budget says which total weights fit.  Using an item moves it to the end;
what does not fit is evicted from the front.
-/

namespace TestIntelligence.Caches.Lru

variable {κ ν : Type*} [DecidableEq κ] (weight : κ × ν → ℕ) (fits : ℕ → Bool)

def total (items : List (κ × ν)) : ℕ := (items.map weight).sum

/-- Drop items from the front until the rest fits. -/
def evict : List (κ × ν) → List (κ × ν)
  | [] => []
  | item :: items => if fits (total weight (item :: items)) then item :: items else evict items

/-- The items that `evict` drops. -/
def evicted : List (κ × ν) → List (κ × ν)
  | [] => []
  | item :: items => if fits (total weight (item :: items)) then [] else item :: evicted items

def forget (items : List (κ × ν)) (key : κ) : List (κ × ν) := items.filter (·.1 ≠ key)

/-- The item becomes the most recently used one. -/
def refresh (items : List (κ × ν)) (key : κ) (value : ν) : List (κ × ν) :=
  forget items key ++ [(key, value)]

def put (items : List (κ × ν)) (key : κ) (value : ν) : List (κ × ν) :=
  evict weight fits (refresh items key value)

def get (items : List (κ × ν)) (key : κ) : Option ν := items.lookup key

variable {weight fits} {items : List (κ × ν)} {key : κ} {value : ν}

omit [DecidableEq κ] in
@[simp] theorem total_nil : total weight ([] : List (κ × ν)) = 0 := rfl

omit [DecidableEq κ] in
@[simp] theorem total_cons (item : κ × ν) (items : List (κ × ν)) :
    total weight (item :: items) = weight item + total weight items := by
  simp [total]

omit [DecidableEq κ] in
/-! ## Eviction -/

omit [DecidableEq κ] in
theorem evicted_append_evict (items : List (κ × ν)) :
    evicted weight fits items ++ evict weight fits items = items := by
  induction items with
  | nil => rfl
  | cons item items ih =>
      rw [evicted, evict]
      split
      · rfl
      · rw [List.cons_append, ih]

omit [DecidableEq κ] in
theorem evict_suffix (items : List (κ × ν)) : evict weight fits items <:+ items :=
  ⟨evicted weight fits items, evicted_append_evict items⟩

variable (weight fits) in
omit [DecidableEq κ] in
/-- What is left fits, or nothing is left. -/
theorem fits_evict (items : List (κ × ν)) :
    fits (total weight (evict weight fits items)) = true ∨ evict weight fits items = [] := by
  induction items with
  | nil => exact .inr rfl
  | cons item items ih =>
      rw [evict]
      split
      · next h => exact .inl h
      · exact ih

omit [DecidableEq κ] in
/-- No item is evicted once the rest fits. -/
theorem not_fits_drop (items : List (κ × ν)) {n : ℕ}
    (hn : n < (evicted weight fits items).length) :
    fits (total weight (items.drop n)) = false := by
  induction items generalizing n with
  | nil => simp [evicted] at hn
  | cons item items ih =>
      rw [evicted] at hn
      split at hn
      · simp at hn
      · next hfull =>
          cases n with
          | zero => simpa using hfull
          | succ n => exact ih (by simpa using hn)

omit [DecidableEq κ] in
/-- The most recently used item stays whenever it fits by itself. -/
theorem mem_evict_concat (items : List (κ × ν)) {item : κ × ν} (h : fits (weight item) = true) :
    item ∈ evict weight fits (items ++ [item]) := by
  induction items with
  | nil => simp [evict, h]
  | cons other items ih =>
      rw [List.cons_append, evict]
      split
      · simp
      · exact ih

/-! ## Keys -/

omit [DecidableEq κ] in
theorem keys_evict_sublist (items : List (κ × ν)) :
    ((evict weight fits items).map Prod.fst).Sublist (items.map Prod.fst) :=
  (evict_suffix items).sublist.map _

theorem mem_forget {item : κ × ν} : item ∈ forget items key ↔ item ∈ items ∧ item.1 ≠ key := by
  simp [forget]

theorem nodup_refresh (h : (items.map Prod.fst).Nodup) (key : κ) (value : ν) :
    ((refresh items key value).map Prod.fst).Nodup := by
  have hrest : ((forget items key).map Prod.fst).Nodup := h.sublist (List.filter_sublist.map _)
  rw [refresh, List.map_append, List.map_singleton, ← List.concat_eq_append]
  refine List.Nodup.concat (fun hmem ↦ ?_) hrest
  obtain ⟨item, hitem, hkey⟩ := List.mem_map.mp hmem
  exact (mem_forget.mp hitem).2 hkey

theorem get_eq_some_iff (h : (items.map Prod.fst).Nodup) :
    get items key = some value ↔ (key, value) ∈ items := by
  induction items with
  | nil => simp [get]
  | cons item items ih =>
      obtain ⟨key', value'⟩ := item
      rw [List.map_cons, List.nodup_cons] at h
      rw [get, List.lookup_cons]
      by_cases hkey : key = key'
      · subst hkey
        simp only [beq_self_eq_true, Option.some.injEq, List.mem_cons, Prod.mk.injEq,
          true_and]
        constructor
        · exact fun heq ↦ .inl heq.symm
        · rintro (heq | hmem)
          · exact heq.symm
          · exact absurd (List.mem_map_of_mem hmem) h.1
      · have hbeq : (key == key') = false := by simpa using hkey
        simp only [hbeq, List.mem_cons, Prod.mk.injEq, hkey, false_and, false_or]
        exact ih h.2

theorem get_eq_none_iff : get items key = none ↔ key ∉ items.map Prod.fst := by
  rw [get, List.lookup_eq_none_iff]
  constructor
  · intro h hmem
    obtain ⟨item, hitem, rfl⟩ := List.mem_map.mp hmem
    simpa using h item hitem
  · intro h item hitem
    have hne : key ≠ item.1 := fun heq ↦ h (heq ▸ List.mem_map_of_mem hitem)
    simpa using hne

/-- An item apart from the others. -/
theorem perm_forget (h : (items.map Prod.fst).Nodup) (hitem : (key, value) ∈ items) :
    items.Perm (forget items key ++ [(key, value)]) := by
  induction items with
  | nil => simp at hitem
  | cons item items ih =>
      rw [List.map_cons, List.nodup_cons] at h
      rcases List.mem_cons.mp hitem with rfl | hitem
      · have hrest : forget items key = items := by
          rw [forget, List.filter_eq_self]
          intro item hitem
          have hne : item.1 ≠ key := fun heq ↦ h.1 (List.mem_map.mpr ⟨item, hitem, heq⟩)
          simpa using hne
        have hself : forget ((key, value) :: items) key = items := by
          rw [← hrest]
          simp [forget]
        rw [hself]
        exact (List.perm_append_singleton _ _).symm
      · have hne : item.1 ≠ key := fun heq ↦ h.1 (List.mem_map.mpr ⟨_, hitem, heq.symm⟩)
        have hkept : forget (item :: items) key = item :: forget items key := by
          simp [forget, hne]
        rw [hkept, List.cons_append]
        exact (ih h.2 hitem).cons item

end TestIntelligence.Caches.Lru
