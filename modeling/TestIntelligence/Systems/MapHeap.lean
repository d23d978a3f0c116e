import Mathlib.Logic.Function.Basic
import TestIntelligence.Js.Collections

/-!
# Objects whose fields refer to maps

An object has a map in each of its fields.  The maps live on a heap, where they are changed in
place; a copy of the object gets maps of its own, and an object is restored by referring to the
maps of the copy.
-/

namespace TestIntelligence.Systems

open Js

variable {ι κ : Type} {R : ι → Type}

/-- The maps of each field by their address, and the number of addresses in use. -/
structure MapHeap (ι κ : Type) (R : ι → Type) where
  maps : (field : ι) → ℕ → List (κ × R field)
  allocated : ℕ

/-- An entry that is put into the map of a field. -/
structure Entry (ι κ : Type) (R : ι → Type) where
  field : ι
  key : κ
  value : R field

namespace MapHeap

/-- The contents of the maps that an object refers to. -/
def contents (heap : MapHeap ι κ R) (object : ι → ℕ) (field : ι) : List (κ × R field) :=
  heap.maps field (object field)

/-- An object with fresh maps of the same contents. -/
def copy (heap : MapHeap ι κ R) (object : ι → ℕ) : MapHeap ι κ R × (ι → ℕ) :=
  ({ maps := fun field address ↦
      if address = heap.allocated then heap.contents object field else heap.maps field address
     allocated := heap.allocated + 1 },
    fun _ ↦ heap.allocated)

/-- The maps of an object are emptied in place. -/
def clear (heap : MapHeap ι κ R) (object : ι → ℕ) : MapHeap ι κ R :=
  { heap with
    maps := fun field address ↦
      if address = object field then [] else heap.maps field address }

/-- The object refers to maps of its own, none of which the backup refers to. -/
structure Apart (heap : MapHeap ι κ R) (object backup : ι → ℕ) : Prop where
  object_lt : ∀ field, object field < heap.allocated
  backup_lt : ∀ field, backup field < heap.allocated
  ne : ∀ field, object field ≠ backup field

@[simp] theorem allocated_clear (heap : MapHeap ι κ R) (object : ι → ℕ) :
    (heap.clear object).allocated = heap.allocated := rfl

@[simp] theorem contents_clear (heap : MapHeap ι κ R) (object : ι → ℕ) :
    (heap.clear object).contents object = fun _ ↦ [] := by
  funext field
  simp [contents, clear]

theorem contents_clear_of_ne {heap : MapHeap ι κ R} {object backup : ι → ℕ}
    (h : ∀ field, object field ≠ backup field) :
    (heap.clear object).contents backup = heap.contents backup := by
  funext field
  simp [contents, clear, (h field).symm]

theorem contents_copy (heap : MapHeap ι κ R) (object : ι → ℕ) :
    (heap.copy object).1.contents (heap.copy object).2 = heap.contents object := by
  funext field
  simp [contents, copy]

theorem contents_of_copy {heap : MapHeap ι κ R} {object : ι → ℕ}
    (h : ∀ field, object field < heap.allocated) :
    (heap.copy object).1.contents object = heap.contents object := by
  funext field
  simp [contents, copy, Nat.ne_of_lt (h field)]

/-- A copy and its original have no maps in common. -/
theorem apart_copy {heap : MapHeap ι κ R} {object : ι → ℕ}
    (h : ∀ field, object field < heap.allocated) :
    (heap.copy object).1.Apart object (heap.copy object).2 where
  object_lt field := Nat.lt_succ_of_lt (h field)
  backup_lt _ := Nat.lt_succ_self _
  ne field := Nat.ne_of_lt (h field)

end MapHeap

/-! ## Putting entries -/

section

variable [DecidableEq ι] [DecidableEq κ]

/-- The contents of the maps after an entry was put into them. -/
def putContents (contents : (field : ι) → List (κ × R field)) (entry : Entry ι κ R) :
    (field : ι) → List (κ × R field) :=
  Function.update contents entry.field
    (mapSet (contents entry.field) entry.key entry.value)

namespace MapHeap

def put (heap : MapHeap ι κ R) (object : ι → ℕ) (entry : Entry ι κ R) : MapHeap ι κ R :=
  { heap with
    maps := Function.update heap.maps entry.field
      (Function.update (heap.maps entry.field) (object entry.field)
        (mapSet (heap.contents object entry.field) entry.key entry.value)) }

def putAll (heap : MapHeap ι κ R) (object : ι → ℕ) (entries : List (Entry ι κ R)) :
    MapHeap ι κ R :=
  entries.foldl (fun heap entry ↦ heap.put object entry) heap

@[simp] theorem allocated_putAll (heap : MapHeap ι κ R) (object : ι → ℕ)
    (entries : List (Entry ι κ R)) : (heap.putAll object entries).allocated = heap.allocated := by
  induction entries generalizing heap with
  | nil => rfl
  | cons entry entries ih => exact ih (heap.put object entry)

theorem contents_put (heap : MapHeap ι κ R) (object : ι → ℕ) (entry : Entry ι κ R) :
    (heap.put object entry).contents object = putContents (heap.contents object) entry := by
  funext field
  by_cases hfield : field = entry.field
  · subst hfield
    simp [contents, put, putContents]
  · simp [contents, put, putContents, hfield]

theorem contents_putAll (heap : MapHeap ι κ R) (object : ι → ℕ) (entries : List (Entry ι κ R)) :
    (heap.putAll object entries).contents object =
      entries.foldl putContents (heap.contents object) := by
  induction entries generalizing heap with
  | nil => rfl
  | cons entry entries ih =>
      rw [List.foldl_cons, ← contents_put]
      exact ih (heap.put object entry)

theorem contents_put_of_ne {heap : MapHeap ι κ R} {object backup : ι → ℕ}
    (h : ∀ field, object field ≠ backup field) (entry : Entry ι κ R) :
    (heap.put object entry).contents backup = heap.contents backup := by
  funext field
  by_cases hfield : field = entry.field
  · subst hfield
    simp [contents, put, (h entry.field).symm]
  · simp [contents, put, hfield]

theorem contents_putAll_of_ne {heap : MapHeap ι κ R} {object backup : ι → ℕ}
    (h : ∀ field, object field ≠ backup field) (entries : List (Entry ι κ R)) :
    (heap.putAll object entries).contents backup = heap.contents backup := by
  induction entries generalizing heap with
  | nil => rfl
  | cons entry entries ih => exact ih.trans (contents_put_of_ne h entry)

end MapHeap

end

end TestIntelligence.Systems
