import Mathlib.Data.List.Nodup
import Mathlib.Data.List.Perm.Subperm
import Mathlib.Data.Set.Basic
import Mathlib.Tactic.Common

/-!
# Fixed points by saturation

Two loops over finite sets held as lists: a worklist that grows a set until it is
closed, and a filter that shrinks a set until it is stable.  Both take fuel; in a
finite universe enough fuel gives the least closed superset and the greatest
stable subset.
-/

namespace TestIntelligence.Search

variable {α : Type*} [DecidableEq α]

/-! ## Growing -/

/-- Adds and queues the admitted candidates that are not found yet. -/
def discover (admits : α → Bool) : List α → List α → List α → List α × List α
  | [], found, queue => (found, queue)
  | x :: xs, found, queue =>
      if x ∉ found ∧ admits x = true then discover admits xs (found ++ [x]) (queue ++ [x])
      else discover admits xs found queue

/-- The worklist loop. -/
def grow (next : α → List α) (admits : α → Bool) : ℕ → List α → List α → Option (List α)
  | 0, _, _ => none
  | _ + 1, [], found => some found
  | fuel + 1, x :: queue, found =>
      let (found', queue') := discover admits (next x) found queue
      grow next admits fuel queue' found'

/-- What one turn of the worklist adds. -/
structure Discovered (admits : α → Bool) (xs found new : List α) : Prop where
  nodup : new.Nodup
  fresh : ∀ x ∈ new, x ∉ found
  sound : ∀ x ∈ new, x ∈ xs ∧ admits x = true
  complete : ∀ x ∈ xs, admits x = true → x ∈ found ∨ x ∈ new

theorem discover_eq (admits : α → Bool) (xs found queue : List α) :
    ∃ new, discover admits xs found queue = (found ++ new, queue ++ new) ∧
      Discovered admits xs found new := by
  induction xs generalizing found queue with
  | nil => exact ⟨[], by simp [discover], by simp, by simp, by simp, by simp⟩
  | cons x xs ih =>
      unfold discover
      split
      · next hx =>
          obtain ⟨new, heq, hnew⟩ := ih (found ++ [x]) (queue ++ [x])
          have hxnew : x ∉ new := fun h ↦ hnew.fresh x h (by simp)
          refine ⟨x :: new, by simp [heq], ?_, ?_, ?_, ?_⟩
          · exact List.nodup_cons.mpr ⟨hxnew, hnew.nodup⟩
          · rintro y (_ | ⟨_, hy⟩)
            · exact hx.1
            · exact fun h ↦ hnew.fresh y hy (by simp [h])
          · rintro y (_ | ⟨_, hy⟩)
            · exact ⟨by simp, hx.2⟩
            · exact ⟨List.mem_cons_of_mem _ (hnew.sound y hy).1, (hnew.sound y hy).2⟩
          · rintro y (_ | ⟨_, hy⟩) hadmits
            · simp
            · have h := hnew.complete y hy hadmits
              simp only [List.mem_append, List.mem_singleton] at h
              grind
      · next hx =>
          obtain ⟨new, heq, hnew⟩ := ih found queue
          refine ⟨new, heq, hnew.nodup, hnew.fresh, ?_, ?_⟩
          · exact fun y hy ↦ ⟨List.mem_cons_of_mem _ (hnew.sound y hy).1, (hnew.sound y hy).2⟩
          · rintro y (_ | ⟨_, hy⟩) hadmits
            · exact Or.inl (by_contra fun h ↦ hx ⟨h, hadmits⟩)
            · exact hnew.complete y hy hadmits

/-- Closed under admitted steps. -/
def Closed (next : α → List α) (admits : α → Bool) (D : Set α) : Prop :=
  ∀ x ∈ D, ∀ y ∈ next x, admits y = true → y ∈ D

/-- The worklist invariant: what is not queued has been expanded. -/
def Expanded (next : α → List α) (admits : α → Bool) (queue found : List α) : Prop :=
  ∀ x ∈ found, x ∉ queue → ∀ y ∈ next x, admits y = true → y ∈ found

/-- The result of a worklist that ends: the least closed superset of the start. -/
structure Grown (next : α → List α) (admits : α → Bool) (start out : List α) : Prop where
  nodup : out.Nodup
  extends_start : ∀ x ∈ start, x ∈ out
  closed : Closed next admits {x | x ∈ out}
  least : ∀ D : Set α, Closed next admits D → (∀ x ∈ start, x ∈ D) → ∀ x ∈ out, x ∈ D

omit [DecidableEq α] in
theorem Grown.mono_start {next : α → List α} {admits : α → Bool} {start new out : List α}
    (h : Grown next admits (start ++ new) out)
    (hnew : ∀ D : Set α, Closed next admits D → (∀ x ∈ start, x ∈ D) → ∀ x ∈ new, x ∈ D) :
    Grown next admits start out := by
  refine ⟨h.nodup, fun x hx ↦ h.extends_start x (by simp [hx]), h.closed, ?_⟩
  intro D hD hstart
  refine h.least D hD fun x hx ↦ ?_
  rcases List.mem_append.mp hx with hx | hx
  · exact hstart x hx
  · exact hnew D hD hstart x hx

/-- In a carrier that the steps do not leave, fuel for what is queued and for
what may still be found is enough. -/
theorem grow_spec {next : α → List α} {admits : α → Bool} {carrier : List α}
    (hnext : ∀ x, ∀ y ∈ next x, y ∈ carrier) {fuel : ℕ} {queue found : List α}
    (hnodup : found.Nodup) (hfound : ∀ x ∈ found, x ∈ carrier) (hqueue : ∀ x ∈ queue, x ∈ found)
    (hexp : Expanded next admits queue found)
    (hfuel : queue.length + (carrier.length - found.length) < fuel) :
    ∃ out, grow next admits fuel queue found = some out ∧ Grown next admits found out := by
  induction fuel generalizing queue found with
  | zero => omega
  | succ fuel ih =>
      cases queue with
      | nil =>
          refine ⟨found, rfl, hnodup, fun x hx ↦ hx, ?_, fun D _ hD ↦ hD⟩
          exact fun x hx ↦ hexp x hx (by simp)
      | cons x queue =>
          obtain ⟨new, heq, hnew⟩ := discover_eq admits (next x) found queue
          have hfound' : ∀ y ∈ found ++ new, y ∈ carrier := by
            intro y hy
            rcases List.mem_append.mp hy with hy | hy
            · exact hfound y hy
            · exact hnext x y (hnew.sound y hy).1
          have hnodup' : (found ++ new).Nodup :=
            List.nodup_append.mpr ⟨hnodup, hnew.nodup, fun a ha b hb hab ↦
              hnew.fresh b hb (hab ▸ ha)⟩
          have hlen : (found ++ new).length ≤ carrier.length :=
            (List.subperm_of_subset hnodup' hfound').length_le
          have hx : x ∈ found := hqueue x (by simp)
          obtain ⟨out, hout, hgrown⟩ := @ih (queue ++ new) (found ++ new) hnodup' hfound'
            (by
              intro y hy
              rcases List.mem_append.mp hy with hy | hy
              · exact List.mem_append_left _ (hqueue y (by simp [hy]))
              · exact List.mem_append_right _ hy)
            (by
              intro y hy hyq z hz hadmits
              simp only [List.mem_append, not_or] at hyq hy ⊢
              by_cases hyx : y = x
              · subst hyx
                exact hnew.complete z hz hadmits
              · have hyfound : y ∈ found := hy.resolve_right hyq.2
                exact Or.inl (hexp y hyfound (by simp [hyx, hyq.1]) z hz hadmits))
            (by
              simp only [List.length_append, List.length_cons] at hfuel hlen ⊢
              omega)
          refine ⟨out, by simp only [grow, heq, hout], hgrown.mono_start ?_⟩
          intro D hD hstart y hy
          exact hD x (hstart x hx) y (hnew.sound y hy).1 (hnew.sound y hy).2

/-! ## Shrinking -/

/-- The filter loop: it stops when a turn removes nothing. -/
def shrink (keep : List α → α → Bool) : ℕ → List α → Option (List α)
  | 0, _ => none
  | fuel + 1, current =>
      let kept := current.filter (keep current)
      if kept.length = current.length ∧ ∀ x ∈ current, x ∈ kept then some kept
      else shrink keep fuel kept

/-- The result of a filter loop that ends: the greatest stable subset. -/
structure Shrunk (keep : List α → α → Bool) (start out : List α) : Prop where
  nodup : out.Nodup
  subset : ∀ x ∈ out, x ∈ start
  stable : ∀ x ∈ out, keep out x = true
  greatest : ∀ D : Set α, (∀ x ∈ D, x ∈ start) →
    (∀ current : List α, (∀ x ∈ D, x ∈ current) → ∀ x ∈ D, keep current x = true) →
      ∀ x ∈ D, x ∈ out

theorem shrink_spec {keep : List α → α → Bool} {fuel : ℕ} {current : List α}
    (hnodup : current.Nodup) (hfuel : current.length < fuel) :
    ∃ out, shrink keep fuel current = some out ∧ Shrunk keep current out := by
  induction fuel generalizing current with
  | zero => omega
  | succ fuel ih =>
      unfold shrink
      dsimp only
      split
      · next h =>
          have heq : current.filter (keep current) = current :=
            List.filter_sublist.eq_of_length h.1
          refine ⟨_, rfl, ?_⟩
          rw [heq]
          refine ⟨hnodup, fun x hx ↦ hx, fun x hx ↦ ?_, fun D hD _ ↦ hD⟩
          exact List.filter_eq_self.mp heq x hx
      · next h =>
          have hlt : (current.filter (keep current)).length < current.length := by
            refine lt_of_le_of_ne (List.length_filter_le _ _) ?_
            intro hlen
            refine h ⟨hlen, fun x hx ↦ ?_⟩
            rw [List.filter_sublist.eq_of_length hlen]
            exact hx
          obtain ⟨out, hout, hshrunk⟩ := @ih (current.filter (keep current)) (hnodup.filter _) (by omega)
          refine ⟨out, hout, hshrunk.nodup, ?_, hshrunk.stable, ?_⟩
          · exact fun x hx ↦ (List.mem_filter.mp (hshrunk.subset x hx)).1
          · intro D hD hkeep
            refine hshrunk.greatest D (fun x hx ↦ ?_) hkeep
            exact List.mem_filter.mpr ⟨hD x hx, hkeep current hD x hx⟩

end TestIntelligence.Search
