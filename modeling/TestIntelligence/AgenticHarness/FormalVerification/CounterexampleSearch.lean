import TestIntelligence.AgenticHarness.FormalVerification.KripkeSearch
import TestIntelligence.AgenticHarness.FormalVerification.Verification

/-!
# The search for a counterexample ends

Both loops of `findCounterexample` end on a total structure: a state is queued
once, and every recorded parent was visited before its child.
-/

namespace TestIntelligence.AgenticHarness.FormalVerification

open Js

/-! ## Parents -/

/-- Every child was recorded once, after its parent. -/
inductive Rooted (root : JsString) : List (JsString × JsString) → Prop
  | nil : Rooted root []
  | snoc {parents : List (JsString × JsString)} {child parent : JsString} (h : Rooted root parents)
      (hchild : child ∉ root :: parents.map Prod.fst)
      (hparent : parent ∈ root :: parents.map Prod.fst) :
      Rooted root (parents ++ [(child, parent)])

theorem mapGet_append_singleton {parents : List (JsString × JsString)} {child parent id : JsString}
    (hid : id ≠ child) : mapGet (parents ++ [(child, parent)]) id = mapGet parents id := by
  induction parents with
  | nil => simp [mapGet_cons, hid]
  | cons p parents ih => rw [List.cons_append, mapGet_cons, mapGet_cons, ih]

theorem Rooted.parent_mem {root : JsString} {parents : List (JsString × JsString)}
    (h : Rooted root parents) {id parent : JsString} (hget : mapGet parents id = some parent) :
    parent ∈ root :: parents.map Prod.fst := by
  induction h with
  | nil => cases hget
  | @snoc parents child parent' h hchild hparent ih =>
      have hweaken : ∀ x, x ∈ root :: parents.map Prod.fst →
          x ∈ root :: (parents ++ [(child, parent')]).map Prod.fst := by
        intro x hx
        simp only [List.map_append, List.mem_cons, List.mem_append] at hx ⊢
        tauto
      by_cases hid : id = child
      · subst hid
        have hnone : mapGet parents id = none :=
          mapGet_eq_none_iff.mpr fun hmem ↦ hchild (List.mem_cons_of_mem _ hmem)
        have hset : mapSet parents id parent' = parents ++ [(id, parent')] :=
          mapSet_of_not_mem (mapGet_eq_none_iff.mp hnone) parent'
        rw [← hset, mapGet_mapSet_self, Option.some.injEq] at hget
        subst hget
        exact hweaken _ hparent
      · rw [mapGet_append_singleton hid] at hget
        exact hweaken _ (ih hget)

/-- A later child does not change the way back from an earlier one. -/
theorem pathBack_append {root child parent : JsString} {parents : List (JsString × JsString)}
    (h : Rooted root parents) (hchild : child ∉ root :: parents.map Prod.fst) {fuel : ℕ}
    {cursor : JsString} {path : List JsString} (hcursor : cursor ≠ child) :
    pathBack (parents ++ [(child, parent)]) root fuel cursor path =
      pathBack parents root fuel cursor path := by
  induction fuel generalizing cursor path with
  | zero => rfl
  | succ fuel ih =>
      unfold pathBack
      rw [mapGet_append_singleton hcursor]
      split
      · rfl
      · split
        · rfl
        · next parent' hget =>
            apply ih
            rintro rfl
            exact hchild (h.parent_mem hget)

theorem pathBack_ok {root : JsString} {parents : List (JsString × JsString)}
    (h : Rooted root parents) {fuel : ℕ} (hfuel : parents.length < fuel) (cursor : JsString)
    (path : List JsString) : ∃ out, pathBack parents root fuel cursor path = .ok out := by
  induction h generalizing fuel cursor path with
  | nil =>
      cases fuel with
      | zero => simp at hfuel
      | succ fuel =>
          unfold pathBack
          split
          · exact ⟨path, rfl⟩
          · exact ⟨path, rfl⟩
  | @snoc parents child parent h hchild hparent ih =>
      simp only [List.length_append, List.length_cons, List.length_nil] at hfuel
      by_cases hcursor : cursor = child
      · subst hcursor
        cases fuel with
        | zero => simp at hfuel
        | succ fuel =>
            have hne : cursor ≠ root := fun heq ↦ hchild (heq ▸ List.mem_cons_self)
            have hkey : cursor ∉ parents.map Prod.fst := fun hmem ↦
              hchild (List.mem_cons_of_mem _ hmem)
            have hget : mapGet (parents ++ [(cursor, parent)]) cursor = some parent := by
              rw [← mapSet_of_not_mem hkey parent, mapGet_mapSet_self]
            have hparentne : parent ≠ cursor := by
              rintro rfl
              exact hchild hparent
            simp only [pathBack, if_neg hne, hget]
            rw [pathBack_append h hchild hparentne]
            exact ih (by omega) parent (parent :: path)
      · rw [pathBack_append h hchild hcursor]
        exact ih (by omega) cursor path

/-! ## The search -/

/-- The invariant of the search. -/
structure Traversal.Sound (kripke : KripkeStructure) (root : JsString) (traversal : Traversal) :
    Prop where
  nodup : traversal.visited.Nodup
  known : ∀ id ∈ traversal.visited, id ∈ allStateIds kripke
  queued : ∀ id ∈ traversal.queue, id ∈ traversal.visited
  keys : traversal.visited = root :: traversal.parents.map Prod.fst
  rooted : Rooted root traversal.parents

/-- The work that is left: what is queued and what may still be visited. -/
def Traversal.work (kripke : KripkeStructure) (traversal : Traversal) : ℕ :=
  traversal.queue.length + (kripke.states.length - traversal.visited.length)

theorem Traversal.Sound.length_le {kripke : KripkeStructure} {root : JsString}
    {traversal : Traversal} (h : traversal.Sound kripke root) :
    traversal.visited.length ≤ kripke.states.length := by
  have hle := (List.subperm_of_subset h.nodup h.known).length_le
  simpa [allStateIds] using hle

/-- Visiting a state keeps the invariant and the amount of work. -/
theorem Traversal.Sound.visit {kripke : KripkeStructure} {root id target : JsString}
    {traversal : Traversal} (h : traversal.Sound kripke root) (hid : id ∈ traversal.visited)
    (htarget : target ∈ allStateIds kripke) :
    (traversal.visit id target).Sound kripke root ∧
      (traversal.visit id target).work kripke = traversal.work kripke ∧
        id ∈ (traversal.visit id target).visited := by
  by_cases hseen : target ∈ traversal.visited
  · rw [Traversal.visit, if_pos hseen]
    exact ⟨h, rfl, hid⟩
  · have hkey : target ∉ traversal.parents.map Prod.fst := fun hmem ↦
      hseen (h.keys ▸ List.mem_cons_of_mem _ hmem)
    have hset := mapSet_of_not_mem hkey id
    have hsound : (traversal.visit id target).Sound kripke root := by
      rw [Traversal.visit, if_neg hseen]
      refine ⟨?_, ?_, ?_, ?_, ?_⟩
      · refine List.nodup_append.mpr ⟨h.nodup, List.nodup_singleton _, ?_⟩
        rintro a ha b hb rfl
        exact hseen (List.mem_singleton.mp hb ▸ ha)
      · intro x hx
        rcases List.mem_append.mp hx with hx | hx
        · exact h.known x hx
        · exact List.mem_singleton.mp hx ▸ htarget
      · intro x hx
        rcases List.mem_append.mp hx with hx | hx
        · exact List.mem_append_left _ (h.queued x hx)
        · exact List.mem_append_right _ hx
      · simp [hset, h.keys]
      · simp only [hset]
        exact .snoc h.rooted (h.keys ▸ hseen) (h.keys ▸ hid)
    have hlen := hsound.length_le
    refine ⟨hsound, ?_, ?_⟩
    · rw [Traversal.visit, if_neg hseen] at hlen ⊢
      simp only [List.length_append, List.length_cons, List.length_nil] at hlen
      simp only [Traversal.work, List.length_append, List.length_cons, List.length_nil]
      omega
    · rw [Traversal.visit, if_neg hseen]
      exact List.mem_append_left _ hid

theorem Traversal.Sound.foldl_visit {kripke : KripkeStructure} {root id : JsString}
    {targets : List JsString} (htargets : ∀ t ∈ targets, t ∈ allStateIds kripke)
    {traversal : Traversal} (h : traversal.Sound kripke root) (hid : id ∈ traversal.visited) :
    (targets.foldl (Traversal.visit id) traversal).Sound kripke root ∧
      (targets.foldl (Traversal.visit id) traversal).work kripke = traversal.work kripke := by
  induction targets generalizing traversal with
  | nil => exact ⟨h, rfl⟩
  | cons target targets ih =>
      obtain ⟨hsound, hwork, hmem⟩ := h.visit hid (htargets target List.mem_cons_self)
      obtain ⟨hsound', hwork'⟩ := ih (fun t ht ↦ htargets t (List.mem_cons_of_mem _ ht)) hsound hmem
      exact ⟨hsound', hwork'.trans hwork⟩

theorem searchFailure_ok {kripke : KripkeStructure} (hk : kripke.Total) (formula : TemporalAst)
    (enumLiterals : List JsString) {root : JsString} {fuel : ℕ} {traversal : Traversal}
    (h : traversal.Sound kripke root) (hfuel : traversal.work kripke < fuel) :
    ∃ witness parents, searchFailure kripke formula enumLiterals fuel traversal =
      .ok (witness, parents) ∧ Rooted root parents := by
  induction fuel generalizing traversal with
  | zero => omega
  | succ fuel ih =>
      unfold searchFailure
      cases hqueue : traversal.queue with
      | nil => exact ⟨none, _, rfl, h.rooted⟩
      | cons id rest =>
          dsimp only
          split
          · exact ⟨some id, _, rfl, h.rooted⟩
          · have hid : id ∈ traversal.visited := h.queued id (by simp [hqueue])
            have hpopped : ({ traversal with queue := rest } : Traversal).Sound kripke root :=
              ⟨h.nodup, h.known, fun x hx ↦ h.queued x (by simp [hqueue, hx]), h.keys, h.rooted⟩
            obtain ⟨hsound, hwork⟩ := hpopped.foldl_visit
              (fun t ht ↦ hk.totalOn.closed id (h.known id hid) t ht) hid
            refine ih hsound ?_
            rw [hwork]
            simp only [Traversal.work, hqueue, List.length_cons] at hfuel ⊢
            omega

theorem findCounterexample_ok {kripke : KripkeStructure} (hk : kripke.WellFormed)
    (formula : TemporalAst) (satisfying enumLiterals : List JsString) :
    ∃ counterexample, findCounterexample kripke formula satisfying enumLiterals =
      .ok counterexample := by
  unfold findCounterexample
  cases hfind : kripke.initial.find? (· ∉ satisfying) with
  | none => exact ⟨none, rfl⟩
  | some root =>
      have hroot : root ∈ allStateIds kripke :=
        hk.initial_mem root (List.mem_of_find?_eq_some hfind)
      have hstart : (⟨[root], [], [root]⟩ : Traversal).Sound kripke root :=
        ⟨List.nodup_singleton root, fun id hid ↦ List.mem_singleton.mp hid ▸ hroot,
          fun _ h ↦ h, rfl, .nil⟩
      have hfuel : (⟨[root], [], [root]⟩ : Traversal).work kripke < kripke.states.length + 1 := by
        have hle := hstart.length_le
        simp only [Traversal.work, List.length_cons, List.length_nil] at hle ⊢
        omega
      obtain ⟨witness, parents, hsearch, hrooted⟩ := searchFailure_ok hk.toTotal formula
        enumLiterals hstart hfuel
      obtain ⟨path, hpath⟩ := pathBack_ok hrooted (Nat.lt_succ_self _) (witness.getD root)
        [witness.getD root]
      refine ⟨some ⟨path.filterMap (mapGet kripke.states),
        explainCounterexample formula (path.filterMap (mapGet kripke.states))⟩, ?_⟩
      simp only [hsearch, ok_bind]
      rw [hpath]
      rfl

end TestIntelligence.AgenticHarness.FormalVerification
