import Mathlib.Data.List.Perm.Subperm
import TestIntelligence.Js.Collections

/-!
# Breadth-first search for a path

A graph is given by the edges that leave each node.  The search keeps the nodes
it has met, for each of them the node and the label it was met through, and the
queue of nodes to expand.  It stops at the goal and reads the labels of a walk
back along the predecessors; when the queue runs empty there is no walk.
-/

namespace TestIntelligence.Search

open TestIntelligence.Js

variable {σ ε lab : Type*}

/-! ## Walks -/

section Walks

variable (outgoing : σ → List ε) (target : ε → σ)

/-- The edges lead from `a` to `b`, one after the other. -/
def IsWalk : σ → List ε → σ → Prop
  | a, [], b => a = b
  | a, e :: es, b => e ∈ outgoing a ∧ IsWalk (target e) es b

variable {outgoing target}

theorem isWalk_append {a c : σ} {es fs : List ε} :
    IsWalk outgoing target a (es ++ fs) c ↔
      ∃ b, IsWalk outgoing target a es b ∧ IsWalk outgoing target b fs c := by
  induction es generalizing a with
  | nil => simp [IsWalk]
  | cons e es ih => simp [IsWalk, ih, and_assoc]

theorem isWalk_congr {outgoing' : σ → List ε} (h : ∀ a e, e ∈ outgoing a ↔ e ∈ outgoing' a)
    {a b : σ} {es : List ε} : IsWalk outgoing target a es b ↔ IsWalk outgoing' target a es b := by
  induction es generalizing a with
  | nil => exact Iff.rfl
  | cons e es ih => rw [IsWalk, IsWalk, h, ih]

/-- A set that the edges do not leave holds every node a walk reaches. -/
theorem IsWalk.mem_of_closed {D : σ → Prop} (hD : ∀ a, D a → ∀ e ∈ outgoing a, D (target e))
    {a b : σ} {es : List ε} (h : IsWalk outgoing target a es b) (ha : D a) : D b := by
  induction es generalizing a with
  | nil => exact h ▸ ha
  | cons e es ih => exact ih h.2 (hD a ha e h.1)

end Walks

/-! ## The search -/

variable [DecidableEq σ]

structure Frontier (σ lab : Type*) where
  visited : List σ
  predecessor : List (σ × (σ × lab))
  queue : List σ

section Search

variable (outgoing : σ → List ε) (target : ε → σ) (label : ε → lab)

/-- Meets the targets of the edges of `current`; the flag says that the goal is one of them. -/
def scan (goal current : σ) : List ε → Frontier σ lab → Frontier σ lab × Bool
  | [], f => (f, false)
  | e :: es, f =>
      if target e ∈ f.visited then scan goal current es f
      else
        let met : Frontier σ lab :=
          { f with
            visited := f.visited ++ [target e]
            predecessor := mapSet f.predecessor (target e) (current, label e) }
        if target e = goal then (met, true)
        else scan goal current es { met with queue := met.queue ++ [target e] }

/-- The labels along the predecessors, from `start` to `cursor`. -/
def traceBack (start : σ) (predecessor : List (σ × (σ × lab))) :
    ℕ → σ → List lab → Option (List lab)
  | 0, _, _ => none
  | fuel + 1, cursor, path =>
      if cursor = start then some path
      else
        match mapGet predecessor cursor with
        | none => some path
        | some (previous, l) => traceBack start predecessor fuel previous (l :: path)

/-- The search loop.  `none` stands for lack of fuel, `some none` for no walk. -/
def breadthFirst (start goal : σ) : ℕ → Frontier σ lab → Option (Option (List lab))
  | 0, _ => none
  | fuel + 1, f =>
      match f.queue with
      | [] => some none
      | current :: queue =>
          match scan target label goal current (outgoing current) { f with queue := queue } with
          | (met, true) =>
              (traceBack start met.predecessor (met.visited.length + 1) goal []).map some
          | (met, false) => breadthFirst start goal fuel met

end Search

/-! ## Reading a walk back -/

/-- The predecessors of `x` spell the path that leads to it from `start`. -/
inductive Traces (start : σ) (predecessor : List (σ × (σ × lab))) : σ → List lab → Prop
  | start : Traces start predecessor start []
  | step {x previous : σ} {l : lab} {path : List lab} (hx : x ≠ start)
      (hget : mapGet predecessor x = some (previous, l))
      (hpath : Traces start predecessor previous path) :
      Traces start predecessor x (path ++ [l])

theorem Traces.mono {start x : σ} {pred pred' : List (σ × (σ × lab))} {path : List lab}
    (hmono : ∀ y v, mapGet pred y = some v → mapGet pred' y = some v)
    (h : Traces start pred x path) : Traces start pred' x path := by
  induction h with
  | start => exact .start
  | step hx hget _ ih => exact .step hx (hmono _ _ hget) ih

theorem traceBack_of_traces {start x : σ} {pred : List (σ × (σ × lab))} {path : List lab}
    (h : Traces start pred x path) {fuel : ℕ} (hfuel : path.length < fuel) (rest : List lab) :
    traceBack start pred fuel x rest = some (path ++ rest) := by
  induction h generalizing fuel rest with
  | start =>
      obtain ⟨fuel, rfl⟩ := Nat.exists_eq_add_of_lt hfuel
      simp [traceBack]
  | @step x previous l path hx hget _ ih =>
      cases fuel with
      | zero => simp at hfuel
      | succ fuel =>
          have hlen : path.length < fuel := by
            simp only [List.length_append, List.length_cons, List.length_nil] at hfuel
            omega
          simp only [traceBack, if_neg hx, hget]
          rw [ih hlen, List.append_assoc, List.singleton_append]

/-! ## The invariant -/

/-- A met node is reached by a walk that its predecessors spell. -/
def Reached (outgoing : σ → List ε) (target : ε → σ) (label : ε → lab) (start : σ)
    (f : Frontier σ lab) (x : σ) : Prop :=
  ∃ es, IsWalk outgoing target start es x ∧
    Traces start f.predecessor x (es.map label) ∧ es.length < f.visited.length

/-- What holds of the frontier at every turn of the search; `pending` are the edges of the
node being expanded that have not been followed yet. -/
structure Searched (outgoing : σ → List ε) (target : ε → σ) (label : ε → lab) (start : σ)
    (carrier : List σ) (f : Frontier σ lab) (current : Option σ) (pending : List ε) : Prop where
  nodup : f.visited.Nodup
  start_mem : start ∈ f.visited
  queued : ∀ x ∈ f.queue, x ∈ f.visited
  within : ∀ x ∈ f.visited, x ∈ carrier
  keys : ∀ x, x ∈ f.predecessor.map Prod.fst → x ∈ f.visited
  reached : ∀ x ∈ f.visited, Reached outgoing target label start f x
  expanded : ∀ x ∈ f.visited, x ∉ f.queue → ∀ e ∈ outgoing x,
    target e ∈ f.visited ∨ (current = some x ∧ e ∈ pending)

section Invariant

variable {outgoing : σ → List ε} {target : ε → σ} {label : ε → lab} {start goal : σ}
  {carrier : List σ}

/-- Nodes to expand and nodes to meet: what bounds the number of turns. -/
def Frontier.work (carrier : List σ) (f : Frontier σ lab) : ℕ :=
  f.queue.length + (carrier.length - f.visited.length)

theorem searched_start (hstart : start ∈ carrier) :
    Searched outgoing target label start carrier ⟨[start], [], [start]⟩ none [] := by
  refine ⟨List.nodup_singleton start, by simp, by simp, by simpa using hstart, by simp, ?_, ?_⟩
  · intro x hx
    obtain rfl := List.mem_singleton.mp hx
    exact ⟨[], rfl, .start, by simp⟩
  · intro x hx hqueue
    exact absurd hx hqueue

/-- Expanding starts with all the edges of the node pending. -/
theorem Searched.pop {f : Frontier σ lab} {current : σ} {queue : List σ}
    (h : Searched outgoing target label start carrier f none [])
    (hqueue : f.queue = current :: queue) :
    Searched outgoing target label start carrier { f with queue := queue } (some current)
      (outgoing current) := by
  refine ⟨h.nodup, h.start_mem, ?_, h.within, h.keys, h.reached, ?_⟩
  · intro x hx
    exact h.queued x (by simp [hqueue, show x ∈ queue from hx])
  · intro x hx hxq e he
    by_cases hcur : x = current
    · subst hcur
      exact Or.inr ⟨rfl, he⟩
    · have hnot : x ∉ f.queue := by
        rw [hqueue]
        exact List.not_mem_cons_of_ne_of_not_mem hcur hxq
      exact (h.expanded x hx hnot e he).imp_right fun hpending ↦ nomatch hpending.1

theorem Searched.finish {f : Frontier σ lab} {current : Option σ}
    (h : Searched outgoing target label start carrier f current []) :
    Searched outgoing target label start carrier f none [] := by
  refine ⟨h.nodup, h.start_mem, h.queued, h.within, h.keys, h.reached, ?_⟩
  intro x hx hxq e he
  exact Or.inl ((h.expanded x hx hxq e he).resolve_right fun hpending ↦ nomatch hpending.2)

/-- An edge to a node met before needs no work. -/
theorem Searched.skip {f : Frontier σ lab} {current : Option σ} {e : ε} {es : List ε}
    (h : Searched outgoing target label start carrier f current (e :: es))
    (hmet : target e ∈ f.visited) :
    Searched outgoing target label start carrier f current es := by
  refine ⟨h.nodup, h.start_mem, h.queued, h.within, h.keys, h.reached, ?_⟩
  intro x hx hxq e' he'
  rcases h.expanded x hx hxq e' he' with hvisited | ⟨hcur, hpending⟩
  · exact Or.inl hvisited
  · rcases List.mem_cons.mp hpending with rfl | hpending
    · exact Or.inl hmet
    · exact Or.inr ⟨hcur, hpending⟩

/-- The frontier after the target of a new edge has been met. -/
def Frontier.meet (target : ε → σ) (label : ε → lab) (f : Frontier σ lab) (current : σ) (e : ε) :
    Frontier σ lab :=
  { f with
    visited := f.visited ++ [target e]
    predecessor := mapSet f.predecessor (target e) (current, label e) }

theorem Searched.reached_meet {f : Frontier σ lab} {current : σ} {e : ε} {es : List ε}
    (h : Searched outgoing target label start carrier f (some current) es)
    (hcurrent : current ∈ f.visited) (he : e ∈ outgoing current) (hnew : target e ∉ f.visited)
    {x : σ} (hx : x ∈ (f.meet target label current e).visited) :
    Reached outgoing target label start (f.meet target label current e) x := by
  have hmono : ∀ y v, mapGet f.predecessor y = some v →
      mapGet (f.meet target label current e).predecessor y = some v := by
    intro y v hy
    have hne : y ≠ target e := by
      rintro rfl
      exact hnew (h.keys _ (List.mem_map.mpr ⟨_, mem_of_mapGet hy, rfl⟩))
    rw [Frontier.meet, mapGet_mapSet, if_neg hne, hy]
  rcases List.mem_append.mp hx with hold | hx
  · obtain ⟨path, hwalk, htraces, hlen⟩ := h.reached x hold
    refine ⟨path, hwalk, htraces.mono hmono, ?_⟩
    simp only [Frontier.meet, List.length_append, List.length_singleton]
    omega
  · obtain rfl := List.mem_singleton.mp hx
    obtain ⟨path, hwalk, htraces, hlen⟩ := h.reached current hcurrent
    refine ⟨path ++ [e], isWalk_append.mpr ⟨current, hwalk, he, rfl⟩, ?_, ?_⟩
    · rw [List.map_append, List.map_singleton]
      apply Traces.step
      · rintro heq
        exact hnew (heq ▸ h.start_mem)
      · exact mapGet_mapSet_self _ _ _
      · exact htraces.mono hmono
    · simp only [Frontier.meet, List.length_append, List.length_singleton]
      omega

theorem Searched.meet_queue {f : Frontier σ lab} {current : σ} {e : ε} {es : List ε}
    (h : Searched outgoing target label start carrier f (some current) (e :: es))
    (hcurrent : current ∈ f.visited) (he : e ∈ outgoing current) (hnew : target e ∉ f.visited)
    (hcarrier : target e ∈ carrier) :
    Searched outgoing target label start carrier
      { f.meet target label current e with
        queue := (f.meet target label current e).queue ++ [target e] } (some current) es := by
  refine ⟨?_, ?_, ?_, ?_, ?_, ?_, ?_⟩
  · refine List.nodup_append.mpr ⟨h.nodup, List.nodup_singleton _, ?_⟩
    rintro a ha b hb rfl
    exact hnew (List.mem_singleton.mp hb ▸ ha)
  · exact List.mem_append_left _ h.start_mem
  · intro x hx
    rcases List.mem_append.mp hx with hx | hx
    · exact List.mem_append_left _ (h.queued x hx)
    · exact List.mem_append_right _ hx
  · intro x hx
    rcases List.mem_append.mp hx with hx | hx
    · exact h.within x hx
    · exact List.mem_singleton.mp hx ▸ hcarrier
  · intro x hx
    rw [Frontier.meet, keys_mapSet, mem_setAdd] at hx
    rcases hx with hx | rfl
    · exact List.mem_append_left _ (h.keys x hx)
    · exact List.mem_append_right _ (List.mem_singleton_self _)
  · intro x hx
    obtain ⟨path, hwalk, htraces, hlen⟩ := h.reached_meet hcurrent he hnew hx
    exact ⟨path, hwalk, htraces, hlen⟩
  · intro x hx hxq e' he'
    have hxq' : x ∉ f.queue ∧ x ≠ target e := by
      constructor
      · exact fun hmem ↦ hxq (List.mem_append_left _ hmem)
      · rintro rfl
        exact hxq (List.mem_append_right _ (List.mem_singleton_self _))
    have hold : x ∈ f.visited := by
      rcases List.mem_append.mp hx with hx | hx
      · exact hx
      · exact absurd (List.mem_singleton.mp hx) hxq'.2
    rcases h.expanded x hold hxq'.1 e' he' with hvisited | ⟨hcur, hpending⟩
    · exact Or.inl (List.mem_append_left _ hvisited)
    · rcases List.mem_cons.mp hpending with rfl | hpending
      · exact Or.inl (List.mem_append_right _ (List.mem_singleton_self _))
      · exact Or.inr ⟨hcur, hpending⟩

/-- What following the pending edges of a node comes to. -/
theorem scan_spec {current : σ} {es : List ε} (hes : ∀ e ∈ es, e ∈ outgoing current)
    (hcarrier : ∀ e ∈ es, target e ∈ carrier) {f : Frontier σ lab}
    (h : Searched outgoing target label start carrier f (some current) es)
    (hcurrent : current ∈ f.visited) (hgoal : goal ∉ f.visited) :
    (∃ met, scan target label goal current es f = (met, true) ∧
      Reached outgoing target label start met goal) ∨
    (∃ met, scan target label goal current es f = (met, false) ∧ goal ∉ met.visited ∧
      met.work carrier ≤ f.work carrier ∧
        Searched outgoing target label start carrier met none []) := by
  induction es generalizing f with
  | nil => exact Or.inr ⟨f, rfl, hgoal, Nat.le_refl _, h.finish⟩
  | cons e es ih =>
      have he := hes e List.mem_cons_self
      have hce := hcarrier e List.mem_cons_self
      have hes' : ∀ e ∈ es, e ∈ outgoing current :=
        fun e he ↦ hes e (List.mem_cons_of_mem _ he)
      have hcarrier' : ∀ e ∈ es, target e ∈ carrier :=
        fun e he ↦ hcarrier e (List.mem_cons_of_mem _ he)
      rw [scan]
      split
      · next hmet => exact ih hes' hcarrier' (h.skip hmet) hcurrent hgoal
      · next hnew =>
          dsimp only
          split
          · next heq =>
              refine Or.inl ⟨_, rfl, heq ▸ h.reached_meet hcurrent he hnew ?_⟩
              exact List.mem_append_right _ (List.mem_singleton_self _)
          · next hne =>
              have hmeet := h.meet_queue hcurrent he hnew hce
              have hgoal' : goal ∉ f.visited ++ [target e] := by
                simp [hgoal, Ne.symm hne]
              have hlen : f.visited.length + 1 ≤ carrier.length := by
                have hsub := (List.subperm_of_subset hmeet.nodup hmeet.within).length_le
                simpa [Frontier.meet] using hsub
              rcases ih hes' hcarrier' hmeet (List.mem_append_left _ hcurrent) hgoal' with
                hfound | ⟨met, hscan, hmet, hwork, hsearched⟩
              · exact Or.inl hfound
              · refine Or.inr ⟨met, hscan, hmet, Nat.le_trans hwork ?_, hsearched⟩
                simp only [Frontier.work, Frontier.meet, List.length_append, List.length_singleton]
                omega

/-- The search finds a walk to the goal, or there is none. -/
theorem breadthFirst_spec (hcarrier : ∀ x, ∀ e ∈ outgoing x, target e ∈ carrier) {fuel : ℕ}
    {f : Frontier σ lab} (h : Searched outgoing target label start carrier f none [])
    (hgoal : goal ∉ f.visited) (hfuel : f.work carrier < fuel) :
    (∃ es, breadthFirst outgoing target label start goal fuel f = some (some (es.map label)) ∧
      IsWalk outgoing target start es goal) ∨
    (breadthFirst outgoing target label start goal fuel f = some none ∧
      ∀ es, ¬ IsWalk outgoing target start es goal) := by
  induction fuel generalizing f with
  | zero => omega
  | succ fuel ih =>
      rw [breadthFirst]
      split
      · next hqueue =>
          refine Or.inr ⟨rfl, fun es hwalk ↦ hgoal ?_⟩
          apply hwalk.mem_of_closed (D := fun x ↦ x ∈ f.visited) _ h.start_mem
          intro x hx e he
          apply (h.expanded x hx (by simp [hqueue]) e he).resolve_right
          exact fun hpending ↦ nomatch hpending.1
      · next current queue hqueue =>
          have hcurrent : current ∈ f.visited := h.queued current (by simp [hqueue])
          rcases scan_spec (fun _ he ↦ he) (hcarrier current) (h.pop hqueue) hcurrent hgoal with
            ⟨met, hscan, path, hwalk, htraces, hlen⟩ | ⟨met, hscan, hmet, hwork, hsearched⟩
          · refine Or.inl ⟨path, ?_, hwalk⟩
            have hfuel : (path.map label).length < met.visited.length + 1 := by
              simpa using Nat.lt_succ_of_lt hlen
            rw [hscan]
            dsimp only
            rw [traceBack_of_traces htraces hfuel, List.append_nil, Option.map_some]
          · rw [hscan]
            dsimp only
            apply ih hsearched hmet
            have hpop : ({ f with queue := queue } : Frontier σ lab).work carrier <
                f.work carrier := by
              simp [Frontier.work, hqueue]
            omega

end Invariant

end TestIntelligence.Search
