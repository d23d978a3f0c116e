import Mathlib.Data.List.Induction
import Mathlib.Data.List.Shortlex
import TestIntelligence.Search.BreadthFirst

/-!
# The walk a breadth-first search finds

The edges that leave a node are in some order.  The search meets the nodes in the order of
their least walks: the shorter one comes first, and of two walks of one length the one that
takes the earlier edge where they part.
-/

namespace TestIntelligence.Search

open TestIntelligence.Js

/-! ## Shorter or earlier -/

section

variable {ε : Type*} {r : ε → ε → Prop}

theorem lex_append_of_length_eq {es es' : List ε} (h : List.Lex r es es')
    (hlen : es.length = es'.length) (fs fs' : List ε) : List.Lex r (es ++ fs) (es' ++ fs') := by
  induction h with
  | nil => cases hlen
  | cons _ ih => exact .cons (ih (Nat.succ.inj hlen))
  | rel h => exact .rel h

theorem shortlex_append_singleton {es es' : List ε} (h : List.Shortlex r es es') (e e' : ε) :
    List.Shortlex r (es ++ [e]) (es' ++ [e']) := by
  rcases List.shortlex_def.mp h with hlt | ⟨hlen, hlex⟩
  · apply List.Shortlex.of_length_lt
    simpa using hlt
  · apply List.Shortlex.of_lex
    · simpa using hlen
    · exact lex_append_of_length_eq hlex hlen [e] [e']

theorem lex_trans [IsTrans ε r] {es es' es'' : List ε} (h : List.Lex r es es')
    (h' : List.Lex r es' es'') : List.Lex r es es'' := by
  induction h generalizing es'' with
  | nil =>
      cases h' with
      | cons _ => exact .nil
      | rel _ => exact .nil
  | cons _ ih =>
      cases h' with
      | cons h' => exact .cons (ih h')
      | rel h' => exact .rel h'
  | rel h =>
      cases h' with
      | cons _ => exact .rel h
      | rel h' => exact .rel (IsTrans.trans _ _ _ h h')

theorem shortlex_trans [IsTrans ε r] {es es' es'' : List ε} (h : List.Shortlex r es es')
    (h' : List.Shortlex r es' es'') : List.Shortlex r es es'' := by
  rcases List.shortlex_def.mp h with hlt | ⟨hlen, hlex⟩
  · rcases List.shortlex_def.mp h' with hlt' | ⟨hlen', -⟩
    · exact .of_length_lt (hlt.trans hlt')
    · exact .of_length_lt (hlt.trans_eq hlen')
  · rcases List.shortlex_def.mp h' with hlt' | ⟨hlen', hlex'⟩
    · exact .of_length_lt (hlen.trans_lt hlt')
    · exact .of_lex (hlen.trans hlen') (lex_trans hlex hlex')

end

variable {σ ε lab : Type*} [DecidableEq σ]

/-! ## Least walks -/

/-- The walk comes before every other walk to its end. -/
def IsLeastWalk (outgoing : σ → List ε) (target : ε → σ) (r : ε → ε → Prop) (start : σ)
    (es : List ε) (x : σ) : Prop :=
  IsWalk outgoing target start es x ∧
    ∀ es', IsWalk outgoing target start es' x → es' = es ∨ List.Shortlex r es es'

/-- What holds besides `Searched`: `w` are the least walks, in the order of the nodes met, and
those over the pending edges come after all of them. -/
structure Levelled (outgoing : σ → List ε) (target : ε → σ) (label : ε → lab) (r : ε → ε → Prop)
    (start : σ) (w : σ → List ε) (f : Frontier σ lab) (before : List σ) (current : Option σ)
    (pending : List ε) : Prop where
  split : f.visited = before ++ (current.toList ++ f.queue)
  least : ∀ x ∈ f.visited, IsLeastWalk outgoing target r start (w x) x
  traces : ∀ x ∈ f.visited, Traces start f.predecessor x ((w x).map label)
  short : ∀ x ∈ f.visited, (w x).length < f.visited.length
  sorted : f.visited.Pairwise fun x y ↦ List.Shortlex r (w x) (w y)
  parent : ∀ x ∈ f.visited, w x = [] ∨
    ∃ p e, p ∈ before ++ current.toList ∧ w x = w p ++ [e]
  ahead : ∀ c ∈ current, ∀ e ∈ pending, ∀ x ∈ f.visited, List.Shortlex r (w x) (w c ++ [e])

section Invariant

variable {outgoing : σ → List ε} {target : ε → σ} {label : ε → lab} {r : ε → ε → Prop}
  {start goal : σ} {carrier : List σ} {w : σ → List ε} {f : Frontier σ lab} {before : List σ}

theorem levelled_start : Levelled outgoing target label r start (fun _ ↦ [])
    ⟨[start], [], [start]⟩ [] none [] where
  split := rfl
  least := by
    intro x hx
    obtain rfl := List.mem_singleton.mp hx
    exact ⟨rfl, fun es' _ ↦ (List.shortlex_nil_or_eq_nil es').symm⟩
  traces := by
    intro x hx
    obtain rfl := List.mem_singleton.mp hx
    exact .start
  short := fun _ _ ↦ Nat.one_pos
  sorted := List.pairwise_singleton _ _
  parent := fun _ _ ↦ .inl rfl
  ahead := nofun

/-- The next node comes after the ones expanded before it, and so do the walks through it. -/
theorem Levelled.pop {current : σ} {queue : List σ}
    (h : Levelled outgoing target label r start w f before none [])
    (hqueue : f.queue = current :: queue) :
    Levelled outgoing target label r start w { f with queue := queue } before (some current)
      (outgoing current) where
  split := by
    rw [h.split, hqueue]
    rfl
  least := h.least
  traces := h.traces
  short := h.short
  sorted := h.sorted
  parent := by
    intro x hx
    rcases h.parent x hx with hstart | ⟨p, e, hp, hx⟩
    · exact .inl hstart
    · refine .inr ⟨p, e, List.mem_append_left _ ?_, hx⟩
      simpa using hp
  ahead := by
    intro c hc e _ x hx
    obtain rfl := Option.some.inj hc
    rcases h.parent x hx with hstart | ⟨p, e', hp, hx⟩
    · rw [hstart]
      exact .of_length_lt (by simp)
    · rw [hx]
      apply shortlex_append_singleton
      have hsorted := h.sorted
      rw [h.split, hqueue, List.pairwise_append] at hsorted
      exact hsorted.2.2 p (by simpa using hp) current (by simp)

theorem Levelled.skip {current : Option σ} {e : ε} {es : List ε}
    (h : Levelled outgoing target label r start w f before current (e :: es)) :
    Levelled outgoing target label r start w f before current es :=
  { h with ahead := fun c hc e' he' ↦ h.ahead c hc e' (List.mem_cons_of_mem e he') }

theorem Levelled.finish {current : σ}
    (h : Levelled outgoing target label r start w f before (some current) []) :
    Levelled outgoing target label r start w f (before ++ [current]) none [] :=
  { h with
    split := by simpa using h.split
    parent := by simpa using h.parent
    ahead := nofun }

/-- The walk over the next edge comes before every walk to a node that is not met yet. -/
theorem Levelled.shortlex_of_notMem [IsTrans ε r] {current : σ} {e : ε} {es : List ε}
    (h : Levelled outgoing target label r start w f before (some current) (e :: es))
    (hs : Searched outgoing target label start carrier f (some current) (e :: es))
    (hes : (e :: es).Pairwise r) {es' : List ε} {y : σ}
    (hwalk : IsWalk outgoing target start es' y) (hy : y ∉ f.visited) :
    es' = w current ++ [e] ∨ List.Shortlex r (w current ++ [e]) es' := by
  induction es' using List.reverseRecOn generalizing y with
  | nil => exact absurd (hwalk ▸ hs.start_mem) hy
  | append_singleton es' e' ih =>
      obtain ⟨u, hfirst, he', hlast⟩ := isWalk_append.mp hwalk
      obtain rfl : target e' = y := hlast
      by_cases hu : u ∈ f.visited
      · have hleast := (h.least u hu).2 es' hfirst
        by_cases hqueue : u ∈ f.queue
        · -- a node that waits comes after the current one
          have hsorted := h.sorted
          rw [h.split, List.pairwise_append] at hsorted
          have hless : List.Shortlex r (w current) (w u) := by
            have hpair := hsorted.2.1
            rw [Option.toList_some, List.singleton_append, List.pairwise_cons] at hpair
            exact hpair.1 u hqueue
          rcases hleast with rfl | hleast
          · exact .inr (shortlex_append_singleton hless e e')
          · exact .inr (shortlex_append_singleton (shortlex_trans hless hleast) e e')
        · rcases hs.expanded u hu hqueue e' he' with hmet | ⟨hcurrent, hpending⟩
          · exact absurd hmet hy
          · obtain rfl := Option.some.inj hcurrent
            rcases hleast with rfl | hleast
            · rcases List.mem_cons.mp hpending with rfl | hpending
              · exact .inl rfl
              · apply Or.inr
                apply List.Shortlex.append_left
                rw [List.shortlex_singleton_iff]
                exact (List.pairwise_cons.mp hes).1 e' hpending
            · exact .inr (shortlex_append_singleton hleast e e')
      · have hlonger : List.Shortlex r es' (es' ++ [e']) := .of_length_lt (by simp)
        rcases ih hfirst hu with rfl | hless
        · exact .inr hlonger
        · exact .inr (shortlex_trans hless hlonger)

variable (label) in
theorem mem_visited_meet (current : σ) {e : ε} {x : σ} :
    x ∈ (f.meet target label current e).visited ↔ x ∈ f.visited ∨ x = target e := by
  rw [Frontier.meet, List.mem_append, List.mem_singleton]

/-- The target of the next edge is met by its least walk. -/
theorem Levelled.meet [IsTrans ε r] {current : σ} {e : ε} {es : List ε}
    (h : Levelled outgoing target label r start w f before (some current) (e :: es))
    (hs : Searched outgoing target label start carrier f (some current) (e :: es))
    (hes : (e :: es).Pairwise r) (he : e ∈ outgoing current) (hnew : target e ∉ f.visited) :
    Levelled outgoing target label r start (Function.update w (target e) (w current ++ [e]))
      { f.meet target label current e with
        queue := (f.meet target label current e).queue ++ [target e] }
      before (some current) es := by
  have hcurrent : current ∈ f.visited := by
    rw [h.split]
    simp
  have hself : Function.update w (target e) (w current ++ [e]) (target e) = w current ++ [e] :=
    Function.update_self _ _ _
  have hold : ∀ x ∈ f.visited, Function.update w (target e) (w current ++ [e]) x = w x :=
    fun x hx ↦ Function.update_of_ne (ne_of_mem_of_not_mem hx hnew) _ _
  have hmono : ∀ y v, mapGet f.predecessor y = some v →
      mapGet (f.meet target label current e).predecessor y = some v := by
    intro y v hy
    have hne : y ≠ target e := by
      rintro rfl
      exact hnew (hs.keys _ (List.mem_map.mpr ⟨_, mem_of_mapGet hy, rfl⟩))
    rw [Frontier.meet, mapGet_mapSet, if_neg hne, hy]
  constructor
  · change f.visited ++ [target e] = _
    rw [h.split]
    simp [Frontier.meet]
  · intro x hx
    rcases (mem_visited_meet label current).mp hx with hx | rfl
    · rw [hold x hx]
      exact h.least x hx
    · rw [hself]
      refine ⟨isWalk_append.mpr ⟨current, (h.least current hcurrent).1, he, rfl⟩, ?_⟩
      exact fun es' hwalk ↦ h.shortlex_of_notMem hs hes hwalk hnew
  · intro x hx
    rcases (mem_visited_meet label current).mp hx with hx | rfl
    · rw [hold x hx]
      exact (h.traces x hx).mono hmono
    · rw [hself, List.map_append, List.map_singleton]
      apply Traces.step
      · rintro heq
        exact hnew (heq ▸ hs.start_mem)
      · exact mapGet_mapSet_self _ _ _
      · exact (h.traces current hcurrent).mono hmono
  · intro x hx
    change _ < (f.visited ++ [target e]).length
    rw [List.length_append, List.length_singleton]
    rcases (mem_visited_meet label current).mp hx with hx | rfl
    · rw [hold x hx]
      exact Nat.lt_succ_of_lt (h.short x hx)
    · rw [hself, List.length_append, List.length_singleton]
      exact Nat.succ_lt_succ (h.short current hcurrent)
  · change (f.visited ++ [target e]).Pairwise _
    rw [List.pairwise_append]
    refine ⟨h.sorted.imp_of_mem fun {x y} hx hy hxy ↦ ?_, List.pairwise_singleton _ _,
      fun x hx y hy ↦ ?_⟩
    · rwa [hold x hx, hold y hy]
    · obtain rfl := List.mem_singleton.mp hy
      rw [hself, hold x hx]
      exact h.ahead current rfl e List.mem_cons_self x hx
  · intro x hx
    rcases (mem_visited_meet label current).mp hx with hx | rfl
    · rw [hold x hx]
      rcases h.parent x hx with hstart | ⟨p, e', hp, hwalk⟩
      · exact .inl hstart
      · have hpv : p ∈ f.visited := by
          rw [h.split, ← List.append_assoc]
          exact List.mem_append_left _ hp
        exact .inr ⟨p, e', hp, by rw [hold p hpv, hwalk]⟩
    · exact .inr ⟨current, e, by simp, by rw [hself, hold current hcurrent]⟩
  · intro c hc e' he' x hx
    obtain rfl := Option.some.inj hc
    rw [hold current hcurrent]
    rcases (mem_visited_meet label current).mp hx with hx | rfl
    · rw [hold x hx]
      exact h.ahead current rfl e' (List.mem_cons_of_mem e he') x hx
    · rw [hself]
      apply List.Shortlex.append_left
      rw [List.shortlex_singleton_iff]
      exact (List.pairwise_cons.mp hes).1 e' he'

/-! ## The search -/

/-- Following the pending edges meets the goal by its least walk, or keeps the order. -/
theorem scan_levelled [IsTrans ε r] {current : σ} {es : List ε}
    (hes : ∀ e ∈ es, e ∈ outgoing current) (hcarrier : ∀ e ∈ es, target e ∈ carrier)
    (hsorted : es.Pairwise r)
    (h : Levelled outgoing target label r start w f before (some current) es)
    (hs : Searched outgoing target label start carrier f (some current) es) :
    (∀ met, scan target label goal current es f = (met, true) →
      ∃ path, IsLeastWalk outgoing target r start path goal ∧
        Traces start met.predecessor goal (path.map label) ∧ path.length < met.visited.length) ∧
    ∀ met, scan target label goal current es f = (met, false) →
      ∃ w, Levelled outgoing target label r start w met (before ++ [current]) none [] := by
  induction es generalizing f w with
  | nil =>
      refine ⟨fun met hmet ↦ ?_, fun met hmet ↦ ?_⟩
      · cases (Prod.mk.inj hmet).2
      obtain rfl := (Prod.mk.inj hmet).1
      exact ⟨w, h.finish⟩
  | cons e es ih =>
      have he := hes e List.mem_cons_self
      have hce := hcarrier e List.mem_cons_self
      have hes' : ∀ e' ∈ es, e' ∈ outgoing current :=
        fun e' he' ↦ hes e' (List.mem_cons_of_mem e he')
      have hcarrier' : ∀ e' ∈ es, target e' ∈ carrier :=
        fun e' he' ↦ hcarrier e' (List.mem_cons_of_mem e he')
      have hsorted' := (List.pairwise_cons.mp hsorted).2
      rw [scan]
      split
      · next hmet => exact ih hes' hcarrier' hsorted' h.skip (hs.skip hmet)
      · next hnew =>
        have hcurrent : current ∈ f.visited := by
          rw [h.split]
          simp
        have hmeet := h.meet hs hsorted he hnew
        dsimp only
        split
        · next heq =>
          refine ⟨fun met hmet ↦ ?_, fun met hmet ↦ by cases (Prod.mk.inj hmet).2⟩
          obtain rfl := (Prod.mk.inj hmet).1
          have hgoal : goal ∈ (f.meet target label current e).visited :=
            (mem_visited_meet label current).mpr (.inr heq.symm)
          exact ⟨_, hmeet.least goal hgoal, hmeet.traces goal hgoal, hmeet.short goal hgoal⟩
        · exact ih hes' hcarrier' hsorted' hmeet (hs.meet_queue hcurrent he hnew hce)

/-- Where the edges that leave each node are sorted, the search finds the least walk to the
goal, or there is none. -/
theorem breadthFirst_least [IsTrans ε r] (hsorted : ∀ x, (outgoing x).Pairwise r)
    (hcarrier : ∀ x, ∀ e ∈ outgoing x, target e ∈ carrier) {fuel : ℕ}
    (hl : Levelled outgoing target label r start w f before none [])
    (hs : Searched outgoing target label start carrier f none []) (hgoal : goal ∉ f.visited)
    (hfuel : f.work carrier < fuel) :
    (∃ es, breadthFirst outgoing target label start goal fuel f = some (some (es.map label)) ∧
      IsLeastWalk outgoing target r start es goal) ∨
    (breadthFirst outgoing target label start goal fuel f = some none ∧
      ∀ es, ¬ IsWalk outgoing target start es goal) := by
  induction fuel generalizing f w before with
  | zero => omega
  | succ fuel ih =>
      have hspec := breadthFirst_spec hcarrier hs hgoal hfuel
      rw [breadthFirst] at hspec ⊢
      split
      · next hqueue =>
        rw [hqueue] at hspec
        refine .inr ⟨rfl, ?_⟩
        rcases hspec with ⟨es, hnone, -⟩ | ⟨-, hnone⟩
        · cases hnone
        · exact hnone
      · next current queue hqueue =>
        have hcurrent : current ∈ f.visited := hs.queued current (by simp [hqueue])
        obtain ⟨hfound, hmore⟩ := @scan_levelled σ ε lab _ outgoing target label r start goal
          carrier _ _ before _ current _ (fun _ he ↦ he) (hcarrier current) (hsorted current)
          (hl.pop hqueue) (hs.pop hqueue)
        rcases scan_spec (fun _ he ↦ he) (hcarrier current) (hs.pop hqueue) hcurrent hgoal with
          ⟨met, hscan, -⟩ | ⟨met, hscan, hmet, hwork, hsearched⟩
        · obtain ⟨path, hleast, htraces, hlen⟩ := hfound met hscan
          refine .inl ⟨path, ?_, hleast⟩
          have hfuel : (path.map label).length < met.visited.length + 1 := by
            simpa using Nat.lt_succ_of_lt hlen
          rw [hscan]
          dsimp only
          rw [traceBack_of_traces htraces hfuel, List.append_nil, Option.map_some]
        · obtain ⟨w', hlevelled⟩ := hmore met hscan
          rw [hscan]
          dsimp only
          apply ih hlevelled hsearched hmet
          have hpop : ({ f with queue := queue } : Frontier σ lab).work carrier <
              f.work carrier := by
            simp [Frontier.work, hqueue]
          omega

end Invariant

end TestIntelligence.Search
