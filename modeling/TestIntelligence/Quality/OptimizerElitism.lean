import TestIntelligence.Quality.OptimizerVariation
import TestIntelligence.Quality.ParetoRanking

/-!
# The optimizer keeps its best plans

The best value of an objective is reached on the first front, and the ends of that front in
each objective have an infinite crowding distance.  There are at most eight of them, and a
population has room for eight, so the cut of the first front keeps them all.
-/

namespace TestIntelligence.Quality

open Js Systems

variable {T K : Type}

/-! ## What the bookkeeping leaves alone -/

/-- The fields that ranks and distances do not touch. -/
def core (individual : Individual T K) : Plan T K × ObjectiveVector K :=
  (individual.plan, individual.objectives)

section

variable {population population' : List (Individual T K)}

theorem map_core_setRanks (population : List (Individual T K)) (rank : ℕ → ℕ) :
    (setRanks population rank).map core = population.map core := by
  apply List.ext_getElem (by simp [setRanks])
  intro p hp hp'
  simp [setRanks, core]

theorem getElem?_map_core (h : population'.map core = population.map core) {p : ℕ}
    {individual' : Individual T K} (hp : population'[p]? = some individual') :
    ∃ individual, population[p]? = some individual ∧ core individual = core individual' := by
  have hmap : (population.map core)[p]? = some (core individual') := by
    rw [← h, List.getElem?_map, hp, Option.map_some]
  rw [List.getElem?_map] at hmap
  exact Option.map_eq_some_iff.mp hmap

theorem length_of_map_core (h : population'.map core = population.map core) :
    population'.length = population.length := by
  simpa using congrArg List.length h

variable [Field K]

theorem objectiveAt_congr (h : population'.map core = population.map core) (o : Objective)
    (p : ℕ) : objectiveAt population' o p = objectiveAt population o p := by
  have hget : ∀ population : List (Individual T K), objectiveAt population o p =
      (((population.map core)[p]?).map fun c ↦ c.2.get o).getD 0 := by
    intro population
    rw [List.getElem?_map, Option.map_map]
    rfl
  rw [hget, hget, h]

variable [LinearOrder K]

theorem map_core_assignCrowdingDistance (population : List (Individual T K)) (front : List ℕ) :
    (assignCrowdingDistance population front).map core = population.map core := by
  apply List.ext_getElem (by simp [assignCrowdingDistance])
  intro p hp hp'
  simp only [assignCrowdingDistance, List.getElem_map, List.getElem_mapIdx]
  split_ifs <;> rfl

theorem map_core_foldl_assignCrowdingDistance (fronts : List (List ℕ))
    (population : List (Individual T K)) :
    (fronts.foldl assignCrowdingDistance population).map core = population.map core := by
  induction fronts generalizing population with
  | nil => rfl
  | cons front fronts ih => rw [List.foldl_cons, ih, map_core_assignCrowdingDistance]

theorem AllFeasible.congr [LinearOrder T] {surrogate : List K → ObjectiveVector K}
    {fixture : FixtureBenchmark T K} (h : AllFeasible surrogate fixture population)
    (hcore : population'.map core = population.map core) :
    AllFeasible surrogate fixture population' := by
  intro individual' hmem
  obtain ⟨p, hp⟩ := List.mem_iff_getElem?.mp hmem
  obtain ⟨individual, hindividual, heq⟩ := getElem?_map_core hcore hp
  obtain ⟨hplan, hobjectives⟩ := Prod.mk.inj heq
  have hfeasible := h individual (List.mem_of_getElem? hindividual)
  exact ⟨hobjectives ▸ hplan ▸ hfeasible.evaluated, hplan ▸ hfeasible.genes⟩

end

/-! ## Plans as records -/

section

variable [LinearOrder T] [LinearOrder K] {population : List (Individual T K)}

theorem samePlan_iff {a b : Plan T K} :
    samePlan a b = true ↔ ∀ technique, mapGet a technique = mapGet b technique := by
  simp only [samePlan, List.all_eq_true, List.mem_append, decide_eq_true_iff]
  refine ⟨fun h technique ↦ ?_, fun h technique _ ↦ h technique⟩
  have hnone : ∀ plan : Plan T K, technique ∉ plan.map Prod.fst → mapGet plan technique = none := by
    intro plan hmem
    cases hget : mapGet plan technique with
    | none => rfl
    | some value => exact absurd (List.mem_map_of_mem (f := Prod.fst) (mem_of_mapGet hget)) hmem
  by_cases hmem : technique ∈ a.map Prod.fst ∨ technique ∈ b.map Prod.fst
  · exact h technique hmem
  · rw [not_or] at hmem
    rw [hnone a hmem.1, hnone b hmem.2]

theorem samePlan_symm {a b : Plan T K} (h : samePlan a b = true) : samePlan b a = true :=
  samePlan_iff.mpr fun technique ↦ (samePlan_iff.mp h technique).symm

theorem evaluatePlan_congr [Field K] {surrogate : List K → ObjectiveVector K}
    {fixture : FixtureBenchmark T K} {a b : Plan T K} (h : samePlan a b = true) :
    evaluatePlan surrogate a fixture = evaluatePlan surrogate b fixture := by
  have hclamped : clampedQuota fixture a = clampedQuota fixture b := by
    funext technique
    rw [clampedQuota, clampedQuota, samePlan_iff.mp h technique]
  rw [evaluatePlan, evaluatePlan, hclamped]

def DistinctPlans (population : List (Individual T K)) : Prop :=
  population.Pairwise fun a b ↦ samePlan a.plan b.plan = false

theorem DistinctPlans.of_ne (h : DistinctPlans population) {p q : ℕ} {a b : Individual T K}
    (hpq : p ≠ q) (ha : population[p]? = some a) (hb : population[q]? = some b) :
    samePlan a.plan b.plan = false := by
  obtain ⟨hp, rfl⟩ := List.getElem?_eq_some_iff.mp ha
  obtain ⟨hq, rfl⟩ := List.getElem?_eq_some_iff.mp hb
  rcases Nat.lt_or_gt_of_ne hpq with hlt | hlt
  · exact List.pairwise_iff_getElem.mp h p q hp hq hlt
  · have hback := List.pairwise_iff_getElem.mp h q p hq hp hlt
    rw [Bool.eq_false_iff] at hback ⊢
    exact fun hsame ↦ hback (samePlan_symm hsame)

structure Deduped (population out : List (Individual T K)) : Prop where
  distinct : DistinctPlans out
  sub : ∀ individual ∈ out, individual ∈ population
  covers : ∀ individual ∈ population, ∃ seen ∈ out, samePlan seen.plan individual.plan = true

theorem deduped_dedupePopulation (population : List (Individual T K)) :
    Deduped population (dedupePopulation population) := by
  rw [dedupePopulation]
  induction population using List.reverseRecOn with
  | nil => exact ⟨List.Pairwise.nil, nofun, nofun⟩
  | append_singleton population individual ih =>
      rw [List.foldl_concat]
      generalize List.foldl _ _ population = out at ih ⊢
      split_ifs with hseen
      · refine ⟨ih.distinct, fun a ha ↦ List.mem_append_left _ (ih.sub a ha), fun a ha ↦ ?_⟩
        rcases List.mem_append.mp ha with ha | ha
        · exact ih.covers a ha
        · obtain rfl := List.mem_singleton.mp ha
          exact List.any_eq_true.mp hseen
      · refine ⟨?_, fun a ha ↦ ?_, fun a ha ↦ ?_⟩
        · refine List.pairwise_append.mpr ⟨ih.distinct, List.pairwise_singleton _ _, ?_⟩
          intro a ha b hb
          obtain rfl := List.mem_singleton.mp hb
          rw [Bool.eq_false_iff]
          exact fun hsame ↦ hseen (List.any_eq_true.mpr ⟨a, ha, hsame⟩)
        · rcases List.mem_append.mp ha with ha | ha
          · exact List.mem_append_left _ (ih.sub a ha)
          · exact List.mem_append_right _ ha
        · rcases List.mem_append.mp ha with ha | ha
          · obtain ⟨seen, hmem, hsame⟩ := ih.covers a ha
            exact ⟨seen, List.mem_append_left _ hmem, hsame⟩
          · obtain rfl := List.mem_singleton.mp ha
            exact ⟨a, List.mem_append_right _ ha, samePlan_iff.mpr fun _ ↦ rfl⟩

end

/-! ## The ends of a front -/

section

variable {N : Type} [LinearOrder N]

theorem numberCompare_nonpos {x y : N} : numberCompare x y ≤ 0 ↔ x ≤ y := by
  rw [numberCompare]
  split_ifs with hlt hgt
  · simp [hlt.le]
  · simp [hgt]
  · simp [not_lt.mp hgt]

theorem consistent_numberCompare : Consistent (numberCompare : N → N → ℤ) := by
  constructor
  · intro x y
    rw [numberCompare_nonpos, numberCompare_nonpos]
    exact le_total x y
  · intro x y z
    rw [numberCompare_nonpos, numberCompare_nonpos, numberCompare_nonpos]
    exact le_trans

/-- A list in descending order has its infinite values first. -/
theorem mem_take_of_top {α : Type} {f : α → WithTop N} {xs : List α}
    (hsorted : xs.Pairwise fun a b ↦ f b ≤ f a) {m : ℕ}
    (hcount : (xs.countP fun a ↦ f a = ⊤) ≤ m) {e : α} (he : e ∈ xs) (htop : f e = ⊤) :
    e ∈ xs.take m := by
  induction xs generalizing m with
  | nil => cases he
  | cons x xs ih =>
      obtain ⟨hx, hxs⟩ := List.pairwise_cons.mp hsorted
      have hfirst : f x = ⊤ := by
        rcases List.mem_cons.mp he with rfl | he
        · exact htop
        · exact top_le_iff.mp (htop ▸ hx e he)
      rw [List.countP_cons_of_pos (by simpa using hfirst)] at hcount
      obtain ⟨m, rfl⟩ := Nat.exists_eq_succ_of_ne_zero (by omega : m ≠ 0)
      rw [List.take_succ_cons]
      rcases List.mem_cons.mp he with rfl | he
      · exact List.mem_cons_self
      · exact List.mem_cons_of_mem _ (ih hxs (by omega) he)

end

section

variable [Field K] [LinearOrder K] (population : List (Individual T K)) (front : List ℕ)

def sortedBy (o : Objective) : List ℕ :=
  sortBy (fun a b ↦ numberCompare (objectiveAt population o a) (objectiveAt population o b)) front

/-- The two members of the front that `assignCrowdingDistance` puts at infinity for one
objective. -/
def endsOf (o : Objective) : List ℕ :=
  [(sortedBy population front o).headD 0, (sortedBy population front o).getLastD 0]

theorem crowdObjective_eq_top {distance : ℕ → WithTop K} {o : Objective} {p : ℕ} :
    crowdObjective population front distance o p = ⊤ ↔
      distance p = ⊤ ∨ p ∈ endsOf population front o := by
  have hends : ∀ first last : ℕ,
      Function.update (Function.update distance first ⊤) last ⊤ p = ⊤ ↔
        distance p = ⊤ ∨ p ∈ [first, last] := by
    intro first last
    rw [Function.update_apply, Function.update_apply, List.mem_pair]
    split_ifs with hlast hfirst
    · simp [hlast]
    · simp [hfirst]
    · simp [hlast, hfirst]
  have hloop : ∀ (is : List ℕ) (at' : ℕ → ℕ) (gain : ℕ → K) (d : ℕ → WithTop K),
      is.foldl (fun d i ↦ Function.update d (at' i) (d (at' i) + ((gain i : K) : WithTop K)))
        d p = ⊤ ↔ d p = ⊤ := by
    intro is at' gain
    induction is with
    | nil => exact fun d ↦ Iff.rfl
    | cons i is ih =>
        intro d
        rw [List.foldl_cons, ih, Function.update_apply]
        split_ifs with hp
        · simp [hp]
        · rfl
  rw [crowdObjective]
  dsimp only
  split_ifs
  · exact hends _ _
  · exact (hloop _ _ _ _).trans (hends _ _)

theorem crowdingOf_eq_top (hfront : 2 < front.length) {p : ℕ} :
    crowdingOf population front p = ⊤ ↔ p ∈ objectives.flatMap (endsOf population front) := by
  have hfold : ∀ (os : List Objective) (distance : ℕ → WithTop K),
      os.foldl (crowdObjective population front) distance p = ⊤ ↔
        distance p = ⊤ ∨ p ∈ os.flatMap (endsOf population front) := by
    intro os
    induction os with
    | nil => simp
    | cons o os ih =>
        intro distance
        rw [List.foldl_cons, ih, crowdObjective_eq_top, List.flatMap_cons, List.mem_append,
          or_assoc]
  rw [crowdingOf, if_neg (not_le.mpr hfront), hfold]
  simp

/-- At most two for each of the four objectives. -/
theorem countP_crowding_le (hfront : 2 < front.length) (hnodup : front.Nodup) :
    (front.countP fun p ↦ crowdingOf population front p = ⊤) ≤ 8 := by
  have hsub : (front.filter fun p ↦ crowdingOf population front p = ⊤).Subset
      (objectives.flatMap (endsOf population front)) := by
    intro p hp
    rw [List.mem_filter, decide_eq_true_iff] at hp
    exact (crowdingOf_eq_top population front hfront).mp hp.2
  rw [List.countP_eq_length_filter]
  exact ((hnodup.filter _).subperm hsub).length_le

variable {front}

theorem exists_best_end (hfront : front ≠ []) (o : Objective) :
    ∃ e ∈ front, e ∈ endsOf population front o ∧
      ∀ p ∈ front, o.AtLeast (objectiveAt population o e) (objectiveAt population o p) := by
  have hperm : (sortedBy population front o).Perm front := sortBy_perm _ _
  have hsorted := (consistent_numberCompare.comap (objectiveAt population o)).pairwise_sortBy front
  simp only [numberCompare_nonpos] at hsorted
  change (sortedBy population front o).Pairwise _ at hsorted
  have hends : ∀ e, e ∈ endsOf population front o ↔ e = (sortedBy population front o).headD 0 ∨
      e = (sortedBy population front o).getLastD 0 := fun e ↦ List.mem_pair
  generalize sortedBy population front o = sorted at hperm hsorted hends
  have hnonempty : sorted ≠ [] := fun hnil ↦ hfront (hnil ▸ hperm).nil_eq.symm
  cases hdirection : o.direction with
  | maximize =>
      obtain ⟨before, e, rfl⟩ := (List.eq_nil_or_concat' sorted).resolve_left hnonempty
      refine ⟨e, hperm.mem_iff.mp (by simp), (hends e).mpr (.inr (by simp)), fun p hp ↦ ?_⟩
      rw [Objective.AtLeast, hdirection]
      rcases List.mem_append.mp (hperm.mem_iff.mpr hp) with hp | hp
      · exact (List.pairwise_append.mp hsorted).2.2 p hp e (List.mem_singleton_self e)
      · exact (congrArg _ (List.mem_singleton.mp hp)).le
  | minimize =>
      obtain ⟨e, after, rfl⟩ := List.exists_cons_of_ne_nil hnonempty
      refine ⟨e, hperm.mem_iff.mp List.mem_cons_self, (hends e).mpr (.inl rfl), fun p hp ↦ ?_⟩
      rw [Objective.AtLeast, hdirection]
      rcases List.mem_cons.mp (hperm.mem_iff.mpr hp) with hp | hp
      · exact (congrArg _ hp).ge
      · exact (List.pairwise_cons.mp hsorted).1 p hp

/-! ## The next population -/

variable {population} {size : ℕ}

/-- What one round of the selection leaves alone, and what it may add. -/
structure Filled (fronts : List (List ℕ)) (merged : List (Individual T K)) (next : List ℕ)
    (result : List (Individual T K) × List ℕ) : Prop where
  core : result.1.map core = merged.map core
  grows : next <+: result.2
  subperm : result.2.Subperm (next ++ fronts.flatten)

theorem filled_fillNext (fronts : List (List ℕ)) (merged : List (Individual T K))
    (next : List ℕ) : Filled fronts merged next (fillNext size fronts merged next) := by
  induction fronts generalizing merged next with
  | nil => exact ⟨rfl, List.prefix_rfl, by simp [fillNext, List.Subperm.refl]⟩
  | cons front fronts ih =>
      rw [fillNext]
      dsimp only
      split_ifs with hfits
      · have h := ih (assignCrowdingDistance merged front) (next ++ front)
        refine ⟨h.core.trans (map_core_assignCrowdingDistance merged front),
          (List.prefix_append next front).trans h.grows, ?_⟩
        rw [List.flatten_cons, ← List.append_assoc]
        exact h.subperm
      · refine ⟨map_core_assignCrowdingDistance merged front, List.prefix_append _ _, ?_⟩
        rw [List.flatten_cons]
        refine (List.subperm_append_left next).mpr ?_
        refine (List.take_sublist _ _).subperm.trans ((sortBy_perm _ front).subperm.trans ?_)
        exact (List.sublist_append_left front _).subperm

theorem length_fillNext_le (fronts : List (List ℕ)) (merged : List (Individual T K))
    {next : List ℕ} (h : next.length ≤ size) :
    (fillNext size fronts merged next).2.length ≤ size := by
  induction fronts generalizing merged next with
  | nil => exact h
  | cons front fronts ih =>
      rw [fillNext]
      dsimp only
      split_ifs with hfits
      · exact ih _ (by rw [List.length_append]; exact hfits)
      · rw [List.length_append, List.length_take]
        omega

theorem crowdingAt_assignCrowdingDistance {p : ℕ} (hp : p ∈ front) (hlt : p < population.length) :
    crowdingAt (assignCrowdingDistance population front) p = crowdingOf population front p := by
  simp [crowdingAt, assignCrowdingDistance, hp, hlt]

theorem mem_fillNext_of_end (hsize : 8 ≤ size) (hnodup : front.Nodup)
    (hlt : ∀ p ∈ front, p < population.length) {fronts : List (List ℕ)} {o : Objective} {e : ℕ}
    (he : e ∈ front) (hend : e ∈ endsOf population front o) :
    e ∈ (fillNext size (front :: fronts) population []).2 := by
  rw [fillNext]
  dsimp only
  split_ifs with hfits
  · exact (filled_fillNext fronts _ _).grows.subset he
  · rw [List.length_nil, Nat.zero_add, not_le] at hfits
    have hfront : 2 < front.length := by omega
    have hcrowding : ∀ p ∈ front, crowdingAt (assignCrowdingDistance population front) p =
        crowdingOf population front p :=
      fun p hp ↦ crowdingAt_assignCrowdingDistance hp (hlt p hp)
    have htop : crowdingOf population front e = ⊤ :=
      (crowdingOf_eq_top population front hfront).mpr
        (List.mem_flatMap.mpr ⟨o, mem_objectives o, hend⟩)
    have hcount := countP_crowding_le population front hfront hnodup
    rw [List.nil_append, List.length_nil, Nat.sub_zero]
    generalize assignCrowdingDistance population front = crowded at hcrowding
    have hdescending : Consistent fun a b ↦ numberCompare (crowdingAt crowded b)
        (crowdingAt crowded a) := by
      constructor
      · intro a b
        rw [numberCompare_nonpos, numberCompare_nonpos]
        exact le_total _ _
      · intro a b c
        rw [numberCompare_nonpos, numberCompare_nonpos, numberCompare_nonpos]
        exact fun hab hbc ↦ hbc.trans hab
    have hsorted := hdescending.pairwise_sortBy front
    simp only [numberCompare_nonpos] at hsorted
    refine mem_take_of_top hsorted ?_ (mem_sortBy.mpr he) ((hcrowding e he).trans htop)
    rw [(sortBy_perm _ front).countP_eq]
    refine le_trans (le_of_eq ?_) (hcount.trans hsize)
    exact List.countP_congr fun p hp ↦ by rw [hcrowding p hp]

theorem ParetoRanking.exists_first {ranked : List (Individual T K)} {fronts : List (List ℕ)}
    (h : ParetoRanking population ranked fronts) (o : Objective) {p : ℕ}
    (hp : p < population.length) : ∃ front rest, fronts = front :: rest ∧ ∃ e ∈ front,
      o.AtLeast (objectiveAt population o e) (objectiveAt population o p) := by
  obtain ⟨front, hfront, hmem⟩ :=
    List.mem_flatten.mp (h.once.mem_iff.mpr (List.mem_range.mpr hp))
  obtain ⟨k, hk⟩ := List.mem_iff_getElem?.mp hfront
  induction k generalizing p front with
  | zero =>
      cases fronts with
      | nil => cases hk
      | cons first rest =>
          obtain rfl := Option.some.inj hk
          exact ⟨_, rest, rfl, p, hmem, o.atLeast_refl _⟩
  | succ k ih =>
      have hlast : k < fronts.length := by
        have := (List.getElem?_eq_some_iff.mp hk).1
        omega
      obtain ⟨q, hq, hdominates⟩ := h.below k _ front (List.getElem?_eq_getElem hlast) hk p hmem
      obtain ⟨a, b, ha, hb, hab⟩ := dominatesAt_iff.mp hdominates
      have hbetter : o.AtLeast (objectiveAt population o q) (objectiveAt population o p) := by
        rw [objectiveAt, objectiveAt, ha, hb]
        exact (dominates_iff.mp hab).1 o
      obtain ⟨first, rest, hfronts, e, he, heq⟩ := ih (List.getElem?_eq_some_iff.mp ha).1 _
        (List.getElem_mem hlast) hq (List.getElem?_eq_getElem hlast)
      exact ⟨first, rest, hfronts, e, he, heq.trans hbetter⟩

/-! ## Generations -/

omit [Field K] in
variable (population) in
theorem exists_sortIntoFronts : ∃ ranked fronts,
    sortIntoFronts population = .ok (ranked, fronts) ∧ ranked.map core = population.map core ∧
      ParetoRanking population ranked fronts := by
  obtain ⟨ranked, fronts, hsort, hranking⟩ := nonDominatedSort_ranking population
  refine ⟨ranked, fronts, by rw [sortIntoFronts, hsort], ?_, hranking⟩
  rw [hranking.kept, map_core_setRanks]

variable (population) in
theorem exists_rankAndCrowd : ∃ ranked crowded fronts,
    rankAndCrowd population = .ok (crowded, fronts) ∧ crowded.map core = population.map core ∧
      ParetoRanking population ranked fronts := by
  obtain ⟨ranked, fronts, hsort, hcore, hranking⟩ := exists_sortIntoFronts population
  refine ⟨ranked, _, fronts, by rw [rankAndCrowd, hsort]; rfl, ?_, hranking⟩
  rw [map_core_foldl_assignCrowdingDistance, hcore]

omit [LinearOrder K] in
theorem objectiveAt_of_getElem? {p : ℕ} {individual : Individual T K}
    (h : population[p]? = some individual) (o : Objective) :
    objectiveAt population o p = individual.objectives.get o := by
  rw [objectiveAt, h]
  rfl

def NeverWorse (population next : List (Individual T K)) : Prop :=
  ∀ o : Objective, ∀ a ∈ population, ∃ b ∈ next,
    o.AtLeast (b.objectives.get o) (a.objectives.get o)

structure Selected [LinearOrder T] (size : ℕ) (population next : List (Individual T K)) :
    Prop where
  nonempty : next ≠ []
  size : next.length ≤ size
  distinct : DistinctPlans next
  sub : ∀ individual ∈ next, core individual ∈ population.map core
  kept : NeverWorse population next

/-- The population that the selection makes of distinct plans. -/
theorem selected_fillNext [LinearOrder T] (hsize : 8 ≤ size) (hnonempty : population ≠ [])
    (hdistinct : DistinctPlans population) {ranked : List (Individual T K)}
    {fronts : List (List ℕ)} (hcore : ranked.map core = population.map core)
    (hranking : ParetoRanking population ranked fronts) :
    Selected size population ((fillNext size fronts ranked []).2.filterMap
      fun p ↦ (fillNext size fronts ranked []).1[p]?) := by
  have hfilled : Filled fronts ranked [] (fillNext size fronts ranked []) :=
    filled_fillNext fronts ranked []
  have hlength : (fillNext size fronts ranked []).2.length ≤ size :=
    length_fillNext_le fronts ranked (Nat.zero_le size)
  have hbest : ∀ o : Objective, ∀ p < population.length,
      ∃ e ∈ (fillNext size fronts ranked []).2,
        o.AtLeast (objectiveAt population o e) (objectiveAt population o p) := by
    intro o p hp
    obtain ⟨front, rest, rfl, e, he, hatLeast⟩ := hranking.exists_first o hp
    obtain ⟨b, hb, hend, hbest⟩ := exists_best_end ranked (List.ne_nil_of_mem he) o
    have hflat : ∀ q ∈ front, q < population.length := fun q hq ↦
      List.mem_range.mp (hranking.once.mem_iff.mp (by simp [hq]))
    have hnodup : front.Nodup := by
      have hall := hranking.once.nodup_iff.mpr List.nodup_range
      exact (List.nodup_append'.mp (List.flatten_cons ▸ hall)).1
    have hlt : ∀ q ∈ front, q < ranked.length := fun q hq ↦
      (length_of_map_core hcore).symm ▸ hflat q hq
    refine ⟨b, mem_fillNext_of_end hsize hnodup hlt hb hend, ?_⟩
    have hbe := hbest e he
    rw [objectiveAt_congr hcore, objectiveAt_congr hcore] at hbe
    exact hbe.trans hatLeast
  generalize fillNext size fronts ranked [] = result at hfilled hlength hbest ⊢
  obtain ⟨crowded, next⟩ := result
  have hcrowded : crowded.map core = population.map core := hfilled.core.trans hcore
  have hperm : next.Subperm (List.range population.length) :=
    hfilled.subperm.trans hranking.once.subperm
  have hnodup : next.Nodup := by
    obtain ⟨l, hl, hsub⟩ := hperm
    exact hl.nodup_iff.mp (List.nodup_range.sublist hsub)
  have hlt : ∀ p ∈ next, p < crowded.length := fun p hp ↦ by
    rw [length_of_map_core hcrowded]
    exact List.mem_range.mp (hperm.subset hp)
  have hkept : ∀ o : Objective, ∀ a ∈ population, ∃ b ∈ next.filterMap fun p ↦ crowded[p]?,
      o.AtLeast (b.objectives.get o) (a.objectives.get o) := by
    intro o a ha
    obtain ⟨p, hp⟩ := List.mem_iff_getElem?.mp ha
    obtain ⟨e, he, hatLeast⟩ := hbest o p (List.getElem?_eq_some_iff.mp hp).1
    have hget := List.getElem?_eq_getElem (hlt e he)
    refine ⟨_, List.mem_filterMap.mpr ⟨e, he, hget⟩, ?_⟩
    rw [← objectiveAt_congr hcrowded, objectiveAt_of_getElem? hget,
      objectiveAt_of_getElem? hp] at hatLeast
    exact hatLeast
  refine ⟨?_, (List.length_filterMap_le _ _).trans hlength, ?_, ?_, hkept⟩
  · obtain ⟨a, rest, rfl⟩ := List.exists_cons_of_ne_nil hnonempty
    obtain ⟨b, hb, -⟩ := hkept .tokenCost a List.mem_cons_self
    exact List.ne_nil_of_mem hb
  · refine List.pairwise_filterMap.mpr (hnodup.imp fun hpq a ha b hb ↦ ?_)
    obtain ⟨a', ha', hcorea⟩ := getElem?_map_core hcrowded ha
    obtain ⟨b', hb', hcoreb⟩ := getElem?_map_core hcrowded hb
    rw [← (Prod.mk.inj hcorea).1, ← (Prod.mk.inj hcoreb).1]
    exact hdistinct.of_ne hpq ha' hb'
  · intro individual hmem
    obtain ⟨p, -, hp⟩ := List.mem_filterMap.mp hmem
    obtain ⟨individual', hindividual', hcore'⟩ := getElem?_map_core hcrowded hp
    exact hcore' ▸ List.mem_map_of_mem (List.mem_of_getElem? hindividual')

end

section

variable [LinearOrder T] [Field K] [LinearOrder K] [IsStrictOrderedRing K] [FloorRing K]
  {surrogate : List K → ObjectiveVector K} {fixture : FixtureBenchmark T K}
  {config : NsgaIIConfig K}

/-- What one generation makes of a population. -/
structure NextGeneration (surrogate : List K → ObjectiveVector K) (fixture : FixtureBenchmark T K)
    (config : NsgaIIConfig K) (population next : List (Individual T K)) : Prop where
  nonempty : next ≠ []
  size : next.length ≤ config.populationSize
  distinct : DistinctPlans next
  feasible : AllFeasible surrogate fixture next
  kept : NeverWorse population next

theorem ValidFixture.nextGeneration (h : ValidFixture fixture) (hsize : 8 ≤ config.populationSize)
    {population : List (Individual T K)} (hnonempty : population ≠ [])
    (hfeasible : AllFeasible surrogate fixture population) :
    Produces InUnit (Quality.nextGeneration surrogate fixture config population)
      (NextGeneration surrogate fixture config population) := by
  obtain ⟨-, crowded, parentFronts, hcrowd, hcore, -⟩ := exists_rankAndCrowd population
  have hcrowded : AllFeasible surrogate fixture crowded := hfeasible.congr hcore
  have hsome : crowded ≠ [] := by
    rw [← List.length_pos_iff, length_of_map_core hcore]
    exact List.length_pos_of_ne_nil hnonempty
  rw [Quality.nextGeneration]
  refine (produces_lift hcrowd).bind ?_
  rintro _ rfl
  refine (h.buildOffspring hsome hcrowded (Nat.le_add_left _ _)
    (List.forall_mem_nil _)).bind
    fun offspring hoffspring ↦ ?_
  have hall : AllFeasible surrogate fixture (crowded ++ offspring) := fun individual hmem ↦
    (List.mem_append.mp hmem).elim (hcrowded individual) (hoffspring individual)
  have hdeduped := deduped_dedupePopulation (crowded ++ offspring)
  have hmerged : AllFeasible surrogate fixture (dedupePopulation (crowded ++ offspring)) :=
    fun individual hmem ↦ hall individual (hdeduped.sub individual hmem)
  -- a member that was dropped has the plan of one that was kept
  have hcovers : NeverWorse population (dedupePopulation (crowded ++ offspring)) := by
    intro o a ha
    obtain ⟨a', ha', haa'⟩ := List.mem_map.mp (hcore ▸ List.mem_map_of_mem ha)
    have hmem : a' ∈ crowded ++ offspring := List.mem_append_left _ ha'
    obtain ⟨seen, hseen, hsame⟩ := hdeduped.covers a' hmem
    refine ⟨seen, hseen, ?_⟩
    rw [← (Prod.mk.inj haa').2, (hmerged seen hseen).evaluated, (hall a' hmem).evaluated,
      evaluatePlan_congr hsame]
    exact o.atLeast_refl _
  generalize dedupePopulation (crowded ++ offspring) = merged at hdeduped hmerged hcovers
  have hmergedSome : merged ≠ [] := by
    obtain ⟨a, rest, rfl⟩ := List.exists_cons_of_ne_nil hnonempty
    obtain ⟨b, hb, -⟩ := hcovers .tokenCost a List.mem_cons_self
    exact List.ne_nil_of_mem hb
  obtain ⟨ranked, fronts, hsort, hranked, hranking⟩ := exists_sortIntoFronts merged
  have hselected := selected_fillNext hsize hmergedSome hdeduped.distinct hranked hranking
  refine (produces_lift hsort).bind ?_
  rintro _ rfl
  refine produces_pure ⟨hselected.nonempty, hselected.size, hselected.distinct, ?_, ?_⟩
  · intro individual hmem
    obtain ⟨a, ha, hcorea⟩ := List.mem_map.mp (hselected.sub individual hmem)
    obtain ⟨hplan, hobjectives⟩ := Prod.mk.inj hcorea
    exact ⟨hobjectives ▸ hplan ▸ (hmerged a ha).evaluated, hplan ▸ (hmerged a ha).genes⟩
  · intro o a ha
    obtain ⟨b, hb, hba⟩ := hcovers o a ha
    obtain ⟨c, hc, hcb⟩ := hselected.kept o b hb
    exact ⟨c, hc, hcb.trans hba⟩

/-- What holds of the population before and after every generation. -/
structure Running (surrogate : List K → ObjectiveVector K) (fixture : FixtureBenchmark T K)
    (population : List (Individual T K)) : Prop where
  nonempty : population ≠ []
  feasible : AllFeasible surrogate fixture population
  baseline : NeverWorse [newIndividual surrogate fixture fixture.currentQuota] population

theorem ValidFixture.populationAfter (h : ValidFixture fixture)
    (hsize : 8 ≤ config.populationSize) (generation : ℕ) :
    Produces InUnit (Quality.populationAfter surrogate fixture config generation)
      (Running surrogate fixture) := by
  induction generation with
  | zero =>
      refine h.initialPopulation.imp fun population ⟨hfeasible, _, hbaseline⟩ ↦ ?_
      refine ⟨List.ne_nil_of_mem hbaseline, hfeasible, fun o a ha ↦ ?_⟩
      obtain rfl := List.mem_singleton.mp ha
      exact ⟨_, hbaseline, o.atLeast_refl _⟩
  | succ generation ih =>
      refine ih.bind fun population hrunning ↦
        (h.nextGeneration hsize hrunning.nonempty hrunning.feasible).imp fun next hnext ↦ ?_
      refine ⟨hnext.nonempty, hnext.feasible, fun o a ha ↦ ?_⟩
      obtain ⟨b, hb, hba⟩ := hrunning.baseline o a ha
      obtain ⟨c, hc, hcb⟩ := hnext.kept o b hb
      exact ⟨c, hc, hcb.trans hba⟩

/-! ## The published front -/

variable {localeCompare : Plan T K → Plan T K → ℤ}

omit [LinearOrder T] [IsStrictOrderedRing K] [FloorRing K] in
theorem selectRecommendedPlan_meets {front : List (ParetoIndividual T K)}
    {plan : ParetoIndividual T K}
    (h : (selectRecommendedPlan fixture localeCompare front).1 = some plan) :
    fixture.bestKnownKillRate * killRateFloor ≤ plan.objectives.mutationKillRate ∧
      plan.objectives.tokenCost ≤ fixture.currentTokenCost * costCeiling := by
  rw [selectRecommendedPlan] at h
  dsimp only at h
  split_ifs at h
  have hmem := mem_sortBy.mp (List.mem_of_mem_head? h)
  rw [List.mem_filter, List.mem_filter, decide_eq_true_iff, decide_eq_true_iff] at hmem
  exact ⟨hmem.1.2, hmem.2⟩

omit [IsStrictOrderedRing K] in
theorem exists_publishFront {population : List (Individual T K)}
    (hrunning : Running surrogate fixture population) : ∃ result,
      publishFront fixture config localeCompare population = .ok result ∧
        (∀ o : Objective, ∃ member ∈ result.paretoFront, o.AtLeast (member.objectives.get o)
          ((evaluatePlan surrogate fixture.currentQuota fixture).get o)) ∧
        ∀ plan, result.recommendedPlan = some plan →
          fixture.bestKnownKillRate * killRateFloor ≤ plan.objectives.mutationKillRate ∧
            plan.objectives.tokenCost ≤ fixture.currentTokenCost * costCeiling := by
  obtain ⟨ranked, crowded, fronts, hcrowd, hcore, hranking⟩ := exists_rankAndCrowd population
  refine ⟨_, by rw [publishFront, hcrowd]; rfl, fun o ↦ ?_, fun plan hplan ↦ ?_⟩
  · obtain ⟨a, ha, hbaseline⟩ := hrunning.baseline o _ (List.mem_singleton_self _)
    obtain ⟨p, hp⟩ := List.mem_iff_getElem?.mp ha
    obtain ⟨front, rest, rfl, e, he, hatLeast⟩ :=
      hranking.exists_first o (List.getElem?_eq_some_iff.mp hp).1
    have hlt : e < crowded.length := by
      rw [length_of_map_core hcore]
      exact List.mem_range.mp (hranking.once.mem_iff.mp (by simp [he]))
    have hget := List.getElem?_eq_getElem hlt
    refine ⟨publish crowded[e], mem_sortBy.mpr (List.mem_map_of_mem ?_), ?_⟩
    · exact List.mem_filterMap.mpr ⟨e, he, hget⟩
    · rw [← objectiveAt_congr hcore, objectiveAt_of_getElem? hget,
        objectiveAt_of_getElem? hp] at hatLeast
      exact hatLeast.trans hbaseline
  · exact selectRecommendedPlan_meets hplan

omit [LinearOrder T] [IsStrictOrderedRing K] [FloorRing K] in
theorem populationSize_of_assert
    (h : assertNsgaIIConfig config = (.ok () : Except (OptimizerError T) Unit)) :
    8 ≤ config.populationSize := by
  rw [assertNsgaIIConfig] at h
  obtain ⟨⟨⟩, hsize, -⟩ := bind_eq_ok h
  have hchecks := requires_eq_ok.mp hsize
  simp only [Bool.and_eq_true, decide_eq_true_iff] at hchecks
  exact hchecks.1.2

/-- Every generation keeps the population feasible, distinct and within its size, and loses
no best value; so the published front is nowhere worse than the current plan. -/
theorem optimizeFixture_elitist (fixture : FixtureBenchmark T K) (config : NsgaIIConfig K)
    (surrogate : List K → ObjectiveVector K) (localeCompare : Plan T K → Plan T K → ℤ)
    {rng : Stream' K} (hfixture : assertFixtureBenchmark fixture = .ok ())
    (hconfig : assertNsgaIIConfig config = (.ok () : Except (OptimizerError T) Unit))
    (hbaseline : assertBaselineWindow fixture = .ok ()) (hrng : ∀ n, InUnit (rng.get n)) :
    (∀ generation, ∃ population rest,
      populationAfter surrogate fixture config generation rng = .ok (population, rest) ∧
        ∃ next rest',
          populationAfter surrogate fixture config (generation + 1) rng = .ok (next, rest') ∧
            NextGeneration surrogate fixture config population next) ∧
      ∃ result, optimizeFixture surrogate fixture config localeCompare rng = .ok result ∧
        (∀ o : Objective, ∃ member ∈ result.paretoFront, o.AtLeast (member.objectives.get o)
          ((evaluatePlan surrogate fixture.currentQuota fixture).get o)) ∧
        ∀ plan, result.recommendedPlan = some plan →
          fixture.bestKnownKillRate * killRateFloor ≤ plan.objectives.mutationKillRate ∧
            plan.objectives.tokenCost ≤ fixture.currentTokenCost * costCeiling := by
  have hvalid := validFixture_of_checks hfixture hbaseline
  have hsize := populationSize_of_assert hconfig
  constructor
  · intro generation
    obtain ⟨population, rest, hrun, hrest, hrunning⟩ :=
      hvalid.populationAfter hsize generation rng hrng
    obtain ⟨next, rest', hnext, -, hgeneration⟩ :=
      hvalid.nextGeneration hsize hrunning.nonempty hrunning.feasible rest hrest
    refine ⟨population, rest, hrun, next, rest', ?_, hgeneration⟩
    change (populationAfter surrogate fixture config generation rng).bind _ = _
    rw [hrun]
    exact hnext
  · obtain ⟨population, rest, hrun, -, hrunning⟩ :=
      hvalid.populationAfter hsize config.generations rng hrng
    obtain ⟨result, hpublish, hfront, hplan⟩ := exists_publishFront hrunning
    refine ⟨result, ?_, hfront, hplan⟩
    rw [optimizeFixture, hfixture, hconfig, hbaseline, hrun]
    exact hpublish

/-! ## A fixture of two techniques -/

def sampleCoefficients : TechniqueCoefficients ℚ where
  killRateSaturation := 4
  killRateCoefficient := 1
  coverageCoefficient := 1
  tokensPerUnit := 100
  latencyMsPerUnit := 20
  minQuota := 0
  maxQuota := 6

def sampleFixture : FixtureBenchmark ℕ ℚ where
  fixtureId := js "loan-application"
  techniques := [0, 1]
  perTechnique := [(0, sampleCoefficients), (1, sampleCoefficients)]
  bestKnownKillRate := 1 / 2
  currentTokenCost := 900
  currentLatencyMs := 180
  currentQuota := [(0, 5), (1, 4)]

/-- Both rates grow with the first quota, the costs with the sum. -/
def sampleSurrogate (quotas : List ℚ) : ObjectiveVector ℚ :=
  ⟨quotas.headD 0 / 6, quotas.headD 0 / 6, 100 * quotas.sum, 20 * quotas.sum⟩

theorem optimizeFixture_elitist_sample :
    ∃ result, optimizeFixture sampleSurrogate sampleFixture defaultNsgaIIConfig (fun _ _ ↦ 0)
      (createRng 0x21312131) = .ok result ∧ ∀ o : Objective, ∃ member ∈ result.paretoFront,
        o.AtLeast (member.objectives.get o)
          ((evaluatePlan sampleSurrogate sampleFixture.currentQuota sampleFixture).get o) := by
  obtain ⟨-, result, hrun, hfront, -⟩ := optimizeFixture_elitist sampleFixture
    defaultNsgaIIConfig sampleSurrogate (fun _ _ ↦ 0) (by decide +kernel) (by decide +kernel)
    (by decide) (inUnit_createRng 0x21312131)
  exact ⟨result, hrun, hfront⟩

end

end TestIntelligence.Quality
