import Mathlib.Data.List.Range
import Mathlib.Logic.Function.Basic
import Mathlib.Order.WithBot
import TestIntelligence.Orders.Layers

/-!
# Pareto fronts of a population

Fast non-dominated sorting: every individual counts the individuals that dominate it and
lists those it dominates.  The individuals with no dominator are the first front; a front
is discharged by lowering the counts of all that its members dominate, and the individuals
whose count reaches zero are the next front.
-/

namespace TestIntelligence.Quality

open Orders

/-! ## Objectives -/

inductive Objective
  | mutationKillRate
  | techniqueCoverage
  | tokenCost
  | latencyMs
  deriving DecidableEq

inductive Direction
  | maximize
  | minimize

/-- `COVERAGE_PLAN_OPTIMIZER_OBJECTIVES` -/
def objectives : List Objective :=
  [.mutationKillRate, .techniqueCoverage, .tokenCost, .latencyMs]

/-- `COVERAGE_PLAN_OPTIMIZER_OBJECTIVE_DIRECTIONS` -/
def Objective.direction : Objective → Direction
  | .mutationKillRate => .maximize
  | .techniqueCoverage => .maximize
  | .tokenCost => .minimize
  | .latencyMs => .minimize

structure ObjectiveVector (K : Type*) where
  mutationKillRate : K
  techniqueCoverage : K
  tokenCost : K
  latencyMs : K

structure MutableIndividual (P K : Type*) where
  plan : P
  objectives : ObjectiveVector K
  rank : ℕ
  crowdingDistance : WithTop K

variable {P K : Type*}

def ObjectiveVector.get (v : ObjectiveVector K) : Objective → K
  | .mutationKillRate => v.mutationKillRate
  | .techniqueCoverage => v.techniqueCoverage
  | .tokenCost => v.tokenCost
  | .latencyMs => v.latencyMs

theorem mem_objectives (objective : Objective) : objective ∈ objectives := by
  cases objective <;> simp [objectives]

section

variable [LinearOrder K]

/-- The loop of `dominates` over the objectives that are left. -/
def dominatesFrom (a b : ObjectiveVector K) : List Objective → Bool → Bool
  | [], strictlyBetter => strictlyBetter
  | objective :: rest, strictlyBetter =>
      let av := a.get objective
      let bv := b.get objective
      match objective.direction with
      | .maximize =>
          if av < bv then false
          else dominatesFrom a b rest (if av > bv then true else strictlyBetter)
      | .minimize =>
          if av > bv then false
          else dominatesFrom a b rest (if av < bv then true else strictlyBetter)

def dominates (a b : ObjectiveVector K) : Bool := dominatesFrom a b objectives false

/-- The first value is at least as good as the second. -/
def Objective.AtLeast (objective : Objective) (x y : K) : Prop :=
  match objective.direction with
  | .maximize => y ≤ x
  | .minimize => x ≤ y

theorem Objective.atLeast_refl (objective : Objective) (x : K) : objective.AtLeast x x := by
  cases objective <;> exact le_refl x

theorem Objective.AtLeast.trans {objective : Objective} {x y z : K}
    (h : objective.AtLeast x y) (h' : objective.AtLeast y z) : objective.AtLeast x z := by
  cases objective
  case mutationKillRate => exact le_trans (α := K) h' h
  case techniqueCoverage => exact le_trans (α := K) h' h
  case tokenCost => exact le_trans (α := K) h h'
  case latencyMs => exact le_trans (α := K) h h'

theorem dominatesFrom_iff (a b : ObjectiveVector K) (rest : List Objective) (better : Bool) :
    dominatesFrom a b rest better = true ↔
      (∀ o ∈ rest, o.AtLeast (a.get o) (b.get o)) ∧
        (better = true ∨ ∃ o ∈ rest, ¬ o.AtLeast (b.get o) (a.get o)) := by
  induction rest generalizing better with
  | nil => simp [dominatesFrom]
  | cons o rest ih =>
      rw [List.forall_mem_cons, List.exists_mem_cons_iff, dominatesFrom]
      cases hdirection : o.direction with
      | maximize =>
          have hat : ∀ x y : K, o.AtLeast x y ↔ y ≤ x := by simp [Objective.AtLeast, hdirection]
          simp only [hat]
          split_ifs with hworse hbetter
          · simp [hworse.not_ge]
          · simp [ih, hbetter.le, hbetter]
          · simp [ih, not_lt.mp hworse, not_lt.mp hbetter]
      | minimize =>
          have hat : ∀ x y : K, o.AtLeast x y ↔ x ≤ y := by simp [Objective.AtLeast, hdirection]
          simp only [hat]
          split_ifs with hworse hbetter
          · simp [hworse.not_ge]
          · simp [ih, hbetter.le, hbetter]
          · simp [ih, not_lt.mp hworse, not_lt.mp hbetter]

theorem dominates_iff {a b : ObjectiveVector K} :
    dominates a b = true ↔ (∀ o : Objective, o.AtLeast (a.get o) (b.get o)) ∧
      ∃ o : Objective, ¬ o.AtLeast (b.get o) (a.get o) := by
  simp [dominates, dominatesFrom_iff, mem_objectives]

theorem dominates_self (a : ObjectiveVector K) : dominates a a = false := by
  rw [Bool.eq_false_iff]
  intro h
  obtain ⟨-, o, ho⟩ := dominates_iff.mp h
  exact ho (o.atLeast_refl _)

theorem dominates_trans {a b c : ObjectiveVector K} (hab : dominates a b = true)
    (hbc : dominates b c = true) : dominates a c = true := by
  obtain ⟨hab, -⟩ := dominates_iff.mp hab
  obtain ⟨hbc, o, ho⟩ := dominates_iff.mp hbc
  refine dominates_iff.mpr ⟨fun o ↦ (hab o).trans (hbc o), o, fun hca ↦ ?_⟩
  exact ho (hca.trans (hab o))

/-! ## The sort -/

/-- Dominance between two members of the population, by their positions. -/
def dominatesAt (population : List (MutableIndividual P K)) (p q : ℕ) : Bool :=
  match population[p]?, population[q]? with
  | some a, some b => dominates a.objectives b.objectives
  | _, _ => false

/-- `dominatedBy[p]` and `dominationCount[p]` after the comparisons with all `q`. -/
def compareWithAll (population : List (MutableIndividual P K)) (p : ℕ) : List ℕ × ℤ :=
  (List.range population.length).foldl
    (fun row q ↦
      if p = q then row
      else if dominatesAt population p q then (row.1 ++ [q], row.2)
      else if dominatesAt population q p then (row.1, row.2 + 1)
      else row)
    ([], 0)

/-- The arrays of the sort, and the `rank` fields of the population. -/
structure SortState where
  dominationCount : ℕ → ℤ
  dominatedBy : ℕ → List ℕ
  rank : ℕ → ℕ

/-- The body of the loop that fills the first front. -/
def placeFirst (population : List (MutableIndividual P K)) (acc : SortState × List ℕ) (p : ℕ) :
    SortState × List ℕ :=
  let row := compareWithAll population p
  let s : SortState := ⟨Function.update acc.1.dominationCount p row.2,
    Function.update acc.1.dominatedBy p row.1, acc.1.rank⟩
  if s.dominationCount p = 0 then
    (⟨s.dominationCount, s.dominatedBy, Function.update s.rank p 0⟩, acc.2 ++ [p])
  else (s, acc.2)

end

/-- One `q` of `dominatedBy[p]`, with the next front so far. -/
def discharge (frontIndex : ℕ) (acc : SortState × List ℕ) (q : ℕ) : SortState × List ℕ :=
  let s : SortState := ⟨Function.update acc.1.dominationCount q (acc.1.dominationCount q - 1),
    acc.1.dominatedBy, acc.1.rank⟩
  if s.dominationCount q = 0 then
    (⟨s.dominationCount, s.dominatedBy, Function.update s.rank q (frontIndex + 1)⟩, acc.2 ++ [q])
  else (s, acc.2)

def dischargeFront (frontIndex : ℕ) (front : List ℕ) (s : SortState) : SortState × List ℕ :=
  front.foldl (fun acc p ↦ (acc.1.dominatedBy p).foldl (discharge frontIndex) acc) (s, [])

/-- The `while` loop, with a bound on its rounds: the fronts from this one on. -/
def peelFronts : ℕ → ℕ → List ℕ → SortState → Option (SortState × List (List ℕ))
  | 0, _, _, _ => none
  | fuel + 1, frontIndex, front, s =>
      if front.length > 0 then do
        let (s', nextFront) := dischargeFront frontIndex front s
        let (s'', fronts) ← peelFronts fuel (frontIndex + 1) nextFront s'
        return (s'', front :: fronts)
      else some (s, [front])

def ranksOf (population : List (MutableIndividual P K)) (p : ℕ) : ℕ :=
  (population[p]?.map MutableIndividual.rank).getD 0

def setRanks (population : List (MutableIndividual P K)) (rank : ℕ → ℕ) :
    List (MutableIndividual P K) :=
  population.mapIdx fun p individual ↦ { individual with rank := rank p }

/-- The population with its new ranks, and the fronts by position. -/
def nonDominatedSort [LinearOrder K] (population : List (MutableIndividual P K)) :
    Option (List (MutableIndividual P K) × List (List ℕ)) :=
  let n := population.length
  let (s, first) := (List.range n).foldl (placeFirst population)
    (⟨fun _ ↦ 0, fun _ ↦ [], ranksOf population⟩, [])
  (peelFronts (n + 1) 0 first s).map fun (s', fronts) ↦
    (setRanks population s'.rank, fronts.filter fun front ↦ front.length > 0)

end TestIntelligence.Quality
