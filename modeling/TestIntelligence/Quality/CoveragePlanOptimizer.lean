import Mathlib.Algebra.Order.Floor.Ring
import Mathlib.Algebra.Order.Ring.Rat
import TestIntelligence.Js.Collections
import TestIntelligence.Js.Sorting
import TestIntelligence.Quality.ParetoFronts
import TestIntelligence.Systems.Draws

/-!
# The coverage-plan optimizer

NSGA-II over the quota plans of one fixture.  Numbers are exact: they are the elements of
an ordered field, with a point at infinity for the crowding distances.  The names of
techniques are the texts that a record keeps as members, in the order of their code units.
-/

namespace TestIntelligence.Quality

open Js Systems

/-! ## Inputs -/

structure TechniqueCoefficients (K : Type) where
  killRateSaturation : K
  killRateCoefficient : K
  coverageCoefficient : K
  tokensPerUnit : K
  latencyMsPerUnit : K
  minQuota : K
  maxQuota : K

/-- The fields that must be finite and not negative. -/
inductive CoefficientKey
  | killRateSaturation
  | killRateCoefficient
  | coverageCoefficient
  | tokensPerUnit
  | latencyMsPerUnit
  deriving DecidableEq

def coefficientKeys : List CoefficientKey :=
  [.killRateSaturation, .killRateCoefficient, .coverageCoefficient, .tokensPerUnit,
    .latencyMsPerUnit]

variable {T K : Type}

def TechniqueCoefficients.get (coeffs : TechniqueCoefficients K) : CoefficientKey → K
  | .killRateSaturation => coeffs.killRateSaturation
  | .killRateCoefficient => coeffs.killRateCoefficient
  | .coverageCoefficient => coeffs.coverageCoefficient
  | .tokensPerUnit => coeffs.tokensPerUnit
  | .latencyMsPerUnit => coeffs.latencyMsPerUnit

/-- `Record<string, number>` -/
abbrev Plan (T K : Type) := List (T × K)

structure FixtureBenchmark (T K : Type) where
  fixtureId : JsString
  techniques : List T
  perTechnique : List (T × TechniqueCoefficients K)
  bestKnownKillRate : K
  currentTokenCost : K
  currentLatencyMs : K
  currentQuota : Plan T K

structure NsgaIIConfig (K : Type) where
  populationSize : ℕ
  generations : ℕ
  crossoverRate : K
  mutationRate : K

/-- What the optimizer throws, by message; the last two stand for a read of `undefined`
and for more rounds than the loop can have. -/
inductive OptimizerError (T : Type)
  | fixtureIdEmpty
  | techniquesEmpty (fixtureId : JsString)
  | techniqueRepeated (fixtureId : JsString) (technique : T)
  | perTechniqueMissing (fixtureId : JsString) (technique : T)
  | coefficientNegative (key : CoefficientKey) (fixtureId : JsString) (technique : T)
  | saturationNotPositive (fixtureId : JsString) (technique : T)
  | minQuotaNotInteger (fixtureId : JsString) (technique : T)
  | maxQuotaNotInteger (fixtureId : JsString) (technique : T)
  | maxQuotaBelowMinQuota (fixtureId : JsString) (technique : T)
  | currentQuotaNotInteger (fixtureId : JsString) (technique : T)
  | bestKnownKillRateOutside (fixtureId : JsString)
  | currentTokenCostNotPositive (fixtureId : JsString)
  | currentLatencyNotPositive (fixtureId : JsString)
  | populationSizeInvalid
  | generationsInvalid
  | crossoverRateInvalid
  | mutationRateInvalid
  | currentQuotaOutside (fixtureId : JsString) (technique : T)
  | undefinedRead
  | roundsExceeded
  deriving DecidableEq

abbrev Individual (T K : Type) := MutableIndividual (Plan T K) K

section

variable [LinearOrder T] [Field K] [LinearOrder K] [FloorRing K]

/-- `DEFAULT_NSGA_II_CONFIG` -/
def defaultNsgaIIConfig : NsgaIIConfig K where
  populationSize := 40
  generations := 60
  crossoverRate := 9 / 10
  mutationRate := 15 / 100

/-! ## Random numbers -/

/-- One call of the Mulberry32 generator: the next state. -/
def mulberryStep (state : UInt32) : UInt32 := state + 0x6d2b79f5

def mulberryOutput (state : UInt32) : UInt32 :=
  let t := (state ^^^ (state >>> 15)) * (state ||| 1)
  let t := t ^^^ (t + (t ^^^ (t >>> 7)) * (t ||| 61))
  t ^^^ (t >>> 14)

/-- The numbers that the generator returns, call by call. -/
def createRng (seed : UInt32) : Stream' K :=
  fun n ↦ ((mulberryOutput (mulberryStep^[n + 1] seed)).toNat : K) / 4294967296

/-! ## Validation -/

def isNonNegativeSafeInteger (x : K) : Bool :=
  decide ((⌊x⌋ : K) = x) && decide (0 ≤ ⌊x⌋) && decide (⌊x⌋ ≤ 2 ^ 53 - 1)

def isProbability (x : K) : Bool := decide (0 ≤ x) && decide (x ≤ 1)

def requires (passes : Bool) (error : OptimizerError T) : Except (OptimizerError T) Unit :=
  if passes then .ok () else .error error

def assertTechniqueCoefficients (fixtureId : JsString) (technique : T)
    (coeffs : TechniqueCoefficients K) : Except (OptimizerError T) Unit := do
  coefficientKeys.forM fun key ↦
    requires (decide (0 ≤ coeffs.get key)) (.coefficientNegative key fixtureId technique)
  requires (decide (0 < coeffs.killRateSaturation)) (.saturationNotPositive fixtureId technique)
  requires (isNonNegativeSafeInteger coeffs.minQuota) (.minQuotaNotInteger fixtureId technique)
  requires (isNonNegativeSafeInteger coeffs.maxQuota) (.maxQuotaNotInteger fixtureId technique)
  requires (!decide (coeffs.maxQuota < coeffs.minQuota))
    (.maxQuotaBelowMinQuota fixtureId technique)

/-- The loop over the techniques, with the names it has seen. -/
def assertTechniques (fixture : FixtureBenchmark T K) :
    List T → List T → Except (OptimizerError T) Unit
  | _, [] => .ok ()
  | seen, technique :: rest => do
      requires (!decide (technique ∈ seen)) (.techniqueRepeated fixture.fixtureId technique)
      match mapGet fixture.perTechnique technique with
      | none => throw (.perTechniqueMissing fixture.fixtureId technique)
      | some coeffs => assertTechniqueCoefficients fixture.fixtureId technique coeffs
      requires ((mapGet fixture.currentQuota technique).any isNonNegativeSafeInteger)
        (.currentQuotaNotInteger fixture.fixtureId technique)
      assertTechniques fixture (seen ++ [technique]) rest

def assertFixtureBenchmark (fixture : FixtureBenchmark T K) : Except (OptimizerError T) Unit := do
  requires (!fixture.fixtureId.isEmpty) .fixtureIdEmpty
  requires (!fixture.techniques.isEmpty) (.techniquesEmpty fixture.fixtureId)
  assertTechniques fixture [] fixture.techniques
  requires (isProbability fixture.bestKnownKillRate) (.bestKnownKillRateOutside fixture.fixtureId)
  requires (decide (0 < fixture.currentTokenCost)) (.currentTokenCostNotPositive fixture.fixtureId)
  requires (decide (0 < fixture.currentLatencyMs)) (.currentLatencyNotPositive fixture.fixtureId)

def assertNsgaIIConfig (config : NsgaIIConfig K) : Except (OptimizerError T) Unit := do
  requires (decide (config.populationSize ≤ 2 ^ 53 - 1) && decide (8 ≤ config.populationSize) &&
    config.populationSize % 2 == 0) .populationSizeInvalid
  requires (decide (config.generations ≤ 2 ^ 53 - 1) && decide (1 ≤ config.generations))
    .generationsInvalid
  requires (isProbability config.crossoverRate) .crossoverRateInvalid
  requires (isProbability config.mutationRate) .mutationRateInvalid

/-- `fixture.perTechnique[technique]!` -/
def coefficientsOf (fixture : FixtureBenchmark T K) (technique : T) :
    Except (OptimizerError T) (TechniqueCoefficients K) :=
  match mapGet fixture.perTechnique technique with
  | none => .error .undefinedRead
  | some coeffs => .ok coeffs

/-- Every gene of the baseline lies in its window. -/
def assertBaselineWindow (fixture : FixtureBenchmark T K) : Except (OptimizerError T) Unit :=
  fixture.techniques.forM fun technique ↦ do
    let coeffs ← coefficientsOf fixture technique
    let value := (mapGet fixture.currentQuota technique).getD 0
    requires (!(decide (value < coeffs.minQuota) || decide (coeffs.maxQuota < value)))
      (.currentQuotaOutside fixture.fixtureId technique)

/-! ## The surrogate model -/

/-- The quota of a technique as the surrogate model reads it. -/
def clampedQuota (fixture : FixtureBenchmark T K) (plan : Plan T K) (technique : T) : K :=
  let raw := (mapGet plan technique).getD 0
  match mapGet fixture.perTechnique technique with
  | none => raw
  | some coeffs => max coeffs.minQuota (min coeffs.maxQuota raw)

/-- `evaluatePlan`, for any function of the clamped quotas. -/
def evaluatePlan (surrogate : List K → ObjectiveVector K) (plan : Plan T K)
    (fixture : FixtureBenchmark T K) : ObjectiveVector K :=
  surrogate (fixture.techniques.map (clampedQuota fixture plan))

/-! ## Variation -/

/-- `Math.round` -/
def roundNumber (x : K) : K := (⌊x + 1 / 2⌋ : K)

abbrev Evolution (T K : Type) := Draws K (OptimizerError T)

variable (surrogate : List K → ObjectiveVector K) (fixture : FixtureBenchmark T K)
  (config : NsgaIIConfig K)

def newIndividual (plan : Plan T K) : Individual T K where
  plan := plan
  objectives := evaluatePlan surrogate plan fixture
  rank := 0
  crowdingDistance := 0

/-- `span === 0 ? 0 : Math.floor(rng() * (span + 1))` -/
def randomOffset (span : K) : Evolution T K K :=
  if span = 0 then pure 0
  else do
    let r ← draw
    return (⌊r * (span + 1)⌋ : K)

def buildRandomIndividual : Evolution T K (Individual T K) := do
  let plan ← fixture.techniques.foldlM (fun plan technique ↦ do
    let coeffs ← (coefficientsOf fixture technique : Except _ _)
    let offset ← randomOffset (coeffs.maxQuota - coeffs.minQuota)
    pure (mapSet plan technique (coeffs.minQuota + offset))) []
  return newIndividual surrogate fixture plan

/-- `crowdedCompare(a, b) <= 0`; the difference of two infinite distances is not a number. -/
def crowdedBefore (a b : Individual T K) : Bool :=
  if a.rank ≠ b.rank then decide (a.rank < b.rank)
  else decide (b.crowdingDistance ≤ a.crowdingDistance) && decide (b.crowdingDistance ≠ ⊤)

def pickRandom (population : List (Individual T K)) : Evolution T K (Individual T K) := do
  let r ← draw
  match population[(⌊r * population.length⌋).toNat]? with
  | none => throw .undefinedRead
  | some individual => return individual

def binaryTournament (population : List (Individual T K)) : Evolution T K (Individual T K) := do
  let a ← pickRandom population
  let b ← pickRandom population
  return if crowdedBefore a b then a else b

def clampGene (technique : T) (value : K) : Except (OptimizerError T) K := do
  let coeffs ← coefficientsOf fixture technique
  return max coeffs.minQuota (min coeffs.maxQuota (roundNumber value))

/-- `parent.plan[technique]!` -/
def geneOf (plan : Plan T K) (technique : T) : Except (OptimizerError T) K :=
  match mapGet plan technique with
  | none => .error .undefinedRead
  | some value => .ok value

/-- `doCross && rng() < 0.5` -/
def randomSwap (doCross : Bool) : Evolution T K Bool :=
  if doCross then do
    let r ← draw
    return decide (r < 1 / 2)
  else pure false

def crossover (parentA parentB : Individual T K) :
    Evolution T K (Individual T K × Individual T K) := do
  let r ← draw
  let doCross := decide (r < config.crossoverRate)
  let (planA, planB) ← fixture.techniques.foldlM (fun plans technique ↦ do
    let a ← (geneOf parentA.plan technique : Except _ _)
    let b ← (geneOf parentB.plan technique : Except _ _)
    let swap ← randomSwap doCross
    let first ← (clampGene fixture technique (if swap then b else a) : Except _ _)
    let second ← (clampGene fixture technique (if swap then a else b) : Except _ _)
    pure (mapSet plans.1 technique first, mapSet plans.2 technique second)) ([], [])
  return (newIndividual surrogate fixture planA, newIndividual surrogate fixture planB)

/-- One technique of `mutate`: the plan so far, and whether it has changed. -/
def mutateGene (acc : Plan T K × Bool) (technique : T) : Evolution T K (Plan T K × Bool) := do
  let r ← draw
  if config.mutationRate ≤ r then return acc
  let coeffs ← (coefficientsOf fixture technique : Except _ _)
  let span := coeffs.maxQuota - coeffs.minQuota
  if span = 0 then return acc
  let size ← draw
  let step : K := max 1 (⌊size * max 1 (⌈span / 4⌉ : K)⌋ : K)
  let side ← draw
  let direction : K := if side < 1 / 2 then -1 else 1
  let value := (mapGet acc.1 technique).getD coeffs.minQuota + direction * step
  let gene ← (clampGene fixture technique value : Except _ _)
  return (mapSet acc.1 technique gene, true)

def mutate (individual : Individual T K) : Evolution T K (Individual T K) := do
  let (mutated, changed) ← fixture.techniques.foldlM (mutateGene fixture config)
    (individual.plan, false)
  return if changed then newIndividual surrogate fixture mutated else individual

/-! ## Selection -/

/-- The texts `canonicalJson` gives two plans are the same. -/
def samePlan (a b : Plan T K) : Bool :=
  (a.map Prod.fst ++ b.map Prod.fst).all fun technique ↦ mapGet a technique = mapGet b technique

def dedupePopulation (population : List (Individual T K)) : List (Individual T K) :=
  population.foldl (fun out individual ↦
    if out.any fun seen ↦ samePlan seen.plan individual.plan then out else out ++ [individual]) []

/-- The comparator `(x, y) => x - y`. -/
def numberCompare {N : Type} [LinearOrder N] (x y : N) : ℤ :=
  if x < y then -1 else if y < x then 1 else 0

def objectiveAt (population : List (Individual T K)) (objective : Objective) (p : ℕ) : K :=
  (population[p]?.map fun individual ↦ individual.objectives.get objective).getD 0

/-- The distances of a front after one more objective. -/
def crowdObjective (population : List (Individual T K)) (front : List ℕ)
    (distance : ℕ → WithTop K) (objective : Objective) : ℕ → WithTop K :=
  let value := objectiveAt population objective
  let sorted := sortBy (fun a b ↦ numberCompare (value a) (value b)) front
  let first := sorted.headD 0
  let last := sorted.getLastD 0
  let range := value last - value first
  let ends := Function.update (Function.update distance first ⊤) last ⊤
  if range = 0 then ends
  else
    (List.range' 1 (sorted.length - 2)).foldl (fun distance i ↦
      let p := sorted.getD i 0
      let previous := value (sorted.getD (i - 1) 0)
      let next := value (sorted.getD (i + 1) 0)
      Function.update distance p (distance p + ((next - previous) / range : K))) ends

def crowdingOf (population : List (Individual T K)) (front : List ℕ) : ℕ → WithTop K :=
  if front.length ≤ 2 then fun _ ↦ ⊤
  else objectives.foldl (crowdObjective population front) fun _ ↦ 0

/-- The population after the distances of one front are set. -/
def assignCrowdingDistance (population : List (Individual T K)) (front : List ℕ) :
    List (Individual T K) :=
  let distance := crowdingOf population front
  population.mapIdx fun p individual ↦
    if p ∈ front then { individual with crowdingDistance := distance p } else individual

def crowdingAt (population : List (Individual T K)) (p : ℕ) : WithTop K :=
  (population[p]?.map MutableIndividual.crowdingDistance).getD 0

/-- The loop that fills the next population with whole fronts and cuts the first one that
does not fit. -/
def fillNext (size : ℕ) : List (List ℕ) → List (Individual T K) → List ℕ →
    List (Individual T K) × List ℕ
  | [], merged, next => (merged, next)
  | front :: fronts, merged, next =>
      let crowded := assignCrowdingDistance merged front
      if next.length + front.length ≤ size then fillNext size fronts crowded (next ++ front)
      else
        let remaining := size - next.length
        let sorted := sortBy
          (fun a b ↦ numberCompare (crowdingAt crowded b) (crowdingAt crowded a)) front
        (crowded, next ++ sorted.take remaining)

def sortIntoFronts (population : List (Individual T K)) :
    Except (OptimizerError T) (List (Individual T K) × List (List ℕ)) :=
  match nonDominatedSort population with
  | none => .error .roundsExceeded
  | some sorted => .ok sorted

def rankAndCrowd (population : List (Individual T K)) :
    Except (OptimizerError T) (List (Individual T K) × List (List ℕ)) := do
  let (ranked, fronts) ← sortIntoFronts population
  return (fronts.foldl assignCrowdingDistance ranked, fronts)

/-! ## Generations -/

/-- The `while` loop, with a bound on its rounds. -/
def buildOffspring (population : List (Individual T K)) :
    ℕ → List (Individual T K) → Evolution T K (List (Individual T K))
  | 0, offspring =>
      if offspring.length < config.populationSize then throw .roundsExceeded else return offspring
  | rounds + 1, offspring => do
      if offspring.length < config.populationSize then
        let parentA ← binaryTournament population
        let parentB ← binaryTournament population
        let (childA, childB) ← crossover surrogate fixture config parentA parentB
        let first ← mutate surrogate fixture config childA
        let offspring := offspring ++ [first]
        if offspring.length < config.populationSize then
          let second ← mutate surrogate fixture config childB
          buildOffspring population rounds (offspring ++ [second])
        else buildOffspring population rounds offspring
      else return offspring

def initialPopulation : Evolution T K (List (Individual T K)) :=
  (List.range (config.populationSize - 1)).foldlM (fun population _ ↦ do
    let individual ← buildRandomIndividual surrogate fixture
    pure (population ++ [individual])) [newIndividual surrogate fixture fixture.currentQuota]

def nextGeneration (population : List (Individual T K)) :
    Evolution T K (List (Individual T K)) := do
  let (ranked, _) ← (rankAndCrowd population : Except _ _)
  let offspring ← buildOffspring surrogate fixture config ranked config.populationSize []
  let (merged, fronts) ← (sortIntoFronts (dedupePopulation (ranked ++ offspring)) : Except _ _)
  let (crowded, next) := fillNext config.populationSize fronts merged []
  return next.filterMap fun p ↦ crowded[p]?

def populationAfter : ℕ → Evolution T K (List (Individual T K))
  | 0 => initialPopulation surrogate fixture config
  | generation + 1 => do
      let population ← populationAfter generation
      nextGeneration surrogate fixture config population

/-! ## The published result -/

structure ParetoIndividual (T K : Type) where
  plan : Plan T K
  objectives : ObjectiveVector K
  rank : ℕ
  crowdingDistance : K

inductive SelectionReason
  | selected
  | noKillRateAboveFloor
  | noCostBelowCeiling
  | emptyFront

structure FixtureOptimizationResult (T K : Type) where
  fixtureId : JsString
  paretoFront : List (ParetoIndividual T K)
  recommendedPlan : Option (ParetoIndividual T K)
  satisfiesAcceptanceCriteria : Bool
  selectionReason : SelectionReason
  generationsRun : ℕ

/-- `round`, to nine decimals -/
def roundDecimals (x : K) : K := roundNumber (x * 10 ^ 9) / 10 ^ 9

def sortKeysAndRound (plan : Plan T K) : Plan T K :=
  (plan.insertionSort fun a b ↦ a.1 ≤ b.1).map fun gene ↦ (gene.1, max 0 (roundNumber gene.2))

def publish (individual : Individual T K) : ParetoIndividual T K where
  plan := sortKeysAndRound individual.plan
  objectives := individual.objectives
  rank := individual.rank
  crowdingDistance := match individual.crowdingDistance with
    | none => 10 ^ 18
    | some distance => roundDecimals distance

/-- Token cost, then kill rate from the highest, then the text of the plan as the
collation orders it. -/
def compareFront (localeCompare : Plan T K → Plan T K → ℤ) (a b : ParetoIndividual T K) : ℤ :=
  let cost := numberCompare a.objectives.tokenCost b.objectives.tokenCost
  let killRate := numberCompare b.objectives.mutationKillRate a.objectives.mutationKillRate
  if cost ≠ 0 then cost else if killRate ≠ 0 then killRate else localeCompare a.plan b.plan

/-- `COVERAGE_PLAN_OPTIMIZER_KILL_RATE_FLOOR` -/
def killRateFloor : K := 95 / 100

/-- `COVERAGE_PLAN_OPTIMIZER_COST_CEILING` -/
def costCeiling : K := 80 / 100

def selectRecommendedPlan (localeCompare : Plan T K → Plan T K → ℤ)
    (front : List (ParetoIndividual T K)) :
    Option (ParetoIndividual T K) × SelectionReason :=
  if front.isEmpty then (none, .emptyFront)
  else
    let killFloor := fixture.bestKnownKillRate * killRateFloor
    let ceiling := fixture.currentTokenCost * costCeiling
    let aboveFloor := front.filter fun individual ↦
      decide (killFloor ≤ individual.objectives.mutationKillRate)
    if aboveFloor.isEmpty then (none, .noKillRateAboveFloor)
    else
      let belowCeiling := aboveFloor.filter fun individual ↦
        decide (individual.objectives.tokenCost ≤ ceiling)
      if belowCeiling.isEmpty then (none, .noCostBelowCeiling)
      else ((sortBy (compareFront localeCompare) belowCeiling).head?, .selected)

def publishFront (localeCompare : Plan T K → Plan T K → ℤ)
    (population : List (Individual T K)) :
    Except (OptimizerError T) (FixtureOptimizationResult T K) := do
  let (crowded, fronts) ← rankAndCrowd population
  let firstFront := (fronts.headD []).filterMap fun p ↦ crowded[p]?
  let sortedFront := sortBy (compareFront localeCompare) (firstFront.map publish)
  let (recommendedPlan, reason) := selectRecommendedPlan fixture localeCompare sortedFront
  return ⟨fixture.fixtureId, sortedFront, recommendedPlan, recommendedPlan.isSome, reason,
    config.generations⟩

def optimizeFixture (localeCompare : Plan T K → Plan T K → ℤ) (rng : Stream' K) :
    Except (OptimizerError T) (FixtureOptimizationResult T K) := do
  assertFixtureBenchmark fixture
  assertNsgaIIConfig config
  assertBaselineWindow fixture
  let (population, _) ← populationAfter surrogate fixture config config.generations rng
  publishFront fixture config localeCompare population

end

end TestIntelligence.Quality
