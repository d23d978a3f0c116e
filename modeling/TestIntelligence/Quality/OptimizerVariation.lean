import Mathlib.Tactic.Linarith
import Mathlib.Tactic.FieldSimp
import TestIntelligence.Js.Outcome
import TestIntelligence.Quality.CoveragePlanOptimizer

/-!
# The plans of the optimizer stay feasible

Every plan that the optimizer builds gives each technique of the fixture an integer in its
window, whatever the random numbers are, and no step reads a gene that is not there.
-/

namespace TestIntelligence.Quality

open Js Systems

variable {T K : Type} [LinearOrder T] [Field K] [LinearOrder K] [IsStrictOrderedRing K]
  [FloorRing K]

/-! ## What the validation accepts -/

omit [LinearOrder T] in
theorem requires_eq_ok {passes : Bool} {error : OptimizerError T} :
    requires passes error = .ok () ↔ passes = true := by
  cases passes <;> simp [requires]

theorem isNonNegativeSafeInteger_iff {x : K} : isNonNegativeSafeInteger x = true ↔
    ∃ n : ℤ, x = n ∧ 0 ≤ n ∧ n ≤ 2 ^ 53 - 1 := by
  simp only [isNonNegativeSafeInteger, Bool.and_eq_true, decide_eq_true_iff]
  constructor
  · rintro ⟨⟨hfloor, hnonneg⟩, hle⟩
    exact ⟨⌊x⌋, hfloor.symm, hnonneg, hle⟩
  · rintro ⟨n, rfl, hnonneg, hle⟩
    rw [Int.floor_intCast]
    exact ⟨⟨rfl, hnonneg⟩, hle⟩

/-- The windows and the baseline of a fixture that passed the checks. -/
structure ValidFixture (fixture : FixtureBenchmark T K) : Prop where
  window : ∀ technique ∈ fixture.techniques, ∃ coeffs,
    mapGet fixture.perTechnique technique = some coeffs ∧
      ∃ low high : ℤ, coeffs.minQuota = low ∧ coeffs.maxQuota = high ∧ low ≤ high
  baseline : ∀ technique ∈ fixture.techniques, ∃ coeffs,
    mapGet fixture.perTechnique technique = some coeffs ∧ ∃ value : ℤ,
      mapGet fixture.currentQuota technique = some (value : K) ∧
        coeffs.minQuota ≤ value ∧ (value : K) ≤ coeffs.maxQuota

omit [LinearOrder T] in
theorem window_of_coefficients {fixtureId : JsString} {technique : T}
    {coeffs : TechniqueCoefficients K}
    (h : assertTechniqueCoefficients fixtureId technique coeffs = .ok ()) :
    ∃ low high : ℤ, coeffs.minQuota = low ∧ coeffs.maxQuota = high ∧ low ≤ high := by
  rw [assertTechniqueCoefficients] at h
  obtain ⟨-, -, h⟩ := bind_eq_ok h
  obtain ⟨-, -, h⟩ := bind_eq_ok h
  obtain ⟨⟨⟩, hlow, h⟩ := bind_eq_ok h
  obtain ⟨⟨⟩, hhigh, h⟩ := bind_eq_ok h
  obtain ⟨low, hmin, -⟩ := isNonNegativeSafeInteger_iff.mp (requires_eq_ok.mp hlow)
  obtain ⟨high, hmax, -⟩ := isNonNegativeSafeInteger_iff.mp (requires_eq_ok.mp hhigh)
  refine ⟨low, high, hmin, hmax, ?_⟩
  have hle := requires_eq_ok.mp h
  rw [hmin, hmax] at hle
  simpa using hle

theorem checked_of_assertTechniques {fixture : FixtureBenchmark T K} {seen rest : List T}
    (h : assertTechniques fixture seen rest = .ok ()) : ∀ technique ∈ rest, ∃ coeffs,
      mapGet fixture.perTechnique technique = some coeffs ∧
        (∃ low high : ℤ, coeffs.minQuota = low ∧ coeffs.maxQuota = high ∧ low ≤ high) ∧
          ∃ value : ℤ, mapGet fixture.currentQuota technique = some (value : K) := by
  induction rest generalizing seen with
  | nil => simp
  | cons technique rest ih =>
      rw [assertTechniques] at h
      obtain ⟨-, -, h⟩ := bind_eq_ok h
      cases hcoeffs : mapGet fixture.perTechnique technique with
      | none =>
          rw [hcoeffs] at h
          cases h
      | some coeffs =>
          rw [hcoeffs] at h
          obtain ⟨⟨⟩, hcoefficients, h⟩ := bind_eq_ok h
          obtain ⟨⟨⟩, hquota, h⟩ := bind_eq_ok h
          refine List.forall_mem_cons.mpr ⟨?_, ih h⟩
          refine ⟨coeffs, hcoeffs, window_of_coefficients hcoefficients, ?_⟩
          have hinteger := requires_eq_ok.mp hquota
          cases hvalue : mapGet fixture.currentQuota technique with
          | none =>
              rw [hvalue] at hinteger
              cases hinteger
          | some value =>
              rw [hvalue] at hinteger
              obtain ⟨n, rfl, -⟩ := isNonNegativeSafeInteger_iff.mp hinteger
              exact ⟨n, rfl⟩

theorem validFixture_of_checks {fixture : FixtureBenchmark T K}
    (hfixture : assertFixtureBenchmark fixture = .ok ())
    (hbaseline : assertBaselineWindow fixture = .ok ()) : ValidFixture fixture := by
  rw [assertFixtureBenchmark] at hfixture
  obtain ⟨-, -, hfixture⟩ := bind_eq_ok hfixture
  obtain ⟨-, -, hfixture⟩ := bind_eq_ok hfixture
  obtain ⟨⟨⟩, htechniques, -⟩ := bind_eq_ok hfixture
  have hchecked := checked_of_assertTechniques htechniques
  constructor
  · intro technique htechnique
    obtain ⟨coeffs, hcoeffs, hwindow, -⟩ := hchecked technique htechnique
    exact ⟨coeffs, hcoeffs, hwindow⟩
  · intro technique htechnique
    obtain ⟨coeffs, hcoeffs, -, value, hvalue⟩ := hchecked technique htechnique
    have hinside := forall_of_forM_eq_ok hbaseline technique htechnique
    rw [coefficientsOf, hcoeffs, ok_bind, hvalue] at hinside
    have hbounds := requires_eq_ok.mp hinside
    simp only [Option.getD_some, Bool.not_eq_true', Bool.or_eq_false_iff,
      decide_eq_false_iff_not, not_lt] at hbounds
    exact ⟨coeffs, hcoeffs, value, hvalue, hbounds⟩

/-! ## Genes -/

def InUnit (r : K) : Prop := 0 ≤ r ∧ r < 1

omit [FloorRing K] in
theorem inUnit_createRng (seed : UInt32) (n : ℕ) :
    InUnit ((createRng seed : Stream' K).get n) := by
  change InUnit (((mulberryOutput (mulberryStep^[n + 1] seed)).toNat : K) / 4294967296)
  have hlt := (mulberryOutput (mulberryStep^[n + 1] seed)).toNat_lt
  generalize (mulberryOutput (mulberryStep^[n + 1] seed)).toNat = value at hlt
  constructor
  · positivity
  · rw [div_lt_one (by norm_num)]
    exact_mod_cast hlt

variable (surrogate : List K → ObjectiveVector K) (fixture : FixtureBenchmark T K)

/-- An integer in the window of the technique. -/
def IsGene (technique : T) (value : K) : Prop :=
  ∃ coeffs, mapGet fixture.perTechnique technique = some coeffs ∧ (∃ n : ℤ, value = n) ∧
    coeffs.minQuota ≤ value ∧ value ≤ coeffs.maxQuota

def HasGenes (techniques : List T) (plan : Plan T K) : Prop :=
  ∀ technique ∈ techniques, ∃ value, mapGet plan technique = some value ∧
    IsGene fixture technique value

structure Feasible (individual : Individual T K) : Prop where
  evaluated : individual.objectives = evaluatePlan surrogate individual.plan fixture
  genes : HasGenes fixture fixture.techniques individual.plan

variable {surrogate fixture}

omit [IsStrictOrderedRing K] [FloorRing K] in
theorem HasGenes.mapSet {techniques : List T} {plan : Plan T K}
    (h : HasGenes fixture techniques plan) {technique : T} {value : K}
    (hvalue : IsGene fixture technique value) :
    HasGenes fixture (techniques ++ [technique]) (mapSet plan technique value) := by
  intro t ht
  rw [mapGet_mapSet]
  split_ifs with heq
  · exact ⟨value, rfl, heq ▸ hvalue⟩
  · have hmem : t ∈ techniques := by simpa [heq] using ht
    exact h t hmem

omit [IsStrictOrderedRing K] [FloorRing K] in
theorem ValidFixture.coefficientsOf (h : ValidFixture fixture) {technique : T}
    (htechnique : technique ∈ fixture.techniques) : ∃ coeffs,
      Quality.coefficientsOf fixture technique = .ok coeffs ∧
        mapGet fixture.perTechnique technique = some coeffs ∧
          ∃ low high : ℤ, coeffs.minQuota = low ∧ coeffs.maxQuota = high ∧ low ≤ high := by
  obtain ⟨coeffs, hcoeffs, hwindow⟩ := h.window technique htechnique
  exact ⟨coeffs, by rw [Quality.coefficientsOf, hcoeffs], hcoeffs, hwindow⟩

theorem ValidFixture.clampGene (h : ValidFixture fixture) {technique : T}
    (htechnique : technique ∈ fixture.techniques) (value : K) :
    ∃ gene, Quality.clampGene fixture technique value = .ok gene ∧
      IsGene fixture technique gene := by
  obtain ⟨coeffs, hok, hcoeffs, low, high, hlow, hhigh, hle⟩ := h.coefficientsOf htechnique
  have hle' : (low : K) ≤ high := Int.cast_le.mpr hle
  refine ⟨_, by rw [Quality.clampGene, hok]; rfl, coeffs, hcoeffs, ?_, le_max_left _ _, ?_⟩
  · refine ⟨max low (min high ⌊value + 1 / 2⌋), ?_⟩
    rw [hlow, hhigh, roundNumber, Int.cast_max, Int.cast_min]
  · rw [hlow, hhigh]
    exact max_le hle' (min_le_left _ _)

omit [IsStrictOrderedRing K] [FloorRing K] in
theorem feasible_newIndividual {plan : Plan T K} (h : HasGenes fixture fixture.techniques plan) :
    Feasible surrogate fixture (newIndividual surrogate fixture plan) := ⟨rfl, h⟩

omit [IsStrictOrderedRing K] [FloorRing K] in
theorem ValidFixture.feasible_baseline (h : ValidFixture fixture) :
    Feasible surrogate fixture (newIndividual surrogate fixture fixture.currentQuota) := by
  apply feasible_newIndividual
  intro technique htechnique
  obtain ⟨coeffs, hcoeffs, value, hvalue, hbounds⟩ := h.baseline technique htechnique
  exact ⟨value, hvalue, coeffs, hcoeffs, ⟨value, rfl⟩, hbounds⟩

/-- A random offset stays in the window. -/
theorem isGene_offset {technique : T} {coeffs : TechniqueCoefficients K}
    (hcoeffs : mapGet fixture.perTechnique technique = some coeffs) {low high : ℤ}
    (hlow : coeffs.minQuota = low) (hhigh : coeffs.maxQuota = high) {n : ℤ} (hn : 0 ≤ n)
    (hn' : n ≤ high - low) : IsGene fixture technique (coeffs.minQuota + n) := by
  refine ⟨coeffs, hcoeffs, ⟨low + n, ?_⟩, ?_, ?_⟩
  · rw [hlow, Int.cast_add]
  · exact le_add_of_nonneg_right (Int.cast_nonneg hn)
  · rw [hlow, hhigh, ← Int.cast_add, Int.cast_le]
    omega

theorem floor_mul_mem {r : K} (hr : InUnit r) {n : ℤ} (hn : 0 ≤ n) :
    0 ≤ ⌊r * ((n : K) + 1)⌋ ∧ ⌊r * ((n : K) + 1)⌋ ≤ n := by
  have hpos : (0 : K) < (n : K) + 1 := by
    have : (0 : K) ≤ n := Int.cast_nonneg hn
    linarith
  constructor
  · exact Int.floor_nonneg.mpr (mul_nonneg hr.1 hpos.le)
  · rw [← Int.lt_add_one_iff, Int.floor_lt]
    push_cast
    exact mul_lt_of_lt_one_left hpos hr.2

theorem produces_randomOffset {span : ℤ} (h : 0 ≤ span) :
    Produces InUnit (randomOffset (span : K) : Evolution T K K)
      fun offset ↦ ∃ n : ℤ, offset = n ∧ 0 ≤ n ∧ n ≤ span := by
  rw [randomOffset]
  split_ifs
  · exact produces_pure ⟨0, Int.cast_zero.symm, le_rfl, h⟩
  · exact produces_draw.bind fun r hr ↦ produces_pure ⟨_, rfl, floor_mul_mem hr h⟩

theorem ValidFixture.buildRandomIndividual (h : ValidFixture fixture) :
    Produces InUnit (Quality.buildRandomIndividual surrogate fixture)
      (Feasible surrogate fixture) := by
  rw [Quality.buildRandomIndividual]
  refine Produces.bind (produces_foldlM (I := HasGenes fixture) ?_ nofun) fun plan hplan ↦
    produces_pure (feasible_newIndividual hplan)
  intro before technique htechnique plan hplan
  obtain ⟨coeffs, hok, hcoeffs, low, high, hlow, hhigh, hle⟩ := h.coefficientsOf htechnique
  refine (produces_lift hok).bind ?_
  rintro _ rfl
  have hspan : coeffs.maxQuota - coeffs.minQuota = ((high - low : ℤ) : K) := by
    rw [hlow, hhigh, Int.cast_sub]
  rw [hspan]
  refine (produces_randomOffset (sub_nonneg.mpr hle)).bind ?_
  rintro _ ⟨n, rfl, hn, hn'⟩
  exact produces_pure (hplan.mapSet (isGene_offset hcoeffs hlow hhigh hn hn'))

/-! ## Crossover and mutation -/

theorem produces_randomSwap (doCross : Bool) :
    Produces InUnit (randomSwap doCross : Evolution T K Bool) fun _ ↦ True := by
  rw [randomSwap]
  split_ifs
  · exact produces_draw.bind fun r _ ↦ produces_pure trivial
  · exact produces_pure trivial

theorem HasGenes.geneOf {techniques : List T} {plan : Plan T K}
    (h : HasGenes fixture techniques plan) {technique : T} (htechnique : technique ∈ techniques) :
    ∃ value, Quality.geneOf plan technique = .ok value := by
  obtain ⟨value, hvalue, -⟩ := h technique htechnique
  exact ⟨value, by rw [Quality.geneOf, hvalue]⟩

variable {config : NsgaIIConfig K}

theorem ValidFixture.crossover (h : ValidFixture fixture) {parentA parentB : Individual T K}
    (hA : Feasible surrogate fixture parentA) (hB : Feasible surrogate fixture parentB) :
    Produces InUnit (Quality.crossover surrogate fixture config parentA parentB)
      fun children ↦ Feasible surrogate fixture children.1 ∧
        Feasible surrogate fixture children.2 := by
  rw [Quality.crossover]
  refine produces_draw.bind fun r _ ↦ ?_
  refine Produces.bind (produces_foldlM (I := fun techniques plans ↦
    HasGenes fixture techniques plans.1 ∧ HasGenes fixture techniques plans.2) ?_ ⟨nofun, nofun⟩)
    fun plans hplans ↦ produces_pure
      ⟨feasible_newIndividual hplans.1, feasible_newIndividual hplans.2⟩
  rintro before technique htechnique plans ⟨hfirst, hsecond⟩
  obtain ⟨a, ha⟩ := hA.genes.geneOf htechnique
  obtain ⟨b, hb⟩ := hB.genes.geneOf htechnique
  refine (produces_lift ha).bind ?_
  rintro _ rfl
  refine (produces_lift hb).bind ?_
  rintro _ rfl
  refine (produces_randomSwap _).bind fun swap _ ↦ ?_
  obtain ⟨first, hok, hgene⟩ := h.clampGene htechnique (if swap then b else a)
  obtain ⟨second, hok', hgene'⟩ := h.clampGene htechnique (if swap then a else b)
  refine (produces_lift hok).bind ?_
  rintro _ rfl
  refine (produces_lift hok').bind ?_
  rintro _ rfl
  exact produces_pure ⟨hfirst.mapSet hgene, hsecond.mapSet hgene'⟩

theorem HasGenes.mapSet_of_mem {plan : Plan T K} (h : HasGenes fixture fixture.techniques plan)
    {technique : T} {value : K} (hvalue : IsGene fixture technique value) :
    HasGenes fixture fixture.techniques (Js.mapSet plan technique value) :=
  fun t ht ↦ h.mapSet hvalue t (List.mem_append_left _ ht)

theorem ValidFixture.mutateGene (h : ValidFixture fixture) {acc : Plan T K × Bool}
    (hacc : HasGenes fixture fixture.techniques acc.1) {technique : T}
    (htechnique : technique ∈ fixture.techniques) :
    Produces InUnit (Quality.mutateGene fixture config acc technique)
      fun acc' ↦ HasGenes fixture fixture.techniques acc'.1 := by
  rw [Quality.mutateGene]
  refine produces_draw.bind fun r _ ↦ ?_
  split_ifs with hskip
  · exact produces_pure hacc
  · obtain ⟨coeffs, hok, -⟩ := h.coefficientsOf htechnique
    refine (produces_lift hok).bind ?_
    rintro _ rfl
    dsimp only
    split_ifs with hspan
    · exact produces_pure hacc
    · refine produces_draw.bind fun size _ ↦ produces_draw.bind fun side _ ↦ ?_
      obtain ⟨gene, hok', hgene⟩ := h.clampGene htechnique _
      refine (produces_lift hok').bind ?_
      rintro _ rfl
      exact produces_pure (hacc.mapSet_of_mem hgene)

theorem ValidFixture.mutate (h : ValidFixture fixture) {individual : Individual T K}
    (hfeasible : Feasible surrogate fixture individual) :
    Produces InUnit (Quality.mutate surrogate fixture config individual)
      (Feasible surrogate fixture) := by
  rw [Quality.mutate]
  refine Produces.bind (produces_foldlM
    (I := fun _ acc ↦ HasGenes fixture fixture.techniques acc.1) ?_ hfeasible.genes)
    fun acc hacc ↦ produces_pure ?_
  · intro before technique htechnique acc hacc
    exact h.mutateGene hacc htechnique
  · split_ifs
    · exact feasible_newIndividual hacc
    · exact hfeasible

/-! ## Populations -/

variable (surrogate fixture) in
def AllFeasible (population : List (Individual T K)) : Prop :=
  ∀ individual ∈ population, Feasible surrogate fixture individual

theorem produces_pickRandom {population : List (Individual T K)} (hnonempty : population ≠ []) :
    Produces InUnit (pickRandom population) (· ∈ population) := by
  rw [pickRandom]
  refine produces_draw.bind fun r hr ↦ ?_
  have hlength : (0 : K) < population.length := by
    exact_mod_cast List.length_pos_of_ne_nil hnonempty
  have hlt : (⌊r * population.length⌋).toNat < population.length := by
    have hfloor : ⌊r * (population.length : K)⌋ < (population.length : ℤ) := by
      rw [Int.floor_lt]
      exact_mod_cast mul_lt_of_lt_one_left hlength hr.2
    have hpos := List.length_pos_of_ne_nil hnonempty
    omega
  rw [List.getElem?_eq_getElem hlt]
  exact produces_pure (List.getElem_mem hlt)

theorem produces_binaryTournament {population : List (Individual T K)}
    (hnonempty : population ≠ []) :
    Produces InUnit (binaryTournament population) (· ∈ population) := by
  rw [binaryTournament]
  refine (produces_pickRandom hnonempty).bind fun a ha ↦
    (produces_pickRandom hnonempty).bind fun b hb ↦ produces_pure ?_
  split_ifs
  · exact ha
  · exact hb

theorem ValidFixture.buildOffspring (h : ValidFixture fixture) {population : List (Individual T K)}
    (hnonempty : population ≠ []) (hpopulation : AllFeasible surrogate fixture population)
    {rounds : ℕ} {offspring : List (Individual T K)}
    (hrounds : config.populationSize ≤ offspring.length + rounds)
    (hoffspring : AllFeasible surrogate fixture offspring) :
    Produces InUnit (Quality.buildOffspring surrogate fixture config population rounds offspring)
      (AllFeasible surrogate fixture) := by
  induction rounds generalizing offspring with
  | zero =>
      have hfull : config.populationSize ≤ offspring.length := hrounds
      rw [Quality.buildOffspring, if_neg (not_lt.mpr hfull)]
      exact produces_pure hoffspring
  | succ rounds ih =>
      rw [Quality.buildOffspring]
      split_ifs with hroom
      · refine (produces_binaryTournament hnonempty).bind fun parentA hA ↦
          (produces_binaryTournament hnonempty).bind fun parentB hB ↦
            (h.crossover (hpopulation parentA hA) (hpopulation parentB hB)).bind ?_
        rintro ⟨childA, childB⟩ ⟨hchildA, hchildB⟩
        refine (h.mutate hchildA).bind fun first hfirst ↦ ?_
        have hone : AllFeasible surrogate fixture (offspring ++ [first]) := by
          intro individual hmem
          rcases List.mem_append.mp hmem with hmem | hmem
          · exact hoffspring individual hmem
          · exact List.mem_singleton.mp hmem ▸ hfirst
        dsimp only
        split_ifs with hroom'
        · refine (h.mutate hchildB).bind fun second hsecond ↦ ih ?_ ?_
          · rw [List.length_append, List.length_append, List.length_singleton,
              List.length_singleton]
            omega
          · intro individual hmem
            rcases List.mem_append.mp hmem with hmem | hmem
            · exact hone individual hmem
            · exact List.mem_singleton.mp hmem ▸ hsecond
        · refine ih ?_ hone
          rw [List.length_append, List.length_singleton]
          omega
      · exact produces_pure hoffspring

theorem ValidFixture.initialPopulation (h : ValidFixture fixture) :
    Produces InUnit (Quality.initialPopulation surrogate fixture config) fun population ↦
      AllFeasible surrogate fixture population ∧
        population.length = config.populationSize - 1 + 1 ∧
          newIndividual surrogate fixture fixture.currentQuota ∈ population := by
  rw [Quality.initialPopulation]
  refine (produces_foldlM (I := fun before population ↦
    AllFeasible surrogate fixture population ∧ population.length = before.length + 1 ∧
      newIndividual surrogate fixture fixture.currentQuota ∈ population) ?_ ?_).imp ?_
  · rintro before n - population ⟨hfeasible, hlength, hbaseline⟩
    refine h.buildRandomIndividual.bind fun individual hindividual ↦ produces_pure ?_
    refine ⟨?_, ?_, List.mem_append_left _ hbaseline⟩
    · intro member hmem
      rcases List.mem_append.mp hmem with hmem | hmem
      · exact hfeasible member hmem
      · exact List.mem_singleton.mp hmem ▸ hindividual
    · rw [List.length_append, hlength, List.length_append, List.length_singleton,
        List.length_singleton]
  · refine ⟨?_, rfl, List.mem_singleton_self _⟩
    intro member hmem
    exact List.mem_singleton.mp hmem ▸ h.feasible_baseline
  · rintro population ⟨hfeasible, hlength, hbaseline⟩
    rw [List.length_range] at hlength
    exact ⟨hfeasible, hlength, hbaseline⟩

end TestIntelligence.Quality
