import Mathlib.Data.List.Find
import TestIntelligence.AgenticHarness.CaseMerger

/-!
# What the loops of the case merger push

Of each pass only the first case of a signature counts.  A case of pass A yields one
outcome, with the first case of its signature in pass B where there is one, and the
cases of pass B whose signature pass A does not have follow.
-/

namespace TestIntelligence.AgenticHarness.CaseMerger

open Js Security Lists

/-! ## Sets of ids -/

@[simp] theorem mem_sortedUnique {values : List JsString} {x : JsString} :
    x ∈ sortedUnique values ↔ x ∈ values := by
  rw [sortedUnique, mem_sortStrings, mem_setOf]

theorem sortedUnique_eq_iff {xs ys : List JsString} :
    sortedUnique xs = sortedUnique ys ↔ ∀ x, x ∈ xs ↔ x ∈ ys := by
  constructor
  · intro heq x
    rw [← mem_sortedUnique, heq, mem_sortedUnique]
  · intro h
    have hnodup : ∀ values : List JsString, (setOf values).Nodup :=
      fun values ↦ nodup_foldl_setAdd List.nodup_nil
    apply sortStrings_eq_of_perm
    rw [List.perm_ext_iff_of_nodup (hnodup xs) (hnodup ys)]
    intro x
    rw [mem_setOf, mem_setOf, h]

theorem sortedUnique_append_self {xs ys : List JsString}
    (h : sortedUnique xs = sortedUnique ys) :
    sortedUnique (sortedUnique (xs ++ ys)) = sortedUnique xs := by
  rw [sortedUnique_eq_iff] at h ⊢
  intro x
  rw [mem_sortedUnique, List.mem_append, h, or_self]

section

variable {R : Type}

/-! ## Signatures -/

theorem enumerated_signatureFields (testCase : GeneratedTestCase R) :
    Enumerated (signatureFields testCase) := by
  have hkeys : (signatureFields testCase).map Prod.fst =
      ["screenId", "technique", "coveredFieldIds", "coveredActionIds"].map js := rfl
  exact enumerated_of_names hkeys (by decide) (by decide)

theorem ordered_signatureFields (testCase : GeneratedTestCase R) :
    ∀ field ∈ signatureFields testCase, ∀ v ∈ field.2, v.Ordered := by
  simp [signatureFields]

/-- Two cases of one signature agree on all that it is taken from. -/
theorem signature_eq_iff {a b : GeneratedTestCase R} :
    buildCaseMergerSignature a = buildCaseMergerSignature b ↔
      deriveCanonicalScreenId a = deriveCanonicalScreenId b ∧ a.technique = b.technique ∧
        sortedUnique a.qualitySignals.coveredFieldIds =
          sortedUnique b.qualitySignals.coveredFieldIds ∧
        sortedUnique a.qualitySignals.coveredActionIds =
          sortedUnique b.qualitySignals.coveredActionIds := by
  constructor
  · intro h
    have hproto : protoKey ∉ [js "screenId", js "technique", js "coveredFieldIds",
      js "coveredActionIds"] := by decide
    have hkeys : (signatureFields a).map Prod.fst = (signatureFields b).map Prod.fst := rfl
    have hfields := fields_eq_of_canonicalJson_eq hkeys (enumerated_signatureFields a) hproto
      (ordered_signatureFields a) (ordered_signatureFields b) h
    have htexts : ∀ xs ys : List JsString, xs.map Json.str = ys.map Json.str ↔ xs = ys :=
      fun xs ys ↦ List.map_inj_right fun _ _ h ↦ Json.str.inj h
    simpa [signatureFields, htexts, -Json.printed_arr, -List.map_map] using hfields
  · rintro ⟨hscreen, htechnique, hfieldIds, hactionIds⟩
    rw [buildCaseMergerSignature, buildCaseMergerSignature, signatureFields, signatureFields,
      hscreen, htechnique, hfieldIds, hactionIds]

/-- The union of two coverages of one signature has that signature. -/
theorem signature_mergePair {decision : ConflictDecision R}
    (h : buildCaseMergerSignature decision.winner.testCase =
      buildCaseMergerSignature decision.loser.testCase) :
    buildCaseMergerSignature (mergePair decision).testCase =
      buildCaseMergerSignature decision.winner.testCase := by
  obtain ⟨-, -, hfieldIds, hactionIds⟩ := signature_eq_iff.mp h
  exact signature_eq_iff.mpr
    ⟨rfl, rfl, sortedUnique_append_self hfieldIds, sortedUnique_append_self hactionIds⟩

/-! ## Decisions -/

/-- The side of pass A loses when it alone is under repair. -/
def bWins (repairsA repairsB : List JsString) (a b : GeneratedTestCase R) : Prop :=
  a.id ∈ repairsA ∧ b.id ∉ repairsB

instance (repairsA repairsB : List JsString) (a b : GeneratedTestCase R) :
    Decidable (bWins repairsA repairsB a b) := inferInstanceAs (Decidable (_ ∧ _))

theorem decideConflict_of_bWins {a b : IndexedTestCase R} {repairsA repairsB : List JsString}
    (h : bWins repairsA repairsB a.testCase b.testCase) :
    decideConflict a b repairsA repairsB = ⟨b, a, .preferUnrepaired⟩ := by
  simp [decideConflict, h.1, h.2]

/-- Why the case of pass A is kept. -/
def resolutionA (repairsA repairsB : List JsString) (a b : GeneratedTestCase R) :
    CaseMergerConflictResolution :=
  if b.id ∈ repairsB ∧ a.id ∉ repairsA then .preferUnrepaired else .positiveBiasRunA

theorem resolutionA_ne (repairsA repairsB : List JsString) (a b : GeneratedTestCase R) :
    resolutionA repairsA repairsB a b ≠ .noConflict := by
  unfold resolutionA
  split <;> decide

theorem decideConflict_of_not_bWins {a b : IndexedTestCase R} {repairsA repairsB : List JsString}
    (h : ¬ bWins repairsA repairsB a.testCase b.testCase) :
    decideConflict a b repairsA repairsB =
      ⟨a, b, resolutionA repairsA repairsB a.testCase b.testCase⟩ := by
  have hif : ¬ (a.testCase.id ∈ repairsA ∧ b.testCase.id ∉ repairsB) := h
  unfold decideConflict resolutionA
  simp only [Bool.and_eq_true, decide_eq_true_eq, Bool.not_eq_true', decide_eq_false_iff_not,
    if_neg hif]
  split <;> rfl

/-- The two cases in one order or the other. -/
theorem decideConflict_cases (a b : IndexedTestCase R) (repairsA repairsB : List JsString) :
    (decideConflict a b repairsA repairsB).resolution ≠ .noConflict ∧
      ((decideConflict a b repairsA repairsB).winner = a ∧
          (decideConflict a b repairsA repairsB).loser = b ∨
        (decideConflict a b repairsA repairsB).winner = b ∧
          (decideConflict a b repairsA repairsB).loser = a) := by
  by_cases h : bWins repairsA repairsB a.testCase b.testCase
  · rw [decideConflict_of_bWins h]
    exact ⟨by simp, .inr ⟨rfl, rfl⟩⟩
  · rw [decideConflict_of_not_bWins h]
    exact ⟨resolutionA_ne repairsA repairsB a.testCase b.testCase, .inl ⟨rfl, rfl⟩⟩

/-! ## The outcome of a case -/

/-- Whether the signature of a case is `signature`. -/
def hasSignature (signature : JsString) (testCase : GeneratedTestCase R) : Bool :=
  buildCaseMergerSignature testCase = signature

def pairOutcome (repairsA repairsB : List JsString) (a b : GeneratedTestCase R) : Outcome R :=
  mergePair (decideConflict (indexed a 0) (indexed b 0) repairsA repairsB)

/-- The outcome of a case of pass A, against the cases of pass B. -/
def outcomeA (repairsA repairsB : List JsString) (casesB : List (GeneratedTestCase R))
    (a : GeneratedTestCase R) : Outcome R :=
  match casesB.find? (hasSignature (buildCaseMergerSignature a)) with
  | none => keepCase .runA (indexed a 0)
  | some b => pairOutcome repairsA repairsB a b

/-- The outcome of a case of pass B without a counterpart. -/
def outcomeB (b : GeneratedTestCase R) : Outcome R := keepCase .runB (indexed b 0)

/-- No case has the signature of `b`. -/
def Unmatched (casesA : List (GeneratedTestCase R)) (b : GeneratedTestCase R) : Prop :=
  ∀ a ∈ casesA, buildCaseMergerSignature a ≠ buildCaseMergerSignature b

instance (casesA : List (GeneratedTestCase R)) (b : GeneratedTestCase R) :
    Decidable (Unmatched casesA b) := inferInstanceAs (Decidable (∀ a ∈ casesA, _))

/-- All outcomes in the order they are pushed. -/
def outcomes (repairsA repairsB : List JsString) (casesA casesB : List (GeneratedTestCase R)) :
    List (Outcome R) :=
  (firstsBy buildCaseMergerSignature casesA).map (outcomeA repairsA repairsB casesB) ++
    ((firstsBy buildCaseMergerSignature casesB).filter fun b ↦ Unmatched casesA b).map outcomeB

/-! ## The index of a pass -/

theorem mapGet_foldl_add (entries : List (IndexedTestCase R)) (index : SignatureIndex R)
    (signature : JsString) :
    mapGet (entries.foldl SignatureIndex.add index).bySignature signature =
      (mapGet index.bySignature signature).or
        (entries.find? fun entry ↦ entry.signature = signature) := by
  induction entries generalizing index with
  | nil => simp
  | cons entry entries ih =>
      rw [List.foldl_cons, ih]
      by_cases hkey : entry.signature = signature
      · rw [List.find?_cons_of_pos (by simpa using hkey), SignatureIndex.add, hkey]
        cases hget : mapGet index.bySignature signature with
        | none => simp
        | some first => simp [hget]
      · rw [List.find?_cons_of_neg (by simpa using hkey), SignatureIndex.add]
        congr 1
        dsimp only
        split
        · rfl
        · rw [mapGet_mapSet, if_neg (Ne.symm hkey)]

theorem ordered_foldl_add (entries : List (IndexedTestCase R)) (index : SignatureIndex R) :
    (entries.foldl SignatureIndex.add index).ordered = index.ordered ++ entries := by
  induction entries generalizing index with
  | nil => simp
  | cons entry entries ih => simp [ih, SignatureIndex.add]

def indexedCases (cases : List (GeneratedTestCase R)) : List (IndexedTestCase R) :=
  cases.zipIdx.map fun p ↦ indexed p.1 p.2

theorem ordered_indexBySignature (list : GeneratedTestCaseList R) :
    (indexBySignature list).ordered = indexedCases list.testCases :=
  ordered_foldl_add _ _

theorem map_testCase_indexedCases (cases : List (GeneratedTestCase R)) :
    (indexedCases cases).map (·.testCase) = cases := by
  rw [indexedCases, List.map_map]
  exact List.zipIdx_map_fst 0 cases

theorem nodup_index_indexedCases (cases : List (GeneratedTestCase R)) :
    ((indexedCases cases).map (·.index)).Nodup := by
  rw [indexedCases, List.map_map]
  change (cases.zipIdx.map Prod.snd).Nodup
  rw [List.zipIdx_map_snd]
  exact List.nodup_range'

theorem bySignature_indexBySignature (list : GeneratedTestCaseList R) (signature : JsString) :
    mapGet (indexBySignature list).bySignature signature =
      (indexedCases list.testCases).find? fun entry ↦ entry.signature = signature := by
  rw [indexBySignature, mapGet_foldl_add, mapGet_nil, Option.none_or]
  rfl

theorem testCase_bySignature (list : GeneratedTestCaseList R) (signature : JsString) :
    (mapGet (indexBySignature list).bySignature signature).map (·.testCase) =
      list.testCases.find? (hasSignature signature) := by
  rw [bySignature_indexBySignature]
  conv_rhs => rw [← map_testCase_indexedCases list.testCases, List.find?_map]
  congr 1
  apply List.find?_congr
  intro entry hentry
  obtain ⟨p, -, rfl⟩ := List.mem_map.mp hentry
  rfl

/-- The entries that lead are the first cases of their signatures. -/
theorem filter_leads (list : GeneratedTestCaseList R) :
    ((indexedCases list.testCases).filter (indexBySignature list).leads).map (·.testCase) =
      firstsBy buildCaseMergerSignature list.testCases := by
  have hleads : (indexedCases list.testCases).filter (indexBySignature list).leads =
      firstsBy (·.signature) (indexedCases list.testCases) := by
    rw [← filter_find?_eq_firstsBy (·.index) (nodup_index_indexedCases list.testCases)]
    apply List.filter_congr
    intro entry _
    rw [SignatureIndex.leads, bySignature_indexBySignature]
  have hindexed := map_firstsBy (fun p : GeneratedTestCase R × ℕ ↦ indexed p.1 p.2)
    (·.signature) list.testCases.zipIdx
  have hcases := map_firstsBy Prod.fst buildCaseMergerSignature list.testCases.zipIdx
  rw [List.zipIdx_map_fst] at hcases
  rw [hleads, indexedCases, ← hindexed, List.map_map, ← hcases]
  rfl

/-! ## The loops -/

def countResolution (os : List (Outcome R)) (resolution : CaseMergerConflictResolution) : ℕ :=
  os.countP fun o ↦ o.entry.conflictResolution = resolution

/-- What the state of the loops says of the outcomes pushed so far. -/
structure Tracks (indexedA : SignatureIndex R) (state : MergeState R) (os : List (Outcome R)) :
    Prop where
  mergedCases : state.mergedCases = os.map (·.testCase)
  entries : state.entries = os.map (·.entry)
  consumed : ∀ signature ∈ state.consumedFromB,
    (mapGet indexedA.bySignature signature).isSome = true
  byRepair : state.conflictsResolvedByRepair = countResolution os .preferUnrepaired
  byBias : state.conflictsResolvedByPositiveBias = countResolution os .positiveBiasRunA

theorem Tracks.push_keepCase {indexedA : SignatureIndex R} {state : MergeState R}
    {os : List (Outcome R)} (h : Tracks indexedA state os) (provenance : CaseMergerProvenance)
    (entry : IndexedTestCase R) :
    Tracks indexedA (state.push (keepCase provenance entry))
      (os ++ [keepCase provenance entry]) := by
  refine ⟨?_, ?_, h.consumed, ?_, ?_⟩
  · rw [List.map_append, ← h.mergedCases]
    rfl
  · rw [List.map_append, ← h.entries]
    rfl
  · rw [countResolution, List.countP_append, ← countResolution, ← h.byRepair]
    rfl
  · rw [countResolution, List.countP_append, ← countResolution, ← h.byBias]
    rfl

theorem resolution_mergePair (decision : ConflictDecision R) :
    (mergePair decision).entry.conflictResolution = decision.resolution := rfl

theorem pairOutcome_eq (repairsA repairsB : List JsString) (a b : GeneratedTestCase R) (i j : ℕ) :
    mergePair (decideConflict (indexed a i) (indexed b j) repairsA repairsB) =
      pairOutcome repairsA repairsB a b := by
  rw [pairOutcome]
  by_cases h : bWins repairsA repairsB a b
  · have hdecide := fun k l ↦ @decideConflict_of_bWins _ (indexed a k) (indexed b l) _ _ h
    rw [hdecide, hdecide]
    rfl
  · have hdecide := fun k l ↦ @decideConflict_of_not_bWins _ (indexed a k) (indexed b l) _ _ h
    rw [hdecide, hdecide]
    rfl

theorem Tracks.push_mergePair {indexedA : SignatureIndex R} {state : MergeState R}
    {os : List (Outcome R)} (h : Tracks indexedA state os) {matchB : IndexedTestCase R}
    (hconsumed : (mapGet indexedA.bySignature matchB.signature).isSome = true)
    {decision : ConflictDecision R} (hresolution : decision.resolution ≠ .noConflict) :
    Tracks indexedA ((state.resolve matchB decision.resolution).push (mergePair decision))
      (os ++ [mergePair decision]) := by
  have hcount : ∀ resolution, countResolution (os ++ [mergePair decision]) resolution =
      countResolution os resolution + if decision.resolution = resolution then 1 else 0 := by
    intro resolution
    rw [countResolution, List.countP_append, List.countP_singleton, resolution_mergePair]
    simp only [decide_eq_true_eq]
    rfl
  constructor
  · rw [List.map_append, ← h.mergedCases, MergeState.resolve]
    split <;> rfl
  · rw [List.map_append, ← h.entries, MergeState.resolve]
    split <;> rfl
  · intro signature hmem
    have hmem : signature ∈ setAdd state.consumedFromB matchB.signature := by
      rw [MergeState.resolve] at hmem
      split at hmem <;> exact hmem
    rcases mem_setAdd.mp hmem with hmem | rfl
    · exact h.consumed signature hmem
    · exact hconsumed
  · rw [hcount, ← h.byRepair, MergeState.resolve]
    split <;> rfl
  · rw [hcount, ← h.byBias, MergeState.resolve]
    cases hres : decision.resolution with
    | noConflict => exact absurd hres hresolution
    | preferUnrepaired => rfl
    | positiveBiasRunA => rfl

theorem find?_indexedCases {cases : List (GeneratedTestCase R)} {signature : JsString}
    {entry : IndexedTestCase R}
    (h : (indexedCases cases).find? (fun entry ↦ entry.signature = signature) = some entry) :
    entry.signature = signature ∧ ∃ i, entry = indexed entry.testCase i := by
  obtain ⟨p, -, rfl⟩ := List.mem_map.mp (List.mem_of_find?_eq_some h)
  exact ⟨by simpa using List.find?_some h, p.2, rfl⟩

theorem bySignature_of_leads {index : SignatureIndex R} {entry : IndexedTestCase R}
    (h : index.leads entry = true) : (mapGet index.bySignature entry.signature).isSome = true := by
  rw [SignatureIndex.leads, decide_eq_true_iff, Option.map_eq_some_iff] at h
  obtain ⟨first, hfirst, -⟩ := h
  rw [hfirst, Option.isSome_some]

/-- The outcomes of entries of pass A. -/
def pushedA (runA runB : GeneratedTestCaseList R) (repairsA repairsB : List JsString)
    (entries : List (IndexedTestCase R)) : List (Outcome R) :=
  (entries.filter (indexBySignature runA).leads).map fun entry ↦
    outcomeA repairsA repairsB runB.testCases entry.testCase

/-- The outcomes of entries of pass B. -/
def pushedB (runA runB : GeneratedTestCaseList R) (entries : List (IndexedTestCase R)) :
    List (Outcome R) :=
  ((entries.filter (indexBySignature runB).leads).filter fun entry ↦
    Unmatched runA.testCases entry.testCase).map fun entry ↦ outcomeB entry.testCase

/-- A turn over pass A pushes the outcome of the case, if it is the first of its signature. -/
theorem Tracks.visitA {runA runB : GeneratedTestCaseList R} {repairsA repairsB : List JsString}
    {state : MergeState R} {os : List (Outcome R)} {entry : IndexedTestCase R}
    (hentry : entry ∈ indexedCases runA.testCases)
    (h : Tracks (indexBySignature runA) state os) :
    Tracks (indexBySignature runA)
      (visitA (indexBySignature runA) (indexBySignature runB) repairsA repairsB state entry)
      (os ++ pushedA runA runB repairsA repairsB [entry]) := by
  obtain ⟨p, -, rfl⟩ := List.mem_map.mp hentry
  unfold CaseMerger.visitA pushedA
  cases hleads : (indexBySignature runA).leads (indexed p.1 p.2) with
  | false => simpa [hleads] using h
  | true =>
      have hsome := bySignature_of_leads hleads
      rw [List.filter_cons_of_pos hleads, List.filter_nil, List.map_singleton, outcomeA,
        ← testCase_bySignature]
      cases hB : mapGet (indexBySignature runB).bySignature (indexed p.1 p.2).signature with
      | none =>
          have hB' : mapGet (indexBySignature runB).bySignature
            (buildCaseMergerSignature (indexed p.1 p.2).testCase) = none := hB
          rw [hB']
          exact h.push_keepCase .runA (indexed p.1 p.2)
      | some matchB =>
          have hB' : mapGet (indexBySignature runB).bySignature
            (buildCaseMergerSignature (indexed p.1 p.2).testCase) = some matchB := hB
          rw [bySignature_indexBySignature] at hB
          obtain ⟨hsignature, i, hmatchB⟩ := find?_indexedCases hB
          have hpair := pairOutcome_eq repairsA repairsB p.1 matchB.testCase p.2 i
          rw [← hmatchB] at hpair
          rw [hB']
          change Tracks _ _ (os ++ [pairOutcome repairsA repairsB p.1 matchB.testCase])
          rw [← hpair]
          exact h.push_mergePair (hsignature ▸ hsome)
            (decideConflict_cases (indexed p.1 p.2) matchB repairsA repairsB).1

theorem isSome_bySignature {list : GeneratedTestCaseList R} {signature : JsString} :
    (mapGet (indexBySignature list).bySignature signature).isSome = true ↔
      ∃ a ∈ list.testCases, buildCaseMergerSignature a = signature := by
  have hmap := congrArg Option.isSome (testCase_bySignature list signature)
  rw [Option.isSome_map] at hmap
  rw [hmap, List.find?_isSome]
  simp [hasSignature]

/-- A turn over pass B pushes the case, if it is the first of its signature and that is not
one of pass A. -/
theorem Tracks.visitB {runA runB : GeneratedTestCaseList R} {state : MergeState R}
    {os : List (Outcome R)} {entry : IndexedTestCase R}
    (hentry : entry ∈ indexedCases runB.testCases) (h : Tracks (indexBySignature runA) state os) :
    Tracks (indexBySignature runA)
      (visitB (indexBySignature runA) (indexBySignature runB) state entry)
      (os ++ pushedB runA runB [entry]) := by
  obtain ⟨p, -, rfl⟩ := List.mem_map.mp hentry
  unfold CaseMerger.visitB pushedB
  cases hleads : (indexBySignature runB).leads (indexed p.1 p.2) with
  | false => simpa [hleads] using h
  | true =>
      rw [List.filter_cons_of_pos hleads, List.filter_nil]
      by_cases hmatched :
          (mapGet (indexBySignature runA).bySignature (indexed p.1 p.2).signature).isSome
      · obtain ⟨a, ha, hsignature⟩ := isSome_bySignature.mp hmatched
        have hunmatched : ¬ Unmatched runA.testCases (indexed p.1 p.2).testCase :=
          fun hnone ↦ hnone a ha hsignature
        rw [List.filter_cons_of_neg (by simpa using hunmatched), List.filter_nil, List.map_nil,
          List.append_nil, if_pos hmatched]
        simpa using h
      · have hunmatched : Unmatched runA.testCases (indexed p.1 p.2).testCase :=
          fun a ha hsignature ↦ hmatched (isSome_bySignature.mpr ⟨a, ha, hsignature⟩)
        have hnew : (indexed p.1 p.2).signature ∉ state.consumedFromB :=
          fun hmem ↦ hmatched (h.consumed _ hmem)
        rw [List.filter_cons_of_pos (by simpa using hunmatched), List.filter_nil, if_neg hmatched,
          if_neg hnew]
        exact h.push_keepCase .runB (indexed p.1 p.2)

theorem Tracks.foldl {indexedA : SignatureIndex R} {entries : List (IndexedTestCase R)}
    {visit : MergeState R → IndexedTestCase R → MergeState R}
    {pushed : List (IndexedTestCase R) → List (Outcome R)}
    (happend : ∀ xs ys, pushed (xs ++ ys) = pushed xs ++ pushed ys) (hnil : pushed [] = [])
    (hvisit : ∀ entry ∈ entries, ∀ state os, Tracks indexedA state os →
      Tracks indexedA (visit state entry) (os ++ pushed [entry]))
    {state : MergeState R} {os : List (Outcome R)} (h : Tracks indexedA state os) :
    Tracks indexedA (entries.foldl visit state) (os ++ pushed entries) := by
  induction entries generalizing state os with
  | nil => simpa [hnil] using h
  | cons entry entries ih =>
      obtain ⟨hentry, hentries⟩ := List.forall_mem_cons.mp hvisit
      have hstep := ih hentries (hentry state os h)
      rwa [List.append_assoc, ← happend, List.singleton_append] at hstep

theorem Tracks.foldl_visitA {runA runB : GeneratedTestCaseList R}
    {repairsA repairsB : List JsString} {state : MergeState R} {os : List (Outcome R)}
    (h : Tracks (indexBySignature runA) state os) :
    Tracks (indexBySignature runA)
      ((indexedCases runA.testCases).foldl
        (CaseMerger.visitA (indexBySignature runA) (indexBySignature runB) repairsA repairsB) state)
      (os ++ (firstsBy buildCaseMergerSignature runA.testCases).map
        (outcomeA repairsA repairsB runB.testCases)) := by
  have happend : ∀ xs ys, pushedA runA runB repairsA repairsB (xs ++ ys) =
      pushedA runA runB repairsA repairsB xs ++ pushedA runA runB repairsA repairsB ys := by
    intro xs ys
    rw [pushedA, List.filter_append, List.map_append]
    rfl
  rw [← filter_leads, List.map_map]
  exact h.foldl happend rfl fun entry hentry state os h ↦ h.visitA hentry

theorem Tracks.foldl_visitB {runA runB : GeneratedTestCaseList R}
    {state : MergeState R} {os : List (Outcome R)}
    (h : Tracks (indexBySignature runA) state os) :
    Tracks (indexBySignature runA)
      ((indexedCases runB.testCases).foldl
        (CaseMerger.visitB (indexBySignature runA) (indexBySignature runB)) state)
      (os ++ ((firstsBy buildCaseMergerSignature runB.testCases).filter fun b ↦
        Unmatched runA.testCases b).map outcomeB) := by
  have happend : ∀ xs ys, pushedB runA runB (xs ++ ys) =
      pushedB runA runB xs ++ pushedB runA runB ys := by
    intro xs ys
    rw [pushedB, List.filter_append, List.filter_append, List.map_append]
    rfl
  rw [← filter_leads, List.filter_map, List.map_map]
  exact h.foldl happend rfl fun entry hentry state os h ↦ h.visitB hentry

/-- The loops push the outcomes of the cases. -/
theorem tracks_visited (input : MergeInput R) :
    Tracks (indexBySignature input.runA) input.visited
      (outcomes input.repairsA input.repairsB input.runA.testCases input.runB.testCases) := by
  have hstart : Tracks (indexBySignature input.runA) ⟨[], [], [], 0, 0⟩ ([] : List (Outcome R)) :=
    ⟨rfl, rfl, List.forall_mem_nil _, rfl, rfl⟩
  rw [MergeInput.visited, ordered_indexBySignature, ordered_indexBySignature]
  exact hstart.foldl_visitA.foldl_visitB

/-! ## What an outcome says -/

theorem pairOutcome_of_bWins {repairsA repairsB : List JsString} {a b : GeneratedTestCase R}
    (h : bWins repairsA repairsB a b) :
    pairOutcome repairsA repairsB a b =
      mergePair ⟨indexed b 0, indexed a 0, .preferUnrepaired⟩ := by
  rw [pairOutcome, @decideConflict_of_bWins _ (indexed a 0) (indexed b 0) _ _ h]

theorem pairOutcome_of_not_bWins {repairsA repairsB : List JsString} {a b : GeneratedTestCase R}
    (h : ¬ bWins repairsA repairsB a b) :
    pairOutcome repairsA repairsB a b =
      mergePair ⟨indexed a 0, indexed b 0, resolutionA repairsA repairsB a b⟩ := by
  rw [pairOutcome, @decideConflict_of_not_bWins _ (indexed a 0) (indexed b 0) _ _ h]
  rfl

theorem signature_pairOutcome {repairsA repairsB : List JsString} {a b : GeneratedTestCase R}
    (h : buildCaseMergerSignature a = buildCaseMergerSignature b) :
    (pairOutcome repairsA repairsB a b).entry.signature = buildCaseMergerSignature a ∧
      buildCaseMergerSignature (pairOutcome repairsA repairsB a b).testCase =
        buildCaseMergerSignature a := by
  have hentry : ∀ decision : ConflictDecision R,
      (mergePair decision).entry.signature = decision.winner.signature := fun _ ↦ rfl
  have hindexed : ∀ c : GeneratedTestCase R,
      (indexed c 0).signature = buildCaseMergerSignature c := fun _ ↦ rfl
  by_cases hb : bWins repairsA repairsB a b
  · have hcase := @signature_mergePair _ ⟨indexed b 0, indexed a 0, .preferUnrepaired⟩ h.symm
    rw [pairOutcome_of_bWins hb, hentry, hindexed, hcase]
    exact ⟨h.symm, h.symm⟩
  · have hcase := @signature_mergePair _
      ⟨indexed a 0, indexed b 0, resolutionA repairsA repairsB a b⟩ h
    rw [pairOutcome_of_not_bWins hb, hentry, hindexed, hcase]
    exact ⟨rfl, rfl⟩

theorem find?_hasSignature {cases : List (GeneratedTestCase R)} {signature : JsString}
    {c : GeneratedTestCase R} (h : cases.find? (hasSignature signature) = some c) :
    c ∈ cases ∧ buildCaseMergerSignature c = signature :=
  ⟨List.mem_of_find?_eq_some h, by simpa [hasSignature] using List.find?_some h⟩

theorem unmatched_of_find? {cases : List (GeneratedTestCase R)} {c : GeneratedTestCase R}
    (h : cases.find? (hasSignature (buildCaseMergerSignature c)) = none) : Unmatched cases c := by
  intro c' hc' heq
  have hnot := List.find?_eq_none.mp h c' hc'
  exact hnot (decide_eq_true heq)

theorem signature_outcomeA (repairsA repairsB : List JsString)
    (casesB : List (GeneratedTestCase R)) (a : GeneratedTestCase R) :
    (outcomeA repairsA repairsB casesB a).entry.signature = buildCaseMergerSignature a ∧
      buildCaseMergerSignature (outcomeA repairsA repairsB casesB a).testCase =
        buildCaseMergerSignature a := by
  unfold outcomeA
  split
  · exact ⟨rfl, rfl⟩
  · next b hb => exact signature_pairOutcome (find?_hasSignature hb).2.symm

theorem testCaseId_outcomeA (repairsA repairsB : List JsString)
    (casesB : List (GeneratedTestCase R)) (a : GeneratedTestCase R) :
    (outcomeA repairsA repairsB casesB a).entry.testCaseId =
      (outcomeA repairsA repairsB casesB a).testCase.id := by
  unfold outcomeA
  split <;> rfl

theorem resolution_pairOutcome (repairsA repairsB : List JsString) (a b : GeneratedTestCase R) :
    (pairOutcome repairsA repairsB a b).entry.conflictResolution ≠ .noConflict :=
  (decideConflict_cases (indexed a 0) (indexed b 0) repairsA repairsB).1

/-- An outcome of pass A is of both passes where a conflict was resolved. -/
theorem provenance_outcomeA (repairsA repairsB : List JsString)
    (casesB : List (GeneratedTestCase R)) (a : GeneratedTestCase R) :
    (outcomeA repairsA repairsB casesB a).entry.provenance =
      if (outcomeA repairsA repairsB casesB a).entry.conflictResolution = .noConflict then .runA
      else .both := by
  unfold outcomeA
  split
  · rfl
  · next b _ => rw [if_neg (resolution_pairOutcome repairsA repairsB a b)]; rfl

theorem mem_outcomes {repairsA repairsB : List JsString}
    {casesA casesB : List (GeneratedTestCase R)} {o : Outcome R} :
    o ∈ outcomes repairsA repairsB casesA casesB ↔
      (∃ a ∈ firstsBy buildCaseMergerSignature casesA, outcomeA repairsA repairsB casesB a = o) ∨
        ∃ b ∈ firstsBy buildCaseMergerSignature casesB, Unmatched casesA b ∧ outcomeB b = o := by
  simp [outcomes, and_assoc]

theorem signature_of_mem_outcomes {repairsA repairsB : List JsString}
    {casesA casesB : List (GeneratedTestCase R)} {o : Outcome R}
    (h : o ∈ outcomes repairsA repairsB casesA casesB) :
    buildCaseMergerSignature o.testCase = o.entry.signature ∧
      o.entry.testCaseId = o.testCase.id := by
  rcases mem_outcomes.mp h with ⟨a, -, rfl⟩ | ⟨b, -, -, rfl⟩
  · obtain ⟨hentry, hcase⟩ := signature_outcomeA repairsA repairsB casesB a
    exact ⟨hcase.trans hentry.symm, testCaseId_outcomeA repairsA repairsB casesB a⟩
  · exact ⟨rfl, rfl⟩

/-- No two outcomes are of one signature. -/
theorem nodup_signatures_outcomes (repairsA repairsB : List JsString)
    (casesA casesB : List (GeneratedTestCase R)) :
    ((outcomes repairsA repairsB casesA casesB).map (·.entry.signature)).Nodup := by
  have hA := nodup_keys_firstsBy buildCaseMergerSignature casesA
  have hB := nodup_keys_firstsBy buildCaseMergerSignature casesB
  have hsignatures : (outcomes repairsA repairsB casesA casesB).map (·.entry.signature) =
      (firstsBy buildCaseMergerSignature casesA).map buildCaseMergerSignature ++
        ((firstsBy buildCaseMergerSignature casesB).filter fun b ↦ Unmatched casesA b).map
          buildCaseMergerSignature := by
    rw [outcomes, List.map_append, List.map_map, List.map_map]
    congr 1
    exact List.map_congr_left fun a _ ↦ (signature_outcomeA repairsA repairsB casesB a).1
  rw [hsignatures, List.nodup_append]
  refine ⟨hA, hB.sublist (List.filter_sublist.map _), ?_⟩
  intro s hs s' hs' heq
  obtain ⟨a, ha, rfl⟩ := List.mem_map.mp hs
  obtain ⟨b, hb, rfl⟩ := List.mem_map.mp hs'
  have hunmatched : Unmatched casesA b := by simpa using (List.mem_filter.mp hb).2
  exact hunmatched a ((firstsBy_sublist _ _).subset ha) heq

theorem eq_of_signature_eq {repairsA repairsB : List JsString}
    {casesA casesB : List (GeneratedTestCase R)} {o o' : Outcome R}
    (ho : o ∈ outcomes repairsA repairsB casesA casesB)
    (ho' : o' ∈ outcomes repairsA repairsB casesA casesB)
    (h : o.entry.signature = o'.entry.signature) : o = o' :=
  List.inj_on_of_nodup_map (nodup_signatures_outcomes repairsA repairsB casesA casesB) ho ho' h

/-! ## The result -/

def MergeInput.sorted (input : MergeInput R) : List (Outcome R) :=
  sortOn (·.testCase.id)
    (outcomes input.repairsA input.repairsB input.runA.testCases input.runB.testCases)

theorem sorted_perm (input : MergeInput R) : input.sorted.Perm
    (outcomes input.repairsA input.repairsB input.runA.testCases input.runB.testCases) :=
  sortOn_perm _ _

theorem merge_eq_ok {input : MergeInput R} (hjob : input.runA.jobId = input.runB.jobId)
    (hgeneratedAt : input.generatedAt ≠ []) :
    ∃ result, mergeGeneratedTestCaseListsWithProvenance input = .ok result ∧
      result.merged.testCases = input.sorted.map (·.testCase) ∧
      result.report.entries = input.sorted.map (·.entry) ∧
      result.report.totals =
        { runACount := input.runA.testCases.length
          runBCount := input.runB.testCases.length
          mergedCount := input.sorted.length
          onlyInRunA := countProvenance (input.sorted.map (·.entry)) .runA
          onlyInRunB := countProvenance (input.sorted.map (·.entry)) .runB
          inBoth := countProvenance (input.sorted.map (·.entry)) .both
          conflictsResolvedByRepair := countResolution input.sorted .preferUnrepaired
          conflictsResolvedByPositiveBias := countResolution input.sorted .positiveBiasRunA } := by
  have htracks := tracks_visited input
  have hempty : input.generatedAt.length ≠ 0 := fun h ↦
    hgeneratedAt (List.length_eq_zero_iff.mp h)
  have hcases : sortOn (·.id) input.visited.mergedCases = input.sorted.map (·.testCase) := by
    rw [htracks.mergedCases]
    symm
    apply List.map_insertionSort
    exact fun _ _ _ _ ↦ Iff.rfl
  have hentries : sortOn (·.testCaseId) input.visited.entries = input.sorted.map (·.entry) := by
    rw [htracks.entries]
    symm
    apply List.map_insertionSort
    intro o ho o' ho'
    change o.testCase.id ≤ o'.testCase.id ↔ o.entry.testCaseId ≤ o'.entry.testCaseId
    rw [(signature_of_mem_outcomes ho).2, (signature_of_mem_outcomes ho').2]
  have hcount : ∀ resolution, countResolution (outcomes input.repairsA input.repairsB
      input.runA.testCases input.runB.testCases) resolution =
        countResolution input.sorted resolution :=
    fun resolution ↦ (sorted_perm input).symm.countP_eq _
  rw [mergeGeneratedTestCaseListsWithProvenance, if_neg (not_not.mpr hjob), if_neg hempty]
  refine ⟨_, rfl, hcases, hentries, ?_⟩
  dsimp only
  rw [hcases, hentries, List.length_map, htracks.byRepair, htracks.byBias, hcount, hcount]

end

end TestIntelligence.AgenticHarness.CaseMerger
