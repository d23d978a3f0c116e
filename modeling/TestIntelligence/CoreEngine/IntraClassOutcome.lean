import Mathlib.Data.Finset.Card
import TestIntelligence.CoreEngine.IntraClassRedundancy

/-!
# What the outcome of the redundancy check depends on

The number of redundant cases is what is left of the cases after one of every class and
signature.  A finding names the first case of the class, which need not be the kept case that
the redundant one collapses onto.
-/

namespace TestIntelligence.CoreEngine.EquivalenceClasses

open Js Security

/-! ## What is promised -/

/-- A finding names the case. -/
def Reported (testCases : List GeneratedTestCase) (testCase : GeneratedTestCase) : Prop :=
  ∃ finding ∈ (detectIntraClassRedundancy none testCases).findings,
    finding.redundantTestCaseId = testCase.id

/-- The same case with the entries of its lists in another order, and with entries of
`coveredFieldIds` repeated or not. -/
def SameCoverage (a b : GeneratedTestCase) : Prop :=
  ∃ fieldIds actionIds : List JsString,
    b = { a with coveredFieldIds := fieldIds, coveredActionIds := actionIds } ∧
      (∀ x, x ∈ fieldIds ↔ x ∈ a.coveredFieldIds) ∧ actionIds.Perm a.coveredActionIds

def renamed (rename : JsString → JsString) (testCase : GeneratedTestCase) : GeneratedTestCase :=
  { testCase with id := rename testCase.id }

structure CoverageRedundancy (testCases : List GeneratedTestCase) : Prop where
  permuted : ∀ other : List GeneratedTestCase, other.Perm testCases →
    detectIntraClassRedundancy none other = detectIntraClassRedundancy none testCases
  reordered : ∀ other, List.Forall₂ SameCoverage testCases other →
    detectIntraClassRedundancy none other = detectIntraClassRedundancy none testCases
  renamed : ∀ rename : JsString → JsString, (testCases.map fun c ↦ rename c.id).Nodup →
    (detectIntraClassRedundancy none (testCases.map (renamed rename))).redundantCount =
      (detectIntraClassRedundancy none testCases).redundantCount
  distinct : ∀ a ∈ testCases, ∀ b ∈ testCases, a ≠ b → caseKey a = caseKey b →
    ¬ Reported testCases a → ¬ Reported testCases b → distinctnessReason a b ≠ none
  findings : ∀ finding ∈ (detectIntraClassRedundancy none testCases).findings,
    ∃ first ∈ testCases, ∃ redundant ∈ testCases, ∃ prior ∈ testCases,
      first.id = finding.representativeTestCaseId ∧
      redundant.id = finding.redundantTestCaseId ∧
      caseKey first = caseKey redundant ∧ caseKey prior = caseKey redundant ∧
      (∀ other ∈ testCases, caseKey other = caseKey redundant → first.id ≤ other.id) ∧
      ¬ Reported testCases first ∧ ¬ Reported testCases prior ∧
      distinctnessReason prior redundant = none

variable {testCases : List GeneratedTestCase}

/-! ## Findings -/

theorem mem_findings {finding : IntraEquivalenceClassRedundancyFinding} :
    finding ∈ (detectIntraClassRedundancy none testCases).findings ↔
      ∃ entry ∈ bucketsOf testCases, finding ∈ sweepBucket none entry := by
  rw [detectIntraClassRedundancy]
  exact mem_sortBy.trans List.mem_flatMap

theorem eq_of_id (hids : (testCases.map (·.id)).Nodup) {a b : GeneratedTestCase}
    (ha : a ∈ testCases) (hb : b ∈ testCases) (h : a.id = b.id) : a = b :=
  List.inj_on_of_nodup_map hids ha hb h

/-- What the sweep of a bucket comes to, said of all the cases. -/
structure BucketSwept (testCases : List GeneratedTestCase) (entry : JsString × Bucket)
    (first : GeneratedTestCase) : Prop where
  first_mem : first ∈ keptInBucket entry
  first_le : ∀ other ∈ testCases, caseKey other = entry.1 → first.id ≤ other.id
  kept : ∀ testCase ∈ keptInBucket entry, testCase ∈ testCases ∧ caseKey testCase = entry.1
  signatures : ((keptInBucket entry).map signatureOf).Nodup
  covered : ∀ testCase ∈ testCases, caseKey testCase = entry.1 →
    ∃ prior ∈ keptInBucket entry, signatureOf prior = signatureOf testCase
  mem_sweepBucket : ∀ finding, finding ∈ sweepBucket none entry ↔
    ∃ testCase ∈ testCases, caseKey testCase = entry.1 ∧ testCase ∉ keptInBucket entry ∧
      findingFor entry.1 entry.2.fingerprint first testCase = finding

theorem mem_casesOfKey_sorted {key : JsString} {testCase : GeneratedTestCase} :
    testCase ∈ casesOfKey (sortBy compareIds testCases) key ↔
      testCase ∈ testCases ∧ caseKey testCase = key := by
  rw [mem_casesOfKey, mem_sortBy]

theorem head_le_of_mem_casesOfKey {key : JsString} {first other : GeneratedTestCase}
    (hfirst : (casesOfKey (sortBy compareIds testCases) key).head? = some first)
    (hother : other ∈ casesOfKey (sortBy compareIds testCases) key) : first.id ≤ other.id := by
  have hsorted : (casesOfKey (sortBy compareIds testCases) key).Pairwise
      fun a b ↦ compareIds a b ≤ 0 := (consistent_compareIds.pairwise_sortBy testCases).filter _
  cases hcases : casesOfKey (sortBy compareIds testCases) key with
  | nil =>
      rw [hcases] at hother
      cases hother
  | cons head rest =>
      rw [hcases] at hfirst hother hsorted
      obtain rfl : head = first := Option.some.inj hfirst
      rcases List.mem_cons.mp hother with rfl | hrest
      · exact Std.le_refl _
      · exact codeUnitCompare_nonpos.mp ((List.pairwise_cons.mp hsorted).1 other hrest)

theorem exists_bucketSwept (hids : (testCases.map (·.id)).Nodup) {entry : JsString × Bucket}
    (hentry : entry ∈ bucketsOf testCases) : ∃ first, BucketSwept testCases entry first := by
  obtain ⟨first, hcases, hfirst, hswept⟩ := swept_of_mem_bucketsOf hids hentry
  have hkept : ∀ testCase ∈ keptInBucket entry,
      testCase ∈ testCases ∧ caseKey testCase = entry.1 :=
    fun testCase hmem ↦ mem_casesOfKey_sorted.mp (hswept.kept_sublist.subset hmem)
  refine ⟨first, hswept.first_mem, fun other hother hkey ↦ ?_, hkept, hswept.signatures,
    fun testCase hcase hkey ↦ hswept.covered testCase (mem_casesOfKey_sorted.mpr ⟨hcase, hkey⟩),
    fun finding ↦ ?_⟩
  · exact head_le_of_mem_casesOfKey (hcases ▸ hfirst) (mem_casesOfKey_sorted.mpr ⟨hother, hkey⟩)
  · have hid : ∀ testCase ∈ testCases,
        testCase.id ∉ (keptInBucket entry).map (·.id) ↔ testCase ∉ keptInBucket entry := by
      intro testCase hcase
      refine not_congr ⟨fun hmem ↦ ?_, List.mem_map_of_mem⟩
      obtain ⟨prior, hprior, heq⟩ := List.mem_map.mp hmem
      exact eq_of_id hids (hkept prior hprior).1 hcase heq ▸ hprior
    have hfindings := hswept.findings
    dsimp only at hfindings
    rw [hfindings, List.mem_map]
    constructor
    · rintro ⟨testCase, hmem, heq⟩
      obtain ⟨hmem, hnot⟩ := List.mem_filter.mp hmem
      obtain ⟨hcase, hkey⟩ := mem_casesOfKey_sorted.mp hmem
      exact ⟨testCase, hcase, hkey, (hid testCase hcase).mp (of_decide_eq_true hnot), heq⟩
    · rintro ⟨testCase, hcase, hkey, hnot, heq⟩
      exact ⟨testCase, List.mem_filter.mpr ⟨mem_casesOfKey_sorted.mpr ⟨hcase, hkey⟩,
        decide_eq_true ((hid testCase hcase).mpr hnot)⟩, heq⟩

theorem eq_of_mem_bucketsOf {entry entry' : JsString × Bucket} (h : entry ∈ bucketsOf testCases)
    (h' : entry' ∈ bucketsOf testCases) (hkey : entry.1 = entry'.1) : entry = entry' :=
  List.inj_on_of_nodup_map (nodup_keys_bucketsOf testCases) h h' hkey

/-- The cases that are not reported are those that the sweep of their bucket keeps. -/
theorem reported_iff (hids : (testCases.map (·.id)).Nodup) {entry : JsString × Bucket}
    (hentry : entry ∈ bucketsOf testCases) {testCase : GeneratedTestCase}
    (hcase : testCase ∈ testCases) (hkey : caseKey testCase = entry.1) :
    Reported testCases testCase ↔ testCase ∉ keptInBucket entry := by
  constructor
  · rintro ⟨finding, hfinding, hid⟩
    obtain ⟨entry', hentry', hmem⟩ := mem_findings.mp hfinding
    obtain ⟨first, hswept⟩ := exists_bucketSwept hids hentry'
    obtain ⟨other, hother, hkey', hnot, rfl⟩ := (hswept.mem_sweepBucket finding).mp hmem
    obtain rfl := eq_of_id hids hother hcase hid
    rwa [eq_of_mem_bucketsOf hentry hentry' (hkey.symm.trans hkey')]
  · intro hnot
    obtain ⟨first, hswept⟩ := exists_bucketSwept hids hentry
    exact ⟨_, mem_findings.mpr ⟨entry, hentry,
      (hswept.mem_sweepBucket _).mpr ⟨testCase, hcase, hkey, hnot, rfl⟩⟩, rfl⟩

/-! ## Kept cases and representatives -/

theorem distinct_of_kept (hids : (testCases.map (·.id)).Nodup) {a b : GeneratedTestCase}
    (ha : a ∈ testCases) (hb : b ∈ testCases) (hne : a ≠ b) (hkey : caseKey a = caseKey b)
    (hanot : ¬ Reported testCases a) (hbnot : ¬ Reported testCases b) :
    distinctnessReason a b ≠ none := by
  obtain ⟨bucket, hentry⟩ := exists_bucket ha
  obtain ⟨first, hswept⟩ := exists_bucketSwept hids hentry
  rw [reported_iff hids hentry ha rfl, not_not] at hanot
  rw [reported_iff hids hentry hb hkey.symm, not_not] at hbnot
  rw [Ne, distinctnessReason_eq_none_iff hkey]
  exact fun heq ↦ hne (List.inj_on_of_nodup_map hswept.signatures hanot hbnot heq)

theorem exists_representative (hids : (testCases.map (·.id)).Nodup)
    {finding : IntraEquivalenceClassRedundancyFinding}
    (h : finding ∈ (detectIntraClassRedundancy none testCases).findings) :
    ∃ first ∈ testCases, ∃ redundant ∈ testCases, ∃ prior ∈ testCases,
      first.id = finding.representativeTestCaseId ∧
      redundant.id = finding.redundantTestCaseId ∧
      caseKey first = caseKey redundant ∧ caseKey prior = caseKey redundant ∧
      (∀ other ∈ testCases, caseKey other = caseKey redundant → first.id ≤ other.id) ∧
      ¬ Reported testCases first ∧ ¬ Reported testCases prior ∧
      distinctnessReason prior redundant = none := by
  obtain ⟨entry, hentry, hmem⟩ := mem_findings.mp h
  obtain ⟨first, hswept⟩ := exists_bucketSwept hids hentry
  obtain ⟨redundant, hredundant, hkey, hnot, rfl⟩ := (hswept.mem_sweepBucket finding).mp hmem
  obtain ⟨prior, hprior, hsame⟩ := hswept.covered redundant hredundant hkey
  obtain ⟨hfirst, hfirstKey⟩ := hswept.kept first hswept.first_mem
  obtain ⟨hpriorMem, hpriorKey⟩ := hswept.kept prior hprior
  refine ⟨first, hfirst, redundant, hredundant, prior, hpriorMem, rfl, rfl,
    hfirstKey.trans hkey.symm, hpriorKey.trans hkey.symm,
    fun other hother hotherKey ↦ hswept.first_le other hother (hotherKey.trans hkey), ?_, ?_, ?_⟩
  · rw [reported_iff hids hentry hfirst hfirstKey, not_not]
    exact hswept.first_mem
  · rw [reported_iff hids hentry hpriorMem hpriorKey, not_not]
    exact hprior
  · exact (distinctnessReason_eq_none_iff (hpriorKey.trans hkey.symm)).mpr hsame

/-! ## How many are redundant -/

/-- One of all cases with the same class and the same signature is kept. -/
def classAndSignature (testCase : GeneratedTestCase) : JsString × CaseSignature :=
  (caseKey testCase, signatureOf testCase)

theorem sum_of_single {keys : List JsString} (hkeys : keys.Nodup) {own : JsString}
    (hown : own ∈ keys) : (keys.map fun key ↦ if key = own then 1 else 0).sum = 1 := by
  induction keys with
  | nil => cases hown
  | cons key keys ih =>
      obtain ⟨hnot, hrest⟩ := List.nodup_cons.mp hkeys
      rw [List.map_cons, List.sum_cons]
      by_cases h : key = own
      · have hzero : ∀ n ∈ keys.map (fun key ↦ if key = own then 1 else 0), n = 0 := by
          intro n hn
          obtain ⟨other, hother, rfl⟩ := List.mem_map.mp hn
          refine if_neg fun heq ↦ hnot ?_
          rwa [h, ← heq]
        rw [if_pos h, List.sum_eq_zero hzero, Nat.add_zero]
      · rw [if_neg h, ih hrest ((List.mem_cons.mp hown).resolve_left (Ne.symm h))]

theorem sum_length_casesOfKey {keys : List JsString} (hkeys : keys.Nodup)
    {testCases : List GeneratedTestCase} (hmem : ∀ c ∈ testCases, caseKey c ∈ keys) :
    (keys.map fun key ↦ (casesOfKey testCases key).length).sum = testCases.length := by
  induction testCases with
  | nil => simp [casesOfKey]
  | cons testCase testCases ih =>
      obtain ⟨hkey, hrest⟩ := List.forall_mem_cons.mp hmem
      have hlength : ∀ key, (casesOfKey (testCase :: testCases) key).length =
          (casesOfKey testCases key).length + if key = caseKey testCase then 1 else 0 := by
        intro key
        rw [casesOfKey, List.filter_cons, casesOfKey]
        by_cases h : caseKey testCase = key
        · simp [h]
        · simp [h, Ne.symm h]
      simp only [hlength, List.sum_map_add, ih hrest, sum_of_single hkeys hkey, List.length_cons]

theorem nodup_keptInBuckets (hids : (testCases.map (·.id)).Nodup) :
    (((bucketsOf testCases).flatMap keptInBucket).map classAndSignature).Nodup := by
  rw [List.map_flatMap, List.nodup_flatMap]
  constructor
  · intro entry hentry
    obtain ⟨first, hswept⟩ := exists_bucketSwept hids hentry
    apply List.Nodup.of_map Prod.snd
    rw [List.map_map]
    exact hswept.signatures
  · have hkeys := nodup_keys_bucketsOf testCases
    rw [List.Nodup, List.pairwise_map] at hkeys
    refine hkeys.imp_of_mem fun {entry entry'} hentry hentry' hne ↦ ?_
    obtain ⟨first, hswept⟩ := exists_bucketSwept hids hentry
    obtain ⟨first', hswept'⟩ := exists_bucketSwept hids hentry'
    rintro pair hpair hpair'
    obtain ⟨a, ha, rfl⟩ := List.mem_map.mp hpair
    obtain ⟨b, hb, heq⟩ := List.mem_map.mp hpair'
    have hkey : caseKey b = caseKey a := congrArg Prod.fst heq
    exact hne ((hswept.kept a ha).2.symm.trans (hkey.symm.trans (hswept'.kept b hb).2))

theorem mem_map_keptInBuckets (hids : (testCases.map (·.id)).Nodup)
    (pair : JsString × CaseSignature) :
    pair ∈ ((bucketsOf testCases).flatMap keptInBucket).map classAndSignature ↔
      pair ∈ testCases.map classAndSignature := by
  constructor
  · intro hpair
    obtain ⟨testCase, hkept, rfl⟩ := List.mem_map.mp hpair
    obtain ⟨entry, hentry, hmem⟩ := List.mem_flatMap.mp hkept
    obtain ⟨first, hswept⟩ := exists_bucketSwept hids hentry
    exact List.mem_map_of_mem (hswept.kept testCase hmem).1
  · intro hpair
    obtain ⟨testCase, hcase, rfl⟩ := List.mem_map.mp hpair
    obtain ⟨bucket, hentry⟩ := exists_bucket hcase
    obtain ⟨first, hswept⟩ := exists_bucketSwept hids hentry
    obtain ⟨prior, hprior, hsame⟩ := hswept.covered testCase hcase rfl
    refine List.mem_map.mpr ⟨prior, List.mem_flatMap.mpr ⟨_, hentry, hprior⟩, ?_⟩
    rw [classAndSignature, classAndSignature, hsame, (hswept.kept prior hprior).2]

theorem redundantCount_add_card (hids : (testCases.map (·.id)).Nodup) :
    (detectIntraClassRedundancy none testCases).redundantCount +
      (testCases.map classAndSignature).toFinset.card = testCases.length := by
  have hkept : ((bucketsOf testCases).flatMap keptInBucket).length =
      (testCases.map classAndSignature).toFinset.card := by
    rw [← List.length_map classAndSignature,
      ← List.toFinset_card_of_nodup (nodup_keptInBuckets hids)]
    congr 1
    ext pair
    rw [List.mem_toFinset, List.mem_toFinset, mem_map_keptInBuckets hids]
  have hcovered : ∀ c ∈ sortBy compareIds testCases,
      caseKey c ∈ (bucketsOf testCases).map Prod.fst := by
    intro testCase hcase
    obtain ⟨bucket, hentry⟩ := exists_bucket (mem_sortBy.mp hcase)
    exact List.mem_map_of_mem hentry
  have htotal := sum_length_casesOfKey (nodup_keys_bucketsOf testCases) hcovered
  rw [(sortBy_perm _ _).length_eq, List.map_map] at htotal
  rw [← hkept, ← htotal, detectIntraClassRedundancy, (sortBy_perm _ _).length_eq,
    List.length_flatMap, List.length_flatMap, ← List.sum_map_add]
  congr 1
  refine List.map_congr_left fun entry hentry ↦ ?_
  obtain ⟨first, -, -, hswept⟩ := swept_of_mem_bucketsOf hids hentry
  rw [Nat.add_comm]
  exact hswept.count

/-- Names say nothing about how many cases are redundant. -/
theorem redundantCount_renamed (hids : (testCases.map (·.id)).Nodup)
    (rename : JsString → JsString) (hrenamed : (testCases.map fun c ↦ rename c.id).Nodup) :
    (detectIntraClassRedundancy none (testCases.map (renamed rename))).redundantCount =
      (detectIntraClassRedundancy none testCases).redundantCount := by
  have hids' : ((testCases.map (renamed rename)).map (·.id)).Nodup := by
    rwa [List.map_map]
  have hcount := redundantCount_add_card hids
  have hcount' := redundantCount_add_card hids'
  have hsame : (testCases.map (renamed rename)).map classAndSignature =
      testCases.map classAndSignature := List.map_map
  rw [hsame, List.length_map] at hcount'
  omega

/-! ## The order of the cases and of their entries -/

theorem detect_of_perm (hids : (testCases.map (·.id)).Nodup) {other : List GeneratedTestCase}
    (hperm : other.Perm testCases) :
    detectIntraClassRedundancy none other = detectIntraClassRedundancy none testCases := by
  have hsorted : sortBy compareIds other = sortBy compareIds testCases := by
    refine consistent_compareIds.sortBy_eq_of_perm (fun a ha b hb hab hba ↦ ?_) hperm
    exact eq_of_id hids (hperm.subset ha) (hperm.subset hb)
      (Std.le_antisymm (codeUnitCompare_nonpos.mp hab) (codeUnitCompare_nonpos.mp hba))
  rw [detectIntraClassRedundancy, detectIntraClassRedundancy, bucketsOf_eq, bucketsOf_eq, hsorted,
    hperm.length_eq]

/-- The case with the entries of its lists in order. -/
def inOrder (testCase : GeneratedTestCase) : GeneratedTestCase :=
  { testCase with
    coveredFieldIds := sortedUnique testCase.coveredFieldIds
    coveredActionIds := sortStrings testCase.coveredActionIds }

theorem inOrder_eq_of_sameCoverage {a b : GeneratedTestCase} (h : SameCoverage a b) :
    inOrder b = inOrder a := by
  obtain ⟨fieldIds, actionIds, rfl, hfields, hactions⟩ := h
  simp only [inOrder, GeneratedTestCase.mk.injEq, true_and]
  exact ⟨sortedUnique_eq_iff.mpr hfields, sortStrings_eq_of_perm hactions⟩

theorem fingerprint_inOrder (testCase : GeneratedTestCase) :
    buildEquivalenceClassFingerprint (inOrder testCase) =
      buildEquivalenceClassFingerprint testCase := by
  have hfields : sortedUnique (sortedUnique testCase.coveredFieldIds) =
      sortedUnique testCase.coveredFieldIds := sortedUnique_eq_iff.mpr fun x ↦ mem_sortedUnique
  have hactions : sortedUnique (sortStrings testCase.coveredActionIds) =
      sortedUnique testCase.coveredActionIds := sortedUnique_eq_iff.mpr fun x ↦ mem_sortStrings
  simp only [buildEquivalenceClassFingerprint, inOrder, hfields, hactions]
  rfl

theorem caseKey_inOrder (testCase : GeneratedTestCase) :
    caseKey (inOrder testCase) = caseKey testCase := by
  rw [caseKey, fingerprint_inOrder, caseKey]

theorem distinctnessReason_inOrder (a b : GeneratedTestCase) :
    distinctnessReason (inOrder a) (inOrder b) = distinctnessReason a b := by
  have hactions : sameSet (inOrder a).coveredActionIds (inOrder b).coveredActionIds =
      sameSet a.coveredActionIds b.coveredActionIds := by
    rw [Bool.eq_iff_iff, sameSet_iff, sameSet_iff, inOrder, inOrder,
      (sortStrings_perm _).length_eq, (sortStrings_perm _).length_eq]
    simp only [mem_sortStrings]
  rw [distinctnessReason, hactions]
  rfl

/-- A bucket with the entries of the lists of its cases in order. -/
def bucketInOrder (bucket : Bucket) : Bucket :=
  { bucket with cases := bucket.cases.map inOrder }

theorem foldl_addToBuckets_inOrder (testCases : List GeneratedTestCase) :
    (testCases.map inOrder).foldl addToBuckets [] =
      (testCases.foldl addToBuckets []).map fun entry ↦ (entry.1, bucketInOrder entry.2) := by
  induction testCases using List.reverseRecOn with
  | nil => rfl
  | append_singleton testCases testCase ih =>
      rw [List.map_append, List.foldl_append, ih, List.foldl_append, List.map_cons, List.map_nil,
        List.foldl_cons, List.foldl_nil, List.foldl_cons, List.foldl_nil, addToBuckets,
        addToBuckets, caseKey_inOrder, fingerprint_inOrder, mapGet_map_values]
      cases mapGet (testCases.foldl addToBuckets []) (caseKey testCase) with
      | none =>
          exact mapSet_map_values bucketInOrder (testCases.foldl addToBuckets [])
            (caseKey testCase) ⟨buildEquivalenceClassFingerprint testCase, [testCase]⟩
      | some bucket =>
          have hcases : bucketInOrder { bucket with cases := bucket.cases ++ [testCase] } =
              { bucketInOrder bucket with
                cases := (bucketInOrder bucket).cases ++ [inOrder testCase] } := by
            simp [bucketInOrder]
          have hset := mapSet_map_values bucketInOrder (testCases.foldl addToBuckets [])
            (caseKey testCase) { bucket with cases := bucket.cases ++ [testCase] }
          rwa [hcases] at hset

def stateInOrder (state : SweepState) : SweepState :=
  { state with kept := state.kept.map inOrder }

theorem sweepCandidate_inOrder (key : JsString) (fingerprint : EquivalenceClassFingerprint)
    (first : GeneratedTestCase) (state : SweepState) (candidate : GeneratedTestCase) :
    sweepCandidate none key fingerprint (inOrder first) (stateInOrder state) (inOrder candidate) =
      stateInOrder (sweepCandidate none key fingerprint first state candidate) := by
  have hany : ((stateInOrder state).kept.any fun prior ↦
        distinctnessReason prior (inOrder candidate) = none) =
      state.kept.any fun prior ↦ distinctnessReason prior candidate = none := by
    simp only [stateInOrder, List.any_map, Function.comp_def, distinctnessReason_inOrder]
  rw [sweepCandidate_none, sweepCandidate_none, hany]
  split
  · rfl
  · simp [stateInOrder]

theorem foldl_sweepCandidate_inOrder (key : JsString) (fingerprint : EquivalenceClassFingerprint)
    (first : GeneratedTestCase) (rest : List GeneratedTestCase) (state : SweepState) :
    (rest.map inOrder).foldl (sweepCandidate none key fingerprint (inOrder first))
        (stateInOrder state) =
      stateInOrder (rest.foldl (sweepCandidate none key fingerprint first) state) := by
  induction rest generalizing state with
  | nil => rfl
  | cons candidate rest ih =>
      rw [List.map_cons, List.foldl_cons, List.foldl_cons, sweepCandidate_inOrder, ih]

theorem sweepBucket_inOrder (entry : JsString × Bucket) :
    sweepBucket none (entry.1, bucketInOrder entry.2) = sweepBucket none entry := by
  obtain ⟨key, fingerprint, cases⟩ := entry
  cases cases with
  | nil => rfl
  | cons first rest =>
      have hrun := congrArg SweepState.findings
        (foldl_sweepCandidate_inOrder key fingerprint first rest ⟨[first], []⟩)
      exact hrun

theorem detect_inOrder (testCases : List GeneratedTestCase) :
    detectIntraClassRedundancy none (testCases.map inOrder) =
      detectIntraClassRedundancy none testCases := by
  have hsorted : sortBy compareIds (testCases.map inOrder) =
      (sortBy compareIds testCases).map inOrder :=
    (List.map_insertionSort _ _ inOrder testCases fun _ _ _ _ ↦ Iff.rfl).symm
  have hbuckets : bucketsOf (testCases.map inOrder) =
      (bucketsOf testCases).map fun entry ↦ (entry.1, bucketInOrder entry.2) := by
    rw [bucketsOf_eq, hsorted, foldl_addToBuckets_inOrder, bucketsOf_eq]
  rw [detectIntraClassRedundancy, detectIntraClassRedundancy, hbuckets, List.length_map,
    List.flatMap_map, List.length_map]
  simp only [sweepBucket_inOrder]

theorem detect_of_sameCoverage {other : List GeneratedTestCase}
    (h : List.Forall₂ SameCoverage testCases other) :
    detectIntraClassRedundancy none other = detectIntraClassRedundancy none testCases := by
  have hsame : other.map inOrder = testCases.map inOrder := by
    induction h with
    | nil => rfl
    | cons hcase _ ih => rw [List.map_cons, List.map_cons, inOrder_eq_of_sameCoverage hcase, ih]
  rw [← detect_inOrder, hsame, detect_inOrder]

/-! ## The law -/

/-- The outcome depends on what the cases cover, and a finding names the first case of its class:
the redundant case collapses onto a kept case of the class, not always onto that one. -/
theorem coverageRedundancy (hids : (testCases.map (·.id)).Nodup) :
    CoverageRedundancy testCases where
  permuted _ hperm := detect_of_perm hids hperm
  reordered _ h := detect_of_sameCoverage h
  renamed rename hrenamed := redundantCount_renamed hids rename hrenamed
  distinct _ ha _ hb hne hkey hanot hbnot := distinct_of_kept hids ha hb hne hkey hanot hbnot
  findings _ hfinding := exists_representative hids hfinding

/-! ## A representative that is not matched -/

/-- A case of the class of all these, with one step. -/
def caseWithStep (id action : String) : GeneratedTestCase where
  id := js id
  type := .functional
  polarity := none
  category := none
  riskCategory := .low
  technique := .useCase
  steps := [⟨1, js action, none⟩]
  figmaTraceRefs := []
  assumptions := []
  openQuestions := []
  coveredFieldIds := []
  coveredActionIds := []

def sampleCases : List GeneratedTestCase :=
  [caseWithStep "a" "open", caseWithStep "b" "save", caseWithStep "c" "save"]

theorem coverageRedundancy_sampleCases : CoverageRedundancy sampleCases :=
  coverageRedundancy (by decide)

/-- The third case collapses onto the second one, and the finding names the first. -/
theorem representative_not_matched :
    ¬ ∀ finding ∈ (detectIntraClassRedundancy none sampleCases).findings,
      ∃ representative ∈ sampleCases, ∃ redundant ∈ sampleCases,
        representative.id = finding.representativeTestCaseId ∧
        redundant.id = finding.redundantTestCaseId ∧
        distinctnessReason representative redundant = none := by
  decide +kernel

end TestIntelligence.CoreEngine.EquivalenceClasses
