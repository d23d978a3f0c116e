import Mathlib.Data.Finset.Card
import TestIntelligence.CoreEngine.EquivalenceClasses

/-!
# What the sweep of a class keeps

Inside a class a case collapses onto another one exactly where the two have the same signature.
The sweep therefore keeps one case of every signature, whatever the order of the cases.
-/

namespace TestIntelligence.CoreEngine.EquivalenceClasses

open Js Security
open Quality (TestCaseTechnique29119)
open Review (TestCaseRiskCategory)

/-! ## Sets of ids -/

@[simp] theorem mem_sortedUnique {ids : List JsString} {x : JsString} :
    x ∈ sortedUnique ids ↔ x ∈ ids := by
  rw [sortedUnique, mem_sortStrings, mem_setOf]

theorem nodup_sortedUnique (ids : List JsString) : (sortedUnique ids).Nodup := by
  rw [sortedUnique, (sortStrings_perm _).nodup_iff]
  exact nodup_foldl_setAdd List.nodup_nil

theorem sortedUnique_eq_iff {xs ys : List JsString} :
    sortedUnique xs = sortedUnique ys ↔ ∀ x, x ∈ xs ↔ x ∈ ys := by
  constructor
  · intro heq x
    rw [← mem_sortedUnique, heq, mem_sortedUnique]
  · intro h
    have hnodup : ∀ ids : List JsString, (setOf ids).Nodup :=
      fun ids ↦ nodup_foldl_setAdd List.nodup_nil
    apply sortStrings_eq_of_perm
    rw [List.perm_ext_iff_of_nodup (hnodup xs) (hnodup ys)]
    intro x
    rw [mem_setOf, mem_setOf, h]

theorem sameSet_iff {left right : List JsString} :
    sameSet left right = true ↔ left.length = right.length ∧ ∀ x ∈ right, x ∈ left := by
  simp [sameSet]

/-- Of lists without repetitions, only those of the same ids are the same set. -/
theorem sameSet_sortedUnique {xs ys : List JsString} :
    sameSet (sortedUnique xs) (sortedUnique ys) = true ↔ sortedUnique xs = sortedUnique ys := by
  rw [sameSet_iff]
  constructor
  · rintro ⟨hlength, hsubset⟩
    have hperm := ((nodup_sortedUnique ys).subperm hsubset).perm_of_length_le hlength.le
    rw [sortedUnique_eq_iff]
    intro x
    rw [← mem_sortedUnique, ← hperm.mem_iff, mem_sortedUnique]
  · intro heq
    rw [heq]
    exact ⟨rfl, fun _ hx ↦ hx⟩

/-! ## Keys -/

theorem TestCaseTechnique29119_text_injective : Function.Injective TestCaseTechnique29119.text := by
  intro s t h
  cases s <;> cases t <;> first | rfl | exact absurd h (by decide)

theorem TestCaseRiskCategory_text_injective : Function.Injective TestCaseRiskCategory.text := by
  intro s t h
  cases s <;> cases t <;> first | rfl | exact absurd h (by decide)

theorem TestCaseOraclePolarity.text_injective : Function.Injective TestCaseOraclePolarity.text := by
  intro s t h
  cases s <;> cases t <;> first | rfl | exact absurd h (by decide)

theorem keys_fingerprintFields (fingerprint : EquivalenceClassFingerprint) :
    (fingerprintFields fingerprint).map Prod.fst = [js "coveredFieldIds", js "coveredActionIds",
      js "riskClass", js "technique", js "oraclePolarity"] := rfl

theorem ordered_fingerprintFields (fingerprint : EquivalenceClassFingerprint) :
    ∀ field ∈ fingerprintFields fingerprint, ∀ v ∈ field.2, v.Ordered := by
  simp [fingerprintFields]

/-- Cases of one key have one fingerprint. -/
theorem equivalenceClassKey_injective : Function.Injective equivalenceClassKey := by
  intro a b h
  have hproto : protoKey ∉ (fingerprintFields a).map Prod.fst := by
    rw [keys_fingerprintFields]
    decide
  have henumerated : Enumerated (fingerprintFields a) := by
    rw [Enumerated, keys_fingerprintFields]
    decide
  have hfields := fields_eq_of_canonicalJson_eq
    ((keys_fingerprintFields a).trans (keys_fingerprintFields b).symm) henumerated hproto
    (ordered_fingerprintFields a) (ordered_fingerprintFields b) h
  simp only [fingerprintFields, List.map_cons, List.map_nil, Option.map_some, List.cons.injEq,
    Option.some.injEq, sortValue_printed_texts, sortValue_printed_str, Json.str.injEq,
    Json.arr.injEq, and_true] at hfields
  obtain ⟨hfieldIds, hactionIds, hrisk, htechnique, hpolarity⟩ := hfields
  have hinj : Function.Injective (List.map Json.str) :=
    List.map_injective_iff.mpr fun _ _ ↦ Json.str.inj
  cases a
  cases b
  simp only [EquivalenceClassFingerprint.mk.injEq]
  exact ⟨hinj hfieldIds, hinj hactionIds, TestCaseRiskCategory_text_injective hrisk,
    TestCaseTechnique29119_text_injective htechnique,
    TestCaseOraclePolarity.text_injective hpolarity⟩

/-! ## Signatures -/

/-- What a case must differ in from the other cases of its class. -/
structure CaseSignature where
  oracleCategory : JsString
  actionCount : ℕ
  tracePaths : List JsString
  lifecycleTransitions : List JsString
  steps : JsString
  deriving DecidableEq

def signatureOf (testCase : GeneratedTestCase) : CaseSignature where
  oracleCategory := oracleCategory testCase
  actionCount := testCase.coveredActionIds.length
  tracePaths := tracePathSet testCase
  lifecycleTransitions := lifecycleTransitionSet testCase
  steps := join stepSeparator (stepActionSequence testCase)

theorem mem_coveredActionIds_of_caseKey {a b : GeneratedTestCase} (h : caseKey a = caseKey b)
    (x : JsString) : x ∈ a.coveredActionIds ↔ x ∈ b.coveredActionIds := by
  have hfingerprint := equivalenceClassKey_injective h
  have hactions : sortedUnique a.coveredActionIds = sortedUnique b.coveredActionIds :=
    congrArg EquivalenceClassFingerprint.coveredActionIds hfingerprint
  exact sortedUnique_eq_iff.mp hactions x

/-- Inside a class, two cases collapse exactly where their signatures are equal. -/
theorem distinctnessReason_eq_none_iff {a b : GeneratedTestCase} (h : caseKey a = caseKey b) :
    distinctnessReason a b = none ↔ signatureOf a = signatureOf b := by
  have hactions : sameSet a.coveredActionIds b.coveredActionIds = true ↔
      a.coveredActionIds.length = b.coveredActionIds.length := by
    rw [sameSet_iff, and_iff_left]
    exact fun x hx ↦ (mem_coveredActionIds_of_caseKey h x).mpr hx
  have htraces : sameSet (tracePathSet a) (tracePathSet b) = true ↔
      tracePathSet a = tracePathSet b := sameSet_sortedUnique
  have htransitions : sameSet (lifecycleTransitionSet a) (lifecycleTransitionSet b) = true ↔
      lifecycleTransitionSet a = lifecycleTransitionSet b := sameSet_sortedUnique
  rw [signatureOf, signatureOf, CaseSignature.mk.injEq, ← hactions, ← htraces, ← htransitions,
    distinctnessReason]
  by_cases hcategory : oracleCategory a = oracleCategory b
  · simp only [hcategory, ne_eq, not_true_eq_false, if_false, true_and]
    cases sameSet a.coveredActionIds b.coveredActionIds with
    | false => simp
    | true =>
        cases sameSet (tracePathSet a) (tracePathSet b) with
        | false => simp
        | true => cases sameSet (lifecycleTransitionSet a) (lifecycleTransitionSet b) <;> simp
  · simp [hcategory]

/-! ## Buckets -/

def casesOfKey (testCases : List GeneratedTestCase) (key : JsString) : List GeneratedTestCase :=
  testCases.filter fun testCase ↦ caseKey testCase = key

theorem mem_casesOfKey {testCases : List GeneratedTestCase} {key : JsString}
    {testCase : GeneratedTestCase} :
    testCase ∈ casesOfKey testCases key ↔ testCase ∈ testCases ∧ caseKey testCase = key := by
  rw [casesOfKey, List.mem_filter, decide_eq_true_iff]

theorem casesOfKey_concat (testCases : List GeneratedTestCase) (testCase : GeneratedTestCase)
    (key : JsString) : casesOfKey (testCases ++ [testCase]) key =
      casesOfKey testCases key ++ if caseKey testCase = key then [testCase] else [] := by
  rw [casesOfKey, List.filter_append, ← casesOfKey]
  by_cases h : caseKey testCase = key <;> simp [h]

/-- A bucket holds the cases of its key, in their order. -/
theorem mapGet_foldl_addToBuckets (testCases : List GeneratedTestCase) (key : JsString) :
    mapGet (testCases.foldl addToBuckets []) key = (casesOfKey testCases key).head?.map fun first ↦
      ⟨buildEquivalenceClassFingerprint first, casesOfKey testCases key⟩ := by
  induction testCases using List.reverseRecOn generalizing key with
  | nil => rfl
  | append_singleton testCases testCase ih =>
      have hown := ih (caseKey testCase)
      rw [List.foldl_append, List.foldl_cons, List.foldl_nil, addToBuckets, hown,
        casesOfKey_concat]
      by_cases hkey : key = caseKey testCase
      · subst hkey
        cases casesOfKey testCases (caseKey testCase) <;> simp
      · rw [if_neg (Ne.symm hkey), List.append_nil, ← ih key]
        cases (casesOfKey testCases (caseKey testCase)).head? with
        | none => exact (mapGet_mapSet _ _ _ _).trans (if_neg hkey)
        | some first => exact (mapGet_mapSet _ _ _ _).trans (if_neg hkey)

theorem nodup_keys_addToBuckets {buckets : List (JsString × Bucket)}
    (h : (buckets.map Prod.fst).Nodup) (testCase : GeneratedTestCase) :
    ((addToBuckets buckets testCase).map Prod.fst).Nodup := by
  rw [addToBuckets]
  split <;>
  · rw [keys_mapSet]
    exact nodup_setAdd h _

theorem nodup_keys_foldl_addToBuckets (testCases : List GeneratedTestCase) :
    ((testCases.foldl addToBuckets []).map Prod.fst).Nodup := by
  induction testCases using List.reverseRecOn with
  | nil => exact List.nodup_nil
  | append_singleton testCases testCase ih =>
      rw [List.foldl_append]
      exact nodup_keys_addToBuckets ih testCase

/-! ## The sweep of a bucket -/

/-- The finding that names a case redundant. -/
def findingFor (key : JsString) (fingerprint : EquivalenceClassFingerprint)
    (representative candidate : GeneratedTestCase) : IntraEquivalenceClassRedundancyFinding where
  equivalenceClassKey := key
  representativeTestCaseId := representative.id
  redundantTestCaseId := candidate.id
  fingerprint := fingerprint
  source := .deterministic

/-- After some cases of a class: one of every signature is kept and the others are reported. -/
structure Swept (key : JsString) (fingerprint : EquivalenceClassFingerprint)
    (first : GeneratedTestCase) (processed : List GeneratedTestCase) (state : SweepState) :
    Prop where
  kept_sublist : state.kept.Sublist processed
  first_mem : first ∈ state.kept
  signatures : (state.kept.map signatureOf).Nodup
  covered : ∀ testCase ∈ processed, ∃ prior ∈ state.kept,
    signatureOf prior = signatureOf testCase
  findings : state.findings = (processed.filter fun testCase ↦
    testCase.id ∉ state.kept.map (·.id)).map (findingFor key fingerprint first)
  count : state.kept.length + state.findings.length = processed.length

theorem sweepCandidate_none (key : JsString) (fingerprint : EquivalenceClassFingerprint)
    (representative : GeneratedTestCase) (state : SweepState) (candidate : GeneratedTestCase) :
    sweepCandidate none key fingerprint representative state candidate =
      if state.kept.any fun prior ↦ distinctnessReason prior candidate = none then
        { state with findings :=
          state.findings ++ [findingFor key fingerprint representative candidate] }
      else { state with kept := state.kept ++ [candidate] } := rfl

theorem Swept.step {key : JsString} {fingerprint : EquivalenceClassFingerprint}
    {first candidate : GeneratedTestCase} {processed : List GeneratedTestCase} {state : SweepState}
    (h : Swept key fingerprint first processed state)
    (hkey : ∀ testCase ∈ processed, caseKey testCase = caseKey candidate)
    (hid : candidate.id ∉ processed.map (·.id)) :
    Swept key fingerprint first (processed ++ [candidate])
      (sweepCandidate none key fingerprint first state candidate) := by
  have hcollapses : (state.kept.any fun prior ↦ distinctnessReason prior candidate = none) = true ↔
      ∃ prior ∈ state.kept, signatureOf prior = signatureOf candidate := by
    rw [List.any_eq_true]
    refine exists_congr fun prior ↦ and_congr_right fun hprior ↦ ?_
    rw [decide_eq_true_iff,
      distinctnessReason_eq_none_iff (hkey prior (h.kept_sublist.subset hprior))]
  have hnew : candidate.id ∉ state.kept.map (·.id) :=
    fun hmem ↦ hid ((h.kept_sublist.map _).subset hmem)
  rw [sweepCandidate_none]
  by_cases hany : ∃ prior ∈ state.kept, signatureOf prior = signatureOf candidate
  · rw [if_pos (hcollapses.mpr hany)]
    refine ⟨h.kept_sublist.trans (List.sublist_append_left _ _), h.first_mem, h.signatures,
      ?_, ?_, ?_⟩
    · intro testCase hmem
      rcases List.mem_append.mp hmem with hold | hlast
      · exact h.covered testCase hold
      · rw [List.mem_singleton.mp hlast]
        exact hany
    · have hlast : [candidate].filter (fun testCase ↦ testCase.id ∉ state.kept.map (·.id)) =
          [candidate] := List.filter_cons_of_pos (decide_eq_true hnew)
      dsimp only
      rw [List.filter_append, List.map_append, ← h.findings, hlast]
      rfl
    · have hcount := h.count
      simp
      omega
  · rw [if_neg (fun hall ↦ hany (hcollapses.mp hall))]
    refine ⟨h.kept_sublist.append (List.Sublist.refl _), List.mem_append_left _ h.first_mem,
      ?_, ?_, ?_, ?_⟩
    · rw [List.map_append, List.nodup_append]
      refine ⟨h.signatures, List.nodup_singleton _, fun signature hmem signature' hlast ↦ ?_⟩
      obtain ⟨prior, hprior, rfl⟩ := List.mem_map.mp hmem
      rw [List.mem_singleton.mp hlast]
      exact fun heq ↦ hany ⟨prior, hprior, heq⟩
    · intro testCase hmem
      rcases List.mem_append.mp hmem with hold | hlast
      · obtain ⟨prior, hprior, heq⟩ := h.covered testCase hold
        exact ⟨prior, List.mem_append_left _ hprior, heq⟩
      · exact ⟨candidate, List.mem_append_right _ (List.mem_singleton_self _),
          by rw [List.mem_singleton.mp hlast]⟩
    · have hfilter : (processed ++ [candidate]).filter (fun testCase ↦
            testCase.id ∉ (state.kept ++ [candidate]).map (·.id)) =
          processed.filter fun testCase ↦ testCase.id ∉ state.kept.map (·.id) := by
        rw [List.filter_append, List.filter_cons_of_neg (by simp), List.filter_nil,
          List.append_nil]
        refine List.filter_congr fun testCase hmem ↦ ?_
        have hne : testCase.id ≠ candidate.id :=
          fun heq ↦ hid (heq ▸ List.mem_map_of_mem hmem)
        simp [hne]
      rw [hfilter]
      exact h.findings
    · have hcount := h.count
      simp
      omega

theorem Swept.foldl {key : JsString} {fingerprint : EquivalenceClassFingerprint}
    {first : GeneratedTestCase} {rest processed : List GeneratedTestCase} {state : SweepState}
    (h : Swept key fingerprint first processed state)
    (hkey : ∀ testCase ∈ processed ++ rest, caseKey testCase = key)
    (hids : ((processed ++ rest).map (·.id)).Nodup) :
    Swept key fingerprint first (processed ++ rest)
      (rest.foldl (sweepCandidate none key fingerprint first) state) := by
  induction rest generalizing processed state with
  | nil => rwa [List.append_nil]
  | cons candidate rest ih =>
      have hcandidate : caseKey candidate = key := hkey candidate (by simp)
      have hnew : candidate.id ∉ processed.map (·.id) := by
        rw [List.map_append, List.map_cons] at hids
        exact fun hmem ↦ List.disjoint_of_nodup_append hids hmem List.mem_cons_self
      have hstep := h.step
        (fun testCase hmem ↦ (hkey testCase (List.mem_append_left _ hmem)).trans
          hcandidate.symm) hnew
      rw [List.append_cons] at hkey hids ⊢
      exact ih hstep hkey hids

/-- The cases of a bucket that the sweep keeps. -/
def keptInBucket (entry : JsString × Bucket) : List GeneratedTestCase :=
  match entry.2.cases with
  | [] => []
  | first :: rest =>
      (rest.foldl (sweepCandidate none entry.1 entry.2.fingerprint first) ⟨[first], []⟩).kept

theorem swept_bucket {key : JsString} {fingerprint : EquivalenceClassFingerprint}
    {first : GeneratedTestCase} {rest : List GeneratedTestCase}
    (hkey : ∀ testCase ∈ first :: rest, caseKey testCase = key)
    (hids : ((first :: rest).map (·.id)).Nodup) :
    Swept key fingerprint first (first :: rest)
      ⟨keptInBucket (key, ⟨fingerprint, first :: rest⟩),
        sweepBucket none (key, ⟨fingerprint, first :: rest⟩)⟩ := by
  have hstart : Swept key fingerprint first [first] ⟨[first], []⟩ := by
    refine ⟨List.Sublist.refl _, List.mem_singleton_self _, List.nodup_singleton _,
      fun testCase hmem ↦ ⟨testCase, hmem, rfl⟩, ?_, rfl⟩
    simp
  exact hstart.foldl hkey hids

/-! ## All buckets -/

def compareIds (a b : GeneratedTestCase) : ℤ := codeUnitCompare a.id b.id

theorem consistent_compareIds : Consistent compareIds :=
  consistent_codeUnitCompare.comap GeneratedTestCase.id

variable {testCases : List GeneratedTestCase}

theorem bucketsOf_eq (testCases : List GeneratedTestCase) :
    bucketsOf testCases = (sortBy compareIds testCases).foldl addToBuckets [] := rfl

theorem nodup_keys_bucketsOf (testCases : List GeneratedTestCase) :
    ((bucketsOf testCases).map Prod.fst).Nodup :=
  nodup_keys_foldl_addToBuckets _

theorem exists_of_mem_bucketsOf {entry : JsString × Bucket} (h : entry ∈ bucketsOf testCases) :
    ∃ first rest, casesOfKey (sortBy compareIds testCases) entry.1 = first :: rest ∧
      entry = (entry.1, ⟨buildEquivalenceClassFingerprint first, first :: rest⟩) := by
  obtain ⟨key, bucket⟩ := entry
  have hget := mapGet_eq_some_of_mem (nodup_keys_bucketsOf testCases) h
  rw [bucketsOf_eq, mapGet_foldl_addToBuckets] at hget
  cases hcases : casesOfKey (sortBy compareIds testCases) key with
  | nil =>
      rw [hcases] at hget
      cases hget
  | cons first rest =>
      rw [hcases, List.head?_cons, Option.map_some, Option.some.injEq] at hget
      exact ⟨first, rest, rfl, by rw [hget]⟩

theorem exists_bucket {testCase : GeneratedTestCase} (h : testCase ∈ testCases) :
    ∃ bucket, (caseKey testCase, bucket) ∈ bucketsOf testCases := by
  have hmem : testCase ∈ casesOfKey (sortBy compareIds testCases) (caseKey testCase) :=
    mem_casesOfKey.mpr ⟨mem_sortBy.mpr h, rfl⟩
  have hget := mapGet_foldl_addToBuckets (sortBy compareIds testCases) (caseKey testCase)
  cases hcases : casesOfKey (sortBy compareIds testCases) (caseKey testCase) with
  | nil =>
      rw [hcases] at hmem
      cases hmem
  | cons first rest =>
      rw [hcases] at hget
      exact ⟨_, mem_of_mapGet hget⟩

theorem swept_of_mem_bucketsOf (hids : (testCases.map (·.id)).Nodup) {entry : JsString × Bucket}
    (h : entry ∈ bucketsOf testCases) :
    ∃ first, entry.2.cases = casesOfKey (sortBy compareIds testCases) entry.1 ∧
      entry.2.cases.head? = some first ∧
      Swept entry.1 entry.2.fingerprint first (casesOfKey (sortBy compareIds testCases) entry.1)
        ⟨keptInBucket entry, sweepBucket none entry⟩ := by
  obtain ⟨first, rest, hcases, hentry⟩ := exists_of_mem_bucketsOf h
  have hkey : ∀ testCase ∈ first :: rest, caseKey testCase = entry.1 :=
    fun testCase hmem ↦ (mem_casesOfKey.mp (hcases ▸ hmem)).2
  have hnodup : ((first :: rest).map (·.id)).Nodup := by
    rw [← hcases]
    refine List.Nodup.sublist (List.filter_sublist.map GeneratedTestCase.id) ?_
    exact ((sortBy_perm compareIds testCases).map GeneratedTestCase.id).nodup_iff.mpr hids
  rw [hentry, hcases]
  exact ⟨first, rfl, rfl, swept_bucket hkey hnodup⟩

end TestIntelligence.CoreEngine.EquivalenceClasses
