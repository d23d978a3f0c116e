import TestIntelligence.CoreEngine.IntentDeltaLaws
import TestIntelligence.CoreEngine.TestCaseDelta
import TestIntelligence.Security.Digests

/-!
# The verdicts of a test case delta

Every id has one row.  A case that is gone is obsolete and no other one is; a new case that no
visual signal escalates is new; an unchanged case has its fingerprint, and no change that is
looked at touches a screen it traces to.
-/

namespace TestIntelligence.CoreEngine.TestCaseDelta

open Js Security Duplicates IntentDelta

/-! ## Totals -/

def TestCaseDeltaTotals.sum (totals : TestCaseDeltaTotals) : ℕ :=
  totals.new + totals.unchanged + totals.changed + totals.obsolete + totals.requiresReview

theorem TestCaseDeltaTotals.sum_count (totals : TestCaseDeltaTotals)
    (verdict : TestCaseDeltaVerdict) : (totals.count verdict).sum = totals.sum + 1 := by
  cases verdict <;> unfold count sum <;> dsimp only <;> omega

theorem sum_computeTotals (rows : List TestCaseDeltaRow) :
    (computeTotals rows).sum = rows.length := by
  have hfold : ∀ totals : TestCaseDeltaTotals,
      (rows.foldl (fun totals r ↦ totals.count r.verdict) totals).sum =
        totals.sum + rows.length := by
    induction rows with
    | nil => exact fun _ ↦ rfl
    | cons row rows ih =>
        intro totals
        rw [List.foldl_cons, ih, TestCaseDeltaTotals.sum_count, List.length_cons]
        omega
  rw [computeTotals, hfold]
  exact Nat.zero_add _

/-! ## One test case -/

section

variable {index : ScreenIndex} {screenIds : List JsString} {priorHash currentHash : Option JsString}

theorem compareCases_new (h : (compareCases index screenIds priorHash currentHash).1 = .new) :
    priorHash = none ∧ currentHash.isSome := by
  unfold compareCases at h
  split at h
  · dsimp only at h
    split at h <;> cases h
  · exact ⟨rfl, rfl⟩
  · dsimp only at h
    split at h <;> cases h
  · cases h

theorem compareCases_obsolete_iff (h : priorHash.isSome ∨ currentHash.isSome) :
    (compareCases index screenIds priorHash currentHash).1 = .obsolete ↔ currentHash = none := by
  unfold compareCases
  split
  · dsimp only
    split <;> simp
  · simp
  · dsimp only
    split <;> simp
  · simp at h

theorem compareCases_unchanged (hsome : priorHash.isSome ∨ currentHash.isSome)
    (h : (compareCases index screenIds priorHash currentHash).1 = .unchanged) :
    priorHash = currentHash ∧ priorHash.isSome ∧
      ∀ id ∈ screenIds, id ∉ index.changedScreenIds ∧ id ∉ index.removedScreenIds := by
  unfold compareCases at h
  split at h
  · dsimp only at h
    split at h <;> cases h
  · cases h
  · dsimp only at h
    split at h
    · cases h
    · next hsame =>
      simp only [not_or, ne_eq, not_not, List.any_eq_true, List.contains_eq_mem,
        decide_eq_true_eq, not_exists, not_and] at hsame
      obtain ⟨hhash, hchanged, hremoved⟩ := hsame
      exact ⟨congrArg some hhash, rfl, fun id hid ↦ ⟨hchanged id hid, hremoved id hid⟩⟩
  · simp at hsome

end

/-! ## Screens -/

section

variable {delta : Option IntentDeltaReport} {screenId : JsString} {e : IntentDeltaEntry}

theorem mem_collectChangedScreenIds (he : e ∈ entriesOf delta)
    (hscreen : e.screenId = some screenId) (hadded : e.changeType ≠ .added) (hremoved : e.changeType ≠ .removed) :
    screenId ∈ collectChangedScreenIds delta := by
  rw [collectChangedScreenIds, mem_setOf, List.mem_filterMap]
  exact ⟨e, he, by rw [if_neg hadded, if_neg hremoved, hscreen]⟩

theorem mem_collectRemovedScreenIds (he : e ∈ entriesOf delta) (hkind : e.kind = .screen)
    (hremoved : e.changeType = .removed) : e.elementId ∈ collectRemovedScreenIds delta := by
  rw [collectRemovedScreenIds, mem_setOf, List.mem_filterMap]
  exact ⟨e, he, if_pos ⟨hkind, hremoved⟩⟩

theorem mem_collectAmbiguityIncreasedScreenIds :
    screenId ∈ collectAmbiguityIncreasedScreenIds delta ↔
      ∃ e ∈ entriesOf delta, e.changeType = .ambiguityIncreased ∧ e.screenId = some screenId := by
  rw [collectAmbiguityIncreasedScreenIds, mem_setOf, List.mem_filterMap]
  simp only [Option.ite_none_right_eq_some]

end

/-- A visual signal at a screen that is traced. -/
def Escalated (input : ClassifyTestCaseDeltaInput) (visualFloor : JsNumber)
    (testCase : GeneratedTestCase) : Prop :=
  ∃ screenId ∈ testCase.figmaTraceRefs,
    (∃ visual, mapGet (visualByScreen input.visual) screenId = some visual ∧
      (visual.meanConfidence.lt visualFloor = true ∨ visual.conflict = true)) ∨
    ∃ e ∈ entriesOf input.intentDelta,
      e.changeType = .ambiguityIncreased ∧ e.screenId = some screenId

theorem visualReasons_eq_nil_iff {input : ClassifyTestCaseDeltaInput} {visualFloor : JsNumber}
    {screenId : JsString} : visualReasons (screenIndex input visualFloor) screenId ≠ [] ↔
      (∃ visual, mapGet (visualByScreen input.visual) screenId = some visual ∧
        (visual.meanConfidence.lt visualFloor = true ∨ visual.conflict = true)) ∨
      ∃ e ∈ entriesOf input.intentDelta,
        e.changeType = .ambiguityIncreased ∧ e.screenId = some screenId := by
  rw [← mem_collectAmbiguityIncreasedScreenIds]
  unfold visualReasons screenIndex
  dsimp only
  cases mapGet (visualByScreen input.visual) screenId with
  | none => simp
  | some visual =>
      simp only [ne_eq, List.append_eq_nil_iff, ite_eq_right_iff, Option.some.injEq,
        exists_eq_left']
      tauto

/-! ## Fingerprints -/

section

variable {sha256 : JsString → JsString} {toLowerCase : JsString → JsString}
  {isPunctuationOrSymbol : JsString → Bool}

theorem canonicalJson_texts_inj {xs ys : List JsString}
    (h : canonicalJson (.arr (xs.map .str)) = canonicalJson (.arr (ys.map .str))) : xs = ys := by
  have hordered : ∀ texts : List JsString, (Json.arr (texts.map .str)).Ordered := by
    intro texts
    rw [Json.ordered_arr]
    intro v hv
    obtain ⟨text, -, rfl⟩ := List.mem_map.mp hv
    trivial
  have hplain : ∀ texts : List JsString, (Json.arr (texts.map .str)).PlainNumbers := by
    intro texts
    rw [Json.plainNumbers_arr]
    intro v hv
    obtain ⟨text, -, rfl⟩ := List.mem_map.mp hv
    trivial
  have hsorted : ∀ texts : List JsString,
      sortValue (.arr (texts.map .str)) = .arr (texts.map .str) := by
    intro texts
    rw [sortValue_arr, List.map_map]
    rfl
  rw [canonicalJson_eq_iff (hordered xs) (hplain xs) (hordered ys) (hplain ys), hsorted,
    hsorted] at h
  exact List.map_injective_iff.mpr (fun _ _ ↦ Json.str.inj) (Json.arr.inj h)

/-- Test cases of one hash have one fingerprint. -/
theorem fingerprint_eq_of_hash_eq (hsha256 : Function.Injective sha256)
    {a b : GeneratedTestCase}
    (h : fingerprintHash sha256 toLowerCase isPunctuationOrSymbol a =
      fingerprintHash sha256 toLowerCase isPunctuationOrSymbol b) (token : JsString) :
    token ∈ buildTestCaseFingerprint toLowerCase isPunctuationOrSymbol a ↔
      token ∈ buildTestCaseFingerprint toLowerCase isPunctuationOrSymbol b := by
  have hsorted := canonicalJson_texts_inj (hsha256 h)
  rw [← mem_sortStrings, hsorted, mem_sortStrings]

/-! ## Rows -/

variable {index : ScreenIndex} {prior current : List GeneratedTestCase}

/-- The row of an id, from what the two generations have under it. -/
def rowAt (sha256 : JsString → JsString) (toLowerCase : JsString → JsString)
    (isPunctuationOrSymbol : JsString → Bool) (index : ScreenIndex)
    (prior current : List GeneratedTestCase) (id : JsString) : TestCaseDeltaRow :=
  classifyOne sha256 toLowerCase isPunctuationOrSymbol index id
    (mapGet (mapById (·.id) prior) id) (mapGet (mapById (·.id) current) id)

theorem classifyAll_eq : classifyAll sha256 toLowerCase isPunctuationOrSymbol index prior current =
    ((mapById (·.id) current).map Prod.fst ++ ((mapById (·.id) prior).map Prod.fst).filter
      (· ∉ (mapById (·.id) current).map Prod.fst)).map
        (rowAt sha256 toLowerCase isPunctuationOrSymbol index prior current) := by
  unfold classifyAll
  dsimp only
  rw [List.map_append, List.map_map, List.filter_map, List.map_map]
  congr 1
  · apply List.map_congr_left
    rintro ⟨id, currentCase⟩ hmem
    rw [Function.comp_apply, rowAt, mem_mapById_iff.mp hmem]
  · rw [← @List.filterMap_eq_map _ _ (rowAt sha256 toLowerCase isPunctuationOrSymbol index prior
      current ∘ Prod.fst), List.filterMap_filter]
    apply List.filterMap_congr
    rintro ⟨id, priorCase⟩ hmem
    simp only [Function.comp_apply, decide_eq_true_eq]
    split
    · rfl
    · next hcurrent => rw [rowAt, mem_mapById_iff.mp hmem, mapGet_eq_none_iff.mpr hcurrent]

theorem ids_classifyAll :
    (classifyAll sha256 toLowerCase isPunctuationOrSymbol index prior current).map
      (·.testCaseId) =
    (mapById (·.id) current).map Prod.fst ++ ((mapById (·.id) prior).map Prod.fst).filter
      (· ∉ (mapById (·.id) current).map Prod.fst) := by
  rw [classifyAll_eq, List.map_map]
  exact List.map_id _

theorem nodup_ids_classifyAll :
    ((classifyAll sha256 toLowerCase isPunctuationOrSymbol index prior current).map
      (·.testCaseId)).Nodup := by
  rw [ids_classifyAll]
  refine (nodup_keys_mapById _ _).append ((nodup_keys_mapById _ _).filter _) fun id hid hid' ↦ ?_
  exact of_decide_eq_true (List.mem_filter.mp hid').2 hid

theorem mem_ids_classifyAll {id : JsString} :
    id ∈ (classifyAll sha256 toLowerCase isPunctuationOrSymbol index prior current).map
        (·.testCaseId) ↔ id ∈ prior.map (·.id) ∨ id ∈ current.map (·.id) := by
  rw [ids_classifyAll, List.mem_append, List.mem_filter, decide_eq_true_eq, keys_mapById,
    keys_mapById, mem_setOf, mem_setOf]
  tauto

theorem eq_rowAt_of_mem {row : TestCaseDeltaRow}
    (h : row ∈ classifyAll sha256 toLowerCase isPunctuationOrSymbol index prior current) :
    row = rowAt sha256 toLowerCase isPunctuationOrSymbol index prior current row.testCaseId := by
  rw [classifyAll_eq] at h
  obtain ⟨id, -, rfl⟩ := List.mem_map.mp h
  rfl

/-! ## Verdicts -/

variable {id : JsString} {priorCase currentCase : Option GeneratedTestCase}
  {input : ClassifyTestCaseDeltaInput} {visualFloor : JsNumber}

/-- The verdict before the visual signals. -/
def comparedVerdict (sha256 : JsString → JsString) (toLowerCase : JsString → JsString)
    (isPunctuationOrSymbol : JsString → Bool) (index : ScreenIndex)
    (priorCase currentCase : Option GeneratedTestCase) : TestCaseDeltaVerdict :=
  (compareCases index (traceScreenIds (currentCase.or priorCase))
    (priorCase.map (fingerprintHash sha256 toLowerCase isPunctuationOrSymbol))
    (currentCase.map (fingerprintHash sha256 toLowerCase isPunctuationOrSymbol))).1

/-- A visual signal escalates every verdict but one. -/
theorem verdict_classifyOne {testCase : GeneratedTestCase}
    (htrace : currentCase.or priorCase = some testCase) :
    (Escalated input visualFloor testCase →
      (classifyOne sha256 toLowerCase isPunctuationOrSymbol (screenIndex input visualFloor) id
        priorCase currentCase).verdict =
      if comparedVerdict sha256 toLowerCase isPunctuationOrSymbol (screenIndex input visualFloor)
        priorCase currentCase = .obsolete then .obsolete else .requiresReview) ∧
    (¬ Escalated input visualFloor testCase →
      (classifyOne sha256 toLowerCase isPunctuationOrSymbol (screenIndex input visualFloor) id
        priorCase currentCase).verdict =
      comparedVerdict sha256 toLowerCase isPunctuationOrSymbol (screenIndex input visualFloor)
        priorCase currentCase) := by
  have hescalate : (!((traceScreenIds (currentCase.or priorCase)).flatMap
      (visualReasons (screenIndex input visualFloor))).isEmpty) = true ↔
      Escalated input visualFloor testCase := by
    rw [htrace, Bool.not_eq_true', List.isEmpty_eq_false_iff, ne_eq, List.flatMap_eq_nil_iff]
    simp only [traceScreenIds, Option.elim, not_forall, mem_sortStrings, mem_setOf, exists_prop]
    exact exists_congr fun screenId ↦ and_congr_right fun _ ↦ visualReasons_eq_nil_iff
  have hverdict : (classifyOne sha256 toLowerCase isPunctuationOrSymbol
      (screenIndex input visualFloor) id priorCase currentCase).verdict =
      if (!((traceScreenIds (currentCase.or priorCase)).flatMap
          (visualReasons (screenIndex input visualFloor))).isEmpty) = true ∧
        comparedVerdict sha256 toLowerCase isPunctuationOrSymbol (screenIndex input visualFloor)
          priorCase currentCase ≠ .obsolete then .requiresReview
      else comparedVerdict sha256 toLowerCase isPunctuationOrSymbol (screenIndex input visualFloor)
        priorCase currentCase := rfl
  rw [hverdict]
  constructor
  · intro h
    split
    · next hvisual => rw [if_neg hvisual.2]
    · next hvisual =>
      have hobsolete := not_not.mp fun hne ↦ hvisual ⟨hescalate.mpr h, hne⟩
      rw [hobsolete, if_pos rfl]
  · intro h
    rw [if_neg fun hvisual ↦ h (hescalate.mp hvisual.1)]

theorem comparedVerdict_new (h : comparedVerdict sha256 toLowerCase isPunctuationOrSymbol index
    priorCase currentCase = .new) : priorCase = none ∧ currentCase.isSome := by
  simpa using compareCases_new h

theorem comparedVerdict_added {testCase : GeneratedTestCase} :
    comparedVerdict sha256 toLowerCase isPunctuationOrSymbol index none (some testCase) = .new :=
  rfl

theorem comparedVerdict_obsolete_iff (h : priorCase.isSome ∨ currentCase.isSome) :
    comparedVerdict sha256 toLowerCase isPunctuationOrSymbol index priorCase currentCase =
      .obsolete ↔ currentCase = none := by
  rw [comparedVerdict, compareCases_obsolete_iff (by simpa using h), Option.map_eq_none_iff]

theorem comparedVerdict_unchanged (hsome : priorCase.isSome ∨ currentCase.isSome)
    (h : comparedVerdict sha256 toLowerCase isPunctuationOrSymbol index priorCase currentCase =
      .unchanged) : ∃ before after, priorCase = some before ∧ currentCase = some after ∧
        fingerprintHash sha256 toLowerCase isPunctuationOrSymbol before =
          fingerprintHash sha256 toLowerCase isPunctuationOrSymbol after ∧
        ∀ id ∈ after.figmaTraceRefs, id ∉ index.changedScreenIds ∧ id ∉ index.removedScreenIds := by
  obtain ⟨hhash, hprior, hscreens⟩ := compareCases_unchanged (by simpa using hsome) h
  cases priorCase with
  | none => cases hprior
  | some before =>
      cases currentCase with
      | none => cases hhash
      | some after =>
          refine ⟨before, after, rfl, rfl, Option.some.inj hhash, fun id hid ↦ hscreens id ?_⟩
          simpa [traceScreenIds] using hid

/-! ## Reports -/

variable (toLowerCase isPunctuationOrSymbol) in
/-- What the verdict of a row says. -/
structure SoundRow (input : ClassifyTestCaseDeltaInput) (visualFloor : JsNumber)
    (row : TestCaseDeltaRow) : Prop where
  new : row.verdict = .new →
    row.testCaseId ∈ input.current.map (·.id) ∧ row.testCaseId ∉ input.prior.map (·.id)
  added : ∀ testCase ∈ input.current, testCase.id = row.testCaseId →
    row.testCaseId ∉ input.prior.map (·.id) →
    (row.verdict = .new ↔ ¬ Escalated input visualFloor testCase) ∧
      (row.verdict = .requiresReview ↔ Escalated input visualFloor testCase)
  obsolete : row.verdict = .obsolete ↔ row.testCaseId ∉ input.current.map (·.id)
  unchanged : row.verdict = .unchanged → ∃ before ∈ input.prior, ∃ after ∈ input.current,
    before.id = row.testCaseId ∧ after.id = row.testCaseId ∧
    (∀ token, token ∈ buildTestCaseFingerprint toLowerCase isPunctuationOrSymbol before ↔
      token ∈ buildTestCaseFingerprint toLowerCase isPunctuationOrSymbol after) ∧
    ∀ e ∈ entriesOf input.intentDelta, ∀ screenId ∈ after.figmaTraceRefs,
      (e.screenId = some screenId → e.changeType = .added ∨ e.changeType = .removed) ∧
      ¬ (e.kind = .screen ∧ e.changeType = .removed ∧ e.elementId = screenId)

theorem mapGet_eq_some_iff {list : List GeneratedTestCase} (hids : (list.map (·.id)).Nodup)
    {testCase : GeneratedTestCase} :
    mapGet (mapById (·.id) list) id = some testCase ↔ testCase ∈ list ∧ testCase.id = id := by
  rw [mapGet_mapById hids, find?_key_eq_some_iff hids]

theorem soundRow_rowAt (hsha256 : Function.Injective sha256)
    (hprior : (input.prior.map (·.id)).Nodup) (hcurrent : (input.current.map (·.id)).Nodup)
    (hid : id ∈ input.prior.map (·.id) ∨ id ∈ input.current.map (·.id)) :
    SoundRow toLowerCase isPunctuationOrSymbol input visualFloor
      (rowAt sha256 toLowerCase isPunctuationOrSymbol (screenIndex input visualFloor) input.prior
        input.current id) := by
  have hnone : ∀ list : List GeneratedTestCase,
      mapGet (mapById (·.id) list) id = none ↔ id ∉ list.map (·.id) := fun list ↦ by
    rw [mapGet_eq_none_iff, keys_mapById, mem_setOf]
  have hsome : (mapGet (mapById (·.id) input.prior) id).isSome ∨
      (mapGet (mapById (·.id) input.current) id).isSome := by
    rw [Option.isSome_iff_ne_none, Option.isSome_iff_ne_none, ne_eq, ne_eq, hnone, hnone, not_not,
      not_not]
    exact hid
  obtain ⟨testCase, htrace⟩ : ∃ testCase, (mapGet (mapById (·.id) input.current) id).or
      (mapGet (mapById (·.id) input.prior) id) = some testCase := by
    rw [← Option.isSome_iff_exists, Option.isSome_or]
    simpa [or_comm] using hsome
  have hobsolete := @comparedVerdict_obsolete_iff sha256 toLowerCase isPunctuationOrSymbol
    (screenIndex input visualFloor) _ _ hsome
  obtain ⟨hescalated, hplain⟩ := @verdict_classifyOne sha256 toLowerCase isPunctuationOrSymbol id
    _ _ input visualFloor testCase htrace
  -- only a review hides what the comparison says
  have hcompared : ∀ verdict, verdict ≠ .requiresReview →
      (rowAt sha256 toLowerCase isPunctuationOrSymbol (screenIndex input visualFloor) input.prior
        input.current id).verdict = verdict →
      comparedVerdict sha256 toLowerCase isPunctuationOrSymbol (screenIndex input visualFloor)
        (mapGet (mapById (·.id) input.prior) id) (mapGet (mapById (·.id) input.current) id) =
          verdict := by
    rintro verdict hverdict rfl
    unfold rowAt at hverdict ⊢
    by_cases h : Escalated input visualFloor testCase
    · rw [hescalated h] at hverdict ⊢
      split at hverdict
      · next hobs => rw [if_pos hobs, hobs]
      · exact absurd rfl hverdict
    · exact (hplain h).symm
  constructor
  · intro hverdict
    obtain ⟨hbefore, hafter⟩ := comparedVerdict_new (hcompared .new (by decide) hverdict)
    rw [Option.isSome_iff_ne_none, ne_eq, hnone, not_not] at hafter
    exact ⟨hafter, (hnone _).mp hbefore⟩
  · intro added hmem haddedId habsent
    have hbefore := (hnone _).mpr habsent
    have hafter := (mapGet_eq_some_iff hcurrent).mpr ⟨hmem, haddedId⟩
    change mapGet (mapById (·.id) input.current) id = some added at hafter
    change mapGet (mapById (·.id) input.prior) id = none at hbefore
    obtain rfl : added = testCase := by
      rw [hafter] at htrace
      exact Option.some.inj htrace
    unfold rowAt
    rw [hbefore, hafter, comparedVerdict_added] at hescalated hplain
    rw [hbefore, hafter]
    by_cases h : Escalated input visualFloor added
    · rw [hescalated h]
      simp [h]
    · rw [hplain h]
      simp [h]
  · change _ ↔ id ∉ _
    rw [← hnone, ← hobsolete]
    refine ⟨hcompared .obsolete (by decide), fun h ↦ ?_⟩
    unfold rowAt
    by_cases hvisual : Escalated input visualFloor testCase
    · rw [hescalated hvisual, if_pos h]
    · rw [hplain hvisual, h]
  · intro hverdict
    obtain ⟨before, after, hbefore, hafter, hhash, hscreens⟩ :=
      comparedVerdict_unchanged hsome (hcompared .unchanged (by decide) hverdict)
    obtain ⟨hbeforeMem, hbeforeId⟩ := (mapGet_eq_some_iff hprior).mp hbefore
    obtain ⟨hafterMem, hafterId⟩ := (mapGet_eq_some_iff hcurrent).mp hafter
    refine ⟨before, hbeforeMem, after, hafterMem, hbeforeId, hafterId,
      fingerprint_eq_of_hash_eq hsha256 hhash, fun e he screenId hscreenId ↦ ⟨fun hscreen ↦ ?_, ?_⟩⟩
    · by_contra htype
      rw [not_or] at htype
      exact (hscreens screenId hscreenId).1
        (mem_collectChangedScreenIds he hscreen htype.1 htype.2)
    · rintro ⟨hkind, hremoved, rfl⟩
      exact (hscreens e.elementId hscreenId).2 (mem_collectRemovedScreenIds he hkind hremoved)

variable (toLowerCase isPunctuationOrSymbol) in
/-- What a report says. -/
structure SoundReport (input : ClassifyTestCaseDeltaInput) (visualFloor : JsNumber)
    (report : TestCaseDeltaReport) : Prop where
  once : (report.rows.map (·.testCaseId)).Nodup
  ids : ∀ id, id ∈ report.rows.map (·.testCaseId) ↔
    id ∈ input.prior.map (·.id) ∨ id ∈ input.current.map (·.id)
  totals : report.totals.new + report.totals.unchanged + report.totals.changed +
    report.totals.obsolete + report.totals.requiresReview = report.rows.length
  rows : ∀ row ∈ report.rows,
    SoundRow toLowerCase isPunctuationOrSymbol input visualFloor row

/-- Every id has one row, and its verdict is sound. -/
theorem classifyTestCaseDelta_sound (hsha256 : Function.Injective sha256)
    (hprior : (input.prior.map (·.id)).Nodup) (hcurrent : (input.current.map (·.id)).Nodup)
    {report : TestCaseDeltaReport}
    (h : classifyTestCaseDelta sha256 toLowerCase isPunctuationOrSymbol input = .ok report) :
    SoundReport toLowerCase isPunctuationOrSymbol input
      (input.visualConfidenceThreshold.getD testCaseDeltaDefaultVisualConfidenceFloor) report := by
  unfold classifyTestCaseDelta at h
  dsimp only at h
  split at h
  · cases h
  · obtain rfl := Except.ok.inj h
    have hperm := sortBy_perm compareRows (classifyAll sha256 toLowerCase isPunctuationOrSymbol
      (screenIndex input (input.visualConfidenceThreshold.getD
        testCaseDeltaDefaultVisualConfidenceFloor)) input.prior input.current)
    constructor
    · exact (hperm.map _).nodup_iff.mpr nodup_ids_classifyAll
    · intro id
      exact ((hperm.map _).mem_iff).trans mem_ids_classifyAll
    · exact sum_computeTotals _
    · intro row hrow
      have hmem := hperm.mem_iff.mp hrow
      rw [eq_rowAt_of_mem hmem]
      exact soundRow_rowAt hsha256 hprior hcurrent
        (mem_ids_classifyAll.mp (List.mem_map_of_mem hmem))

end

/-! ## A new test case, seen well and seen badly -/

def sampleCase (id : String) : GeneratedTestCase where
  id := js id
  title := js "log in"
  type := .functional
  riskCategory := .low
  steps := [js "open the page"]
  figmaTraceRefs := [js "s1"]
  qualitySignals := ⟨[], [], [], [], none⟩

def sampleInput (visual : Option (List VisualSidecarValidationRecord)) :
    ClassifyTestCaseDeltaInput where
  jobId := js "job-1"
  generatedAt := js "2026-01-01T00:00:00.000Z"
  prior := [sampleCase "tc-1"]
  current := [sampleCase "tc-2", sampleCase "tc-1"]
  currentIntent := ⟨[⟨js "s1", js "Login", none⟩], [], [], [], [], .obj []⟩
  intentDelta := none
  visual := visual
  visualConfidenceThreshold := none

def sampleDigest : JsString :=
  hexText 64 0x6997a6b96a5a43c9ff7f304b7fb0afdb30dba53e87fe87d26360c2bff2598569

def sampleDigests : List (JsString × JsString) :=
  [(canonicalJson (.arr ((sortStrings (buildTestCaseFingerprint id (fun _ ↦ false)
      (sampleCase "tc-1"))).map .str)), sampleDigest)]

theorem sampleDigests_injective : Function.Injective (tabledDigest sampleDigests) := by
  apply tabledDigest_injective
  · decide
  · decide

def sampleReport : TestCaseDeltaReport where
  jobId := js "job-1"
  generatedAt := js "2026-01-01T00:00:00.000Z"
  rows :=
    [⟨js "tc-1", .unchanged, [], [js "s1"], some sampleDigest, some sampleDigest⟩,
      ⟨js "tc-2", .new, [.absentInPrior], [js "s1"], none, some sampleDigest⟩]
  totals := ⟨1, 1, 0, 0, 0⟩

theorem classifyTestCaseDelta_sound_sample :
    SoundReport id (fun _ ↦ false) (sampleInput none) testCaseDeltaDefaultVisualConfidenceFloor
      sampleReport :=
  classifyTestCaseDelta_sound sampleDigests_injective (by decide) (by decide) (by decide +kernel)

def seenBadly : ClassifyTestCaseDeltaInput :=
  sampleInput (some [⟨js "s1", [.lowConfidence], .ofRat (1 / 2)⟩])

/-- A new test case on a screen that is seen badly is to be reviewed and not new. -/
theorem new_case_requires_review :
    ∃ report, classifyTestCaseDelta (tabledDigest sampleDigests) id (fun _ ↦ false) seenBadly =
        .ok report ∧
      js "tc-2" ∈ seenBadly.current.map (·.id) ∧ js "tc-2" ∉ seenBadly.prior.map (·.id) ∧
      ∃ row ∈ report.rows, row.testCaseId = js "tc-2" ∧ row.verdict ≠ .new := by
  refine ⟨⟨js "job-1", js "2026-01-01T00:00:00.000Z",
    [⟨js "tc-1", .requiresReview, [.visualConfidenceDropped], [js "s1"], some sampleDigest,
        some sampleDigest⟩,
      ⟨js "tc-2", .requiresReview, [.absentInPrior, .visualConfidenceDropped], [js "s1"], none,
        some sampleDigest⟩], ⟨0, 0, 0, 0, 2⟩⟩, ?_, ?_, ?_, ?_⟩
  · decide +kernel
  · decide
  · decide
  · exact ⟨_, .tail _ (.head _), rfl, by decide⟩

end TestIntelligence.CoreEngine.TestCaseDelta
