import TestIntelligence.AgenticHarness.CaseMergerOutcomes

/-!
# The ids of the merged cases

The merge tells cases apart by signature.  Ids that are distinct in each pass stay distinct
unless a case kept from pass A and one kept from pass B share an id.
-/

namespace TestIntelligence.AgenticHarness.CaseMerger

open Js Lists

section

variable {R : Type}

/-- The totals add up. -/
def totalsAddUp (totals : CaseMergerTotals) : Prop :=
  totals.onlyInRunA + totals.onlyInRunB + totals.inBoth = totals.mergedCount ∧
    totals.conflictsResolvedByRepair + totals.conflictsResolvedByPositiveBias = totals.inBoth

/-- The merged ids are distinct, and the totals add up. -/
def KeepsIdsUnique (input : MergeInput R) : Prop :=
  ∃ result, mergeGeneratedTestCaseListsWithProvenance input = .ok result ∧
    (result.merged.testCases.map (·.id)).Nodup ∧ totalsAddUp result.report.totals

/-- The case is the first of its signature and survives its counterpart in pass B. -/
def KeptA (input : MergeInput R) (a : GeneratedTestCase R) : Prop :=
  input.runA.testCases.find? (hasSignature (buildCaseMergerSignature a)) = some a ∧
    ∀ b, input.runB.testCases.find? (hasSignature (buildCaseMergerSignature a)) = some b →
      ¬ bWins input.repairsA input.repairsB a b

/-- The case is the first of its signature and its counterpart in pass A, if any, loses. -/
def KeptB (input : MergeInput R) (b : GeneratedTestCase R) : Prop :=
  input.runB.testCases.find? (hasSignature (buildCaseMergerSignature b)) = some b ∧
    ∀ a, input.runA.testCases.find? (hasSignature (buildCaseMergerSignature b)) = some a →
      bWins input.repairsA input.repairsB a b

/-! ## Totals -/

theorem countProvenance_entries (os : List (Outcome R)) (provenance : CaseMergerProvenance) :
    countProvenance (os.map (·.entry)) provenance =
      os.countP fun o ↦ o.entry.provenance = provenance := by
  rw [countProvenance, ← List.countP_eq_length_filter, List.countP_map]
  rfl

theorem provenances_add (os : List (Outcome R)) :
    countProvenance (os.map (·.entry)) .runA + countProvenance (os.map (·.entry)) .runB +
      countProvenance (os.map (·.entry)) .both = os.length := by
  simp only [countProvenance_entries]
  induction os with
  | nil => rfl
  | cons o os ih =>
      simp only [List.countP_cons, List.length_cons]
      cases o.entry.provenance <;> simp <;> omega

theorem resolutions_add {os : List (Outcome R)}
    (h : ∀ o ∈ os, o.entry.conflictResolution = .noConflict ↔ o.entry.provenance ≠ .both) :
    countResolution os .preferUnrepaired + countResolution os .positiveBiasRunA =
      countProvenance (os.map (·.entry)) .both := by
  rw [countProvenance_entries, countResolution, countResolution]
  induction os with
  | nil => rfl
  | cons o os ih =>
      obtain ⟨ho, hos⟩ := List.forall_mem_cons.mp h
      have htail := ih hos
      simp only [List.countP_cons]
      cases hr : o.entry.conflictResolution <;> cases hp : o.entry.provenance <;>
        simp_all <;> omega

/-! ## Which case an outcome keeps -/

def MergeInput.outcomes (input : MergeInput R) : List (Outcome R) :=
  CaseMerger.outcomes input.repairsA input.repairsB input.runA.testCases input.runB.testCases

/-- The outcome has the id and the signature of the case. -/
def Keeps (o : Outcome R) (c : GeneratedTestCase R) : Prop :=
  o.testCase.id = c.id ∧ o.entry.signature = buildCaseMergerSignature c

theorem find?_of_mem_firsts {cases : List (GeneratedTestCase R)} {c : GeneratedTestCase R}
    (h : c ∈ firstsBy buildCaseMergerSignature cases) :
    cases.find? (hasSignature (buildCaseMergerSignature c)) = some c := find?_of_mem_firstsBy h

theorem mem_firsts_of_find? {cases : List (GeneratedTestCase R)} {signature : JsString}
    {c : GeneratedTestCase R} (h : cases.find? (hasSignature signature) = some c) :
    c ∈ firstsBy buildCaseMergerSignature cases := mem_firstsBy_of_find? h

theorem find?_of_unmatched {cases : List (GeneratedTestCase R)} {c : GeneratedTestCase R}
    (h : Unmatched cases c) : cases.find? (hasSignature (buildCaseMergerSignature c)) = none :=
  List.find?_eq_none.mpr fun c' hc' ↦ by simpa [hasSignature] using h c' hc'

theorem outcomeA_of_find? {repairsA repairsB : List JsString}
    {casesB : List (GeneratedTestCase R)} {a b : GeneratedTestCase R}
    (h : casesB.find? (hasSignature (buildCaseMergerSignature a)) = some b) :
    outcomeA repairsA repairsB casesB a = pairOutcome repairsA repairsB a b := by
  rw [outcomeA, h]

theorem outcomeA_of_unmatched {repairsA repairsB : List JsString}
    {casesB : List (GeneratedTestCase R)} {a : GeneratedTestCase R}
    (h : casesB.find? (hasSignature (buildCaseMergerSignature a)) = none) :
    outcomeA repairsA repairsB casesB a = keepCase .runA (indexed a 0) := by
  rw [outcomeA, h]

theorem keeps_pairOutcome {repairsA repairsB : List JsString} {a b : GeneratedTestCase R}
    (h : buildCaseMergerSignature a = buildCaseMergerSignature b) :
    Keeps (pairOutcome repairsA repairsB a b) (if bWins repairsA repairsB a b then b else a) := by
  split
  · next hb =>
    refine ⟨?_, (signature_pairOutcome h).1.trans h⟩
    rw [pairOutcome_of_bWins hb]
    rfl
  · next hb =>
    refine ⟨?_, (signature_pairOutcome h).1⟩
    rw [pairOutcome_of_not_bWins hb]
    rfl

theorem kept_of_mem_outcomes {input : MergeInput R} {o : Outcome R} (h : o ∈ input.outcomes) :
    (∃ a, KeptA input a ∧ Keeps o a) ∨ ∃ b, KeptB input b ∧ Keeps o b := by
  rcases mem_outcomes.mp h with ⟨a, ha, rfl⟩ | ⟨b, hb, hunmatched, rfl⟩
  · have hfirst := find?_of_mem_firsts ha
    cases hmatch : input.runB.testCases.find? (hasSignature (buildCaseMergerSignature a)) with
    | none =>
        rw [outcomeA_of_unmatched hmatch]
        exact .inl ⟨a, ⟨hfirst, fun b hb ↦ by simp [hmatch] at hb⟩, rfl, rfl⟩
    | some b =>
        have hsignature := (find?_hasSignature hmatch).2
        have hkeeps := @keeps_pairOutcome _ input.repairsA input.repairsB _ _ hsignature.symm
        rw [outcomeA_of_find? hmatch]
        split at hkeeps
        · next hb =>
          refine .inr ⟨b, ⟨?_, fun a' ha' ↦ ?_⟩, hkeeps⟩
          · rw [hsignature]
            exact hmatch
          · rw [hsignature, hfirst] at ha'
            obtain rfl := Option.some.inj ha'
            exact hb
        · next hb =>
          refine .inl ⟨a, ⟨hfirst, fun b' hb' ↦ ?_⟩, hkeeps⟩
          obtain rfl := Option.some.inj (hmatch.symm.trans hb')
          exact hb
  · refine .inr ⟨b, ⟨find?_of_mem_firsts hb, fun a ha ↦ ?_⟩, rfl, rfl⟩
    simp [find?_of_unmatched hunmatched] at ha

theorem KeptA.exists_outcome {input : MergeInput R} {a : GeneratedTestCase R}
    (h : KeptA input a) : ∃ o ∈ input.outcomes, Keeps o a := by
  refine ⟨_, mem_outcomes.mpr (.inl ⟨a, mem_firsts_of_find? h.1, rfl⟩), ?_⟩
  cases hmatch : input.runB.testCases.find? (hasSignature (buildCaseMergerSignature a)) with
  | none =>
      rw [outcomeA_of_unmatched hmatch]
      exact ⟨rfl, rfl⟩
  | some b =>
      have hkeeps := @keeps_pairOutcome _ input.repairsA input.repairsB _ _
        (find?_hasSignature hmatch).2.symm
      rw [outcomeA_of_find? hmatch]
      rwa [if_neg (h.2 b hmatch)] at hkeeps

theorem KeptB.exists_outcome {input : MergeInput R} {b : GeneratedTestCase R}
    (h : KeptB input b) : ∃ o ∈ input.outcomes, Keeps o b := by
  cases hmatch : input.runA.testCases.find? (hasSignature (buildCaseMergerSignature b)) with
  | none =>
      refine ⟨outcomeB b, mem_outcomes.mpr (.inr ⟨b, mem_firsts_of_find? h.1, ?_, rfl⟩), rfl, rfl⟩
      exact unmatched_of_find? hmatch
  | some a =>
      have hsignature := (find?_hasSignature hmatch).2
      have hfirst := h.1
      rw [← hsignature] at hfirst
      have hkeeps := @keeps_pairOutcome _ input.repairsA input.repairsB _ _ hsignature
      rw [if_pos (h.2 a hmatch)] at hkeeps
      refine ⟨_, mem_outcomes.mpr (.inl ⟨a, mem_firsts_of_find? hmatch, rfl⟩), ?_⟩
      rw [outcomeA_of_find? hfirst]
      exact hkeeps

/-- Of one signature one case is kept. -/
theorem signature_ne_of_kept {input : MergeInput R} {a b : GeneratedTestCase R}
    (ha : KeptA input a) (hb : KeptB input b) :
    buildCaseMergerSignature a ≠ buildCaseMergerSignature b := by
  intro heq
  have hfirstA := ha.1
  have hfirstB := hb.1
  rw [heq] at hfirstA
  rw [← heq] at hfirstB
  exact ha.2 b hfirstB (hb.2 a hfirstA)

theorem nodup_ids_iff {input : MergeInput R}
    (hA : (input.runA.testCases.map (·.id)).Nodup)
    (hB : (input.runB.testCases.map (·.id)).Nodup) :
    (input.outcomes.map (·.testCase.id)).Nodup ↔
      ∀ a b, KeptA input a → KeptB input b → a.id ≠ b.id := by
  have hnodup : input.outcomes.Nodup := (nodup_signatures_outcomes _ _ _ _).of_map _
  rw [List.nodup_map_iff_inj_on hnodup]
  constructor
  · intro hinj a b ha hb hid
    obtain ⟨o, ho, hoa⟩ := ha.exists_outcome
    obtain ⟨o', ho', hob⟩ := hb.exists_outcome
    have heq := hinj o ho o' ho' (hoa.1.trans (hid.trans hob.1.symm))
    rw [← heq] at hob
    exact signature_ne_of_kept ha hb (hoa.2.symm.trans hob.2)
  · intro hapart o ho o' ho' hid
    apply eq_of_signature_eq ho ho'
    rcases kept_of_mem_outcomes ho with ⟨a, ha, hoa⟩ | ⟨b, hb, hob⟩
    · rcases kept_of_mem_outcomes ho' with ⟨a', ha', hoa'⟩ | ⟨b', hb', hob'⟩
      · have hsame : a.id = a'.id := hoa.1.symm.trans (hid.trans hoa'.1)
        have heq := List.inj_on_of_nodup_map hA (find?_hasSignature ha.1).1
          (find?_hasSignature ha'.1).1 hsame
        rw [hoa.2, hoa'.2, heq]
      · exact absurd (hoa.1.symm.trans (hid.trans hob'.1)) (hapart a b' ha hb')
    · rcases kept_of_mem_outcomes ho' with ⟨a', ha', hoa'⟩ | ⟨b', hb', hob'⟩
      · exact absurd (hoa'.1.symm.trans (hid.symm.trans hob.1)) (hapart a' b ha' hb)
      · have hsame : b.id = b'.id := hob.1.symm.trans (hid.trans hob'.1)
        have heq := List.inj_on_of_nodup_map hB (find?_hasSignature hb.1).1
          (find?_hasSignature hb'.1).1 hsame
        rw [hob.2, hob'.2, heq]

theorem resolution_of_mem_outcomes {input : MergeInput R} {o : Outcome R}
    (h : o ∈ input.outcomes) :
    o.entry.conflictResolution = .noConflict ↔ o.entry.provenance ≠ .both := by
  rcases mem_outcomes.mp h with ⟨a, -, rfl⟩ | ⟨b, -, -, rfl⟩
  · rw [provenance_outcomeA]
    split <;> simp_all
  · exact ⟨fun _ ↦ CaseMergerProvenance.noConfusion, fun _ ↦ rfl⟩

/-- The merged ids are distinct exactly where no case kept from pass A shares its id with
one kept from pass B; the totals always add up. -/
theorem keepsIdsUnique_iff {input : MergeInput R} (hjob : input.runA.jobId = input.runB.jobId)
    (hgeneratedAt : input.generatedAt ≠ [])
    (hA : (input.runA.testCases.map (·.id)).Nodup)
    (hB : (input.runB.testCases.map (·.id)).Nodup) :
    KeepsIdsUnique input ↔ ∀ a b, KeptA input a → KeptB input b → a.id ≠ b.id := by
  obtain ⟨result, hresult, hcases, hentries, htotals⟩ := merge_eq_ok hjob hgeneratedAt
  have hids : (result.merged.testCases.map (·.id)).Perm (input.outcomes.map (·.testCase.id)) := by
    rw [hcases, List.map_map]
    exact (sorted_perm input).map _
  have htotal : totalsAddUp result.report.totals := by
    rw [htotals]
    refine ⟨provenances_add input.sorted, resolutions_add fun o ho ↦ ?_⟩
    exact resolution_of_mem_outcomes ((sorted_perm input).mem_iff.mp ho)
  rw [← nodup_ids_iff hA hB, ← hids.nodup_iff]
  constructor
  · rintro ⟨result', hresult', hnodup, -⟩
    obtain rfl := Except.ok.inj (hresult.symm.trans hresult')
    exact hnodup
  · exact fun hnodup ↦ ⟨result, hresult, hnodup, htotal⟩

/-! ## One id in both passes -/

def sampleCaseOn (id screen : String) : GeneratedTestCase Unit where
  id := js id
  technique := js "equivalence_partitioning"
  figmaTraceRefs := [⟨js screen, ()⟩]
  qualitySignals := ⟨[], [], [], [], ()⟩
  rest := ()

def sampleRuns (casesA casesB : List (GeneratedTestCase Unit)) : MergeInput Unit where
  runA := ⟨js "1.1.0", js "job-1", casesA⟩
  runB := ⟨js "1.1.0", js "job-1", casesB⟩
  generatedAt := js "2026-01-01T00:00:00.000Z"
  repairs := none

theorem keepsIdsUnique_sample : KeepsIdsUnique
    (sampleRuns [sampleCaseOn "tc-1" "screen-1"] [sampleCaseOn "tc-2" "screen-2"]) := by
  apply (keepsIdsUnique_iff rfl (by decide) (by decide) (by decide)).mpr
  intro a b ha hb
  rw [List.mem_singleton.mp (find?_hasSignature ha.1).1,
    List.mem_singleton.mp (find?_hasSignature hb.1).1]
  decide

theorem shared_id_not_unique : ¬ KeepsIdsUnique
    (sampleRuns [sampleCaseOn "tc-1" "screen-1"] [sampleCaseOn "tc-1" "screen-2"]) := by
  rintro ⟨result, hresult, hnodup, -⟩
  obtain ⟨result', hresult', hcases, -⟩ := @merge_eq_ok _
    (sampleRuns [sampleCaseOn "tc-1" "screen-1"] [sampleCaseOn "tc-1" "screen-2"]) rfl (by decide)
  obtain rfl := Except.ok.inj (hresult.symm.trans hresult')
  have hne : buildCaseMergerSignature (sampleCaseOn "tc-1" "screen-1") ≠
      buildCaseMergerSignature (sampleCaseOn "tc-1" "screen-2") :=
    fun heq ↦ absurd (signature_eq_iff.mp heq).1 (by decide)
  have hself : ∀ c : GeneratedTestCase Unit,
      [c].find? (hasSignature (buildCaseMergerSignature c)) = some c :=
    fun c ↦ List.find?_cons_of_pos (by simp [hasSignature])
  have hother : ∀ c c' : GeneratedTestCase Unit, buildCaseMergerSignature c' ≠
      buildCaseMergerSignature c → [c'].find? (hasSignature (buildCaseMergerSignature c)) = none :=
    fun c c' hne ↦ List.find?_cons_of_neg (by simpa [hasSignature] using hne)
  rw [hcases, List.map_map, ((sorted_perm _).map _).nodup_iff] at hnodup
  refine (nodup_ids_iff (by decide) (by decide)).mp hnodup (sampleCaseOn "tc-1" "screen-1")
    (sampleCaseOn "tc-1" "screen-2") ⟨hself _, fun b hb ↦ ?_⟩ ⟨hself _, fun a ha ↦ ?_⟩ rfl
  · cases (hother _ _ hne.symm).symm.trans hb
  · cases (hother _ _ hne).symm.trans ha

end

end TestIntelligence.AgenticHarness.CaseMerger
