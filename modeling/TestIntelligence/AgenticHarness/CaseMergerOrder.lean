import TestIntelligence.AgenticHarness.CaseMergerOutcomes
import TestIntelligence.Lists.StableSorting

/-!
# The merge and the order within a pass

The first case of a signature wins and ties between equal ids keep their order, so the
order within a pass shows where cases of one signature differ or cases of different
signatures share an id.  It shows nowhere else, and then no coverage is lost either.
-/

namespace TestIntelligence.AgenticHarness.CaseMerger

open Js Lists

section

variable {R : Type}

def MergeInput.withCases (input : MergeInput R) (casesA casesB : List (GeneratedTestCase R)) :
    MergeInput R :=
  { input with
    runA := { input.runA with testCases := casesA }
    runB := { input.runB with testCases := casesB } }

inductive CoverageKind
  | field
  | action
  | validation
  | navigation

def coveredIds (signals : QualitySignals R) : CoverageKind → List JsString
  | .field => signals.coveredFieldIds
  | .action => signals.coveredActionIds
  | .validation => signals.coveredValidationIds
  | .navigation => signals.coveredNavigationIds

/-- The merge is one case for each signature, whatever the order within the passes, and
covers what the passes cover. -/
def Lawful (input : MergeInput R) : Prop :=
  ∃ result, mergeGeneratedTestCaseListsWithProvenance input = .ok result ∧
    (result.merged.testCases.map buildCaseMergerSignature).Nodup ∧
    (∀ signature, signature ∈ result.merged.testCases.map buildCaseMergerSignature ↔
      signature ∈ input.runA.testCases.map buildCaseMergerSignature ∨
        signature ∈ input.runB.testCases.map buildCaseMergerSignature) ∧
    (∀ casesA casesB, casesA.Perm input.runA.testCases → casesB.Perm input.runB.testCases →
      ∃ result', mergeGeneratedTestCaseListsWithProvenance (input.withCases casesA casesB) =
          .ok result' ∧
        result'.merged.testCases = result.merged.testCases ∧
        result'.report.entries = result.report.entries) ∧
    ∀ c ∈ input.runA.testCases ++ input.runB.testCases, ∀ kind,
      ∀ id ∈ coveredIds c.qualitySignals kind, ∃ m ∈ result.merged.testCases,
        buildCaseMergerSignature m = buildCaseMergerSignature c ∧
          id ∈ coveredIds m.qualitySignals kind

/-- What the merge can make of a case of pass A, whichever case of its signature comes first
in pass B. -/
def Yields (repairsA repairsB : List JsString) (casesB : List (GeneratedTestCase R))
    (a : GeneratedTestCase R) (o : Outcome R) : Prop :=
  (∃ b ∈ casesB, buildCaseMergerSignature b = buildCaseMergerSignature a ∧
      pairOutcome repairsA repairsB a b = o) ∨
    Unmatched casesB a ∧ keepCase .runA (indexed a 0) = o

/-- Cases of one signature are interchangeable, and cases of different signatures end up
under different ids. -/
structure OrderFree (repairsA repairsB : List JsString)
    (casesA casesB : List (GeneratedTestCase R)) : Prop where
  agreeA : ∀ a ∈ casesA, ∀ a' ∈ casesA,
    buildCaseMergerSignature a = buildCaseMergerSignature a' →
      ∀ o o', Yields repairsA repairsB casesB a o → Yields repairsA repairsB casesB a' o' → o = o'
  agreeB : ∀ b ∈ casesB, ∀ b' ∈ casesB, Unmatched casesA b →
    buildCaseMergerSignature b = buildCaseMergerSignature b' → b = b'
  apartA : ∀ a ∈ casesA, ∀ a' ∈ casesA,
    buildCaseMergerSignature a ≠ buildCaseMergerSignature a' →
      ∀ o o', Yields repairsA repairsB casesB a o → Yields repairsA repairsB casesB a' o' →
        o.testCase.id ≠ o'.testCase.id
  apartB : ∀ b ∈ casesB, ∀ b' ∈ casesB, Unmatched casesA b → Unmatched casesA b' →
    buildCaseMergerSignature b ≠ buildCaseMergerSignature b' → b.id ≠ b'.id

section

variable {repairsA repairsB : List JsString} {casesA casesB : List (GeneratedTestCase R)}

/-! ## Yields -/

theorem exists_first {cases : List (GeneratedTestCase R)} {c : GeneratedTestCase R}
    (h : c ∈ cases) :
    ∃ first ∈ firstsBy buildCaseMergerSignature cases,
      buildCaseMergerSignature first = buildCaseMergerSignature c := exists_mem_firstsBy h

theorem yields_outcomeA (a : GeneratedTestCase R) :
    Yields repairsA repairsB casesB a (outcomeA repairsA repairsB casesB a) := by
  unfold outcomeA
  split
  · next hnone => exact .inr ⟨unmatched_of_find? hnone, rfl⟩
  · next b hb =>
    obtain ⟨hmem, hsignature⟩ := find?_hasSignature hb
    exact .inl ⟨b, hmem, hsignature, rfl⟩

theorem Yields.of_perm {casesB' : List (GeneratedTestCase R)} {a : GeneratedTestCase R}
    {o : Outcome R} (h : Yields repairsA repairsB casesB' a o) (hperm : casesB'.Perm casesB) :
    Yields repairsA repairsB casesB a o := by
  rcases h with ⟨b, hb, h⟩ | ⟨hunmatched, h⟩
  · exact .inl ⟨b, hperm.mem_iff.mp hb, h⟩
  · exact .inr ⟨fun b hb ↦ hunmatched b (hperm.mem_iff.mpr hb), h⟩

theorem unmatched_perm {casesA' : List (GeneratedTestCase R)} (hperm : casesA'.Perm casesA)
    {b : GeneratedTestCase R} : Unmatched casesA' b ↔ Unmatched casesA b :=
  ⟨fun h a ha ↦ h a (hperm.mem_iff.mpr ha), fun h a ha ↦ h a (hperm.mem_iff.mp ha)⟩

theorem OrderFree.of_perm {casesA' casesB' : List (GeneratedTestCase R)}
    (h : OrderFree repairsA repairsB casesA casesB) (hA : casesA'.Perm casesA)
    (hB : casesB'.Perm casesB) : OrderFree repairsA repairsB casesA' casesB' := by
  constructor
  · intro a ha a' ha' hsignature o o' ho ho'
    exact h.agreeA a (hA.mem_iff.mp ha) a' (hA.mem_iff.mp ha') hsignature o o' (ho.of_perm hB)
      (ho'.of_perm hB)
  · intro b hb b' hb' hunmatched
    exact h.agreeB b (hB.mem_iff.mp hb) b' (hB.mem_iff.mp hb') ((unmatched_perm hA).mp hunmatched)
  · intro a ha a' ha' hsignature o o' ho ho'
    exact h.apartA a (hA.mem_iff.mp ha) a' (hA.mem_iff.mp ha') hsignature o o' (ho.of_perm hB)
      (ho'.of_perm hB)
  · intro b hb b' hb' hunmatched hunmatched'
    exact h.apartB b (hB.mem_iff.mp hb) b' (hB.mem_iff.mp hb') ((unmatched_perm hA).mp hunmatched)
      ((unmatched_perm hA).mp hunmatched')

/-! ## Order does not show -/

/-- The outcomes, without regard to which case of a signature comes first. -/
theorem OrderFree.mem_outcomes_iff (h : OrderFree repairsA repairsB casesA casesB)
    {o : Outcome R} :
    o ∈ outcomes repairsA repairsB casesA casesB ↔
      (∃ a ∈ casesA, Yields repairsA repairsB casesB a o) ∨
        ∃ b ∈ casesB, Unmatched casesA b ∧ outcomeB b = o := by
  have hfirstA := (firstsBy_sublist buildCaseMergerSignature casesA).subset
  have hfirstB := (firstsBy_sublist buildCaseMergerSignature casesB).subset
  rw [mem_outcomes]
  constructor
  · rintro (⟨a, ha, rfl⟩ | ⟨b, hb, h⟩)
    · exact .inl ⟨a, hfirstA ha, yields_outcomeA a⟩
    · exact .inr ⟨b, hfirstB hb, h⟩
  · rintro (⟨a, ha, hyields⟩ | ⟨b, hb, hunmatched, rfl⟩)
    · obtain ⟨first, hfirst, hsignature⟩ := exists_first ha
      exact .inl ⟨first, hfirst, h.agreeA first (hfirstA hfirst) a ha hsignature _ _
        (yields_outcomeA first) hyields⟩
    · obtain ⟨first, hfirst, hsignature⟩ := exists_first hb
      have heq := h.agreeB b hb first (hfirstB hfirst) hunmatched hsignature.symm
      exact .inr ⟨first, hfirst, heq ▸ hunmatched, congrArg outcomeB heq.symm⟩

theorem OrderFree.outcomes_perm {casesA' casesB' : List (GeneratedTestCase R)}
    (h : OrderFree repairsA repairsB casesA casesB) (hA : casesA'.Perm casesA)
    (hB : casesB'.Perm casesB) :
    (outcomes repairsA repairsB casesA' casesB').Perm
      (outcomes repairsA repairsB casesA casesB) := by
  have hnodup := fun casesA casesB : List (GeneratedTestCase R) ↦
    (nodup_signatures_outcomes repairsA repairsB casesA casesB).of_map _
  rw [List.perm_ext_iff_of_nodup (hnodup casesA' casesB') (hnodup casesA casesB)]
  intro o
  rw [h.mem_outcomes_iff, (h.of_perm hA hB).mem_outcomes_iff]
  constructor
  · rintro (⟨a, ha, hyields⟩ | ⟨b, hb, hunmatched, h⟩)
    · exact .inl ⟨a, hA.mem_iff.mp ha, hyields.of_perm hB⟩
    · exact .inr ⟨b, hB.mem_iff.mp hb, (unmatched_perm hA).mp hunmatched, h⟩
  · rintro (⟨a, ha, hyields⟩ | ⟨b, hb, hunmatched, h⟩)
    · exact .inl ⟨a, hA.mem_iff.mpr ha, hyields.of_perm hB.symm⟩
    · exact .inr ⟨b, hB.mem_iff.mpr hb, (unmatched_perm hA).mpr hunmatched, h⟩

/-- An outcome of pass B alone comes behind those of pass A. -/
def BehindA (o o' : Outcome R) : Prop := o.entry.provenance = .runB → o'.entry.provenance = .runB

theorem provenance_outcomeA_ne (a : GeneratedTestCase R) :
    (outcomeA repairsA repairsB casesB a).entry.provenance ≠ .runB := by
  rw [provenance_outcomeA]
  split <;> decide

theorem pairwise_behindA : (outcomes repairsA repairsB casesA casesB).Pairwise BehindA := by
  rw [outcomes, List.pairwise_append]
  refine ⟨?_, ?_, ?_⟩
  · apply List.pairwise_of_forall_mem_list
    intro o ho o' _ hprovenance
    obtain ⟨a, -, rfl⟩ := List.mem_map.mp ho
    exact absurd hprovenance (provenance_outcomeA_ne a)
  · apply List.pairwise_of_forall_mem_list
    intro o _ o' ho' _
    obtain ⟨b, -, rfl⟩ := List.mem_map.mp ho'
    rfl
  · intro o ho o' _ hprovenance
    obtain ⟨a, -, rfl⟩ := List.mem_map.mp ho
    exact absurd hprovenance (provenance_outcomeA_ne a)

theorem OrderFree.eq_of_ties (h : OrderFree repairsA repairsB casesA casesB) {o o' : Outcome R}
    (ho : o ∈ outcomes repairsA repairsB casesA casesB)
    (ho' : o' ∈ outcomes repairsA repairsB casesA casesB) (hid : o.testCase.id = o'.testCase.id)
    (hbehind : BehindA o o') (hbehind' : BehindA o' o) : o = o' := by
  have hfirstA := (firstsBy_sublist buildCaseMergerSignature casesA).subset
  have hfirstB := (firstsBy_sublist buildCaseMergerSignature casesB).subset
  apply eq_of_signature_eq ho ho'
  by_contra hne
  rcases mem_outcomes.mp ho with ⟨a, ha, rfl⟩ | ⟨b, hb, hunmatched, rfl⟩
  · rcases mem_outcomes.mp ho' with ⟨a', ha', rfl⟩ | ⟨b', hb', -, rfl⟩
    · rw [(signature_outcomeA repairsA repairsB casesB a).1,
        (signature_outcomeA repairsA repairsB casesB a').1] at hne
      exact h.apartA a (hfirstA ha) a' (hfirstA ha') hne _ _ (yields_outcomeA a)
        (yields_outcomeA a') hid
    · exact provenance_outcomeA_ne a (hbehind' rfl)
  · rcases mem_outcomes.mp ho' with ⟨a', ha', rfl⟩ | ⟨b', hb', hunmatched', rfl⟩
    · exact provenance_outcomeA_ne a' (hbehind rfl)
    · exact h.apartB b (hfirstB hb) b' (hfirstB hb') hunmatched hunmatched' hne hid

def sortedOutcomes (repairsA repairsB : List JsString)
    (casesA casesB : List (GeneratedTestCase R)) : List (Outcome R) :=
  sortOn (·.testCase.id) (outcomes repairsA repairsB casesA casesB)

theorem OrderFree.sortedOutcomes_eq {casesA' casesB' : List (GeneratedTestCase R)}
    (h : OrderFree repairsA repairsB casesA casesB) (hA : casesA'.Perm casesA)
    (hB : casesB'.Perm casesB) :
    sortedOutcomes repairsA repairsB casesA' casesB' =
      sortedOutcomes repairsA repairsB casesA casesB := by
  let byId : Outcome R → Outcome R → Prop := fun o o' ↦ o.testCase.id ≤ o'.testCase.id
  have : Std.Total byId := ⟨fun _ _ ↦ Std.le_total⟩
  have : IsTrans (Outcome R) byId := ⟨fun _ _ _ ↦ Std.le_trans⟩
  have hstable : ∀ casesA casesB, Stable byId BehindA
      (sortedOutcomes repairsA repairsB casesA casesB) :=
    fun casesA casesB ↦ stable_insertionSort pairwise_behindA
  have hperm : (sortedOutcomes repairsA repairsB casesA' casesB').Perm
      (sortedOutcomes repairsA repairsB casesA casesB) :=
    (sortOn_perm _ _).trans ((h.outcomes_perm hA hB).trans (sortOn_perm _ _).symm)
  apply (hstable casesA' casesB').eq_of_perm (hstable casesA casesB) _ hperm
  intro o ho o' ho' hle hle' hbehind hbehind'
  exact (h.of_perm hA hB).eq_of_ties (mem_sortOn.mp ho) (mem_sortOn.mp ho')
    (Std.le_antisymm hle hle') hbehind hbehind'

/-! ## No coverage is lost -/

theorem mem_coveredIds_merge {primary secondary : QualitySignals R} {kind : CoverageKind}
    {id : JsString} :
    id ∈ coveredIds (mergeQualitySignalCoverage primary secondary).signals kind ↔
      id ∈ coveredIds primary kind ∨ id ∈ coveredIds secondary kind := by
  cases kind <;> exact mem_sortedUnique.trans List.mem_append

theorem mem_coveredIds_pairOutcome {a b : GeneratedTestCase R} {kind : CoverageKind}
    {id : JsString} :
    id ∈ coveredIds (pairOutcome repairsA repairsB a b).testCase.qualitySignals kind ↔
      id ∈ coveredIds a.qualitySignals kind ∨ id ∈ coveredIds b.qualitySignals kind := by
  by_cases hb : bWins repairsA repairsB a b
  · rw [pairOutcome_of_bWins hb]
    exact mem_coveredIds_merge.trans or_comm
  · rw [pairOutcome_of_not_bWins hb]
    exact mem_coveredIds_merge

theorem Yields.covers {a : GeneratedTestCase R} {o : Outcome R}
    (h : Yields repairsA repairsB casesB a o) {kind : CoverageKind} {id : JsString}
    (hid : id ∈ coveredIds a.qualitySignals kind) :
    id ∈ coveredIds o.testCase.qualitySignals kind := by
  rcases h with ⟨b, -, -, rfl⟩ | ⟨-, rfl⟩
  · exact mem_coveredIds_pairOutcome.mpr (.inl hid)
  · exact hid

theorem Yields.signature {a : GeneratedTestCase R} {o : Outcome R}
    (h : Yields repairsA repairsB casesB a o) :
    buildCaseMergerSignature o.testCase = buildCaseMergerSignature a := by
  rcases h with ⟨b, -, hsignature, rfl⟩ | ⟨-, rfl⟩
  · exact (signature_pairOutcome hsignature.symm).2
  · rfl

theorem OrderFree.covered (h : OrderFree repairsA repairsB casesA casesB)
    {c : GeneratedTestCase R} (hc : c ∈ casesA ++ casesB) {kind : CoverageKind} {id : JsString}
    (hid : id ∈ coveredIds c.qualitySignals kind) :
    ∃ o ∈ outcomes repairsA repairsB casesA casesB,
      buildCaseMergerSignature o.testCase = buildCaseMergerSignature c ∧
        id ∈ coveredIds o.testCase.qualitySignals kind := by
  rcases List.mem_append.mp hc with hA | hB
  · have hyields : Yields repairsA repairsB casesB c _ := yields_outcomeA c
    exact ⟨_, h.mem_outcomes_iff.mpr (.inl ⟨c, hA, hyields⟩), hyields.signature,
      hyields.covers hid⟩
  · by_cases hunmatched : Unmatched casesA c
    · exact ⟨outcomeB c, h.mem_outcomes_iff.mpr (.inr ⟨c, hB, hunmatched, rfl⟩), rfl, hid⟩
    · simp only [Unmatched, not_forall, not_not] at hunmatched
      obtain ⟨a, ha, hsignature⟩ := hunmatched
      have hyields : Yields repairsA repairsB casesB a (pairOutcome repairsA repairsB a c) :=
        .inl ⟨c, hB, hsignature.symm, rfl⟩
      exact ⟨_, h.mem_outcomes_iff.mpr (.inl ⟨a, ha, hyields⟩), hyields.signature.trans hsignature,
        mem_coveredIds_pairOutcome.mpr (.inr hid)⟩

/-- The signatures of the outcomes are those of both passes. -/
theorem mem_signatures_outcomes {signature : JsString} :
    (∃ o ∈ outcomes repairsA repairsB casesA casesB,
        buildCaseMergerSignature o.testCase = signature) ↔
      signature ∈ casesA.map buildCaseMergerSignature ∨
        signature ∈ casesB.map buildCaseMergerSignature := by
  have hfirstA := (firstsBy_sublist buildCaseMergerSignature casesA).subset
  have hfirstB := (firstsBy_sublist buildCaseMergerSignature casesB).subset
  have houtcomeA : ∀ a ∈ casesA, ∃ o ∈ outcomes repairsA repairsB casesA casesB,
      buildCaseMergerSignature o.testCase = buildCaseMergerSignature a := by
    intro a ha
    obtain ⟨first, hfirst, hsignature⟩ := exists_first ha
    exact ⟨_, mem_outcomes.mpr (.inl ⟨first, hfirst, rfl⟩),
      (signature_outcomeA repairsA repairsB casesB first).2.trans hsignature⟩
  constructor
  · rintro ⟨o, ho, rfl⟩
    rcases mem_outcomes.mp ho with ⟨a, ha, rfl⟩ | ⟨b, hb, -, rfl⟩
    · rw [(signature_outcomeA repairsA repairsB casesB a).2]
      exact .inl (List.mem_map_of_mem (hfirstA ha))
    · exact .inr (List.mem_map_of_mem (hfirstB hb))
  · rintro (hA | hB)
    · obtain ⟨a, ha, rfl⟩ := List.mem_map.mp hA
      exact houtcomeA a ha
    · obtain ⟨b, hb, rfl⟩ := List.mem_map.mp hB
      by_cases hunmatched : Unmatched casesA b
      · obtain ⟨first, hfirst, hsignature⟩ := exists_first hb
        have hfirstUnmatched : Unmatched casesA first :=
          fun a ha heq ↦ hunmatched a ha (heq.trans hsignature)
        exact ⟨outcomeB first, mem_outcomes.mpr (.inr ⟨first, hfirst, hfirstUnmatched, rfl⟩),
          hsignature⟩
      · simp only [Unmatched, not_forall, not_not] at hunmatched
        obtain ⟨a, ha, hsignature⟩ := hunmatched
        rw [← hsignature]
        exact houtcomeA a ha

/-! ## Where the order shows -/

/-- Another order of pass B makes the outcome of a case any that it can yield, and no outcome
of another signature changes. -/
theorem Yields.exists_perm {a : GeneratedTestCase R} {o : Outcome R}
    (h : Yields repairsA repairsB casesB a o) :
    ∃ casesB' : List (GeneratedTestCase R), casesB'.Perm casesB ∧
      outcomeA repairsA repairsB casesB' a = o ∧
      ∀ a', buildCaseMergerSignature a' ≠ buildCaseMergerSignature a →
        outcomeA repairsA repairsB casesB' a' = outcomeA repairsA repairsB casesB a' := by
  rcases h with ⟨b, hb, hsignature, rfl⟩ | ⟨hunmatched, rfl⟩
  · obtain ⟨casesB', hperm, hfirst, hothers⟩ :=
      @exists_perm_find?_eq _ _ _ buildCaseMergerSignature _ _ hb
    refine ⟨casesB', hperm, ?_, fun a' hne ↦ ?_⟩
    · rw [hsignature] at hfirst
      unfold outcomeA hasSignature
      rw [hfirst]
    · have hfind := hothers (buildCaseMergerSignature a')
        fun heq ↦ hne (heq.trans hsignature)
      unfold outcomeA hasSignature
      rw [hfind]
  · refine ⟨casesB, List.Perm.refl _, ?_, fun _ _ ↦ rfl⟩
    have hnone : casesB.find? (hasSignature (buildCaseMergerSignature a)) = none :=
      List.find?_eq_none.mpr fun b hb ↦ by simpa [hasSignature] using hunmatched b hb
    rw [outcomeA, hnone]

/-- No order within the passes changes what is merged. -/
def OrderDoesNotShow (repairsA repairsB : List JsString)
    (casesA casesB : List (GeneratedTestCase R)) : Prop :=
  ∀ casesA' casesB' : List (GeneratedTestCase R), casesA'.Perm casesA → casesB'.Perm casesB →
    sortedOutcomes repairsA repairsB casesA' casesB' =
      sortedOutcomes repairsA repairsB casesA casesB

theorem OrderDoesNotShow.mem (h : OrderDoesNotShow repairsA repairsB casesA casesB)
    {casesA' casesB' : List (GeneratedTestCase R)} (hA : casesA'.Perm casesA)
    (hB : casesB'.Perm casesB) {o : Outcome R}
    (ho : o ∈ outcomes repairsA repairsB casesA' casesB') :
    o ∈ outcomes repairsA repairsB casesA casesB := by
  have hsorted : o ∈ sortedOutcomes repairsA repairsB casesA' casesB' := mem_sortOn.mpr ho
  rw [h casesA' casesB' hA hB] at hsorted
  exact mem_sortOn.mp hsorted

theorem OrderDoesNotShow.mem_of_yields (h : OrderDoesNotShow repairsA repairsB casesA casesB)
    {a : GeneratedTestCase R} (ha : a ∈ casesA) {o : Outcome R}
    (ho : Yields repairsA repairsB casesB a o) : o ∈ outcomes repairsA repairsB casesA casesB := by
  obtain ⟨front, back, rfl⟩ := List.append_of_mem ha
  obtain ⟨casesB', hB, rfl, -⟩ := ho.exists_perm
  apply h.mem List.perm_middle.symm hB
  exact mem_outcomes.mpr (.inl ⟨a, List.mem_cons_self, rfl⟩)

theorem OrderDoesNotShow.mem_of_unmatched (h : OrderDoesNotShow repairsA repairsB casesA casesB)
    {b : GeneratedTestCase R} (hb : b ∈ casesB) (hunmatched : Unmatched casesA b) :
    outcomeB b ∈ outcomes repairsA repairsB casesA casesB := by
  obtain ⟨front, back, rfl⟩ := List.append_of_mem hb
  apply h.mem (List.Perm.refl casesA) List.perm_middle.symm
  exact mem_outcomes.mpr (.inr ⟨b, List.mem_cons_self, hunmatched, rfl⟩)

/-- Two outcomes of one id do not change places. -/
theorem OrderDoesNotShow.not_swapped (h : OrderDoesNotShow repairsA repairsB casesA casesB)
    {casesA₁ casesA₂ casesB₁ casesB₂ : List (GeneratedTestCase R)} (hA₁ : casesA₁.Perm casesA)
    (hA₂ : casesA₂.Perm casesA) (hB₁ : casesB₁.Perm casesB) (hB₂ : casesB₂.Perm casesB)
    {o o' : Outcome R} (hne : o ≠ o') (hid : o.testCase.id = o'.testCase.id)
    (ho : [o, o'].Sublist (outcomes repairsA repairsB casesA₁ casesB₁)) :
    ¬ [o', o].Sublist (outcomes repairsA repairsB casesA₂ casesB₂) := by
  let byId : Outcome R → Outcome R → Prop := fun o o' ↦ o.testCase.id ≤ o'.testCase.id
  have : Std.Total byId := ⟨fun _ _ ↦ Std.le_total⟩
  have : IsTrans (Outcome R) byId := ⟨fun _ _ _ ↦ Std.le_trans⟩
  have hnodup := fun casesA casesB : List (GeneratedTestCase R) ↦
    (nodup_signatures_outcomes repairsA repairsB casesA casesB).of_map _
  intro ho'
  have hsorted := (h casesA₁ casesB₁ hA₁ hB₁).trans (h casesA₂ casesB₂ hA₂ hB₂).symm
  have hle : byId o o' := Std.le_of_eq hid
  have hge : byId o' o := Std.le_of_eq hid.symm
  exact insertionSort_ne_of_swapped (hnodup casesA₁ casesB₁) (hnodup casesA₂ casesB₂) ho ho' hne
    hle hge hsorted

theorem pair_sublist {α : Type} (x y : α) (xs : List α) : [x, y].Sublist (x :: y :: xs) :=
  ((List.nil_sublist xs).cons_cons y).cons_cons x

theorem orderFree_of_orderDoesNotShow (h : OrderDoesNotShow repairsA repairsB casesA casesB) :
    OrderFree repairsA repairsB casesA casesB := by
  constructor
  · intro a ha a' ha' hsignature o o' ho ho'
    apply eq_of_signature_eq (h.mem_of_yields ha ho) (h.mem_of_yields ha' ho')
    have hcase := (signature_of_mem_outcomes (h.mem_of_yields ha ho)).1
    have hcase' := (signature_of_mem_outcomes (h.mem_of_yields ha' ho')).1
    rw [← hcase, ← hcase', ho.signature, ho'.signature, hsignature]
  · intro b hb b' hb' hunmatched hsignature
    have hunmatched' : Unmatched casesA b' :=
      fun a ha heq ↦ hunmatched a ha (heq.trans hsignature.symm)
    have heq := eq_of_signature_eq (h.mem_of_unmatched hb hunmatched)
      (h.mem_of_unmatched hb' hunmatched') hsignature
    exact congrArg Outcome.testCase heq
  · intro a ha a' ha' hsignature o o' ho ho' hid
    have hne : o ≠ o' := fun heq ↦ hsignature (by rw [← ho.signature, ← ho'.signature, heq])
    obtain ⟨casesB₁, hB₁, hfirst, -⟩ := ho.exists_perm
    obtain ⟨casesB₂, hB₂, hsecond, hothers⟩ := (ho'.of_perm hB₁.symm).exists_perm
    have hfirst₂ := (hothers a hsignature).trans hfirst
    have hB := hB₂.trans hB₁
    obtain ⟨rest, hperm⟩ := exists_perm_cons_cons ha ha' fun heq ↦
      hsignature (congrArg buildCaseMergerSignature heq)
    have hsub : ∀ a a' rest o o', buildCaseMergerSignature a ≠ buildCaseMergerSignature a' →
        outcomeA repairsA repairsB casesB₂ a = o → outcomeA repairsA repairsB casesB₂ a' = o' →
        [o, o'].Sublist (outcomes repairsA repairsB (a :: a' :: rest) casesB₂) := by
      rintro a a' rest o o' hne rfl rfl
      obtain ⟨rest', hfirsts⟩ := @firstsBy_cons_cons _ _ _ buildCaseMergerSignature _ _ rest hne
      rw [outcomes, hfirsts]
      exact (pair_sublist _ _ _).trans (List.sublist_append_left _ _)
    exact h.not_swapped hperm ((List.Perm.swap a a' rest).trans hperm) hB hB hne hid
      (hsub a a' rest o o' hsignature hfirst₂ hsecond)
      (hsub a' a rest o' o hsignature.symm hsecond hfirst₂)
  · intro b hb b' hb' hunmatched hunmatched' hsignature hid
    have hne : outcomeB b ≠ outcomeB b' := by
      intro heq
      have hcase : b = b' := congrArg Outcome.testCase heq
      exact hsignature (congrArg buildCaseMergerSignature hcase)
    obtain ⟨rest, hperm⟩ := exists_perm_cons_cons hb hb' fun heq ↦
      hsignature (congrArg buildCaseMergerSignature heq)
    have hsub : ∀ b b' rest, buildCaseMergerSignature b ≠ buildCaseMergerSignature b' →
        Unmatched casesA b → Unmatched casesA b' →
        [outcomeB b, outcomeB b'].Sublist
          (outcomes repairsA repairsB casesA (b :: b' :: rest)) := by
      intro b b' rest hne hunmatched hunmatched'
      obtain ⟨rest', hfirsts⟩ := @firstsBy_cons_cons _ _ _ buildCaseMergerSignature _ _ rest hne
      rw [outcomes, hfirsts, List.filter_cons_of_pos (by simpa using hunmatched),
        List.filter_cons_of_pos (by simpa using hunmatched')]
      exact (pair_sublist _ _ _).trans (List.sublist_append_right _ _)
    exact h.not_swapped (List.Perm.refl casesA) (List.Perm.refl casesA) hperm
      ((List.Perm.swap b b' rest).trans hperm) hne hid (hsub b b' rest hsignature hunmatched
        hunmatched') (hsub b' b rest hsignature.symm hunmatched' hunmatched)

end

/-! ## The merge -/

theorem eq_of_maps_eq {os os' : List (Outcome R)}
    (hcases : os.map (·.testCase) = os'.map (·.testCase))
    (hentries : os.map (·.entry) = os'.map (·.entry)) : os = os' := by
  induction os generalizing os' with
  | nil => exact (List.map_eq_nil_iff.mp hcases.symm).symm
  | cons o os ih =>
      cases os' with
      | nil => cases hcases
      | cons o' os' =>
          obtain ⟨hcase, htailCases⟩ := List.cons.inj hcases
          obtain ⟨hentry, htailEntries⟩ := List.cons.inj hentries
          obtain ⟨c, e⟩ := o
          obtain ⟨c', e'⟩ := o'
          obtain rfl : c = c' := hcase
          obtain rfl : e = e' := hentry
          rw [ih htailCases htailEntries]

def sampleCase (id : String) (validations : List String) : GeneratedTestCase Unit where
  id := js id
  technique := js "equivalence_partitioning"
  figmaTraceRefs := [⟨js "screen-1", ()⟩]
  qualitySignals := ⟨[js "field-1"], [], validations.map js, [], ()⟩
  rest := ()

def sampleInput (casesA casesB : List (GeneratedTestCase Unit)) : MergeInput Unit where
  runA := ⟨js "1.1.0", js "job-1", casesA⟩
  runB := ⟨js "1.1.0", js "job-1", casesB⟩
  generatedAt := js "2026-01-01T00:00:00.000Z"
  repairs := none

theorem sampleCase_signature (id id' : String) (validations validations' : List String) :
    buildCaseMergerSignature (sampleCase id validations) =
      buildCaseMergerSignature (sampleCase id' validations') := rfl

end

end TestIntelligence.AgenticHarness.CaseMerger
