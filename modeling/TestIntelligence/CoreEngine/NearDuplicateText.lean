import TestIntelligence.CoreEngine.LevenshteinCapped
import TestIntelligence.Js.Sorting
import TestIntelligence.Lists.Pairs

/-!
# Test cases with nearly the same text

Two test cases are reported when the distance of their canonical texts is at most a cap.
-/

namespace TestIntelligence.CoreEngine.NearDuplicates

open Js Lists

/-! ## The detector -/

structure GeneratedTestCaseStep where
  index : JsNumber
  action : JsString

structure GeneratedTestCase where
  id : JsString
  title : JsString
  steps : List GeneratedTestCaseStep

structure ExactNearDuplicateTextFinding where
  leftTestCaseId : JsString
  rightTestCaseId : JsString
  characterDistance : ℕ
  deriving DecidableEq

/-- `a.index - b.index` is not positive. -/
def indexBefore (a b : GeneratedTestCaseStep) : Prop := JsNumber.lt 0 (a.index.sub b.index) = false

instance : DecidableRel indexBefore := fun a b ↦
  inferInstanceAs (Decidable (JsNumber.lt 0 (a.index.sub b.index) = false))

def canonicalCaseText (toLowerCase : JsString → JsString) (testCase : GeneratedTestCase) :
    JsString :=
  join (js "\n") (toLowerCase (trim testCase.title) ::
    (testCase.steps.insertionSort indexBefore).map fun step ↦ toLowerCase (trim step.action))

/-- The comparator never calls two findings equal. -/
def compareFindings (a b : ExactNearDuplicateTextFinding) : ℤ :=
  if a.leftTestCaseId ≠ b.leftTestCaseId then
    if a.leftTestCaseId < b.leftTestCaseId then -1 else 1
  else if a.rightTestCaseId < b.rightTestCaseId then -1 else 1

/-- The finding that is pushed for two test cases and their texts. -/
def findingOf (cap : ℕ) :
    (GeneratedTestCase × JsString) × (GeneratedTestCase × JsString) →
      Option ExactNearDuplicateTextFinding
  | ((left, leftText), (right, rightText)) =>
      let distance := levenshteinWithin leftText rightText cap
      if distance ≤ cap then
        let ids := if left.id ≤ right.id then (left.id, right.id) else (right.id, left.id)
        some ⟨ids.1, ids.2, distance⟩
      else none

def distanceError : JsString := js "detectExactNearDuplicateText: distance must be >= 0"

/-- The error is the message of a `RangeError`. -/
def detectExactNearDuplicateText (toLowerCase : JsString → JsString)
    (testCases : List GeneratedTestCase) (distance : Option ℤ) :
    Except JsString (List ExactNearDuplicateTextFinding) :=
  let cap := distance.getD 2
  if cap < 0 then .error distanceError
  else
    let texts := testCases.map fun tc ↦ (tc, canonicalCaseText toLowerCase tc)
    .ok (sortBy compareFindings ((pairs texts).filterMap (findingOf cap.toNat)))

/-! ## The order of the findings -/

section

variable {toLowerCase : JsString → JsString} {cap : ℕ} {testCases testCases' : List GeneratedTestCase}

/-- The comparator with a third answer. -/
def compareIds (a b : ExactNearDuplicateTextFinding) : ℤ :=
  if a.leftTestCaseId ≠ b.leftTestCaseId then
    if a.leftTestCaseId < b.leftTestCaseId then -1 else 1
  else codeUnitCompare a.rightTestCaseId b.rightTestCaseId

theorem compareIds_nonpos (a b : ExactNearDuplicateTextFinding) : compareIds a b ≤ 0 ↔
    a.leftTestCaseId < b.leftTestCaseId ∨ a.leftTestCaseId = b.leftTestCaseId ∧
      a.rightTestCaseId ≤ b.rightTestCaseId := by
  unfold compareIds
  by_cases hleft : a.leftTestCaseId = b.leftTestCaseId
  · have hself : ¬ b.leftTestCaseId < b.leftTestCaseId := Std.lt_irrefl
    rw [if_neg (not_not.mpr hleft), hleft, codeUnitCompare_nonpos]
    simp [hself]
  · rw [if_pos hleft]
    split
    · next hlt => simp [hlt]
    · next hlt => simp [hlt, hleft]

def ids (finding : ExactNearDuplicateTextFinding) : JsString × JsString :=
  (finding.leftTestCaseId, finding.rightTestCaseId)

theorem compareFindings_nonpos {a b : ExactNearDuplicateTextFinding} (hne : ids a ≠ ids b) :
    compareFindings a b ≤ 0 ↔ compareIds a b ≤ 0 := by
  unfold compareFindings compareIds
  by_cases hleft : a.leftTestCaseId = b.leftTestCaseId
  · rw [if_neg (not_not.mpr hleft), if_neg (not_not.mpr hleft), codeUnitCompare]
    have hright : a.rightTestCaseId ≠ b.rightTestCaseId := fun h ↦ hne (Prod.ext hleft h)
    rw [if_neg hright]
  · rw [if_pos hleft, if_pos hleft]

/-- Findings of different test cases are sorted in one way only. -/
theorem sortBy_compareFindings_perm {xs ys : List ExactNearDuplicateTextFinding}
    (h : (xs.map ids).Nodup) (hperm : xs.Perm ys) :
    sortBy compareFindings xs = sortBy compareFindings ys := by
  have hsorted : ∀ zs : List ExactNearDuplicateTextFinding, (zs.map ids).Nodup →
      sortBy compareFindings zs = sortBy compareIds zs := fun zs hzs ↦
    sortBy_congr ((List.pairwise_map.mp hzs).imp compareFindings_nonpos)
  rw [hsorted xs h, hsorted ys ((hperm.map ids).nodup h)]
  apply (consistent_of_texts compareIds_nonpos).sortBy_eq_of_perm _ hperm
  intro a ha b hb hab hba
  obtain ⟨hleft, hright⟩ := texts_eq_of_compare compareIds_nonpos hab hba
  exact List.inj_on_of_nodup_map h ha hb (Prod.ext hleft hright)

/-! ## What is reported -/

variable (toLowerCase cap) in
/-- The finding for two test cases whose texts are near each other. -/
def reported (p : GeneratedTestCase × GeneratedTestCase) : Option ExactNearDuplicateTextFinding :=
  let distance := editDistance (canonicalCaseText toLowerCase p.1) (canonicalCaseText toLowerCase p.2)
  if distance ≤ cap then
    let ids := if p.1.id ≤ p.2.id then (p.1.id, p.2.id) else (p.2.id, p.1.id)
    some ⟨ids.1, ids.2, distance⟩
  else none

theorem findingOf_eq (p : GeneratedTestCase × GeneratedTestCase) :
    findingOf cap ((p.1, canonicalCaseText toLowerCase p.1),
      (p.2, canonicalCaseText toLowerCase p.2)) = reported toLowerCase cap p := by
  unfold findingOf reported
  simp only [levenshteinWithin_eq]
  by_cases hnear : editDistance (canonicalCaseText toLowerCase p.1)
      (canonicalCaseText toLowerCase p.2) ≤ cap
  · rw [if_pos hnear, min_eq_left (hnear.trans (Nat.le_succ cap)), if_pos hnear]
  · rw [if_neg hnear, min_eq_right (Nat.lt_of_not_le hnear), if_neg (Nat.not_succ_le_self cap)]

theorem detectExactNearDuplicateText_eq {distance : Option ℤ} (h : distance.getD 2 = cap) :
    detectExactNearDuplicateText toLowerCase testCases distance =
      .ok (sortBy compareFindings ((pairs testCases).filterMap (reported toLowerCase cap))) := by
  unfold detectExactNearDuplicateText
  simp only [h]
  rw [if_neg (by omega), Int.toNat_natCast, pairs_map, List.filterMap_map]
  congr 2
  apply List.filterMap_congr
  exact fun p _ ↦ findingOf_eq p

theorem reported_comm (left right : GeneratedTestCase) :
    reported toLowerCase cap (left, right) = reported toLowerCase cap (right, left) := by
  unfold reported
  simp only
  rw [editDistance_comm]
  by_cases heq : left.id = right.id
  · simp [heq]
  by_cases hle : left.id ≤ right.id
  · have hnot : ¬ right.id ≤ left.id := fun hge ↦ heq (Std.le_antisymm hle hge)
    rw [if_pos hle, if_neg hnot]
  · have hge : right.id ≤ left.id := (@Std.le_total _ _ _ left.id right.id).resolve_left hle
    rw [if_neg hle, if_pos hge]

theorem reported_eq_some {left right : GeneratedTestCase} {finding : ExactNearDuplicateTextFinding}
    (h : reported toLowerCase cap (left, right) = some finding) :
    finding.characterDistance ≤ cap ∧
      finding.characterDistance = editDistance (canonicalCaseText toLowerCase left)
        (canonicalCaseText toLowerCase right) ∧
      (ids finding = (left.id, right.id) ∧ left.id ≤ right.id ∨
        ids finding = (right.id, left.id) ∧ right.id ≤ left.id) := by
  unfold reported at h
  simp only at h
  split at h
  · next hnear =>
      obtain rfl := Option.some.inj h
      refine ⟨hnear, rfl, ?_⟩
      by_cases hle : left.id ≤ right.id
      · exact .inl ⟨by simp [ids, hle], hle⟩
      · have hge : right.id ≤ left.id := (@Std.le_total _ _ _ left.id right.id).resolve_left hle
        exact .inr ⟨by simp [ids, hle], hge⟩
  · cases h

theorem nodup_ids_reported (hids : (testCases.map (·.id)).Nodup) :
    (((pairs testCases).filterMap (reported toLowerCase cap)).map ids).Nodup := by
  have hdistinct := List.pairwise_map.mp (nodup_pairs (List.Nodup.of_map _ hids))
  refine List.pairwise_map.mpr (List.pairwise_filterMap.mpr ?_)
  refine hdistinct.imp_of_mem fun {p q} hp hq hne finding hfinding finding' hfinding' hsame ↦ ?_
  obtain ⟨hp1, hp2⟩ := mem_of_mem_pairs hp
  obtain ⟨hq1, hq2⟩ := mem_of_mem_pairs hq
  have hinj : ∀ {a b : GeneratedTestCase}, a ∈ testCases → b ∈ testCases → a.id = b.id → a = b :=
    fun ha hb hid ↦ List.inj_on_of_nodup_map hids ha hb hid
  apply hne
  obtain ⟨-, -, hfirst⟩ := reported_eq_some hfinding
  obtain ⟨-, -, hsecond⟩ := reported_eq_some hfinding'
  rw [Sym2.eq_iff]
  rcases hfirst with ⟨hfirst, -⟩ | ⟨hfirst, -⟩ <;> rcases hsecond with ⟨hsecond, -⟩ | ⟨hsecond, -⟩ <;>
    obtain ⟨hleft, hright⟩ := Prod.mk.inj (hfirst.symm.trans (hsame.trans hsecond))
  · exact .inl ⟨hinj hp1 hq1 hleft, hinj hp2 hq2 hright⟩
  · exact .inr ⟨hinj hp1 hq2 hleft, hinj hp2 hq1 hright⟩
  · exact .inr ⟨hinj hp1 hq2 hright, hinj hp2 hq1 hleft⟩
  · exact .inl ⟨hinj hp1 hq1 hright, hinj hp2 hq2 hleft⟩

theorem mem_reported_iff (hids : (testCases.map (·.id)).Nodup)
    {finding : ExactNearDuplicateTextFinding} :
    finding ∈ (pairs testCases).filterMap (reported toLowerCase cap) ↔
      ∃ left ∈ testCases, ∃ right ∈ testCases, left.id < right.id ∧
        editDistance (canonicalCaseText toLowerCase left) (canonicalCaseText toLowerCase right) ≤
          cap ∧
        finding = ⟨left.id, right.id, editDistance (canonicalCaseText toLowerCase left)
          (canonicalCaseText toLowerCase right)⟩ := by
  have hpairId : ∀ {p}, p ∈ pairs testCases → p.1.id ≠ p.2.id := fun hp ↦
    rel_of_mem_pairs (List.pairwise_map.mp hids) hp
  rw [List.mem_filterMap]
  constructor
  · rintro ⟨⟨left, right⟩, hmem, hfinding⟩
    obtain ⟨hleft, hright⟩ := mem_of_mem_pairs hmem
    have hne := hpairId hmem
    obtain ⟨hnear, hdistance, hids' | hids'⟩ := reported_eq_some hfinding
    · obtain ⟨hfirst, hsecond⟩ := Prod.mk.inj hids'.1
      have hlt : left.id < right.id := Std.lt_of_le_of_ne hids'.2 hne
      refine ⟨left, hleft, right, hright, hlt, hdistance ▸ hnear, ?_⟩
      cases finding
      exact ExactNearDuplicateTextFinding.mk.injEq .. ▸ ⟨hfirst, hsecond, hdistance⟩
    · obtain ⟨hfirst, hsecond⟩ := Prod.mk.inj hids'.1
      have hlt : right.id < left.id := Std.lt_of_le_of_ne hids'.2 hne.symm
      rw [editDistance_comm] at hdistance
      refine ⟨right, hright, left, hleft, hlt, hdistance ▸ hnear, ?_⟩
      cases finding
      exact ExactNearDuplicateTextFinding.mk.injEq .. ▸ ⟨hfirst, hsecond, hdistance⟩
  · rintro ⟨left, hleft, right, hright, hlt, hnear, rfl⟩
    have hreported : reported toLowerCase cap (left, right) = some ⟨left.id, right.id,
        editDistance (canonicalCaseText toLowerCase left)
          (canonicalCaseText toLowerCase right)⟩ := by
      unfold reported
      simp only
      rw [if_pos hnear, if_pos (Std.le_of_lt hlt)]
    have hne : left ≠ right := fun heq ↦ Std.lt_irrefl (heq ▸ hlt)
    rcases mem_pairs_or hleft hright hne with hmem | hmem
    · exact ⟨_, hmem, hreported⟩
    · exact ⟨_, hmem, (reported_comm right left).trans hreported⟩

theorem detectExactNearDuplicateText_perm {distance : Option ℤ} (h : distance.getD 2 = cap)
    (hids : (testCases.map (·.id)).Nodup) (hperm : testCases'.Perm testCases) :
    detectExactNearDuplicateText toLowerCase testCases' distance =
      detectExactNearDuplicateText toLowerCase testCases distance := by
  have hids' : (testCases'.map (·.id)).Nodup := (hperm.map _).nodup_iff.mpr hids
  rw [detectExactNearDuplicateText_eq h, detectExactNearDuplicateText_eq h,
    sortBy_compareFindings_perm (nodup_ids_reported hids')
      (perm_filterMap_pairs reported_comm hperm)]

end

/-- The capped distance is exact and symmetric, and the detector reports just the pairs of test
cases whose texts are within the cap, in any order of the test cases. -/
theorem levenshteinCapped_exact (toLowerCase : JsString → JsString) :
    (∀ (s t : JsString) (cap : ℕ),
      levenshteinCapped s t cap = .ok (min (editDistance s t) (cap + 1)) ∧
        levenshteinCapped s t cap = levenshteinCapped t s cap) ∧
    (∀ (testCases : List GeneratedTestCase) (distance : Option ℤ) (cap : ℕ),
      distance.getD 2 = cap → ∃ findings,
        detectExactNearDuplicateText toLowerCase testCases distance = .ok findings ∧
        findings.Perm ((pairs testCases).filterMap (reported toLowerCase cap)) ∧
        ((testCases.map (·.id)).Nodup →
          (∀ finding, finding ∈ findings ↔ ∃ left ∈ testCases, ∃ right ∈ testCases,
            left.id < right.id ∧
            editDistance (canonicalCaseText toLowerCase left)
              (canonicalCaseText toLowerCase right) ≤ cap ∧
            finding = ⟨left.id, right.id, editDistance (canonicalCaseText toLowerCase left)
              (canonicalCaseText toLowerCase right)⟩) ∧
          ∀ testCases', testCases'.Perm testCases →
            detectExactNearDuplicateText toLowerCase testCases' distance = .ok findings)) := by
  refine ⟨fun s t cap ↦ ?_, fun testCases distance cap h ↦ ?_⟩
  · have hcap : ∀ s t : JsString,
        levenshteinCapped s t cap = .ok (min (editDistance s t) (cap + 1)) := by
      intro s t
      rw [levenshteinCapped, if_neg (by omega), Int.toNat_natCast, levenshteinWithin_eq]
    exact ⟨hcap s t, by rw [hcap, hcap, editDistance_comm]⟩
  · have hfindings : detectExactNearDuplicateText toLowerCase testCases distance = .ok (sortBy
        compareFindings ((pairs testCases).filterMap (reported toLowerCase cap))) :=
      detectExactNearDuplicateText_eq h
    refine ⟨_, hfindings, sortBy_perm _ _, fun hids ↦ ⟨fun finding ↦ ?_, fun testCases' hperm ↦ ?_⟩⟩
    · rw [mem_sortBy, mem_reported_iff hids]
    · rw [← hfindings]
      exact detectExactNearDuplicateText_perm h hids hperm

example : levenshteinCapped (js "kitten") (js "sitting") 2 = .ok 3 := by decide

end TestIntelligence.CoreEngine.NearDuplicates
