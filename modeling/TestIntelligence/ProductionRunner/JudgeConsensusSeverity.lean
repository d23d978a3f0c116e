import Mathlib.Algebra.BigOperators.Group.List.Basic
import Mathlib.Algebra.Order.BigOperators.Group.List
import TestIntelligence.Js.Collections
import TestIntelligence.ProductionRunner.JudgeConsensus

/-!
# How severe the consensus is

The consensus is at least as severe as every judge with veto power.  A more severe
vote cannot make it less severe where a veto or a unanimous panel decides; where the
votes are weighed it can.
-/

namespace TestIntelligence.ProductionRunner.JudgeConsensus

open Js

/-! ## Normalized entries -/

theorem normalizedEntry_weight_pos (entry : JudgeConsensusPanelEntry) :
    0 < (normalizedEntry entry).weight := by
  have hweight : 0 < normalizeWeight entry.weight := by
    unfold normalizeWeight
    split
    · assumption
    · exact one_pos
  unfold normalizedEntry normalizeJudgeVerdict
  dsimp only
  split
  · exact hweight
  · exact hweight

/-- The verdict that counts for a judge. -/
def normalizedLabel (judgeId : JsString) (label : ConsensusVerdictLabel) : ConsensusVerdictLabel :=
  if (judgeId = js "a11y_judge" ∨ judgeId = js "coverage_judge") ∧ label = .reject then .repair
  else label

theorem normalizedEntry_with_verdict (entry : JudgeConsensusPanelEntry)
    (label : ConsensusVerdictLabel) :
    normalizedEntry { entry with verdict := label } =
      { normalizedEntry entry with verdict := normalizedLabel entry.judgeId label } := by
  unfold normalizedEntry normalizeJudgeVerdict normalizedLabel
  dsimp only
  split
  · split <;> rfl
  · split <;> rfl

theorem normalizedEntry_verdict (entry : JudgeConsensusPanelEntry) :
    (normalizedEntry entry).verdict = normalizedLabel entry.judgeId entry.verdict := by
  unfold normalizedEntry normalizeJudgeVerdict normalizedLabel
  dsimp only
  split
  · rfl
  · rfl

theorem rank_normalizedLabel_le (judgeId : JsString) {label label' : ConsensusVerdictLabel}
    (h : toSeverityRank label ≤ toSeverityRank label') :
    toSeverityRank (normalizedLabel judgeId label) ≤
      toSeverityRank (normalizedLabel judgeId label') := by
  unfold normalizedLabel
  by_cases hjudge : judgeId = js "a11y_judge" ∨ judgeId = js "coverage_judge"
  · cases label <;> cases label' <;> simp_all [toSeverityRank]
  · simpa [hjudge] using h

theorem eq_reject_of_two_le {label : ConsensusVerdictLabel} (h : 2 ≤ toSeverityRank label) :
    label = .reject := by
  cases label <;> simp_all [toSeverityRank]

theorem rank_le_two (label : ConsensusVerdictLabel) : toSeverityRank label ≤ 2 := by
  cases label <;> simp [toSeverityRank]

theorem rank_eq_zero_iff {label : ConsensusVerdictLabel} :
    toSeverityRank label = 0 ↔ label = .accept := by
  cases label <;> simp [toSeverityRank]

/-! ## The veto -/

variable {localeCompare : JsString → JsString → ℤ}

theorem rank_selectHigherSeverity (left right : JudgeConsensusPanelEntry) :
    toSeverityRank (selectHigherSeverity localeCompare left right).verdict =
      max (toSeverityRank left.verdict) (toSeverityRank right.verdict) := by
  unfold selectHigherSeverity
  by_cases hrank : toSeverityRank left.verdict = toSeverityRank right.verdict
  · rw [if_neg (not_not.mpr hrank)]
    split
    · split <;> simp [hrank]
    · split <;> simp [hrank]
  · rw [if_pos hrank]
    split
    · next hlt => rw [max_eq_left hlt.le]
    · next hle => rw [max_eq_right (not_lt.mp hle)]

theorem selectHigherSeverity_eq (localeCompare : JsString → JsString → ℤ)
    (left right : JudgeConsensusPanelEntry) :
    selectHigherSeverity localeCompare left right = left ∨
      selectHigherSeverity localeCompare left right = right := by
  unfold selectHigherSeverity
  repeat' split
  all_goals simp

/-- The judge that decides is one with veto power, as severe as any of them. -/
theorem selectVeto_spec (localeCompare : JsString → JsString → ℤ)
    (panel : List JudgeConsensusPanelEntry) :
    (selectVeto localeCompare panel = none ∧ panel.filter hasVeto = []) ∨
      ∃ candidate ∈ panel.filter hasVeto, selectVeto localeCompare panel = some candidate ∧
        ∀ entry ∈ panel.filter hasVeto,
          toSeverityRank entry.verdict ≤ toSeverityRank candidate.verdict := by
  have hfold : ∀ (entries : List JudgeConsensusPanelEntry) (selected : JudgeConsensusPanelEntry),
      ∃ candidate ∈ selected :: entries, entries.foldl (fun selected entry ↦ some (selected.elim
        entry (selectHigherSeverity localeCompare · entry))) (some selected) = some candidate ∧
        ∀ entry ∈ selected :: entries,
          toSeverityRank entry.verdict ≤ toSeverityRank candidate.verdict := by
    intro entries
    induction entries with
    | nil => simp
    | cons entry entries ih =>
        intro selected
        obtain ⟨candidate, hmem, hcandidate, hrank⟩ :=
          ih (selectHigherSeverity localeCompare selected entry)
        have hhigher := hrank _ List.mem_cons_self
        rw [rank_selectHigherSeverity] at hhigher
        refine ⟨candidate, ?_, hcandidate, fun other hother ↦ ?_⟩
        · rcases List.mem_cons.mp hmem with rfl | hmem
          · rcases selectHigherSeverity_eq localeCompare selected entry with
              heq | heq <;> simp [heq]
          · exact List.mem_cons_of_mem _ (List.mem_cons_of_mem _ hmem)
        · rcases List.mem_cons.mp hother with rfl | hother
          · exact le_of_max_le_left hhigher
          · rcases List.mem_cons.mp hother with rfl | hother
            · exact le_of_max_le_right hhigher
            · exact hrank other (List.mem_cons_of_mem _ hother)
  unfold selectVeto
  cases hfilter : panel.filter hasVeto with
  | nil => exact .inl ⟨rfl, rfl⟩
  | cons first rest => exact .inr (hfold rest first)

/-- A more severe verdict keeps the veto of a judge. -/
theorem hasVeto_of_raised {entry : JudgeConsensusPanelEntry} {label : ConsensusVerdictLabel}
    (hrank : toSeverityRank entry.verdict ≤ toSeverityRank label) (h : hasVeto entry = true) :
    hasVeto { entry with verdict := label } = true := by
  by_cases hreject : entry.verdict = .reject
  · have hlabel : label = .reject :=
      eq_reject_of_two_le (by simpa [hreject, toSeverityRank] using hrank)
    have hsame : { entry with verdict := label } = entry := by rw [hlabel, ← hreject]
    rw [hsame]
    exact h
  · have hfinding : hasFindingVeto entry = true := by simpa [hasVeto, hreject] using h
    have hraised : hasFindingVeto { entry with verdict := label } = true := hfinding
    rw [hasVeto, hraised, Bool.or_true]

/-- A veto that comes with the new verdict is one to reject. -/
theorem eq_reject_of_gained_veto {entry : JudgeConsensusPanelEntry} {label : ConsensusVerdictLabel}
    (h : hasVeto entry = false) (hraised : hasVeto { entry with verdict := label } = true) :
    label = .reject := by
  have hfinding : hasFindingVeto { entry with verdict := label } = false := by
    have hentry : hasFindingVeto entry = false := by
      rw [hasVeto, Bool.or_eq_false_iff] at h
      exact h.2
    exact hentry
  rw [hasVeto, hfinding, Bool.or_false] at hraised
  simp only [Bool.and_eq_true, beq_iff_eq] at hraised
  exact hraised.1.2

/-! ## The votes -/

theorem tally_get {β : Type} [AddCommMonoid β] (amount : JudgeConsensusPanelEntry → β)
    (panel : List JudgeConsensusPanelEntry) (label : ConsensusVerdictLabel) :
    (tally amount panel).get label =
      ((panel.filter fun entry ↦ entry.verdict = label).map amount).sum := by
  have hfold : ∀ t : Tally β,
      (panel.foldl (fun t entry ↦ t.increase entry.verdict (amount entry)) t).get label =
        t.get label + ((panel.filter fun entry ↦ entry.verdict = label).map amount).sum := by
    induction panel with
    | nil => simp
    | cons entry panel ih =>
        intro t
        rw [List.foldl_cons, ih]
        by_cases hlabel : entry.verdict = label
        · have hget : (t.increase entry.verdict (amount entry)).get label =
              t.get label + amount entry := by
            rw [hlabel]
            cases label <;> rfl
          rw [hget, List.filter_cons_of_pos (by simpa using hlabel), List.map_cons, List.sum_cons,
            add_assoc]
        · have hget : (t.increase entry.verdict (amount entry)).get label = t.get label := by
            cases hverdict : entry.verdict <;> cases label <;>
              first | rfl | exact absurd hverdict hlabel
          simp [hlabel, hget]
  have hzero : (⟨0, 0, 0⟩ : Tally β).get label = 0 := by cases label <;> rfl
  rw [tally, hfold, hzero, zero_add]

theorem totals_eq_zero {panel : List JudgeConsensusPanelEntry} {label : ConsensusVerdictLabel}
    (h : ∀ entry ∈ panel, entry.verdict ≠ label) :
    (tally (·.weight) panel : Tally ℚ).get label = 0 := by
  have hnone : (panel.filter fun entry ↦ entry.verdict = label) = [] := by
    simpa [List.filter_eq_nil_iff] using h
  simp [tally_get, hnone]

theorem totals_pos {panel : List JudgeConsensusPanelEntry}
    (hweights : ∀ entry ∈ panel, 0 < entry.weight) {entry : JudgeConsensusPanelEntry}
    (hentry : entry ∈ panel) : 0 < (tally (·.weight) panel : Tally ℚ).get entry.verdict := by
  rw [tally_get]
  apply List.sum_pos
  · intro x hx
    obtain ⟨other, hother, rfl⟩ := List.mem_map.mp hx
    exact hweights other (List.mem_of_mem_filter hother)
  · have hmem : entry ∈ panel.filter fun other ↦ other.verdict = entry.verdict := by
      simp [hentry]
    exact fun hempty ↦ List.ne_nil_of_mem hmem (List.map_eq_nil_iff.mp hempty)

theorem most_pos {panel : List JudgeConsensusPanelEntry}
    (hweights : ∀ entry ∈ panel, 0 < entry.weight) (hpanel : panel ≠ []) :
    0 < (tally (·.weight) panel : Tally ℚ).most := by
  obtain ⟨entry, hentry⟩ := List.exists_mem_of_ne_nil panel hpanel
  have hpos := totals_pos hweights hentry
  unfold Tally.most
  cases hverdict : entry.verdict <;> rw [hverdict] at hpos <;> simp_all [Tally.get]

/-- The verdict of a majority carries the largest weight. -/
theorem resolve_majority {panel : List JudgeConsensusPanelEntry}
    (hweights : ∀ entry ∈ panel, 0 < entry.weight) (hpanel : panel ≠ []) :
    resolveVotingVerdict panel .majority none = .repair ∨
      (∃ entry ∈ panel, entry.verdict = resolveVotingVerdict panel .majority none) := by
  set totals : Tally ℚ := tally (·.weight) panel with htotals
  set tied := (totals.entries.filter fun p ↦ p.2 = totals.most).map Prod.fst with htied
  have hmost := most_pos hweights hpanel
  rw [← htotals] at hmost
  by_cases hspecial : tied.headD .accept = .accept ∧ 0 < totals.repair ∧ totals.reject = 0
  · left
    simp only [resolveVotingVerdict]
    exact if_pos hspecial
  · right
    have hresolve : resolveVotingVerdict panel .majority none = tied.headD .accept := by
      simp only [resolveVotingVerdict]
      exact if_neg hspecial
    have hne : tied ≠ [] := by
      have hmem : ∃ p ∈ totals.entries, p.2 = totals.most := by
        simp only [Tally.entries, Tally.most, List.mem_cons, List.not_mem_nil, or_false]
        rcases max_choice (max totals.accept totals.repair) totals.reject with h | h
        · rcases max_choice totals.accept totals.repair with h' | h'
          · exact ⟨_, .inl rfl, (h.trans h').symm⟩
          · exact ⟨_, .inr (.inl rfl), (h.trans h').symm⟩
        · exact ⟨_, .inr (.inr rfl), h.symm⟩
      obtain ⟨p, hp, hpmost⟩ := hmem
      have hfiltered : p ∈ totals.entries.filter fun p ↦ p.2 = totals.most := by
        simp [hp, hpmost]
      exact fun hempty ↦ List.ne_nil_of_mem hfiltered (List.map_eq_nil_iff.mp hempty)
    obtain ⟨label, rest, hcons⟩ := List.exists_cons_of_ne_nil hne
    have hlabel : tied.headD .accept = label := by rw [hcons]; rfl
    have hweight : totals.get label = totals.most := by
      have hmem : label ∈ tied := hcons ▸ List.mem_cons_self
      obtain ⟨p, hp, rfl⟩ := List.mem_map.mp hmem
      obtain ⟨hentry, hpmost⟩ := List.mem_filter.mp hp
      simp only [Tally.entries, List.mem_cons, List.not_mem_nil, or_false] at hentry
      rcases hentry with rfl | rfl | rfl <;> exact of_decide_eq_true hpmost
    rw [hresolve, hlabel]
    by_contra hnone
    push Not at hnone
    have hzero := totals_eq_zero hnone
    rw [← htotals, hweight] at hzero
    exact hmost.ne' hzero

/-- An unvetoed panel decides for one of its votes, or for repair. -/
theorem resolve_unvetoed {panel : List JudgeConsensusPanelEntry}
    (hweights : ∀ entry ∈ panel, 0 < entry.weight) (hpanel : panel ≠ []) :
    resolveVotingVerdict panel (classifyAgreementShape panel none) none = .repair ∨
      ∃ entry ∈ panel, entry.verdict =
        resolveVotingVerdict panel (classifyAgreementShape panel none) none := by
  cases hshape : classifyAgreementShape panel none with
  | vetoed => exact .inl rfl
  | split => exact .inl rfl
  | majority => exact resolve_majority hweights hpanel
  | unanimous =>
      by_contra hnone
      push Not at hnone
      obtain ⟨hrepair, hnone⟩ := hnone
      obtain ⟨entry, hentry⟩ := List.exists_mem_of_ne_nil panel hpanel
      have hpos := totals_pos hweights hentry
      have hother := hnone entry hentry
      by_cases haccept : 0 < (tally (·.weight) panel : Tally ℚ).accept
      · have hresolve : resolveVotingVerdict panel .unanimous none = .accept := if_pos haccept
        rw [hresolve] at hnone
        exact haccept.ne' (totals_eq_zero hnone)
      · have hresolve : resolveVotingVerdict panel .unanimous none = .reject := by
          by_cases hrep : 0 < (tally (·.weight) panel : Tally ℚ).repair
          · exact absurd ((if_neg haccept).trans (if_pos hrep)) hrepair
          · exact (if_neg haccept).trans (if_neg hrep)
        rw [hresolve] at hother
        cases hverdict : entry.verdict with
        | accept => exact haccept (by rwa [hverdict] at hpos)
        | repair =>
            refine hrepair ?_
            exact (if_neg haccept).trans (if_pos (by rwa [hverdict] at hpos))
        | reject => exact hother hverdict

theorem counts_eq_zero_iff {panel : List JudgeConsensusPanelEntry} {label : ConsensusVerdictLabel} :
    (tally (fun _ ↦ 1) panel : Tally ℕ).get label = 0 ↔ ∀ entry ∈ panel, entry.verdict ≠ label := by
  simp [tally_get, List.filter_eq_nil_iff]

theorem classify_unanimous_iff {panel : List JudgeConsensusPanelEntry} :
    classifyAgreementShape panel none = .unanimous ↔
      ∃ label, panel ≠ [] ∧ ∀ entry ∈ panel, entry.verdict = label := by
  set counts : Tally ℕ := tally (fun _ ↦ 1) panel with hcounts
  have hshape : classifyAgreementShape panel none = .unanimous ↔
      (counts.entries.filter fun p ↦ 0 < p.2).length = 1 := by
    unfold classifyAgreementShape
    simp only [Option.isSome_none, Bool.false_eq_true, if_false]
    split
    · next hone => exact ⟨fun _ ↦ hone, fun _ ↦ rfl⟩
    · next hone =>
      refine ⟨fun h ↦ ?_, fun h ↦ absurd h hone⟩
      split at h <;> cases h
  have hlength : (counts.entries.filter fun p ↦ 0 < p.2).length =
      (if 0 < counts.accept then 1 else 0) + (if 0 < counts.repair then 1 else 0) +
        if 0 < counts.reject then 1 else 0 := by
    simp only [Tally.entries, List.filter_cons, List.filter_nil, decide_eq_true_eq]
    split <;> split <;> split <;> rfl
  have hcount : ∀ label, counts.get label = 0 ↔ ∀ entry ∈ panel, entry.verdict ≠ label :=
    fun label ↦ counts_eq_zero_iff
  rw [hshape, hlength]
  constructor
  · intro hone
    have hsome : panel ≠ [] := by
      rintro rfl
      simp [hcounts, tally] at hone
    by_cases haccept : counts.accept = 0
    · by_cases hrepair : counts.repair = 0
      · refine ⟨.reject, hsome, fun entry hentry ↦ ?_⟩
        have h := (hcount .accept).mp haccept entry hentry
        have h' := (hcount .repair).mp hrepair entry hentry
        cases hverdict : entry.verdict <;> first | rfl | exact absurd hverdict ‹_›
      · have hreject : counts.reject = 0 := by
          by_contra hpos
          simp [haccept, Nat.pos_of_ne_zero hrepair, Nat.pos_of_ne_zero hpos] at hone
        refine ⟨.repair, hsome, fun entry hentry ↦ ?_⟩
        have h := (hcount .accept).mp haccept entry hentry
        have h' := (hcount .reject).mp hreject entry hentry
        cases hverdict : entry.verdict <;> first | rfl | exact absurd hverdict ‹_›
    · have hrest : counts.repair = 0 ∧ counts.reject = 0 := by
        rw [if_pos (Nat.pos_of_ne_zero haccept)] at hone
        constructor
        · by_contra hpos
          rw [if_pos (Nat.pos_of_ne_zero hpos)] at hone
          omega
        · by_contra hpos
          rw [if_pos (Nat.pos_of_ne_zero hpos)] at hone
          omega
      refine ⟨.accept, hsome, fun entry hentry ↦ ?_⟩
      have h := (hcount .repair).mp hrest.1 entry hentry
      have h' := (hcount .reject).mp hrest.2 entry hentry
      cases hverdict : entry.verdict <;> first | rfl | exact absurd hverdict ‹_›
  · rintro ⟨label, hsome, hall⟩
    obtain ⟨entry, hentry⟩ := List.exists_mem_of_ne_nil panel hsome
    have hother : ∀ label', label' ≠ label → counts.get label' = 0 := by
      intro label' hne
      rw [hcount]
      exact fun entry hentry heq ↦ hne (heq.symm.trans (hall entry hentry))
    have hself : 0 < counts.get label := by
      apply Nat.pos_of_ne_zero
      rw [Ne, hcount]
      exact fun hnone ↦ hnone entry hentry (hall entry hentry)
    have haccept := hother .accept
    have hrepair := hother .repair
    have hreject := hother .reject
    cases label <;> simp_all [Tally.get]

/-- A unanimous panel decides for the verdict of its judges. -/
theorem resolve_unanimous {panel : List JudgeConsensusPanelEntry}
    (hweights : ∀ entry ∈ panel, 0 < entry.weight) (hpanel : panel ≠ [])
    {label : ConsensusVerdictLabel} (hall : ∀ entry ∈ panel, entry.verdict = label) :
    resolveVotingVerdict panel .unanimous none = label := by
  set totals : Tally ℚ := tally (·.weight) panel with htotals
  have hother : ∀ label', label' ≠ label → totals.get label' = 0 := by
    intro label' hne
    exact totals_eq_zero fun entry hentry heq ↦ hne (heq.symm.trans (hall entry hentry))
  obtain ⟨entry, hentry⟩ := List.exists_mem_of_ne_nil panel hpanel
  have hself : 0 < totals.get label := by
    have hpos := totals_pos hweights hentry
    rwa [hall entry hentry] at hpos
  have hresolve : resolveVotingVerdict panel .unanimous none =
      if 0 < totals.get .accept then .accept else if 0 < totals.get .repair then .repair
        else .reject := rfl
  rw [hresolve]
  cases label with
  | accept => rw [if_pos hself]
  | repair => rw [hother .accept nofun, if_neg (lt_irrefl 0), if_pos hself]
  | reject =>
      rw [hother .accept nofun, hother .repair nofun, if_neg (lt_irrefl 0), if_neg (lt_irrefl 0)]

/-! ## One vote raised -/

/-- The panel is vetoed or unanimous. -/
def AgreementShape.isDecided : AgreementShape → Bool
  | .vetoed | .unanimous => true
  | .majority | .split => false

theorem consensusOf_of_veto (localeCompare : JsString → JsString → ℤ) (jobId : JsString)
    (repairHistory : Option JudgeConsensusRepairHistory)
    {panel : List JudgeConsensusPanelEntry}
    {entry : JudgeConsensusPanelEntry} (hentry : entry ∈ panel) (hveto : hasVeto entry = true) :
    ∃ candidate ∈ panel, hasVeto candidate = true ∧
      (consensusOf localeCompare jobId repairHistory panel).verdict = candidate.verdict ∧
      ∀ other ∈ panel, hasVeto other = true →
        toSeverityRank other.verdict ≤ toSeverityRank candidate.verdict := by
  rcases selectVeto_spec localeCompare panel with ⟨-, hnone⟩ | ⟨candidate, hmem, hcandidate, hrank⟩
  · exact absurd (List.mem_filter.mpr ⟨hentry, hveto⟩) (hnone ▸ List.not_mem_nil)
  · obtain ⟨hpanel, hpower⟩ := List.mem_filter.mp hmem
    refine ⟨candidate, hpanel, hpower, ?_, fun other hother hother' ↦ ?_⟩
    · simp only [consensusOf, hcandidate]
      rfl
    · exact hrank other (List.mem_filter.mpr ⟨hother, hother'⟩)

theorem consensusOf_of_no_veto (localeCompare : JsString → JsString → ℤ) (jobId : JsString)
    (repairHistory : Option JudgeConsensusRepairHistory)
    {panel : List JudgeConsensusPanelEntry}
    (h : ∀ entry ∈ panel, hasVeto entry = false) :
    (consensusOf localeCompare jobId repairHistory panel).agreementShape =
        classifyAgreementShape panel none ∧
      (consensusOf localeCompare jobId repairHistory panel).verdict =
        resolveVotingVerdict panel (classifyAgreementShape panel none) none := by
  have hnone : selectVeto localeCompare panel = none := by
    have hfilter : panel.filter hasVeto = [] := by
      simpa [List.filter_eq_nil_iff] using h
    rw [selectVeto, hfilter]
    rfl
  constructor
  · simp only [consensusOf, hnone]
  · simp only [consensusOf, hnone]

theorem isDecided_classify {panel : List JudgeConsensusPanelEntry} :
    (classifyAgreementShape panel none).isDecided = true ↔
      classifyAgreementShape panel none = .unanimous := by
  have hvetoed : classifyAgreementShape panel none ≠ .vetoed := by
    unfold classifyAgreementShape
    simp only [Option.isSome_none, Bool.false_eq_true, if_false]
    split
    · nofun
    · split <;> nofun
  cases hshape : classifyAgreementShape panel none <;> simp_all [AgreementShape.isDecided]

/-- The same judge with a verdict at least as severe. -/
def Raised (entry entry' : JudgeConsensusPanelEntry) : Prop :=
  ∃ label, entry' = { entry with verdict := label } ∧
    toSeverityRank entry.verdict ≤ toSeverityRank label

theorem Raised.refl (entry : JudgeConsensusPanelEntry) : Raised entry entry :=
  ⟨entry.verdict, rfl, le_rfl⟩

section

variable {panel panel' : List JudgeConsensusPanelEntry} {jobId : JsString}
  {repairHistory : Option JudgeConsensusRepairHistory}

/-- Without a veto, where one of the panels is unanimous. -/
theorem rank_resolve_le (hweights : ∀ entry ∈ panel, 0 < entry.weight)
    (hweights' : ∀ entry ∈ panel', 0 < entry.weight) (hpanel : panel ≠ []) (hpanel' : panel' ≠ [])
    (hforth : ∀ entry ∈ panel, ∃ entry' ∈ panel', Raised entry entry')
    (hback : ∀ entry' ∈ panel', ∃ entry ∈ panel, Raised entry entry')
    (hunanimous : classifyAgreementShape panel none = .unanimous ∨
      classifyAgreementShape panel' none = .unanimous) :
    toSeverityRank (resolveVotingVerdict panel (classifyAgreementShape panel none) none) ≤
      toSeverityRank (resolveVotingVerdict panel' (classifyAgreementShape panel' none) none) := by
  rcases hunanimous with hshape | hshape
  · obtain ⟨label, -, hall⟩ := classify_unanimous_iff.mp hshape
    rw [hshape, resolve_unanimous hweights hpanel hall]
    have hleast : ∀ entry' ∈ panel', toSeverityRank label ≤ toSeverityRank entry'.verdict := by
      intro entry' hentry'
      obtain ⟨entry, hentry, label', rfl, hrank⟩ := hback entry' hentry'
      rwa [hall entry hentry] at hrank
    cases label with
    | accept => exact Nat.zero_le _
    | repair =>
        rcases resolve_unvetoed hweights' hpanel' with hrepair | ⟨entry', hentry', hverdict⟩
        · rw [hrepair]
        · exact hverdict ▸ hleast entry' hentry'
    | reject =>
        have hall' : ∀ entry' ∈ panel', entry'.verdict = .reject :=
          fun entry' hentry' ↦ eq_reject_of_two_le (hleast entry' hentry')
        rw [classify_unanimous_iff.mpr ⟨_, hpanel', hall'⟩,
          resolve_unanimous hweights' hpanel' hall']
  · obtain ⟨label, -, hall⟩ := classify_unanimous_iff.mp hshape
    rw [hshape, resolve_unanimous hweights' hpanel' hall]
    have hmost : ∀ entry ∈ panel, toSeverityRank entry.verdict ≤ toSeverityRank label := by
      intro entry hentry
      obtain ⟨entry', hentry', label', rfl, hrank⟩ := hforth entry hentry
      rwa [← hall _ hentry']
    cases label with
    | accept =>
        have hall' : ∀ entry ∈ panel, entry.verdict = .accept :=
          fun entry hentry ↦ rank_eq_zero_iff.mp (Nat.le_zero.mp (hmost entry hentry))
        rw [classify_unanimous_iff.mpr ⟨_, hpanel, hall'⟩, resolve_unanimous hweights hpanel hall']
    | repair =>
        rcases resolve_unvetoed hweights hpanel with hrepair | ⟨entry, hentry, hverdict⟩
        · rw [hrepair]
        · exact hverdict ▸ hmost entry hentry
    | reject => exact rank_le_two _

/-- Where the panel is decided before or after, more severe votes do not make the
consensus less severe. -/
theorem rank_consensusOf_le (hweights : ∀ entry ∈ panel, 0 < entry.weight)
    (hpanel : panel ≠ []) (hraised : List.Forall₂ Raised panel panel')
    (hdecided :
      (consensusOf localeCompare jobId repairHistory panel).agreementShape.isDecided = true ∨
      (consensusOf localeCompare jobId repairHistory panel').agreementShape.isDecided = true) :
    toSeverityRank (consensusOf localeCompare jobId repairHistory panel).verdict ≤
      toSeverityRank (consensusOf localeCompare jobId repairHistory panel').verdict := by
  have hforth : ∀ entry ∈ panel, ∃ entry' ∈ panel', Raised entry entry' :=
    fun entry hentry ↦ exists_of_forall₂_of_mem hraised hentry
  have hback : ∀ entry' ∈ panel', ∃ entry ∈ panel, Raised entry entry' :=
    fun entry' hentry' ↦ exists_of_forall₂_of_mem hraised.flip hentry'
  by_cases hveto' : ∃ entry' ∈ panel', hasVeto entry' = true
  · obtain ⟨entry', hentry', hpower'⟩ := hveto'
    obtain ⟨decider', -, -, hverdict', hrank'⟩ := consensusOf_of_veto
      localeCompare jobId repairHistory hentry' hpower'
    rw [hverdict']
    by_cases hveto : ∃ entry ∈ panel, hasVeto entry = true
    · obtain ⟨entry, hentry, hpower⟩ := hveto
      obtain ⟨decider, hdecider, hpower, hverdict, -⟩ := consensusOf_of_veto
        localeCompare jobId repairHistory hentry hpower
      obtain ⟨raised, hmem, label, rfl, hrank⟩ := hforth decider hdecider
      rw [hverdict]
      exact hrank.trans (hrank' _ hmem (hasVeto_of_raised hrank hpower))
    · obtain ⟨entry, hentry, label, rfl, -⟩ := hback entry' hentry'
      have hnone : hasVeto entry = false := by
        rw [← Bool.not_eq_true]
        exact fun h ↦ hveto ⟨entry, hentry, h⟩
      have hreject := eq_reject_of_gained_veto hnone hpower'
      have htop := hrank' _ hentry' hpower'
      rw [hreject] at htop
      exact (rank_le_two _).trans htop
  · have hnone' : ∀ entry' ∈ panel', hasVeto entry' = false := by simpa using hveto'
    have hnone : ∀ entry ∈ panel, hasVeto entry = false := by
      intro entry hentry
      obtain ⟨entry', hentry', label, rfl, hrank⟩ := hforth entry hentry
      rw [← Bool.not_eq_true]
      intro hpower
      exact absurd (hasVeto_of_raised hrank hpower) (by simp [hnone' _ hentry'])
    obtain ⟨hshape, hverdict⟩ := consensusOf_of_no_veto localeCompare jobId repairHistory hnone
    obtain ⟨hshape', hverdict'⟩ := consensusOf_of_no_veto localeCompare jobId repairHistory hnone'
    rw [hshape, hshape', isDecided_classify, isDecided_classify] at hdecided
    rw [hverdict, hverdict']
    have hpanel' : panel' ≠ [] := by
      rintro rfl
      exact hpanel (List.forall₂_nil_right_iff.mp hraised)
    have hweights' : ∀ entry' ∈ panel', 0 < entry'.weight := by
      intro entry' hentry'
      obtain ⟨entry, hentry, label, rfl, -⟩ := hback entry' hentry'
      exact hweights entry hentry
    exact rank_resolve_le hweights hweights' hpanel hpanel' hforth hback hdecided

end

/-! ## The built consensus -/

theorem mapM_normalizePanelEntry {panel normalized : List JudgeConsensusPanelEntry} :
    panel.mapM normalizePanelEntry = .ok normalized ↔
      (∀ entry ∈ panel, checkPanelEntry entry = .ok ()) ∧
        normalized = panel.map normalizedEntry := by
  induction panel generalizing normalized with
  | nil =>
      simp only [List.mapM_nil, List.map_nil, List.not_mem_nil, false_imp_iff, implies_true,
        true_and]
      exact ⟨fun h ↦ (Except.ok.inj h).symm, fun h ↦ congrArg Except.ok h.symm⟩
  | cons entry panel ih =>
      rw [List.mapM_cons, normalizePanelEntry]
      cases hcheck : checkPanelEntry entry with
      | error failure =>
          constructor
          · intro h
            cases h
          · intro h
            have := h.1 entry List.mem_cons_self
            rw [hcheck] at this
            cases this
      | ok _ =>
          cases hrest : panel.mapM normalizePanelEntry with
          | error failure =>
              constructor
              · intro h
                cases h
              · rintro ⟨hall, -⟩
                have := ih.mpr ⟨fun e he ↦ hall e (List.mem_cons_of_mem _ he), rfl⟩
                rw [hrest] at this
                cases this
          | ok rest =>
              obtain ⟨hall, rfl⟩ := ih.mp hrest
              constructor
              · intro h
                refine ⟨fun e he ↦ ?_, (Except.ok.inj h).symm⟩
                rcases List.mem_cons.mp he with rfl | he
                · exact hcheck
                · exact hall e he
              · rintro ⟨-, rfl⟩
                rfl

theorem buildJudgeConsensus_eq_ok {input : BuildJudgeConsensusInput}
    {artifact : JudgeConsensusVerdict} :
    buildJudgeConsensus localeCompare input = .ok artifact ↔
      trim input.jobId ≠ [] ∧ input.panel ≠ [] ∧
        (∀ entry ∈ input.panel, checkPanelEntry entry = .ok ()) ∧
        artifact = consensusOf localeCompare input.jobId input.repairHistory
          (input.panel.map normalizedEntry) := by
  unfold buildJudgeConsensus
  by_cases hjob : trim input.jobId = []
  · simp [hjob]
  · rw [if_neg hjob]
    cases hpanel : input.panel.mapM normalizePanelEntry with
    | error failure =>
        refine ⟨nofun, fun ⟨_, _, hall, _⟩ ↦ ?_⟩
        rw [mapM_normalizePanelEntry.mpr ⟨hall, rfl⟩] at hpanel
        cases hpanel
    | ok normalized =>
        obtain ⟨hall, rfl⟩ := mapM_normalizePanelEntry.mp hpanel
        dsimp only
        by_cases hempty : input.panel = []
        · simp [hempty]
        · rw [if_neg (by simpa using hempty)]
          constructor
          · intro h
            exact ⟨hjob, hempty, hall, (Except.ok.inj h).symm⟩
          · rintro ⟨-, -, -, rfl⟩
            rfl

/-- A judge without findings, half sure of its verdict. -/
def sampleJudge (judgeId : String) (verdict : ConsensusVerdictLabel) :
    JudgeConsensusPanelEntry where
  judgeId := js judgeId
  verdict
  weight := 1
  confidence := some (.ofRat (4 / 10))
  findings := []
  repairInstructions := []
  truncatedInstructionCount := none
  family := none
  region := none
  modelId := none
  promptVersion := none

def samplePanel (verdict : ConsensusVerdictLabel) : BuildJudgeConsensusInput where
  jobId := js "job-1"
  panel := [sampleJudge "faithfulness_judge" .accept, sampleJudge "a11y_judge" .accept,
    sampleJudge "logic_judge" verdict]
  repairHistory := none

end TestIntelligence.ProductionRunner.JudgeConsensus
