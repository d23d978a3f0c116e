import TestIntelligence.Lists.BlockOrder
import TestIntelligence.Lists.FirstBest
import TestIntelligence.ProductionRunner.JudgeConsensusSeverity

/-!
# The order of the panel

The verdict, the agreement and the state of the repair do not depend on the order of the
panel.  The findings, the repair instructions and the veto do not depend on it exactly if no
two judges compete for the first place with what the consensus does not tell apart.
-/

namespace TestIntelligence.ProductionRunner.JudgeConsensus

open Js Lists

/-! ## Collation -/

/-- `localeCompare` orders the texts; different texts may tie. -/
structure LawfulCollation (localeCompare : JsString → JsString → ℤ) : Prop where
  sign : ∀ s t, 0 < localeCompare s t ↔ localeCompare t s < 0
  trans : ∀ s t u, localeCompare s t ≤ 0 → localeCompare t u ≤ 0 → localeCompare s u ≤ 0

section

variable {localeCompare : JsString → JsString → ℤ}

theorem LawfulCollation.compareTexts_cons_nonpos (h : LawfulCollation localeCompare)
    (s t : JsString) (ss ts : List JsString) :
    compareTexts localeCompare (s :: ss) (t :: ts) ≤ 0 ↔
      localeCompare s t ≤ 0 ∧ (localeCompare t s ≤ 0 → compareTexts localeCompare ss ts ≤ 0) := by
  have hst := h.sign s t
  have hts := h.sign t s
  rw [compareTexts]
  split
  · next hne =>
    constructor
    · intro hle
      exact ⟨hle, fun hge ↦ by omega⟩
    · exact fun hle ↦ hle.1
  · next hzero =>
    rw [not_not] at hzero
    constructor
    · exact fun hle ↦ ⟨hzero.le, fun _ ↦ hle⟩
    · exact fun hle ↦ hle.2 (by omega)

theorem LawfulCollation.compareTexts_total (h : LawfulCollation localeCompare)
    {xs ys : List JsString} (hlen : xs.length = ys.length) :
    compareTexts localeCompare xs ys ≤ 0 ∨ compareTexts localeCompare ys xs ≤ 0 := by
  induction xs generalizing ys with
  | nil => exact Or.inl (by simp [compareTexts])
  | cons s ss ih =>
      cases ys with
      | nil => cases hlen
      | cons t ts =>
          have hst := h.sign s t
          have hts := h.sign t s
          rw [h.compareTexts_cons_nonpos, h.compareTexts_cons_nonpos]
          rcases ih (Nat.succ.inj hlen) with hle | hle
          · by_cases hfirst : localeCompare s t ≤ 0
            · exact Or.inl ⟨hfirst, fun _ ↦ hle⟩
            · exact Or.inr ⟨by omega, fun hge ↦ absurd hge hfirst⟩
          · by_cases hfirst : localeCompare t s ≤ 0
            · exact Or.inr ⟨hfirst, fun _ ↦ hle⟩
            · exact Or.inl ⟨by omega, fun hge ↦ absurd hge hfirst⟩

theorem LawfulCollation.compareTexts_trans (h : LawfulCollation localeCompare)
    {xs ys zs : List JsString} (hlen : xs.length = ys.length) (hlen' : ys.length = zs.length)
    (hxy : compareTexts localeCompare xs ys ≤ 0) (hyz : compareTexts localeCompare ys zs ≤ 0) :
    compareTexts localeCompare xs zs ≤ 0 := by
  induction xs generalizing ys zs with
  | nil => simp [compareTexts]
  | cons s ss ih =>
      match ys, zs, hlen, hlen' with
      | t :: ts, u :: us, hlen, hlen' =>
          rw [h.compareTexts_cons_nonpos] at hxy hyz ⊢
          refine ⟨h.trans s t u hxy.1 hyz.1, fun hus ↦ ?_⟩
          exact ih (Nat.succ.inj hlen) (Nat.succ.inj hlen') (hxy.2 (h.trans t u s hyz.1 hus))
            (hyz.2 (h.trans u s t hus hxy.1))

/-- Comparing by a fixed number of texts is comparing by an order. -/
theorem LawfulCollation.consistent {α : Type} (h : LawfulCollation localeCompare)
    {texts : α → List JsString} {n : ℕ} (htexts : ∀ a, (texts a).length = n) :
    Consistent fun a b ↦ compareTexts localeCompare (texts a) (texts b) :=
  ⟨fun a b ↦ h.compareTexts_total ((htexts a).trans (htexts b).symm), fun a b c ↦
    h.compareTexts_trans ((htexts a).trans (htexts b).symm) ((htexts b).trans (htexts c).symm)⟩

theorem LawfulCollation.consistent_compareFinding (h : LawfulCollation localeCompare) :
    Consistent (compareFinding localeCompare) :=
  @LawfulCollation.consistent _ _ h findingTexts 6 fun _ ↦ rfl

theorem LawfulCollation.consistent_compareInstruction (h : LawfulCollation localeCompare) :
    Consistent (compareInstruction localeCompare) :=
  @LawfulCollation.consistent _ _ h instructionTexts 5 fun _ ↦ rfl

end

/-! ## Permuted panels -/

theorem exists_perm_of_perm_map {α β : Type} {f : α → β} {xs : List α} {ys : List β}
    (h : (xs.map f).Perm ys) : ∃ zs, xs.Perm zs ∧ zs.map f = ys := by
  generalize hmap : xs.map f = mapped at h
  induction h generalizing xs with
  | nil => exact ⟨xs, .refl _, hmap⟩
  | cons y _ ih =>
      obtain ⟨x, rest, rfl, rfl, hrest⟩ := List.map_eq_cons_iff.mp hmap
      obtain ⟨zs, hperm, hzs⟩ := ih hrest
      exact ⟨x :: zs, hperm.cons x, by rw [List.map_cons, hzs]⟩
  | swap y z rest =>
      obtain ⟨x, xs, rfl, rfl, hxs⟩ := List.map_eq_cons_iff.mp hmap
      obtain ⟨w, xs, rfl, rfl, rfl⟩ := List.map_eq_cons_iff.mp hxs
      exact ⟨w :: x :: xs, .swap _ _ _, rfl⟩
  | trans _ _ ih ih' =>
      obtain ⟨zs, hperm, hzs⟩ := ih hmap
      obtain ⟨ws, hperm', hws⟩ := ih' hzs
      exact ⟨ws, hperm.trans hperm', hws⟩

/-- What judges say once and in order is free of the order of the judges exactly if the
blocks are. -/
theorem collected_map_iff {α β κ : Type} [DecidableEq κ] {compare : β → β → ℤ}
    (hcompare : Consistent compare) {key : β → κ} {block : α → List β} {panel : List α} :
    (∀ panel', panel.Perm panel' → sortBy compare (firstsBy key (panel'.flatMap block)) =
      sortBy compare (firstsBy key (panel.flatMap block))) ↔
    BlockFree (fun a b ↦ compare a b ≤ 0) key (panel.map block) := by
  have : Std.Total fun a b ↦ compare a b ≤ 0 := ⟨hcompare.total⟩
  have : IsTrans _ fun a b ↦ compare a b ≤ 0 := ⟨hcompare.trans⟩
  have hcollected : ∀ panel : List α, sortBy compare (firstsBy key (panel.flatMap block)) =
      collected (fun a b ↦ compare a b ≤ 0) key (panel.map block) := fun panel ↦ by
    rw [collected, List.flatMap_def]
    rfl
  rw [blockFree_iff]
  constructor
  · intro h blocks hblocks
    obtain ⟨panel', hperm, rfl⟩ := exists_perm_of_perm_map hblocks
    rw [← hcollected, ← hcollected]
    exact h panel' hperm
  · intro h panel' hperm
    rw [hcollected, hcollected]
    exact h _ (hperm.map block)

/-! ## The veto -/

section

variable {localeCompare : JsString → JsString → ℤ}

/-- The judge is preferred to one that comes after it. -/
def Outranks (localeCompare : JsString → JsString → ℤ) (left right : JudgeConsensusPanelEntry) :
    Prop :=
  toSeverityRank right.verdict < toSeverityRank left.verdict ∨
    toSeverityRank right.verdict = toSeverityRank left.verdict ∧
      (right.weight < left.weight ∨
        right.weight = left.weight ∧ localeCompare left.judgeId right.judgeId ≤ 0)

instance : DecidableRel (Outranks localeCompare) := fun _ _ ↦
  inferInstanceAs (Decidable (_ ∨ _ ∧ (_ ∨ _ ∧ _)))

theorem selectHigherSeverity_eq_ite (left right : JudgeConsensusPanelEntry) :
    selectHigherSeverity localeCompare left right =
      if Outranks localeCompare left right then left else right := by
  unfold selectHigherSeverity
  by_cases hrank : toSeverityRank left.verdict = toSeverityRank right.verdict
  · rw [if_neg (not_not.mpr hrank)]
    by_cases hweight : left.weight = right.weight
    · rw [if_neg (not_not.mpr hweight)]
      exact if_congr (by simp [Outranks, hrank, hweight]) rfl rfl
    · rw [if_pos hweight]
      exact if_congr (by simp [Outranks, hrank, Ne.symm hweight]) rfl rfl
  · rw [if_pos hrank]
    exact if_congr (by simp [Outranks, Ne.symm hrank]) rfl rfl

theorem selectVeto_eq_firstBest (panel : List JudgeConsensusPanelEntry) :
    selectVeto localeCompare panel = firstBest (Outranks localeCompare) (panel.filter hasVeto) := by
  unfold selectVeto firstBest
  congr 1
  funext selected entry
  cases selected with
  | none => rfl
  | some selected => exact congrArg some (selectHigherSeverity_eq_ite selected entry)

theorem LawfulCollation.total_outranks (h : LawfulCollation localeCompare) :
    Std.Total (Outranks localeCompare) := by
  refine ⟨fun left right ↦ ?_⟩
  have hsign := h.sign left.judgeId right.judgeId
  unfold Outranks
  rcases lt_trichotomy (toSeverityRank left.verdict) (toSeverityRank right.verdict) with
    hrank | hrank | hrank
  · exact Or.inr (Or.inl hrank)
  · rcases lt_trichotomy left.weight right.weight with hweight | hweight | hweight
    · exact Or.inr (Or.inr ⟨hrank, Or.inl hweight⟩)
    · by_cases hid : localeCompare left.judgeId right.judgeId ≤ 0
      · exact Or.inl (Or.inr ⟨hrank.symm, Or.inr ⟨hweight.symm, hid⟩⟩)
      · exact Or.inr (Or.inr ⟨hrank, Or.inr ⟨hweight, by omega⟩⟩)
    · exact Or.inl (Or.inr ⟨hrank.symm, Or.inl hweight⟩)
  · exact Or.inl (Or.inl hrank)

theorem LawfulCollation.isTrans_outranks (h : LawfulCollation localeCompare) :
    IsTrans _ (Outranks localeCompare) := by
  refine ⟨fun a b c hab hbc ↦ ?_⟩
  unfold Outranks at hab hbc ⊢
  rcases hab with hab | ⟨hab, hab'⟩
  · rcases hbc with hbc | ⟨hbc, -⟩ <;> exact Or.inl (by omega)
  rcases hbc with hbc | ⟨hbc, hbc'⟩
  · exact Or.inl (by omega)
  refine Or.inr ⟨hbc.trans hab, ?_⟩
  rcases hab' with hab' | ⟨hab', hid⟩
  · rcases hbc' with hbc' | ⟨hbc', -⟩
    · exact Or.inl (hbc'.trans hab')
    · exact Or.inl (hbc' ▸ hab')
  rcases hbc' with hbc' | ⟨hbc', hid'⟩
  · exact Or.inl (hab' ▸ hbc')
  · exact Or.inr ⟨hbc'.trans hab', h.trans _ _ _ hid hid'⟩

/-- What is reported of a veto. -/
def vetoOf (entry : JudgeConsensusPanelEntry) : JudgeConsensusVeto :=
  ⟨entry.judgeId, entry.verdict, entry.findings.map (·.code)⟩

/-- Judges that veto and that no other judge with a veto outranks are one judge. -/
def OneVeto (localeCompare : JsString → JsString → ℤ) (panel : List JudgeConsensusPanelEntry) :
    Prop :=
  ∀ a ∈ panel.filter hasVeto, ∀ b ∈ panel.filter hasVeto,
    (∀ x ∈ panel.filter hasVeto, Outranks localeCompare a x) →
    (∀ x ∈ panel.filter hasVeto, Outranks localeCompare b x) → a.judgeId = b.judgeId

theorem oneVeto_iff (h : LawfulCollation localeCompare) {panel : List JudgeConsensusPanelEntry}
    (hids : (panel.map (·.judgeId)).Nodup) :
    (∀ panel', panel.Perm panel' → (selectVeto localeCompare panel').map vetoOf =
      (selectVeto localeCompare panel).map vetoOf) ↔ OneVeto localeCompare panel := by
  have := h.total_outranks
  have := h.isTrans_outranks
  simp only [selectVeto_eq_firstBest]
  rw [firstBest_filter_iff]
  refine forall₂_congr fun a ha ↦ forall₂_congr fun b hb ↦ forall₂_congr fun _ _ ↦ ?_
  constructor
  · exact fun hveto ↦ congrArg JudgeConsensusVeto.judgeId hveto
  · intro hid
    rw [List.inj_on_of_nodup_map hids (List.mem_filter.mp ha).1 (List.mem_filter.mp hb).1 hid]

/-! ## The vote -/

theorem tally_perm {β : Type} [AddCommMonoid β] (amount : JudgeConsensusPanelEntry → β)
    {panel panel' : List JudgeConsensusPanelEntry} (hperm : panel.Perm panel') :
    tally amount panel' = tally amount panel := by
  have hget : ∀ label, (tally amount panel').get label = (tally amount panel).get label :=
    fun label ↦ by
      rw [tally_get, tally_get]
      exact (((hperm.filter _).map amount).sum_eq).symm
  have haccept := hget .accept
  have hrepair := hget .repair
  have hreject := hget .reject
  cases htally : tally amount panel
  cases htally' : tally amount panel'
  simp_all [Tally.get]

theorem rank_injective : Function.Injective toSeverityRank := by
  intro a b
  cases a <;> cases b <;> decide

/-- How severe the veto is does not depend on the order of the panel. -/
theorem selectVeto_verdict_perm {panel panel' : List JudgeConsensusPanelEntry}
    (hperm : panel.Perm panel') : (selectVeto localeCompare panel').map (·.verdict) =
      (selectVeto localeCompare panel).map (·.verdict) := by
  have hfilter := hperm.filter hasVeto
  rcases selectVeto_spec localeCompare panel with ⟨hnone, hempty⟩ | ⟨a, ha, hselect, hrank⟩
  · rcases selectVeto_spec localeCompare panel' with ⟨hnone', -⟩ | ⟨b, hb, -⟩
    · rw [hnone, hnone']
    · rw [hempty] at hfilter
      rw [List.nil_perm.mp hfilter] at hb
      cases hb
  · rcases selectVeto_spec localeCompare panel' with ⟨-, hempty'⟩ | ⟨b, hb, hselect', hrank'⟩
    · rw [hempty'] at hfilter
      rw [List.perm_nil.mp hfilter] at ha
      cases ha
    · rw [hselect, hselect', Option.map_some, Option.map_some]
      refine congrArg some (rank_injective (le_antisymm ?_ ?_))
      · exact hrank b (hfilter.mem_iff.mpr hb)
      · exact hrank' a (hfilter.mem_iff.mp ha)

theorem classifyAgreementShape_perm {panel panel' : List JudgeConsensusPanelEntry}
    (hperm : panel.Perm panel') {veto veto' : Option JudgeConsensusPanelEntry}
    (hveto : veto'.map (·.verdict) = veto.map (·.verdict)) :
    classifyAgreementShape panel' veto' = classifyAgreementShape panel veto := by
  have hsome : veto'.isSome = veto.isSome := by
    simpa using congrArg Option.isSome hveto
  unfold classifyAgreementShape
  rw [hsome, tally_perm _ hperm]

theorem resolveVotingVerdict_perm {panel panel' : List JudgeConsensusPanelEntry}
    (hperm : panel.Perm panel') {veto veto' : Option JudgeConsensusPanelEntry}
    (hveto : veto'.map (·.verdict) = veto.map (·.verdict)) (shape : AgreementShape) :
    resolveVotingVerdict panel' shape veto' = resolveVotingVerdict panel shape veto := by
  have hvetoed : ∀ veto : Option JudgeConsensusPanelEntry,
      veto.elim .repair (·.verdict) = (veto.map (·.verdict)).getD .repair := fun veto ↦ by
    cases veto <;> rfl
  unfold resolveVotingVerdict
  rw [tally_perm _ hperm, hvetoed, hvetoed, hveto]

/-! ## The artifact -/

section

variable {jobId : JsString} {repairHistory : Option JudgeConsensusRepairHistory}
  {panel panel' : List JudgeConsensusPanelEntry}

/-- The vote comes out the same, and so does what is to be repaired by it. -/
structure SameVote (a b : JudgeConsensusVerdict) : Prop where
  verdict : b.verdict = a.verdict
  agreementShape : b.agreementShape = a.agreementShape
  repairState : b.repairState = a.repairState

/-- What the artifact says besides the panel. -/
structure SameOutcome (a b : JudgeConsensusVerdict) : Prop extends SameVote a b where
  vetoBy : b.vetoBy = a.vetoBy
  activeFindings : b.activeFindings = a.activeFindings
  repairInstructions : b.repairInstructions = a.repairInstructions
  truncatedInstructionCount : b.truncatedInstructionCount = a.truncatedInstructionCount

theorem sameVote_of_perm (hperm : panel.Perm panel') :
    SameVote (consensusOf localeCompare jobId repairHistory panel)
      (consensusOf localeCompare jobId repairHistory panel') := by
  have hveto : (selectVeto localeCompare panel').map (·.verdict) =
      (selectVeto localeCompare panel).map (·.verdict) := selectVeto_verdict_perm hperm
  have hshape := classifyAgreementShape_perm hperm hveto
  have hverdict := resolveVotingVerdict_perm hperm hveto
    (classifyAgreementShape panel (selectVeto localeCompare panel))
  unfold consensusOf
  dsimp only
  rw [hshape]
  exact ⟨hverdict, rfl, congrArg (repairStateOf (isRepairAttempted repairHistory)) hverdict⟩

/-- Where the order of the panel has no say. -/
structure OrderFree (localeCompare : JsString → JsString → ℤ)
    (panel : List JudgeConsensusPanelEntry) : Prop where
  findings : BlockFree (fun a b ↦ compareFinding localeCompare a b ≤ 0)
    (fun finding ↦ dedupeKey (findingTexts finding))
    (panel.map fun entry ↦ entry.findings.map normalizedFinding)
  instructions : BlockFree (fun a b ↦ compareInstruction localeCompare a b ≤ 0)
    (fun instruction ↦ dedupeKey (instructionTexts instruction))
    (panel.map fun entry ↦ entry.repairInstructions.map normalizedInstruction)
  veto : OneVeto localeCompare panel

theorem orderFree_iff (h : LawfulCollation localeCompare)
    (hids : (panel.map (·.judgeId)).Nodup) : OrderFree localeCompare panel ↔
      ∀ panel', panel.Perm panel' →
        SameOutcome (consensusOf localeCompare jobId repairHistory panel)
          (consensusOf localeCompare jobId repairHistory panel') := by
  constructor
  · intro hfree panel' hperm
    have hfindings : dedupeFindings localeCompare panel' = dedupeFindings localeCompare panel :=
      (collected_map_iff h.consistent_compareFinding).mpr hfree.findings panel' hperm
    have hinstructions : dedupeRepairInstructions localeCompare panel' =
        dedupeRepairInstructions localeCompare panel :=
      (collected_map_iff h.consistent_compareInstruction).mpr hfree.instructions panel' hperm
    have hveto := (oneVeto_iff h hids).mpr hfree.veto panel' hperm
    exact ⟨sameVote_of_perm hperm, hveto, hfindings, hinstructions,
      congrArg countTruncatedInstructions hinstructions⟩
  · intro hsame
    exact ⟨(collected_map_iff h.consistent_compareFinding).mp fun panel' hperm ↦
        (hsame panel' hperm).activeFindings,
      (collected_map_iff h.consistent_compareInstruction).mp fun panel' hperm ↦
        (hsame panel' hperm).repairInstructions,
      (oneVeto_iff h hids).mp fun panel' hperm ↦ (hsame panel' hperm).vetoBy⟩

/-! ## Panels as they are given -/

@[simp] theorem judgeId_normalizedEntry (entry : JudgeConsensusPanelEntry) :
    (normalizedEntry entry).judgeId = entry.judgeId := by
  unfold normalizedEntry normalizeJudgeVerdict
  dsimp only
  split <;> rfl

/-- The vote never depends on the order of the judges; everything else that is said besides the
panel does not depend on it exactly if the panel is free of competition. -/
theorem buildJudgeConsensus_order_iff (hcollation : LawfulCollation localeCompare)
    {input : BuildJudgeConsensusInput} (hids : (input.panel.map (·.judgeId)).Nodup)
    {artifact : JudgeConsensusVerdict}
    (h : buildJudgeConsensus localeCompare input = .ok artifact) :
    (∀ panel', input.panel.Perm panel' → ∃ artifact',
      buildJudgeConsensus localeCompare { input with panel := panel' } = .ok artifact' ∧
        SameVote artifact artifact') ∧
    ((∀ panel', input.panel.Perm panel' → ∃ artifact',
      buildJudgeConsensus localeCompare { input with panel := panel' } = .ok artifact' ∧
        SameOutcome artifact artifact') ↔
      OrderFree localeCompare (input.panel.map normalizedEntry)) := by
  obtain ⟨hjob, hpanel, hall, rfl⟩ := buildJudgeConsensus_eq_ok.mp h
  have haccepted : ∀ panel', input.panel.Perm panel' →
      buildJudgeConsensus localeCompare { input with panel := panel' } =
        .ok (consensusOf localeCompare input.jobId input.repairHistory
          (panel'.map normalizedEntry)) := fun panel' hperm ↦
    buildJudgeConsensus_eq_ok.mpr ⟨hjob, fun hempty ↦ hpanel (List.perm_nil.mp (hempty ▸ hperm)),
      fun entry hentry ↦ hall entry (hperm.mem_iff.mpr hentry), rfl⟩
  have hids' : ((input.panel.map normalizedEntry).map (·.judgeId)).Nodup := by
    rw [List.map_map]
    simpa [Function.comp_def] using hids
  refine ⟨fun panel' hperm ↦ ⟨_, haccepted panel' hperm, sameVote_of_perm (hperm.map _)⟩, ?_⟩
  rw [@orderFree_iff _ input.jobId input.repairHistory _ hcollation hids']
  constructor
  · intro hsame normalized hperm
    obtain ⟨panel', hpanel', rfl⟩ := exists_perm_of_perm_map hperm
    obtain ⟨artifact', hartifact', hsame⟩ := hsame panel' hpanel'
    rw [haccepted panel' hpanel'] at hartifact'
    rw [Except.ok.inj hartifact']
    exact hsame
  · intro hsame panel' hperm
    exact ⟨_, haccepted panel' hperm, hsame _ (hperm.map _)⟩

end

end

/-! ## One text, cut by one judge -/

theorem lawfulCollation_codeUnitCompare : LawfulCollation codeUnitCompare := by
  refine ⟨fun s t ↦ ?_, consistent_codeUnitCompare.trans⟩
  have hst := codeUnitCompare_nonpos (s := s) (t := t)
  have hne : codeUnitCompare t s < 0 ↔ t < s := by
    unfold codeUnitCompare
    split
    · next hlt => simp [hlt]
    · next hlt => split <;> simp [hlt]
  rw [hne, ← not_le, hst, Std.not_le]

/-- A judge that asks for one repair. -/
def repairJudge (judgeId : String) (instruction : JsString) : JudgeConsensusPanelEntry :=
  { sampleJudge judgeId .repair with
    repairInstructions := [⟨js "tc-1", js "steps[0]", instruction, none, none, none⟩] }

/-- The first judge gives a text of 241 characters, the second one the text to which it is cut. -/
def cutPanel : BuildJudgeConsensusInput where
  jobId := js "job-1"
  panel := [repairJudge "logic_judge" (List.replicate 241 0x78),
    repairJudge "a11y_judge" (List.replicate 237 0x78 ++ js "...")]
  repairHistory := none

theorem cutPanel_accepted : buildJudgeConsensus codeUnitCompare cutPanel =
    .ok (consensusOf codeUnitCompare (js "job-1") none (cutPanel.panel.map normalizedEntry)) := by
  refine buildJudgeConsensus_eq_ok.mpr ⟨by decide, List.cons_ne_nil _ _, ?_, rfl⟩
  intro entry hentry
  simp only [cutPanel, List.mem_cons, List.not_mem_nil, or_false] at hentry
  rcases hentry with rfl | rfl <;> rfl

theorem buildJudgeConsensus_order_iff_sample :
    (∀ panel', cutPanel.panel.Perm panel' → ∃ artifact',
      buildJudgeConsensus codeUnitCompare { cutPanel with panel := panel' } = .ok artifact' ∧
        SameVote (consensusOf codeUnitCompare (js "job-1") none
          (cutPanel.panel.map normalizedEntry)) artifact') ∧
    ((∀ panel', cutPanel.panel.Perm panel' → ∃ artifact',
      buildJudgeConsensus codeUnitCompare { cutPanel with panel := panel' } = .ok artifact' ∧
        SameOutcome (consensusOf codeUnitCompare (js "job-1") none
          (cutPanel.panel.map normalizedEntry)) artifact') ↔
      OrderFree codeUnitCompare (cutPanel.panel.map normalizedEntry)) :=
  buildJudgeConsensus_order_iff lawfulCollation_codeUnitCompare (by decide)
    cutPanel_accepted

/-- The instruction counts as cut only where the judge whose text is cut comes first. -/
theorem cut_instruction_counted_by_order :
    (buildJudgeConsensus codeUnitCompare cutPanel).toOption.map (·.truncatedInstructionCount) =
        some 1 ∧
      (buildJudgeConsensus codeUnitCompare
        { cutPanel with panel := cutPanel.panel.reverse }).toOption.map
          (·.truncatedInstructionCount) = some 0 := by
  decide +kernel

end TestIntelligence.ProductionRunner.JudgeConsensus
