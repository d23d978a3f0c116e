import TestIntelligence.AgenticHarness.Checkpoint
import TestIntelligence.Chains.HashChain

/-!
# What the checkpoint verifier accepts

An accepted chain is a hash chain whose positions, schemas and trace edges are in
order.  The state of the loop is a summary of the checkpoints before the current
one, so acceptance is a condition on each checkpoint and its predecessors.
-/

namespace TestIntelligence.AgenticHarness.Checkpoint

open Js Security Chains

variable (sha256 : JsString → JsString) (dateParse : JsString → JsNumber)

/-- The checkpoint passes every structural check. -/
def Valid (c : AgentHarnessCheckpoint) : Prop :=
  ∀ error ∈ invariantErrors dateParse c [], error = none

/-- The trace edge of a checkpoint, given the checkpoints before it. -/
def TraceEdge (earlier : List AgentHarnessCheckpoint) (c : AgentHarnessCheckpoint) : Prop :=
  match earlier.find? (·.runId = c.runId) with
  | some first => c.parentRunId = first.parentRunId
  | none => earlier = [] ∨ ∃ caller ∈ earlier, c.parentRunId = some caller.runId

structure AcceptedAt (earlier : List AgentHarnessCheckpoint) (c : AgentHarnessCheckpoint) :
    Prop where
  index : c.chainIndex.eqNat earlier.length = true
  valid : Valid dateParse c
  parent : c.parentHash = head (computeAgentHarnessCheckpointHash sha256) rootParentHash earlier
  edge : TraceEdge earlier c

/-- Each of the checkpoints `rest` is accepted after its predecessors. -/
def Accepted : List AgentHarnessCheckpoint → List AgentHarnessCheckpoint → Prop
  | _, [] => True
  | earlier, c :: rest => AcceptedAt sha256 dateParse earlier c ∧ Accepted (earlier ++ [c]) rest

variable {sha256 dateParse}

/-! ## The structural checks do not depend on the site -/

theorem nextRoleStepIdsError_eq_none_iff {values : List JsString} {site : JsString} :
    nextRoleStepIdsError values site = none ↔
      values.any (· == []) = false ∧ repeatedString (sortStrings values) = none ∧
        values = sortStrings values := by
  unfold nextRoleStepIdsError dedupSortedStrings
  cases values.any (· == []) with
  | true => simp
  | false =>
      cases repeatedString (sortStrings values) with
      | some entry => simp
      | none => simp

theorem errors_none_iff (c : AgentHarnessCheckpoint) (site : JsString) :
    (∀ error ∈ invariantErrors dateParse c site, error = none) ↔ Valid dateParse c := by
  simp only [Valid, invariantErrors, List.forall_mem_cons, List.not_mem_nil, false_imp_iff,
    implies_true, ite_eq_left_iff, reduceCtorEq, imp_false, nextRoleStepIdsError_eq_none_iff]

theorem assert_eq_ok_iff {c : AgentHarnessCheckpoint} {site : JsString} :
    assertAgentHarnessCheckpointInvariants dateParse c site = .ok () ↔ Valid dateParse c := by
  unfold assertAgentHarnessCheckpointInvariants
  have hnone : (invariantErrors dateParse c site).findSome? id = none ↔ Valid dateParse c :=
    List.findSome?_eq_none_iff.trans (errors_none_iff c site)
  rw [← hnone]
  cases (invariantErrors dateParse c site).findSome? id with
  | none => simp
  | some message => simp

theorem assert_of_valid {c : AgentHarnessCheckpoint} (h : Valid dateParse c) (site : JsString) :
    assertAgentHarnessCheckpointInvariants dateParse c site = .ok () := assert_eq_ok_iff.mpr h

/-! ## The state of the loop -/

/-- The map after a checkpoint that was accepted. -/
def declareRun (runs : List (JsString × Option JsString)) (c : AgentHarnessCheckpoint) :
    List (JsString × Option JsString) :=
  if (mapGet runs c.runId).isSome then runs else mapSet runs c.runId c.parentRunId

/-- The first declared parent of each run. -/
def declaredRuns (earlier : List AgentHarnessCheckpoint) : List (JsString × Option JsString) :=
  earlier.foldl declareRun []

theorem declaredRuns_concat (earlier : List AgentHarnessCheckpoint) (c : AgentHarnessCheckpoint) :
    declaredRuns (earlier ++ [c]) = declareRun (declaredRuns earlier) c :=
  List.foldl_append ..

theorem mapGet_declaredRuns (earlier : List AgentHarnessCheckpoint) (runId : JsString) :
    mapGet (declaredRuns earlier) runId =
      (earlier.find? (·.runId = runId)).map (·.parentRunId) := by
  induction earlier using List.reverseRecOn with
  | nil => rfl
  | append_singleton earlier c ih =>
      rw [declaredRuns_concat, declareRun, List.find?_append]
      by_cases hrun : c.runId = runId
      · subst hrun
        rw [ih]
        cases hfirst : earlier.find? (·.runId = c.runId) with
        | some first => simp [ih, hfirst]
        | none => simp
      · have hlast : [c].find? (·.runId = runId) = none := by simp [hrun]
        rw [hlast, Option.or_none, ← ih]
        split
        · rfl
        · rw [mapGet_mapSet, if_neg (Ne.symm hrun)]

variable (sha256) in
def summary (earlier : List AgentHarnessCheckpoint) : VerifierState where
  seenIndexes := Js.setOf (earlier.map (·.chainIndex.unsigned))
  runIdToParent := declaredRuns earlier
  previousHash := head (computeAgentHarnessCheckpointHash sha256) rootParentHash earlier

theorem summary_concat (earlier : List AgentHarnessCheckpoint) (c : AgentHarnessCheckpoint) :
    summary sha256 (earlier ++ [c]) =
      ⟨setAdd (summary sha256 earlier).seenIndexes c.chainIndex.unsigned,
        declareRun (declaredRuns earlier) c, computeAgentHarnessCheckpointHash sha256 c⟩ := by
  simp [summary, Js.setOf, declaredRuns_concat]

theorem registerRun_ok_iff {earlier : List AgentHarnessCheckpoint} {c : AgentHarnessCheckpoint}
    {runs : List (JsString × Option JsString)} :
    registerRun (declaredRuns earlier) earlier.length c = .ok runs ↔
      TraceEdge earlier c ∧ runs = declareRun (declaredRuns earlier) c := by
  unfold registerRun TraceEdge declareRun
  have hget := mapGet_declaredRuns earlier c.runId
  cases hfirst : earlier.find? (·.runId = c.runId) with
  | some first =>
      rw [hfirst, Option.map_some] at hget
      simp only [hget, Option.isSome_some, if_true]
      by_cases hparent : first.parentRunId = c.parentRunId
      · simp [hparent, eq_comm]
      · simp [hparent, Ne.symm hparent]
  | none =>
      rw [hfirst, Option.map_none] at hget
      simp only [hget, Option.isSome_none, Bool.false_eq_true, if_false]
      by_cases hroot : earlier = []
      · simp [hroot, eq_comm]
      · have hlength : earlier.length ≠ 0 := by simpa using hroot
        rw [if_neg hlength]
        cases hparent : c.parentRunId with
        | none => simp [hroot]
        | some parentRunId =>
            have hcaller : (mapGet (declaredRuns earlier) parentRunId).isNone = false ↔
                ∃ caller ∈ earlier, parentRunId = caller.runId := by
              rw [mapGet_declaredRuns]
              cases hfind : earlier.find? (·.runId = parentRunId) with
              | none =>
                  have hnone := List.find?_eq_none.mp hfind
                  simp only [Option.map_none, Option.isNone_none, Bool.true_eq_false, false_iff]
                  rintro ⟨caller, hmem, rfl⟩
                  exact hnone caller hmem (decide_eq_true rfl)
              | some caller =>
                  have hmem := List.mem_of_find?_eq_some hfind
                  have hrun := List.find?_some hfind
                  simp only [Option.map_some, Option.isNone_some, true_iff]
                  exact ⟨caller, hmem, by simpa [eq_comm] using hrun⟩
            have hedge : (earlier = [] ∨ ∃ caller ∈ earlier,
                some parentRunId = some caller.runId) ↔
                  ∃ caller ∈ earlier, parentRunId = caller.runId := by
              simp [hroot]
            rw [hedge, ← hcaller]
            dsimp only
            cases (mapGet (declaredRuns earlier) parentRunId).isNone with
            | true => simp
            | false => simpa using eq_comm

/-! ## Acceptance -/

theorem accepted_append {earlier before after : List AgentHarnessCheckpoint} :
    Accepted sha256 dateParse earlier (before ++ after) ↔
      Accepted sha256 dateParse earlier before ∧
        Accepted sha256 dateParse (earlier ++ before) after := by
  induction before generalizing earlier with
  | nil => simp [Accepted]
  | cons c before ih => simp [Accepted, ih, and_assoc]

theorem accepted_iff_forall {earlier rest : List AgentHarnessCheckpoint} :
    Accepted sha256 dateParse earlier rest ↔
      ∀ i c, rest[i]? = some c → AcceptedAt sha256 dateParse (earlier ++ rest.take i) c := by
  induction rest generalizing earlier with
  | nil => simp [Accepted]
  | cons c rest ih =>
      rw [Accepted, ih]
      constructor
      · rintro ⟨hc, hrest⟩ i d hd
        cases i with
        | zero =>
            obtain rfl : c = d := by simpa using hd
            simpa using hc
        | succ i => simpa using hrest i d (by simpa using hd)
      · intro h
        refine ⟨by simpa using h 0 c rfl, fun i d hd ↦ ?_⟩
        simpa using h (i + 1) d (by simpa using hd)

theorem accepted_take {chain : List AgentHarnessCheckpoint} (h : Accepted sha256 dateParse [] chain)
    (k : ℕ) : Accepted sha256 dateParse [] (chain.take k) := by
  rw [← List.take_append_drop k chain, accepted_append] at h
  exact h.1

theorem exists_index_of_seen {earlier : List AgentHarnessCheckpoint}
    (h : Accepted sha256 dateParse [] earlier) {x : JsNumber}
    (hx : x.unsigned ∈ (summary sha256 earlier).seenIndexes) :
    ∃ j, j < earlier.length ∧ x.toRat = j := by
  simp only [summary, mem_setOf, List.mem_map] at hx
  obtain ⟨c, hc, hcx⟩ := hx
  obtain ⟨j, hj⟩ := List.mem_iff_getElem?.mp hc
  have hlength := (List.getElem?_eq_some_iff.mp hj).1
  have hindex := (accepted_iff_forall.mp h j c hj).index
  refine ⟨j, hlength, ?_⟩
  rw [← JsNumber.toRat_unsigned, ← hcx, JsNumber.toRat_unsigned, (JsNumber.eqNat_iff.mp hindex).2,
    List.nil_append, List.length_take, Nat.min_eq_left hlength.le]

theorem verifyAt_ok_iff {earlier : List AgentHarnessCheckpoint}
    (h : Accepted sha256 dateParse [] earlier) {c : AgentHarnessCheckpoint}
    {state : VerifierState} :
    verifyAt sha256 dateParse (summary sha256 earlier) earlier.length c = .ok state ↔
      AcceptedAt sha256 dateParse earlier c ∧ state = summary sha256 (earlier ++ [c]) := by
  constructor
  · intro hstep
    unfold verifyAt at hstep
    split at hstep
    · cases hstep
    split at hstep
    · cases hstep
    next hindex =>
    split at hstep
    · cases hstep
    next hassert =>
    split at hstep
    · cases hstep
    next hroot =>
    split at hstep
    · cases hstep
    next hparent =>
    split at hstep
    · cases hstep
    next runs hruns =>
    obtain ⟨hedge, hdeclared⟩ := registerRun_ok_iff.mp hruns
    refine ⟨⟨by simpa using hindex, assert_eq_ok_iff.mp hassert, ?_, hedge⟩, ?_⟩
    · by_cases hnil : earlier = []
      · subst hnil
        simpa using hroot
      · have hlength : earlier.length ≠ 0 := by simpa using hnil
        by_contra hne
        exact hparent ⟨hlength, hne⟩
    · rw [summary_concat, ← hdeclared]
      exact (Except.ok.inj hstep).symm
  · rintro ⟨haccepted, rfl⟩
    have hfresh : c.chainIndex.unsigned ∉ (summary sha256 earlier).seenIndexes := by
      intro hseen
      obtain ⟨j, hj, hrat⟩ := exists_index_of_seen h hseen
      rw [(JsNumber.eqNat_iff.mp haccepted.index).2, Nat.cast_inj] at hrat
      omega
    have hruns : registerRun (summary sha256 earlier).runIdToParent earlier.length c = .ok _ :=
      registerRun_ok_iff.mpr ⟨haccepted.edge, rfl⟩
    unfold verifyAt
    rw [if_neg hfresh, if_neg (by simp [haccepted.index]), assert_of_valid haccepted.valid]
    dsimp only
    rw [if_neg, if_neg]
    · rw [summary_concat, hruns]
    · exact fun hne ↦ hne.2 haccepted.parent
    · rintro ⟨hzero, hne⟩
      apply hne
      rw [haccepted.parent, List.length_eq_zero_iff.mp hzero]
      rfl

/-- A break is reported at a position that the accepted part reaches. -/
theorem firstBreakIndex_le {earlier : List AgentHarnessCheckpoint}
    (h : Accepted sha256 dateParse [] earlier) {c : AgentHarnessCheckpoint} {failure : ChainBreak}
    (hstep : verifyAt sha256 dateParse (summary sha256 earlier) earlier.length c =
      .error failure) : failure.firstBreakIndex ≤ earlier.length := by
  unfold verifyAt at hstep
  split at hstep
  · next hseen =>
      obtain ⟨j, hj, hrat⟩ := exists_index_of_seen h hseen
      obtain rfl := Except.error.inj hstep
      simp only [hrat, Rat.num_natCast, Int.toNat_natCast]
      omega
  · repeat' split at hstep
    all_goals cases hstep <;> simp

theorem verifyFrom_ok_iff {earlier rest : List AgentHarnessCheckpoint}
    (h : Accepted sha256 dateParse [] earlier) {state : VerifierState} :
    verifyFrom sha256 dateParse (summary sha256 earlier) earlier.length rest = .ok state ↔
      Accepted sha256 dateParse earlier rest ∧ state = summary sha256 (earlier ++ rest) := by
  induction rest generalizing earlier with
  | nil => simp [verifyFrom, Accepted, eq_comm]
  | cons c rest ih =>
      rw [verifyFrom, Accepted]
      cases hstep : verifyAt sha256 dateParse (summary sha256 earlier) earlier.length c with
      | error failure =>
          constructor
          · exact nofun
          · rintro ⟨⟨haccepted, -⟩, -⟩
            rw [(verifyAt_ok_iff h).mpr ⟨haccepted, rfl⟩] at hstep
            cases hstep
      | ok state' =>
          obtain ⟨haccepted, rfl⟩ := (verifyAt_ok_iff h).mp hstep
          have hlonger : Accepted sha256 dateParse [] (earlier ++ [c]) :=
            accepted_append.mpr ⟨h, haccepted, trivial⟩
          have hrest := ih hlonger
          simp only [List.length_append, List.length_singleton, List.append_assoc,
            List.singleton_append] at hrest
          simp only [hrest, haccepted, true_and]

theorem verifyFrom_error {earlier rest : List AgentHarnessCheckpoint}
    (h : Accepted sha256 dateParse [] earlier) {failure : ChainBreak}
    (hfails : verifyFrom sha256 dateParse (summary sha256 earlier) earlier.length rest =
      .error failure) :
    Accepted sha256 dateParse [] ((earlier ++ rest).take failure.firstBreakIndex) := by
  induction rest generalizing earlier with
  | nil => cases hfails
  | cons c rest ih =>
      rw [verifyFrom] at hfails
      cases hstep : verifyAt sha256 dateParse (summary sha256 earlier) earlier.length c with
      | error failure' =>
          rw [hstep] at hfails
          obtain rfl := Except.error.inj hfails
          rw [List.take_append_of_le_length (firstBreakIndex_le h hstep)]
          exact accepted_take h _
      | ok state =>
          rw [hstep] at hfails
          obtain ⟨haccepted, rfl⟩ := (verifyAt_ok_iff h).mp hstep
          have hlonger : Accepted sha256 dateParse [] (earlier ++ [c]) :=
            accepted_append.mpr ⟨h, haccepted, trivial⟩
          have hrest := ih hlonger (by simpa using hfails)
          simpa using hrest

theorem verify_eq (chain : List AgentHarnessCheckpoint) :
    verifyAgentHarnessCheckpointChain sha256 dateParse chain =
      match verifyFrom sha256 dateParse (summary sha256 []) 0 chain with
      | .error failure => .chainBreak failure
      | .ok state => .ok state.previousHash chain.length := by
  cases chain with
  | nil => rfl
  | cons c rest => rfl

/-- What the verifier accepts, and the head it reports. -/
theorem verify_ok_iff {chain : List AgentHarnessCheckpoint} {headOfChainHash : JsString}
    {chainLength : ℕ} :
    verifyAgentHarnessCheckpointChain sha256 dateParse chain = .ok headOfChainHash chainLength ↔
      Accepted sha256 dateParse [] chain ∧ chainLength = chain.length ∧
        headOfChainHash =
          head (computeAgentHarnessCheckpointHash sha256) rootParentHash chain := by
  have hstart : Accepted sha256 dateParse [] [] := trivial
  have hloop : ∀ state, verifyFrom sha256 dateParse (summary sha256 []) 0 chain = .ok state ↔
      Accepted sha256 dateParse [] chain ∧ state = summary sha256 chain :=
    fun state ↦ verifyFrom_ok_iff hstart
  rw [verify_eq]
  cases hrun : verifyFrom sha256 dateParse (summary sha256 []) 0 chain with
  | error failure =>
      constructor
      · exact nofun
      · rintro ⟨haccepted, -⟩
        rw [(hloop _).mpr ⟨haccepted, rfl⟩] at hrun
        cases hrun
  | ok state =>
      obtain ⟨haccepted, rfl⟩ := (hloop _).mp hrun
      simp [haccepted, summary, eq_comm, and_comm]

theorem linked_of_accepted {earlier rest : List AgentHarnessCheckpoint}
    (h : Accepted sha256 dateParse earlier rest) :
    Linked AgentHarnessCheckpoint.parentHash (computeAgentHarnessCheckpointHash sha256)
      (head (computeAgentHarnessCheckpointHash sha256) rootParentHash earlier) rest := by
  induction rest generalizing earlier with
  | nil => trivial
  | cons c rest ih =>
      refine ⟨h.1.parent, ?_⟩
      have hrest := ih h.2
      rwa [head_concat] at hrest

theorem valid_of_accepted {earlier rest : List AgentHarnessCheckpoint}
    (h : Accepted sha256 dateParse earlier rest) {c : AgentHarnessCheckpoint} (hc : c ∈ rest) :
    Valid dateParse c := by
  obtain ⟨i, hi⟩ := List.mem_iff_getElem?.mp hc
  exact (accepted_iff_forall.mp h i c hi).valid

/-! ## The canonical text of a checkpoint -/

/-- The checkpoint up to the sign of its zeros, which `===` and JSON ignore. -/
def AgentHarnessCheckpoint.unsigned (c : AgentHarnessCheckpoint) : AgentHarnessCheckpoint :=
  { c with
    attempt := c.attempt.unsigned
    chainIndex := c.chainIndex.unsigned
    promptTokens := c.promptTokens.unsigned
    completionTokens := c.completionTokens.unsigned }

def AgentHarnessCheckpoint.text (c : AgentHarnessCheckpoint) : JsString := canonicalJson c.toJson

def fieldKeys : List JsString :=
  ["schemaVersion", "jobId", "roleStepId", "attempt", "status", "inputHash", "outputHash",
    "nextRoleStepIds", "startedAt", "completedAt", "errorClass", "parentHash", "chainIndex",
    "runId", "parentRunId", "promptTokens", "completionTokens"].map js

theorem keys_fields (c : AgentHarnessCheckpoint) : c.fields.map Prod.fst = fieldKeys := rfl

theorem protoKey_not_mem_fieldKeys : protoKey ∉ fieldKeys := by decide

theorem enumerated_fields (c : AgentHarnessCheckpoint) : Enumerated c.fields := by
  rw [Enumerated, keys_fields]
  decide

theorem ordered_fields (c : AgentHarnessCheckpoint) :
    ∀ field ∈ c.fields, ∀ v ∈ field.2, v.Ordered := by
  have hrun : (c.parentRunId.elim Json.null Json.str).Ordered := by
    cases c.parentRunId <;> trivial
  have hitems : ∀ items : List JsString, (Json.arr (items.map .str)).Ordered := by
    intro items
    rw [Json.ordered_arr]
    intro v hv
    obtain ⟨s, -, rfl⟩ := List.mem_map.mp hv
    trivial
  have htext : ∀ s : Option JsString, ∀ v ∈ s.map Json.str, v.Ordered := by
    intro s v hv
    obtain ⟨t, -, rfl⟩ := Option.map_eq_some_iff.mp hv
    trivial
  simp only [AgentHarnessCheckpoint.fields, List.forall_mem_cons, Option.mem_some_iff, forall_eq',
    List.not_mem_nil, false_imp_iff, implies_true, and_true]
  exact ⟨trivial, trivial, trivial, trivial, trivial, trivial, htext _, hitems _, trivial, trivial,
    htext _, trivial, trivial, trivial, hrun, trivial, trivial⟩

theorem Valid.finite {c : AgentHarnessCheckpoint} (h : Valid dateParse c) :
    c.attempt.isFinite = true ∧ c.chainIndex.isFinite = true ∧ c.promptTokens.isFinite = true ∧
      c.completionTokens.isFinite = true := by
  simp only [Valid, invariantErrors, List.forall_mem_cons, ite_eq_left_iff, reduceCtorEq,
    imp_false, not_not, Bool.and_eq_true, isNonNegativeInteger] at h
  obtain ⟨-, -, -, ⟨hattempt, -⟩, -, -, -, -, -, -, -, -, -, ⟨hindex, -⟩, -, -, -, -, -,
    ⟨hprompt, -⟩, ⟨hcompletion, -⟩, -⟩ := h
  exact ⟨JsNumber.isFinite_of_isInteger hattempt, JsNumber.isFinite_of_isInteger hindex,
    JsNumber.isFinite_of_isInteger hprompt, JsNumber.isFinite_of_isInteger hcompletion⟩

/-- The text of a valid checkpoint determines it. -/
theorem unsigned_eq_of_text_eq {c c' : AgentHarnessCheckpoint} (hc : Valid dateParse c)
    (hc' : Valid dateParse c') (h : c.text = c'.text) : c.unsigned = c'.unsigned := by
  have hfields := fields_eq_of_canonicalJson_eq ((keys_fields c).trans (keys_fields c').symm)
    (enumerated_fields c) protoKey_not_mem_fieldKeys (ordered_fields c) (ordered_fields c') h
  obtain ⟨hattempt, hindex, hprompt, hcompletion⟩ := hc.finite
  obtain ⟨hattempt', hindex', hprompt', hcompletion'⟩ := hc'.finite
  have hinjStr : Function.Injective Json.str := fun a b ↦ Json.str.inj
  have hinjRun : ∀ run run' : Option JsString,
      run.elim Json.null Json.str = run'.elim Json.null Json.str ↔ run = run' := by
    intro run run'
    cases run <;> cases run' <;> simp
  simp only [AgentHarnessCheckpoint.fields, List.map_cons, List.map_nil, Option.map_some,
    Option.map_map, Function.comp_def, sortValue_printed_str, sortValue_printed_texts,
    sortValue_printed_nullable, sortValue_printed_num, hattempt, hattempt', hindex, hindex',
    hprompt, hprompt', hcompletion, hcompletion', List.cons.injEq, Option.some.injEq, Json.str.injEq, Json.num.injEq, Json.arr.injEq, hinjRun, and_true,
    (Option.map_injective hinjStr).eq_iff, (List.map_injective_iff.mpr hinjStr).eq_iff] at hfields
  obtain ⟨h1, h2, h3, h4, h5, h6, h7, h8, h9, h10, h11, h12, h13, h14, h15, h16, h17⟩ := hfields
  cases c
  cases c'
  simp_all [AgentHarnessCheckpoint.unsigned]

/-- The head hash of an accepted chain binds all its checkpoints, and the
checkpoints before a reported break verify on their own. -/
theorem checkpoint_chain_bound (sha256 : JsString → JsString) (dateParse : JsString → JsNumber) :
    (∀ (c₁ c₂ : List AgentHarnessCheckpoint) (headOfChainHash : JsString) (n₁ n₂ : ℕ),
      (∀ c ∈ c₁, ∀ c' ∈ c₂, sha256 c.text = sha256 c'.text → c.text = c'.text) →
      (∀ c ∈ c₁ ++ c₂, sha256 c.text ≠ rootParentHash) →
      verifyAgentHarnessCheckpointChain sha256 dateParse c₁ = .ok headOfChainHash n₁ →
      verifyAgentHarnessCheckpointChain sha256 dateParse c₂ = .ok headOfChainHash n₂ →
        c₁.map AgentHarnessCheckpoint.unsigned = c₂.map AgentHarnessCheckpoint.unsigned) ∧
    ∀ (chain : List AgentHarnessCheckpoint) (failure : ChainBreak),
      verifyAgentHarnessCheckpointChain sha256 dateParse chain = .chainBreak failure →
        ∃ headOfChainHash chainLength, verifyAgentHarnessCheckpointChain sha256 dateParse
          (chain.take failure.firstBreakIndex) = .ok headOfChainHash chainLength := by
  constructor
  · intro c₁ c₂ headOfChainHash n₁ n₂ hinj hroot h₁ h₂
    obtain ⟨haccepted₁, -, hhead₁⟩ := verify_ok_iff.mp h₁
    obtain ⟨haccepted₂, -, hhead₂⟩ := verify_ok_iff.mp h₂
    have hsame : ∀ c c' : AgentHarnessCheckpoint, c.unsigned = c'.unsigned →
        c.parentHash = c'.parentHash := by
      intro c c' heq
      have hparent : c.unsigned.parentHash = c'.unsigned.parentHash := by rw [heq]
      exact hparent
    refine map_norm_eq_of_head_eq hsame ?_ ?_ ?_ (linked_of_accepted haccepted₁)
      (linked_of_accepted haccepted₂) (hhead₁.symm.trans hhead₂)
    · intro c hc c' hc' heq
      apply unsigned_eq_of_text_eq (valid_of_accepted haccepted₁ hc)
        (valid_of_accepted haccepted₂ hc')
      exact hinj c hc c' hc' heq
    · exact fun c hc ↦ hroot c (List.mem_append_left _ hc)
    · exact fun c hc ↦ hroot c (List.mem_append_right _ hc)
  · intro chain failure hfails
    rw [verify_eq] at hfails
    cases hrun : verifyFrom sha256 dateParse (summary sha256 []) 0 chain with
    | ok state =>
        rw [hrun] at hfails
        cases hfails
    | error failure' =>
        rw [hrun] at hfails
        obtain rfl := VerifyResult.chainBreak.inj hfails
        have hstart : Accepted sha256 dateParse [] [] := trivial
        have haccepted := verifyFrom_error hstart hrun
        exact ⟨_, _, verify_ok_iff.mpr ⟨haccepted, rfl, rfl⟩⟩

def sampleRoot : AgentHarnessCheckpoint where
  schemaVersion := schemaVersion
  jobId := js "job-1"
  roleStepId := js "planner"
  attempt := 1
  status := js "started"
  inputHash := List.replicate 64 0x61
  outputHash := none
  nextRoleStepIds := [js "judge"]
  startedAt := js "2026-01-01T00:00:00Z"
  completedAt := js "2026-01-01T00:00:00Z"
  errorClass := none
  parentHash := rootParentHash
  chainIndex := 0
  runId := js "11111111-1111-4111-8111-111111111111"
  parentRunId := none
  promptTokens := 0
  completionTokens := 0

def sampleNext : AgentHarnessCheckpoint :=
  { sampleRoot with
    roleStepId := js "judge"
    status := js "completed"
    nextRoleStepIds := []
    parentHash := js "c7ae1369d308fea3271e0cd1037b056b9c7e914ea0f6db4fd6c6a81bca2a4d8a"
    chainIndex := 1
    runId := js "22222222-2222-4222-8222-222222222222"
    parentRunId := some (js "11111111-1111-4111-8111-111111111111")
    promptTokens := 12 }

/-- The digests of the two sample texts. -/
def sampleSha256 (text : JsString) : JsString :=
  if text = sampleRoot.text then
    js "c7ae1369d308fea3271e0cd1037b056b9c7e914ea0f6db4fd6c6a81bca2a4d8a"
  else js "2659c95e3c5fae6b969850654975b0f1860d24f415d8d387135aa344745f4ea5"

/-- `Date.parse` of the one timestamp in the sample. -/
def sampleDateParse (_ : JsString) : JsNumber := 1767225600000

/-- The same chain with a negative zero among its counts. -/
def sampleSigned : AgentHarnessCheckpoint := { sampleNext with completionTokens := .negZero }

theorem checkpoint_chain_bound_sample :
    verifyAgentHarnessCheckpointChain sampleSha256 sampleDateParse [sampleRoot, sampleNext] =
        .ok (sampleSha256 sampleNext.text) 2 ∧
      [sampleRoot, sampleNext].map AgentHarnessCheckpoint.unsigned =
        [sampleRoot, sampleSigned].map AgentHarnessCheckpoint.unsigned := by
  obtain ⟨hplain, hinj, hroot, hsigned⟩ :
      verifyAgentHarnessCheckpointChain sampleSha256 sampleDateParse [sampleRoot, sampleNext] =
          .ok (sampleSha256 sampleNext.text) 2 ∧
        (∀ c ∈ [sampleRoot, sampleNext], ∀ c' ∈ [sampleRoot, sampleSigned],
          sampleSha256 c.text = sampleSha256 c'.text → c.text = c'.text) ∧
        (∀ c ∈ [sampleRoot, sampleNext] ++ [sampleRoot, sampleSigned],
          sampleSha256 c.text ≠ rootParentHash) ∧
        verifyAgentHarnessCheckpointChain sampleSha256 sampleDateParse [sampleRoot, sampleSigned] =
          .ok (sampleSha256 sampleNext.text) 2 := by
    decide +kernel
  exact ⟨hplain, (checkpoint_chain_bound sampleSha256 sampleDateParse).1 _ _ _ 2 2 hinj hroot
    hplain hsigned⟩

end TestIntelligence.AgenticHarness.Checkpoint
