import TestIntelligence.AgenticHarness.FormalVerification.CtlChecker

/-!
# Exactness of the CTL model checker

The meaning of CTL formulae over the infinite paths of a Kripke structure, and the
proof that `checkCtl` returns exactly the states that satisfy its formula.
-/

namespace TestIntelligence.AgenticHarness.FormalVerification

open Js Search Temporal

/-! ## Total structures -/

/-- One step of a structure. -/
def Step (kripke : KripkeStructure) (s t : JsString) : Prop := t ∈ successorsOf kripke s

/-- A structure whose maps have distinct keys, whose transitions stay among its
states, and in which every state has a successor. -/
structure KripkeStructure.Total (kripke : KripkeStructure) : Prop where
  states_nodup : (allStateIds kripke).Nodup
  transitions_nodup : (kripke.transitions.map Prod.fst).Nodup
  source_mem : ∀ p ∈ kripke.transitions, p.1 ∈ allStateIds kripke
  target_mem : ∀ p ∈ kripke.transitions, ∀ t ∈ p.2, t ∈ allStateIds kripke
  serial : ∀ id ∈ allStateIds kripke, successorsOf kripke id ≠ []

variable {kripke : KripkeStructure} {enumLiterals : List JsString}

theorem mem_successorsOf_iff (hk : kripke.Total) {s t : JsString} :
    t ∈ successorsOf kripke s ↔ ∃ p ∈ kripke.transitions, p.1 = s ∧ t ∈ p.2 := by
  unfold successorsOf
  constructor
  · intro h
    cases hget : mapGet kripke.transitions s with
    | none => simp [hget] at h
    | some targets => exact ⟨(s, targets), mem_of_mapGet hget, rfl, by simpa [hget] using h⟩
  · rintro ⟨⟨source, targets⟩, hp, rfl, ht⟩
    simpa [mapGet_eq_some_of_mem hk.transitions_nodup hp] using ht

/-- The steps of a total structure neither leave its states nor get stuck. -/
theorem KripkeStructure.Total.totalOn (hk : kripke.Total) :
    TotalOn (Step kripke) {id | id ∈ allStateIds kripke} := by
  constructor
  · intro s _ t hst
    obtain ⟨p, hp, -, ht⟩ := (mem_successorsOf_iff hk).mp hst
    exact hk.target_mem p hp t ht
  · intro s hs
    exact List.exists_mem_of_ne_nil _ (hk.serial s hs)

/-! ## Predecessors -/

/-- The sources recorded for a target. -/
def bucketOf (preds : List (JsString × List JsString)) (target : JsString) : List JsString :=
  (mapGet preds target).getD []

/-- The bucket grows for a known target, and no key is added. -/
theorem addPredecessor_spec (preds : List (JsString × List JsString)) (source target : JsString) :
    (addPredecessor preds source target).map Prod.fst = preds.map Prod.fst ∧
      ∀ s t, s ∈ bucketOf (addPredecessor preds source target) t ↔
        s ∈ bucketOf preds t ∨ (s = source ∧ t = target ∧ t ∈ preds.map Prod.fst) := by
  unfold addPredecessor
  cases hget : mapGet preds target with
  | none =>
      refine ⟨rfl, fun s t ↦ ⟨Or.inl, ?_⟩⟩
      rintro (h | ⟨-, rfl, h⟩)
      · exact h
      · exact absurd h (mapGet_eq_none_iff.mp hget)
  | some bucket =>
      have hmem : target ∈ preds.map Prod.fst := by
        by_contra h
        rw [mapGet_eq_none_iff.mpr h] at hget
        cases hget
      refine ⟨by simp only [keys_mapSet, setAdd, if_pos hmem], fun s t ↦ ?_⟩
      unfold bucketOf
      rw [mapGet_mapSet]
      by_cases ht : t = target
      · subst ht
        simp [hget, hmem]
      · simp [ht]

theorem foldl_addPredecessor_spec (source : JsString) (targets : List JsString)
    (preds : List (JsString × List JsString)) :
    (targets.foldl (addPredecessor · source ·) preds).map Prod.fst = preds.map Prod.fst ∧
      ∀ s t, s ∈ bucketOf (targets.foldl (addPredecessor · source ·) preds) t ↔
        s ∈ bucketOf preds t ∨ (s = source ∧ t ∈ targets ∧ t ∈ preds.map Prod.fst) := by
  induction targets generalizing preds with
  | nil => simp
  | cons target targets ih =>
      obtain ⟨hkeys, hbucket⟩ := addPredecessor_spec preds source target
      obtain ⟨ihkeys, ihbucket⟩ := ih (addPredecessor preds source target)
      rw [List.foldl_cons]
      refine ⟨ihkeys.trans hkeys, fun s t ↦ ?_⟩
      rw [ihbucket, hbucket, hkeys, List.mem_cons]
      tauto

theorem foldl_transitions_spec (transitions preds : List (JsString × List JsString)) :
    ∀ s t, s ∈ bucketOf (transitions.foldl
        (fun preds p ↦ p.2.foldl (addPredecessor · p.1 ·) preds) preds) t ↔
      s ∈ bucketOf preds t ∨
        (t ∈ preds.map Prod.fst ∧ ∃ p ∈ transitions, p.1 = s ∧ t ∈ p.2) := by
  induction transitions generalizing preds with
  | nil => simp
  | cons p transitions ih =>
      intro s t
      obtain ⟨hkeys, hbucket⟩ := foldl_addPredecessor_spec p.1 p.2 preds
      rw [List.foldl_cons, ih, hbucket, hkeys]
      simp only [List.mem_cons, exists_eq_or_imp]
      grind

theorem foldl_emptyBuckets_spec (ids : List JsString) (preds : List (JsString × List JsString))
    (hpreds : ∀ t, bucketOf preds t = []) :
    (∀ t, bucketOf (ids.foldl (fun preds id ↦ mapSet preds id []) preds) t = []) ∧
      ∀ t, t ∈ (ids.foldl (fun preds id ↦ mapSet preds id []) preds).map Prod.fst ↔
        t ∈ preds.map Prod.fst ∨ t ∈ ids := by
  induction ids generalizing preds with
  | nil => simpa using hpreds
  | cons id ids ih =>
      have hempty : ∀ t, bucketOf (mapSet preds id []) t = [] := by
        intro t
        unfold bucketOf
        rw [mapGet_mapSet]
        split
        · rfl
        · exact hpreds t
      obtain ⟨hbuckets, hkeys⟩ := ih (mapSet preds id []) hempty
      refine ⟨hbuckets, fun t ↦ ?_⟩
      rw [List.foldl_cons, hkeys, keys_mapSet, mem_setAdd, List.mem_cons, or_assoc]

/-- The bucket of a state holds the states with a step to it. -/
theorem mem_predecessors_iff (hk : kripke.Total) {s t : JsString} :
    s ∈ (mapGet (predecessors kripke) t).getD [] ↔ Step kripke s t := by
  obtain ⟨hbuckets, hkeys⟩ := foldl_emptyBuckets_spec (allStateIds kripke) [] fun _ ↦ rfl
  have h := foldl_transitions_spec kripke.transitions
    ((allStateIds kripke).foldl (fun preds id ↦ mapSet preds id []) []) s t
  rw [hbuckets, hkeys] at h
  refine h.trans ?_
  rw [Step, mem_successorsOf_iff hk]
  constructor
  · rintro (h | ⟨-, h⟩)
    · simp at h
    · exact h
  · rintro ⟨p, hp, hs, ht⟩
    exact Or.inr ⟨Or.inr (hk.target_mem p hp t ht), p, hp, hs, ht⟩

/-! ## Semantics -/

/-- The states that satisfy a CTL formula, over infinite paths. -/
def ctlSat (kripke : KripkeStructure) (enumLiterals : List JsString) :
    TemporalAst → JsString → Prop
  | .atom expr => fun id ↦ ∃ state, mapGet kripke.states id = some state ∧
      atomSatisfies expr state.valuation enumLiterals = .ok true
  | .not operand => fun id ↦ ¬ ctlSat kripke enumLiterals operand id
  | .and left right => fun id ↦
      ctlSat kripke enumLiterals left id ∧ ctlSat kripke enumLiterals right id
  | .or left right => fun id ↦
      ctlSat kripke enumLiterals left id ∨ ctlSat kripke enumLiterals right id
  | .implies left right => fun id ↦
      ctlSat kripke enumLiterals left id → ctlSat kripke enumLiterals right id
  | .iff left right => fun id ↦
      (ctlSat kripke enumLiterals left id ↔ ctlSat kripke enumLiterals right id)
  | .EX operand => exPath (Step kripke) (next (now (ctlSat kripke enumLiterals operand)))
  | .AX operand => allPaths (Step kripke) (next (now (ctlSat kripke enumLiterals operand)))
  | .EF operand => exPath (Step kripke) (eventually (now (ctlSat kripke enumLiterals operand)))
  | .AF operand => allPaths (Step kripke) (eventually (now (ctlSat kripke enumLiterals operand)))
  | .EG operand => exPath (Step kripke) (globally (now (ctlSat kripke enumLiterals operand)))
  | .AG operand => allPaths (Step kripke) (globally (now (ctlSat kripke enumLiterals operand)))
  | .EU left right => exPath (Step kripke) (until_ (now (ctlSat kripke enumLiterals left))
      (now (ctlSat kripke enumLiterals right)))
  | .AU left right => allPaths (Step kripke) (until_ (now (ctlSat kripke enumLiterals left))
      (now (ctlSat kripke enumLiterals right)))
  | .G _ | .F _ | .X _ | .U _ _ => fun _ ↦ False

/-- The propositions of a formula. -/
def TemporalAst.atoms : TemporalAst → List ExprAst
  | .atom expr => [expr]
  | .not operand | .EX operand | .AX operand | .EF operand | .AF operand | .EG operand
  | .AG operand | .G operand | .F operand | .X operand => operand.atoms
  | .and left right | .or left right | .implies left right | .iff left right | .EU left right
  | .AU left right | .U left right => left.atoms ++ right.atoms

/-- Every proposition of the formula evaluates without error in every state. -/
def AtomsEvaluate (kripke : KripkeStructure) (enumLiterals : List JsString)
    (formula : TemporalAst) : Prop :=
  ∀ expr ∈ formula.atoms, ∀ p ∈ kripke.states,
    ∃ b, atomSatisfies expr p.2.valuation enumLiterals = .ok b

theorem AtomsEvaluate.left {left right formula : TemporalAst}
    (h : AtomsEvaluate kripke enumLiterals formula)
    (heq : formula.atoms = left.atoms ++ right.atoms) : AtomsEvaluate kripke enumLiterals left :=
  fun expr hexpr ↦ h expr (heq ▸ List.mem_append_left _ hexpr)

theorem AtomsEvaluate.right {left right formula : TemporalAst}
    (h : AtomsEvaluate kripke enumLiterals formula)
    (heq : formula.atoms = left.atoms ++ right.atoms) : AtomsEvaluate kripke enumLiterals right :=
  fun expr hexpr ↦ h expr (heq ▸ List.mem_append_right _ hexpr)

/-! ## The cases of the checker -/

/-- A list of state ids is the set of states with a property. -/
structure Represents (kripke : KripkeStructure) (out : List JsString) (P : JsString → Prop) :
    Prop where
  nodup : out.Nodup
  mem_iff : ∀ id, id ∈ out ↔ id ∈ allStateIds kripke ∧ P id

theorem Represents.congr {out : List JsString} {P Q : JsString → Prop}
    (h : Represents kripke out P) (hPQ : ∀ id ∈ allStateIds kripke, P id ↔ Q id) :
    Represents kripke out Q := by
  refine ⟨h.nodup, fun id ↦ ?_⟩
  rw [h.mem_iff]
  exact and_congr_right (hPQ id)

theorem Represents.iff {out : List JsString} {P : JsString → Prop} (h : Represents kripke out P)
    {id : JsString} (hid : id ∈ allStateIds kripke) : id ∈ out ↔ P id := by
  simp [h.mem_iff, hid]

/-- The states that a filter keeps. -/
theorem represents_filter (hk : kripke.Total) {keep : JsString → Bool} {P : JsString → Prop}
    (hkeep : ∀ id ∈ allStateIds kripke, keep id = true ↔ P id) :
    Represents kripke ((allStateIds kripke).filter keep) P := by
  refine ⟨hk.states_nodup.filter _, fun id ↦ ?_⟩
  rw [List.mem_filter]
  exact and_congr_right (hkeep id)

theorem represents_not (hk : kripke.Total) {out : List JsString} {P : JsString → Prop}
    (h : Represents kripke out P) :
    Represents kripke (checkNot (kripke.context enumLiterals) out) fun id ↦ ¬ P id :=
  represents_filter hk fun id hid ↦ by simp [h.iff hid]

theorem represents_and {left right : List JsString} {P Q : JsString → Prop}
    (hleft : Represents kripke left P) (hright : Represents kripke right Q) :
    Represents kripke (checkAnd left right) fun id ↦ P id ∧ Q id := by
  refine ⟨hleft.nodup.filter _, fun id ↦ ?_⟩
  simp only [checkAnd, List.mem_filter, decide_eq_true_eq, hleft.mem_iff, hright.mem_iff]
  tauto

theorem represents_or {left right : List JsString} {P Q : JsString → Prop}
    (hleft : Represents kripke left P) (hright : Represents kripke right Q) :
    Represents kripke (right.foldl setAdd left) fun id ↦ P id ∨ Q id := by
  refine ⟨nodup_foldl_setAdd hleft.nodup, fun id ↦ ?_⟩
  rw [mem_foldl_setAdd, hleft.mem_iff, hright.mem_iff]
  tauto

/-- The backward search finds the states from which the target is reached through
admitted states. -/
theorem searchBackward_spec (hk : kripke.Total) {admits : JsString → Bool} {P Q : JsString → Prop}
    (hP : ∀ id ∈ allStateIds kripke, admits id = true ↔ P id) {target : List JsString}
    (htarget : Represents kripke target Q) :
    ∃ out, searchBackward (kripke.context enumLiterals) admits target = .ok out ∧
      Represents kripke out (Reaches (Step kripke) P Q) := by
  have hstep : ∀ s t, s ∈ (mapGet (predecessors kripke) t).getD [] ↔ Step kripke s t :=
    fun s t ↦ mem_predecessors_iff hk
  have hsource : ∀ s t, Step kripke s t → s ∈ allStateIds kripke := by
    intro s t hst
    obtain ⟨p, hp, rfl, -⟩ := (mem_successorsOf_iff hk).mp hst
    exact hk.source_mem p hp
  obtain ⟨out, hout, hgrown⟩ := @grow_spec _ _ (fun s ↦ (mapGet (predecessors kripke) s).getD [])
    admits (allStateIds kripke) (fun t s hs ↦ hsource s t ((hstep s t).mp hs))
    (kripke.states.length + 1) target target htarget.nodup
    (fun id hid ↦ ((htarget.mem_iff id).mp hid).1) (fun _ h ↦ h) (fun _ h hn ↦ absurd h hn)
    (by
      have hle : target.length ≤ (allStateIds kripke).length :=
        (List.subperm_of_subset htarget.nodup
          fun id hid ↦ ((htarget.mem_iff id).mp hid).1).length_le
      simp only [allStateIds, List.length_map] at hle ⊢
      omega)
  refine ⟨out, by simp only [searchBackward, KripkeStructure.context, hout, orDiverges], hgrown.nodup, fun id ↦ ⟨?_, ?_⟩⟩
  · intro hid
    refine hgrown.least {t | t ∈ allStateIds kripke ∧ Reaches (Step kripke) P Q t} ?_ ?_ id hid
    · rintro t ⟨_, ht⟩ s hs hadmits
      have hst : Step kripke s t := (hstep s t).mp hs
      exact ⟨hsource s t hst, .later ((hP s (hsource s t hst)).mp hadmits) hst ht⟩
    · intro t ht
      obtain ⟨hmem, hQ⟩ := (htarget.mem_iff t).mp ht
      exact ⟨hmem, .here hQ⟩
  · rintro ⟨hid, hreach⟩
    induction hreach with
    | here hQ => exact hgrown.extends_start _ ((htarget.iff hid).mpr hQ)
    | @later s t hPs hst _ ih =>
        have ht : t ∈ out := ih (hk.totalOn.closed s hid t hst)
        exact hgrown.closed t ht s ((hstep s t).mpr hst) ((hP s hid).mpr hPs)

theorem checkEU_spec (hk : kripke.Total) {left right : List JsString} {P Q : JsString → Prop}
    (hleft : Represents kripke left P) (hright : Represents kripke right Q) :
    ∃ out, checkEU (kripke.context enumLiterals) left right = .ok out ∧
      Represents kripke out (exPath (Step kripke) (until_ (now P) (now Q))) := by
  obtain ⟨out, hout, hrep⟩ := @searchBackward_spec kripke enumLiterals hk (· ∈ left) P Q
    (fun id hid ↦ by simp [hleft.iff hid]) right hright
  exact ⟨out, hout, hrep.congr fun id hid ↦ (exPath_until_iff hk.totalOn hid).symm⟩

theorem checkEF_spec (hk : kripke.Total) {target : List JsString} {Q : JsString → Prop}
    (htarget : Represents kripke target Q) :
    ∃ out, checkEF (kripke.context enumLiterals) target = .ok out ∧
      Represents kripke out (exPath (Step kripke) (eventually (now Q))) := by
  obtain ⟨out, hout, hrep⟩ := @searchBackward_spec kripke enumLiterals hk (fun _ ↦ true)
    (fun _ ↦ True) Q (fun id _ ↦ by simp) target htarget
  refine ⟨out, hout, hrep.congr fun id hid ↦ ?_⟩
  rw [← exPath_until_iff hk.totalOn hid]
  exact exists_congr fun π ↦ and_congr_right fun _ ↦ and_congr_right fun _ ↦
    (eventually_iff_until (now Q) π).symm

theorem checkEG_spec (hk : kripke.Total) {phi : List JsString} {P : JsString → Prop}
    (hphi : Represents kripke phi P) :
    ∃ out, checkEG (kripke.context enumLiterals) phi = .ok out ∧
      Represents kripke out (exPath (Step kripke) (globally (now P))) := by
  obtain ⟨out, hout, hshrunk⟩ := @shrink_spec _ _
    (fun current id ↦ (successorsOf kripke id).any (· ∈ current)) (phi.length + 1) phi hphi.nodup
    (by omega)
  refine ⟨out, by simp only [checkEG, KripkeStructure.context, hout, orDiverges], hshrunk.nodup,
    fun id ↦ ?_⟩
  rw [exPath_globally_iff]
  constructor
  · intro hid
    have hmem : ∀ t ∈ out, t ∈ allStateIds kripke ∧ P t :=
      fun t ht ↦ (hphi.mem_iff t).mp (hshrunk.subset t ht)
    refine ⟨(hmem id hid).1, {t | t ∈ out}, hid, fun t ht ↦ (hmem t ht).2, fun t ht ↦ ?_⟩
    obtain ⟨u, hu, huout⟩ := List.any_eq_true.mp (hshrunk.stable t ht)
    exact ⟨u, by simpa using huout, hu⟩
  · rintro ⟨hid, D, hidD, hPD, hD⟩
    refine hshrunk.greatest {t | t ∈ D ∧ t ∈ allStateIds kripke} ?_ ?_ id ⟨hidD, hid⟩
    · rintro t ⟨htD, ht⟩
      exact (hphi.iff ht).mpr (hPD t htD)
    · rintro current hcurrent t ⟨htD, ht⟩
      obtain ⟨u, huD, htu⟩ := hD t htD
      refine List.any_eq_true.mpr ⟨u, htu, ?_⟩
      simpa using hcurrent u ⟨huD, hk.totalOn.closed t ht u htu⟩

/-- The loop over the states evaluates the proposition in each of them. -/
theorem checkAtom_spec (hk : kripke.Total) {expr : ExprAst}
    (hexpr : ∀ p ∈ kripke.states, ∃ b, atomSatisfies expr p.2.valuation enumLiterals = .ok b)
    {ids : List JsString} (hids : ids.Nodup) (hsub : ∀ id ∈ ids, id ∈ allStateIds kripke) :
    ∃ out, checkAtom (kripke.context enumLiterals) expr ids = .ok out ∧ out.Nodup ∧
      ∀ id, id ∈ out ↔ id ∈ ids ∧ ∃ state, mapGet kripke.states id = some state ∧
        atomSatisfies expr state.valuation enumLiterals = .ok true := by
  induction ids with
  | nil => exact ⟨[], rfl, List.nodup_nil, by simp⟩
  | cons id ids ih =>
      obtain ⟨hid, hids⟩ := List.nodup_cons.mp hids
      obtain ⟨out, hout, hnodupout, hmem⟩ := ih hids fun t ht ↦ hsub t (List.mem_cons_of_mem _ ht)
      obtain ⟨⟨id', state⟩, hp, rfl⟩ := List.mem_map.mp (hsub id List.mem_cons_self)
      obtain ⟨b, hb⟩ := hexpr _ hp
      have hget : mapGet kripke.states id' = some state := mapGet_eq_some_of_mem hk.states_nodup hp
      have hstep : checkAtom (kripke.context enumLiterals) expr (id' :: ids) =
          .ok (if b then id' :: out else out) := by
        simp only [KripkeStructure.context] at hout
        simp only [checkAtom, stateSatisfies, KripkeStructure.context, hget, hb, hout, ok_bind,
          pure_eq_ok]
      refine ⟨_, hstep, ?_, fun t ↦ ?_⟩
      · have hnotout : id' ∉ out := fun h ↦ hid ((hmem id').mp h).1
        cases b <;> simp [hnodupout, hnotout]
      · cases b with
        | true =>
            simp only [if_true, List.mem_cons, hmem]
            constructor
            · rintro (rfl | ⟨ht, hsat⟩)
              · exact ⟨Or.inl rfl, state, hget, hb⟩
              · exact ⟨Or.inr ht, hsat⟩
            · rintro ⟨rfl | ht, hsat⟩
              · exact Or.inl rfl
              · exact Or.inr ⟨ht, hsat⟩
        | false =>
            simp only [Bool.false_eq_true, if_false, List.mem_cons, hmem]
            refine ⟨fun h ↦ ⟨Or.inr h.1, h.2⟩, ?_⟩
            rintro ⟨rfl | ht, state', hget', hsat⟩
            · rw [hget] at hget'
              cases hget'
              rw [hb] at hsat
              cases hsat
            · exact ⟨ht, state', hget', hsat⟩

/-! ## The checker -/

/-- By induction over the formula: the checker ends and represents its meaning. -/
theorem checkCtl_represents (hk : kripke.Total) {formula : TemporalAst} (hctl : formula.IsOf .CTL)
    (hatoms : AtomsEvaluate kripke enumLiterals formula) :
    ∃ out, checkCtl (kripke.context enumLiterals) formula = .ok out ∧
      Represents kripke out (ctlSat kripke enumLiterals formula) := by
  induction formula with
  | atom expr =>
      obtain ⟨out, hout, hnodup, hmem⟩ := checkAtom_spec hk
        (hatoms expr (by simp [TemporalAst.atoms])) hk.states_nodup (fun _ h ↦ h)
      exact ⟨out, hout, hnodup, hmem⟩
  | not operand ih =>
      obtain ⟨inner, hinner, hrep⟩ := ih hctl hatoms
      refine ⟨checkNot (kripke.context enumLiterals) inner, ?_, represents_not hk hrep⟩
      simp only [checkCtl, hinner, ok_bind, pure_eq_ok]
  | and left right ihl ihr =>
      obtain ⟨a, ha, hrepa⟩ := ihl hctl.1 (hatoms.left rfl)
      obtain ⟨b, hb, hrepb⟩ := ihr hctl.2 (hatoms.right rfl)
      refine ⟨_, ?_, represents_and hrepa hrepb⟩
      simp only [checkCtl, ha, hb, ok_bind, pure_eq_ok]
  | or left right ihl ihr =>
      obtain ⟨a, ha, hrepa⟩ := ihl hctl.1 (hatoms.left rfl)
      obtain ⟨b, hb, hrepb⟩ := ihr hctl.2 (hatoms.right rfl)
      refine ⟨_, ?_, represents_or hrepa hrepb⟩
      simp only [checkCtl, ha, hb, ok_bind, pure_eq_ok]
  | implies left right ihl ihr =>
      obtain ⟨a, ha, hrepa⟩ := ihl hctl.1 (hatoms.left rfl)
      obtain ⟨b, hb, hrepb⟩ := ihr hctl.2 (hatoms.right rfl)
      refine ⟨(allStateIds kripke).filter fun id ↦ id ∉ a ∨ id ∈ b, ?_,
        represents_filter hk fun id hid ↦ ?_⟩
      · simp only [checkCtl, ha, hb, ok_bind, pure_eq_ok]
        rfl
      · simp only [decide_eq_true_eq, hrepa.iff hid, hrepb.iff hid]
        exact imp_iff_not_or.symm
  | iff left right ihl ihr =>
      obtain ⟨a, ha, hrepa⟩ := ihl hctl.1 (hatoms.left rfl)
      obtain ⟨b, hb, hrepb⟩ := ihr hctl.2 (hatoms.right rfl)
      refine ⟨(allStateIds kripke).filter fun id ↦ decide (id ∈ a) = decide (id ∈ b), ?_,
        represents_filter hk fun id hid ↦ ?_⟩
      · simp only [checkCtl, ha, hb, ok_bind, pure_eq_ok]
        rfl
      · simp only [decide_eq_true_eq, decide_eq_decide, hrepa.iff hid, hrepb.iff hid]
        rfl
  | EX operand ih =>
      obtain ⟨inner, hinner, hrep⟩ := ih hctl.2 hatoms
      refine ⟨(allStateIds kripke).filter fun id ↦ (successorsOf kripke id).any (· ∈ inner), ?_,
        represents_filter hk fun id hid ↦ ?_⟩
      · simp only [checkCtl, hinner, ok_bind, pure_eq_ok]
        rfl
      · rw [ctlSat, exPath_next_iff hk.totalOn hid, List.any_eq_true]
        refine exists_congr fun t ↦ and_congr_right fun ht ↦ ?_
        simp [hrep.iff (hk.totalOn.closed id hid t ht)]
  | AX operand ih =>
      obtain ⟨inner, hinner, hrep⟩ := ih hctl.2 hatoms
      refine ⟨(allStateIds kripke).filter fun id ↦ 0 < (successorsOf kripke id).length &&
        (successorsOf kripke id).all (· ∈ inner), ?_, represents_filter hk fun id hid ↦ ?_⟩
      · simp only [checkCtl, hinner, ok_bind, pure_eq_ok]
        rfl
      · have hpos : 0 < (successorsOf kripke id).length :=
          List.length_pos_of_ne_nil (hk.serial id hid)
        rw [ctlSat, allPaths_next_iff hk.totalOn hid, decide_eq_true hpos, Bool.true_and,
          List.all_eq_true]
        refine forall_congr' fun t ↦ forall_congr' fun ht ↦ ?_
        simp [hrep.iff (hk.totalOn.closed id hid t ht)]
  | EF operand ih =>
      obtain ⟨inner, hinner, hrep⟩ := ih hctl.2 hatoms
      obtain ⟨out, hout, hrepout⟩ := @checkEF_spec _ enumLiterals hk _ _ hrep
      refine ⟨out, ?_, hrepout⟩
      simp only [checkCtl, hinner]
      exact hout
  | AF operand ih =>
      obtain ⟨inner, hinner, hrep⟩ := ih hctl.2 hatoms
      have hneg := @represents_not _ enumLiterals hk _ _ hrep
      obtain ⟨egNeg, heg, hrepeg⟩ := @checkEG_spec _ enumLiterals hk _ _ hneg
      refine ⟨checkNot (kripke.context enumLiterals) egNeg, ?_,
        (represents_not hk hrepeg).congr fun id _ ↦ allPaths_eventually_iff.symm⟩
      simp only [checkCtl, hinner, heg, ok_bind, pure_eq_ok]
  | EG operand ih =>
      obtain ⟨inner, hinner, hrep⟩ := ih hctl.2 hatoms
      obtain ⟨out, hout, hrepout⟩ := @checkEG_spec _ enumLiterals hk _ _ hrep
      refine ⟨out, ?_, hrepout⟩
      simp only [checkCtl, hinner]
      exact hout
  | AG operand ih =>
      obtain ⟨inner, hinner, hrep⟩ := ih hctl.2 hatoms
      have hneg := @represents_not _ enumLiterals hk _ _ hrep
      obtain ⟨efNeg, hef, hrepef⟩ := @checkEF_spec _ enumLiterals hk _ _ hneg
      refine ⟨checkNot (kripke.context enumLiterals) efNeg, ?_,
        (represents_not hk hrepef).congr fun id _ ↦ allPaths_globally_iff.symm⟩
      simp only [checkCtl, hinner, hef, ok_bind, pure_eq_ok]
  | EU left right ihl ihr =>
      obtain ⟨a, ha, hrepa⟩ := ihl hctl.2.1 (hatoms.left rfl)
      obtain ⟨b, hb, hrepb⟩ := ihr hctl.2.2 (hatoms.right rfl)
      obtain ⟨out, hout, hrepout⟩ := @checkEU_spec _ enumLiterals hk _ _ _ _ hrepa hrepb
      refine ⟨out, ?_, hrepout⟩
      simp only [checkCtl, ha, hb]
      exact hout
  | AU left right ihl ihr =>
      obtain ⟨a, ha, hrepa⟩ := ihl hctl.2.1 (hatoms.left rfl)
      obtain ⟨b, hb, hrepb⟩ := ihr hctl.2.2 (hatoms.right rfl)
      have hnotP := @represents_not _ enumLiterals hk _ _ hrepa
      have hnotQ := @represents_not _ enumLiterals hk _ _ hrepb
      obtain ⟨euNeg, heu, hrepeu⟩ := @checkEU_spec _ enumLiterals hk _ _ _ _ hnotQ
        (represents_and hnotP hnotQ)
      obtain ⟨egNotQ, heg, hrepeg⟩ := @checkEG_spec _ enumLiterals hk _ _ hnotQ
      refine ⟨(allStateIds kripke).filter fun id ↦ id ∉ euNeg ∧ id ∉ egNotQ, ?_,
        represents_filter hk fun id hid ↦ ?_⟩
      · simp only [checkCtl, ha, hb, heu, heg, ok_bind, pure_eq_ok]
        rfl
      · rw [ctlSat, allPaths_until_iff, decide_eq_true_eq, hrepeu.iff hid, hrepeg.iff hid]
  | G _ | F _ | X _ | U _ _ => cases hctl.1

/-- The checker is exact: on a total structure, for a CTL formula whose propositions
evaluate, it ends and returns exactly the states that satisfy the formula. -/
theorem checkCtl_exact (kripke : KripkeStructure) (enumLiterals : List JsString)
    (formula : TemporalAst) (hk : kripke.Total) (hctl : formula.IsOf .CTL)
    (hatoms : AtomsEvaluate kripke enumLiterals formula) :
    ∃ out, checkCtl (kripke.context enumLiterals) formula = .ok out ∧
      ∀ id, id ∈ out ↔ id ∈ allStateIds kripke ∧ ctlSat kripke enumLiterals formula id := by
  obtain ⟨out, hout, hrep⟩ := checkCtl_represents hk hctl hatoms
  exact ⟨out, hout, hrep.mem_iff⟩

/-- A lamp that can be switched on only after it went off. -/
def lampKripke : KripkeStructure where
  states := [(js "on", ⟨js "on", [(js "lit", .bool true)]⟩),
    (js "off", ⟨js "off", [(js "lit", .bool false)]⟩)]
  initial := [js "on"]
  transitions := [(js "on", [js "off"]), (js "off", [js "off", js "on"])]

theorem lampKripke_total : lampKripke.Total := by
  constructor <;> decide

/-- `AG EF lit & !EG lit`. -/
def lampFormula : TemporalAst :=
  .and (.AG (.EF (.atom (.ident (js "lit"))))) (.not (.EG (.atom (.ident (js "lit")))))

theorem lampFormula_atomsEvaluate : AtomsEvaluate lampKripke [] lampFormula := by
  intro expr hexpr p hp
  have hexpr' : expr = .ident (js "lit") := by simpa [lampFormula, TemporalAst.atoms] using hexpr
  subst hexpr'
  rcases List.mem_cons.mp hp with rfl | hp
  · exact ⟨true, by decide⟩
  · rw [List.mem_singleton.mp hp]
    exact ⟨false, by decide⟩

theorem checkCtl_exact_lamp :
    lampKripke.Total ∧ lampFormula.IsOf .CTL ∧ AtomsEvaluate lampKripke [] lampFormula ∧
      ∃ out, checkCtl (lampKripke.context []) lampFormula = .ok out ∧
        ∀ id, id ∈ out ↔ id ∈ allStateIds lampKripke ∧ ctlSat lampKripke [] lampFormula id :=
  have hctl : lampFormula.IsOf .CTL := by simp [lampFormula, TemporalAst.IsOf]
  ⟨lampKripke_total, hctl, lampFormula_atomsEvaluate,
    checkCtl_exact lampKripke [] lampFormula lampKripke_total hctl lampFormula_atomsEvaluate⟩

end TestIntelligence.AgenticHarness.FormalVerification
