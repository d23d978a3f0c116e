import TestIntelligence.AgenticHarness.FormalVerification.Consistency
import TestIntelligence.AgenticHarness.FormalVerification.CounterexampleSearch
import TestIntelligence.AgenticHarness.FormalVerification.LtlVerdicts
import TestIntelligence.Search.LeastWalks

/-!
# What a counterexample shows

The search for a failing state is breadth-first: it meets the states in the order of their
shortest walks.  The trace is the walk read back along the parents.
-/

namespace TestIntelligence.AgenticHarness.FormalVerification

open Js Search Temporal

/-! ## The search as a breadth-first search -/

/-- An edge is the state it leads to. -/
abbrev IsStateWalk (kripke : KripkeStructure) : JsString → List JsString → JsString → Prop :=
  IsWalk (successorsOf kripke) id

/-- The parents, with the state itself as the label of the edge to it. -/
def labelled (parents : List (JsString × JsString)) : List (JsString × (JsString × JsString)) :=
  parents.map fun p ↦ (p.1, (p.2, p.1))

def Traversal.frontier (traversal : Traversal) : Search.Frontier JsString JsString where
  visited := traversal.visited
  predecessor := labelled traversal.parents
  queue := traversal.queue

theorem keys_labelled (parents : List (JsString × JsString)) :
    (labelled parents).map Prod.fst = parents.map Prod.fst := by
  simp [labelled, Function.comp_def]

/-- No edge comes before another: only the lengths of walks are compared. -/
def AnyOrder (_ _ : JsString) : Prop := True

instance : IsTrans JsString AnyOrder := ⟨fun _ _ _ _ _ ↦ trivial⟩

/-- The invariant of the search: `w` are shortest walks to the states met, and the states `before`
have been taken from the queue. -/
structure Traversal.Breadth (kripke : KripkeStructure) (root : JsString)
    (w : JsString → List JsString) (traversal : Traversal) (before : List JsString)
    (current : Option JsString) (pending : List JsString) : Prop where
  searched : Searched (successorsOf kripke) id id root (allStateIds kripke) traversal.frontier
    current pending
  levelled : Levelled (successorsOf kripke) id id AnyOrder root w traversal.frontier before
    current pending

variable {kripke : KripkeStructure} {root : JsString} {w : JsString → List JsString}
  {traversal : Traversal} {before : List JsString} {formula : TemporalAst}
  {enumLiterals : List JsString}

theorem Traversal.frontier_visit {current target : JsString}
    (hkeys : ∀ x ∈ traversal.parents.map Prod.fst, x ∈ traversal.visited)
    (hnew : target ∉ traversal.visited) :
    (traversal.visit current target).frontier =
      { traversal.frontier.meet id id current target with
        queue := (traversal.frontier.meet id id current target).queue ++ [target] } := by
  have hparent : target ∉ traversal.parents.map Prod.fst := fun hmem ↦ hnew (hkeys target hmem)
  have hlabelled : target ∉ (labelled traversal.parents).map Prod.fst := by
    rwa [keys_labelled]
  have happend : labelled (traversal.parents ++ [(target, current)]) =
      labelled traversal.parents ++ [(target, (current, target))] := by
    simp [labelled]
  simp only [Traversal.visit, if_neg hnew, Traversal.frontier, Search.Frontier.meet, id,
    mapSet_of_not_mem hparent, mapSet_of_not_mem hlabelled, happend]

/-- Visiting the successors of a state. -/
theorem Traversal.Breadth.foldl_visit {current : JsString} {targets : List JsString}
    (htargets : ∀ t ∈ targets, t ∈ successorsOf kripke current ∧ t ∈ allStateIds kripke)
    (h : traversal.Breadth kripke root w before (some current) targets) :
    ∃ w, (targets.foldl (Traversal.visit current) traversal).Breadth kripke root w
      (before ++ [current]) none [] := by
  induction targets generalizing traversal w with
  | nil => exact ⟨w, h.searched.finish, h.levelled.finish⟩
  | cons target targets ih =>
      obtain ⟨hsuccessor, hstate⟩ := htargets target List.mem_cons_self
      have htargets' := fun t ht ↦ htargets t (List.mem_cons_of_mem target ht)
      by_cases hmet : target ∈ traversal.visited
      · have hvisit : traversal.visit current target = traversal := by
          rw [Traversal.visit, if_pos hmet]
        rw [List.foldl_cons, hvisit]
        exact ih htargets' ⟨h.searched.skip hmet, h.levelled.skip⟩
      · have hcurrent : current ∈ traversal.frontier.visited := by
          rw [h.levelled.split]
          simp
        have hkeys : ∀ x ∈ traversal.parents.map Prod.fst, x ∈ traversal.visited := by
          rw [← keys_labelled]
          exact h.searched.keys
        have hany : (target :: targets).Pairwise AnyOrder :=
          List.pairwise_of_forall fun _ _ ↦ trivial
        have hsearched := h.searched.meet_queue hcurrent hsuccessor hmet hstate
        have hlevelled := h.levelled.meet h.searched hany hsuccessor hmet
        rw [id, ← frontier_visit hkeys hmet] at hsearched hlevelled
        exact ih htargets' ⟨hsearched, hlevelled⟩

theorem Traversal.breadth_start (hroot : root ∈ allStateIds kripke) :
    (⟨[root], [], [root]⟩ : Traversal).Breadth kripke root (fun _ ↦ []) [] none [] :=
  ⟨searched_start hroot, levelled_start⟩

theorem length_le_of_isLeastWalk {x : JsString} {es es' : List JsString}
    (h : IsLeastWalk (successorsOf kripke) id AnyOrder root es x)
    (hwalk : IsStateWalk kripke root es' x) : es.length ≤ es'.length := by
  rcases h.2 es' hwalk with rfl | hless
  · exact le_rfl
  · rcases List.shortlex_def.mp hless with hlt | ⟨heq, -⟩
    · exact hlt.le
    · exact heq.le

/-- A walk that is shorter than the one to the head of the queue ends in a state that has been
taken from the queue. -/
theorem Traversal.Breadth.mem_before {x y : JsString} {queue es : List JsString}
    (h : traversal.Breadth kripke root w before none []) (hqueue : traversal.queue = x :: queue)
    (hwalk : IsStateWalk kripke root es y) (hlt : es.length < (w x).length) : y ∈ before := by
  have hvisited : traversal.visited = before ++ (x :: queue) := by
    rw [← hqueue]
    exact h.levelled.split
  have hwaits : ∀ z ∈ traversal.visited, z ∉ before → (w x).length ≤ (w z).length := by
    intro z hz hbefore
    have hsorted : traversal.visited.Pairwise fun x y ↦ List.Shortlex AnyOrder (w x) (w y) :=
      h.levelled.sorted
    rw [hvisited, List.pairwise_append, List.pairwise_cons] at hsorted
    rw [hvisited, List.mem_append] at hz
    rcases List.mem_cons.mp (hz.resolve_left hbefore) with rfl | hz
    · exact le_rfl
    · rcases List.shortlex_def.mp (hsorted.2.1.1 z hz) with hless | ⟨heq, -⟩
      · exact hless.le
      · exact heq.le
  have hmet : ∀ z ∈ traversal.visited, ∀ fs, IsStateWalk kripke root fs z →
      fs.length < (w x).length → z ∈ before := by
    intro z hz fs hfs hshort
    by_contra hbefore
    have hleast := length_le_of_isLeastWalk (h.levelled.least z hz) hfs
    have := hwaits z hz hbefore
    omega
  induction es using List.reverseRecOn generalizing y with
  | nil =>
      obtain rfl : root = y := hwalk
      exact hmet root h.searched.start_mem [] rfl hlt
  | append_singleton es e ih =>
      obtain ⟨z, hfirst, he, hlast⟩ := isWalk_append.mp hwalk
      obtain rfl : e = y := hlast
      rw [List.length_append, List.length_singleton] at hlt
      have hz := ih hfirst (by omega)
      have hzv : z ∈ traversal.visited := hvisited ▸ List.mem_append_left _ hz
      have hnot : z ∉ traversal.queue := by
        have hnodup := h.searched.nodup
        rw [h.levelled.split] at hnodup
        exact fun hmem ↦ (List.disjoint_of_nodup_append hnodup) hz hmem
      have hev := (h.searched.expanded z hzv hnot e he).resolve_right fun hpending ↦ by
        cases hpending.1
      exact hmet e hev (es ++ [e]) hwalk (by simpa using hlt)

/-- What the search for a failing state returns. -/
inductive SearchFinds (kripke : KripkeStructure) (formula : TemporalAst)
    (enumLiterals : List JsString) (root : JsString) (parents : List (JsString × JsString)) :
    Option JsString → Prop
  | found {x : JsString} {es : List JsString} (hx : witnessesFailure kripke x formula enumLiterals)
      (hwalk : IsStateWalk kripke root es x) (htraces : Traces root (labelled parents) x es)
      (hshortest : ∀ y es', IsStateWalk kripke root es' y →
        witnessesFailure kripke y formula enumLiterals → es.length ≤ es'.length) :
      SearchFinds kripke formula enumLiterals root parents (some x)
  | none (hnone : ∀ y es, IsStateWalk kripke root es y →
        witnessesFailure kripke y formula enumLiterals = false) :
      SearchFinds kripke formula enumLiterals root parents none

theorem searchFailure_finds (hk : kripke.Total) {fuel : ℕ} {witness : Option JsString}
    {parents : List (JsString × JsString)}
    (h : traversal.Breadth kripke root w before none [])
    (hbefore : ∀ x ∈ before, witnessesFailure kripke x formula enumLiterals = false)
    (hrun : searchFailure kripke formula enumLiterals fuel traversal = .ok (witness, parents)) :
    SearchFinds kripke formula enumLiterals root parents witness := by
  induction fuel generalizing traversal w before with
  | zero => cases hrun
  | succ fuel ih =>
      unfold searchFailure at hrun
      have hsplit : traversal.visited = before ++ traversal.queue := h.levelled.split
      split at hrun
      · next hqueue =>
          obtain ⟨rfl, rfl⟩ := Prod.mk.inj (Except.ok.inj hrun)
          rw [hqueue, List.append_nil] at hsplit
          have hclosed : ∀ a, a ∈ traversal.visited → ∀ e ∈ successorsOf kripke a,
              id e ∈ traversal.visited := fun a ha e he ↦
            (h.searched.expanded a ha (by simp [Traversal.frontier, hqueue]) e he).resolve_right
              fun hpending ↦ by cases hpending.1
          refine .none fun y es hwalk ↦ hbefore y ?_
          rw [← hsplit]
          exact hwalk.mem_of_closed hclosed h.searched.start_mem
      · next x queue hqueue =>
          have hx : x ∈ traversal.visited :=
            h.searched.queued x (by simp [Traversal.frontier, hqueue])
          split at hrun
          · next hwitness =>
              obtain ⟨rfl, rfl⟩ := Prod.mk.inj (Except.ok.inj hrun)
              have htraces := h.levelled.traces x hx
              rw [List.map_id] at htraces
              refine .found hwitness (h.levelled.least x hx).1 htraces fun y es hwalk hy ↦ ?_
              by_contra hlt
              have hmem := h.mem_before hqueue hwalk (by omega)
              rw [hbefore y hmem] at hy
              cases hy
          · next hwitness =>
              have hstate := h.searched.within x hx
              have hpopped : ({ traversal with queue := queue } : Traversal).Breadth kripke root w
                  before (some x) (successorsOf kripke x) :=
                ⟨h.searched.pop hqueue, h.levelled.pop hqueue⟩
              obtain ⟨w', hnext⟩ := hpopped.foldl_visit fun t ht ↦
                ⟨ht, hk.totalOn.closed x hstate t ht⟩
              refine ih hnext (fun y hy ↦ ?_) hrun
              rcases List.mem_append.mp hy with hy | hy
              · exact hbefore y hy
              · rw [List.mem_singleton.mp hy]
                exact Bool.eq_false_iff.mpr hwitness

/-! ## The trace -/

theorem mapGet_labelled (parents : List (JsString × JsString)) (x : JsString) :
    mapGet (labelled parents) x = (mapGet parents x).map fun parent ↦ (parent, x) := by
  induction parents with
  | nil => rfl
  | cons p parents ih =>
      have hcons : labelled (p :: parents) = (p.1, (p.2, p.1)) :: labelled parents := rfl
      rw [hcons, mapGet_cons, mapGet_cons, ih]
      split
      · next heq => simp [heq]
      · rfl

/-- The path back visits the states of the walk in turn. -/
theorem pathBack_of_traces {parents : List (JsString × JsString)} {x : JsString}
    {es rest out : List JsString} (h : Traces root (labelled parents) x es) {fuel : ℕ}
    (hrun : pathBack parents root fuel x (x :: rest) = .ok out) : out = root :: (es ++ rest) := by
  induction h generalizing rest fuel with
  | start =>
      cases fuel with
      | zero => cases hrun
      | succ fuel =>
          rw [pathBack, if_pos rfl] at hrun
          exact (Except.ok.inj hrun).symm
  | @step x previous label es hx hget _ ih =>
      cases fuel with
      | zero => cases hrun
      | succ fuel =>
          rw [mapGet_labelled] at hget
          obtain ⟨parent, hparent, heq⟩ := Option.map_eq_some_iff.mp hget
          obtain ⟨rfl, rfl⟩ := Prod.mk.inj heq
          simp only [pathBack, if_neg hx, hparent] at hrun
          rw [ih hrun, List.append_assoc, List.singleton_append]

theorem mem_of_isStateWalk (hk : kripke.Total) {walk : List JsString} {last : JsString}
    (hroot : root ∈ allStateIds kripke) (h : IsStateWalk kripke root walk last) :
    ∀ x ∈ root :: walk, x ∈ allStateIds kripke := by
  induction walk generalizing root with
  | nil => simpa using hroot
  | cons next walk ih =>
      have hnext : next ∈ allStateIds kripke := hk.totalOn.closed root hroot next h.1
      exact List.forall_mem_cons.mpr ⟨hroot, ih hnext h.2⟩

theorem map_some_states {ids : List JsString} (h : ∀ x ∈ ids, x ∈ allStateIds kripke) :
    (ids.filterMap (mapGet kripke.states)).map some = ids.map (mapGet kripke.states) := by
  induction ids with
  | nil => rfl
  | cons x ids ih =>
      rw [List.forall_mem_cons] at h
      cases hget : mapGet kripke.states x with
      | none => exact absurd h.1 (mapGet_eq_none_iff.mp hget)
      | some state => rw [List.filterMap_cons_some hget, List.map_cons, List.map_cons, hget, ih h.2]

/-- The trace is a walk from a failing initial state: a shortest one to a state that witnesses the
failure, or that state alone where no state on a walk from it does. -/
structure Explains (kripke : KripkeStructure) (formula : TemporalAst)
    (enumLiterals : List JsString) (trace : List FormalVerificationState) (root : JsString)
    (walk : List JsString) (last : JsString) : Prop where
  initial : root ∈ kripke.initial
  fails : ¬ ctlSat kripke enumLiterals formula root
  isWalk : IsStateWalk kripke root walk last
  states : trace.map some = (root :: walk).map (mapGet kripke.states)
  shortest : (witnessesFailure kripke last formula enumLiterals = true ∧
      ∀ y es, IsStateWalk kripke root es y →
        witnessesFailure kripke y formula enumLiterals = true → walk.length ≤ es.length) ∨
    (walk = [] ∧ ∀ y es, IsStateWalk kripke root es y →
      witnessesFailure kripke y formula enumLiterals = false)

theorem findCounterexample_explains (hk : kripke.WellFormed) (hctl : formula.IsOf .CTL)
    {satisfying : List JsString}
    (hcheck : checkCtl (kripke.context enumLiterals) formula = .ok satisfying)
    (hfails : verdictOf kripke satisfying = .fail) :
    ∃ counterexample root walk last,
      findCounterexample kripke formula satisfying enumLiterals = .ok (some counterexample) ∧
        Explains kripke formula enumLiterals counterexample.trace root walk last := by
  obtain ⟨counterexample, hfind⟩ := findCounterexample_ok hk formula satisfying enumLiterals
  obtain ⟨out, hout, hrep⟩ := checkCtl_represents hk.toTotal hctl
    (atomsEvaluate_of_checkCtl hk.toTotal hcheck)
  rw [hcheck, Except.ok.injEq] at hout
  subst hout
  have hfind' := hfind
  unfold findCounterexample at hfind'
  cases hroot : kripke.initial.find? (· ∉ satisfying) with
  | none =>
      have hall : verdictOf kripke satisfying = .pass := by
        rw [verdictOf_eq_pass_iff]
        simpa using hroot
      rw [hfails] at hall
      cases hall
  | some root =>
      have hinitial := List.mem_of_find?_eq_some hroot
      have hstate := hk.initial_mem root hinitial
      have hnot : root ∉ satisfying := by simpa using List.find?_some hroot
      rw [hroot] at hfind'
      obtain ⟨⟨witness, parents⟩, hsearch, hfind'⟩ := bind_eq_ok hfind'
      obtain ⟨path, hpath, hfind'⟩ := bind_eq_ok hfind'
      obtain rfl := Except.ok.inj hfind'
      have hfinds := searchFailure_finds hk.toTotal (Traversal.breadth_start hstate)
        (List.forall_mem_nil _) hsearch
      have hstates {walk : List JsString} {last : JsString}
          (hwalk : IsStateWalk kripke root walk last) (hpath : path = root :: walk) :
          (path.filterMap (mapGet kripke.states)).map some =
            (root :: walk).map (mapGet kripke.states) := by
        rw [hpath]
        exact map_some_states (mem_of_isStateWalk hk.toTotal hstate hwalk)
      have hfalse : ¬ ctlSat kripke enumLiterals formula root := by
        rwa [← hrep.iff hstate]
      cases hfinds with
      | @found x es hx hwalk htraces hshortest =>
          have heq := pathBack_of_traces htraces hpath
          rw [List.append_nil] at heq
          exact ⟨_, root, es, x, hfind, hinitial, hfalse, hwalk, hstates hwalk heq,
            .inl ⟨hx, hshortest⟩⟩
      | none hnone =>
          have heq := pathBack_of_traces .start hpath
          exact ⟨_, root, [], root, hfind, hinitial, hfalse, rfl, hstates rfl heq,
            .inr ⟨rfl, hnone⟩⟩

/-! ## Safety formulae -/

/-- A propositional formula is evaluated as it is meant. -/
theorem atomCoreSatisfies_spec (hatoms : AtomsEvaluate kripke enumLiterals formula)
    (hformula : formula.Propositional) {x : JsString} {state : FormalVerificationState}
    (hstate : mapGet kripke.states x = some state) :
    ∃ b, atomCoreSatisfies state.valuation enumLiterals formula = .ok b ∧
      (b = true ↔ ctlSat kripke enumLiterals formula x) := by
  induction formula with
  | atom expr =>
      obtain ⟨b, hb⟩ := hatoms expr (List.mem_singleton_self expr) _ (mem_of_mapGet hstate)
      exact ⟨b, hb, by simp [ctlSat, hstate, hb]⟩
  | not operand ih =>
      obtain ⟨b, hb, hiff⟩ := ih hatoms hformula
      exact ⟨!b, by simp [atomCoreSatisfies, hb], by simp [ctlSat, ← hiff]⟩
  | and left right ihl ihr | or left right ihl ihr | implies left right ihl ihr
  | iff left right ihl ihr =>
      obtain ⟨a, ha, hleft⟩ := ihl (hatoms.left rfl) hformula.1
      obtain ⟨b, hb, hright⟩ := ihr (hatoms.right rfl) hformula.2
      cases a <;> cases b <;> simp [atomCoreSatisfies, ha, hb, ctlSat, ← hleft, ← hright]
  | _ => exact hformula.elim

theorem isStateWalk_of_isPath {π : ℕ → JsString} (h : IsPath (Step kripke) π) (n : ℕ) :
    ∃ es, IsStateWalk kripke (π 0) es (π n) := by
  induction n with
  | zero => exact ⟨[], rfl⟩
  | succ n ih =>
      obtain ⟨es, hes⟩ := ih
      exact ⟨es ++ [π (n + 1)], isWalk_append.mpr ⟨π n, hes, h n, rfl⟩⟩

/-- The last state of a trace for `AG p` falsifies `p`. -/
theorem Explains.last_falsifies (hk : kripke.WellFormed) {operand : TemporalAst}
    (hoperand : operand.Propositional) (hatoms : AtomsEvaluate kripke enumLiterals operand)
    {trace : List FormalVerificationState} {walk : List JsString} {last : JsString}
    (h : Explains kripke (.AG operand) enumLiterals trace root walk last) :
    ¬ ctlSat kripke enumLiterals operand last ∧ ∀ y es, IsStateWalk kripke root es y →
      ¬ ctlSat kripke enumLiterals operand y → walk.length ≤ es.length := by
  have hroot := hk.initial_mem root h.initial
  have hwitness {y : JsString} {es : List JsString} (hwalk : IsStateWalk kripke root es y) :
      witnessesFailure kripke y (.AG operand) enumLiterals = true ↔
        ¬ ctlSat kripke enumLiterals operand y := by
    have hy : y ∈ allStateIds kripke :=
      hwalk.mem_of_closed (D := (· ∈ allStateIds kripke)) hk.toTotal.totalOn.closed hroot
    obtain ⟨state, hstate⟩ : ∃ state, mapGet kripke.states y = some state := by
      rw [← Option.isSome_iff_exists, ← Option.ne_none_iff_isSome]
      exact fun hnone ↦ mapGet_eq_none_iff.mp hnone hy
    obtain ⟨b, hb, hiff⟩ := atomCoreSatisfies_spec hatoms hoperand hstate
    simp [witnessesFailure, hstate, hb, orFalse, ← hiff]
  rcases h.shortest with ⟨hlast, hshortest⟩ | ⟨-, hnone⟩
  · refine ⟨(hwitness h.isWalk).mp hlast, fun y es hwalk hy ↦ ?_⟩
    exact hshortest y es hwalk ((hwitness hwalk).mpr hy)
  · -- some path from the initial state falsifies the operand
    refine absurd (fun π hπ hstart n ↦ ?_) h.fails
    obtain ⟨es, hwalk⟩ := isStateWalk_of_isPath hπ n
    rw [hstart] at hwalk
    by_contra hfalse
    have hy := (hwitness hwalk).mpr hfalse
    rw [hnone _ es hwalk] at hy
    cases hy

/-! ## Reports -/

/-- Every failing formula of a report comes with a trace that explains the failure. -/
theorem failures_explained {sha256 : JsString → JsString} {input : VerifyFormalSpecInput}
    {report : FormalVerificationSpecResult}
    (h : verifyFormalVerificationSpec sha256 input = .ok report) :
    ∃ spec kripke, parseSpec input.specSource = .ok spec ∧ buildKripke spec = .ok kripke ∧
      ∀ p ∈ spec.formulae.zip report.formulae, p.2.verdict = .fail →
        ∃ counterexample root walk last, p.2.counterexample = some counterexample ∧
          Explains kripke p.1.ctlAst (collectEnumLiterals spec) counterexample.trace root walk
            last ∧
          ∀ operand : TemporalAst, operand.Propositional → p.1.ctlAst = .AG operand →
            ¬ ctlSat kripke (collectEnumLiterals spec) operand last ∧
              ∀ y es, IsStateWalk kripke root es y →
                ¬ ctlSat kripke (collectEnumLiterals spec) operand y →
                  walk.length ≤ es.length := by
  obtain ⟨spec, kripke, hspec, hkripke, hformulae⟩ := verifyFormalVerificationSpec_ok h
  have hwf := (built_of_buildKripke hkripke).wellFormed
  refine ⟨spec, kripke, hspec, hkripke, fun p hp hfail ↦ ?_⟩
  have hctl : p.1.ctlAst.IsOf .CTL := by
    have hlogic := formulaeOfLogic_of_parseSpec hspec p.1 (List.of_mem_zip hp).1
    unfold SpecFormula.ctlAst
    split
    · next hltl => exact isOf_ltlToCtl (hltl ▸ hlogic)
    · next hctl => exact hctl ▸ hlogic
  have hrun := verifyFormulae_ok hformulae p hp
  obtain ⟨satisfying, hcheck, hrun⟩ := bind_eq_ok hrun
  cases hverdict : verdictOf kripke satisfying with
  | pass =>
      simp only [hverdict] at hrun
      rw [← Except.ok.inj hrun] at hfail
      cases hfail
  | fail =>
      obtain ⟨counterexample, root, walk, last, hfind, hexplains⟩ :=
        findCounterexample_explains hwf hctl hcheck hverdict
      simp only [hverdict, hfind, ok_bind] at hrun
      rw [← Except.ok.inj hrun]
      refine ⟨counterexample, root, walk, last, rfl, hexplains, fun operand hoperand heq ↦ ?_⟩
      have hatoms := atomsEvaluate_of_checkCtl hwf.toTotal hcheck
      rw [heq] at hexplains hatoms
      exact hexplains.last_falsifies hwf hoperand hatoms

theorem failures_explained_tally : ∃ report,
    verifyFormalVerificationSpec id (tallyInput (js "0")) = .ok report ∧
      ∃ spec kripke, parseSpec (tallyInput (js "0")).specSource = .ok spec ∧
        buildKripke spec = .ok kripke ∧
          ∀ p ∈ spec.formulae.zip report.formulae, p.2.verdict = .fail →
            ∃ counterexample root walk last, p.2.counterexample = some counterexample ∧
              Explains kripke p.1.ctlAst (collectEnumLiterals spec) counterexample.trace root walk
                last := by
  obtain ⟨-, report, -, hreport, -⟩ := @reports_of id (tallyInput (js "0")) (tallySpec 0) _ _
    tallySpec_zero_runs.1 tallySpec_zero_runs.2.1 tallySpec_zero_runs.2.2 countIsNotZero
    countIsNotZeroFails (by simp [tallySpec])
  obtain ⟨spec, kripke, hspec, hkripke, hall⟩ := failures_explained hreport
  refine ⟨report, hreport, spec, kripke, hspec, hkripke, fun p hp hfail ↦ ?_⟩
  obtain ⟨counterexample, root, walk, last, hsome, hexplains, -⟩ := hall p hp hfail
  exact ⟨counterexample, root, walk, last, hsome, hexplains⟩

end TestIntelligence.AgenticHarness.FormalVerification
