import TestIntelligence.AgenticHarness.FormalVerification.CtlExactness

/-!
# What the breadth-first search builds

The invariant of the loop of `buildKripke`: the states are the expanded valuations
followed by the queued ones, and the transitions are those of the expanded ones.
From it, every structure that is built is total, holds reachable valuations only,
and holds an identical id for every reachable valuation of the specification when
ids tell valuations apart.
-/

namespace TestIntelligence.AgenticHarness.FormalVerification

open Js

/-! ## Reachable valuations -/

/-- The valuations a specification starts in. -/
def ParsedSpec.initials (spec : ParsedSpec) : Eval (List Valuation) :=
  initialValuations spec.specVariables spec.inits (collectEnumLiterals spec)

/-- The valuations that follow one. -/
def ParsedSpec.successors (spec : ParsedSpec) (valuation : Valuation) : Eval (List Valuation) :=
  nextValuations valuation spec.specVariables spec.nexts (collectEnumLiterals spec)

/-- The valuations reachable under a specification. -/
inductive ParsedSpec.Reachable (spec : ParsedSpec) : Valuation → Prop
  | initial {vs : List Valuation} {v : Valuation} (h : spec.initials = .ok vs) (hv : v ∈ vs) :
      spec.Reachable v
  | step {v w : Valuation} {ws : List Valuation} (hv : spec.Reachable v)
      (h : spec.successors v = .ok ws) (hw : w ∈ ws) : spec.Reachable w

/-! ## One turn of the search -/

def stateEntry (valuation : Valuation) : JsString × FormalVerificationState :=
  (stateId valuation, ⟨stateId valuation, valuation⟩)

/-- The ids recorded for a valuation with the given successors. -/
def successorIds (valuation : Valuation) (successors : List Valuation) : List JsString :=
  if setOf (successors.map stateId) = [] then [stateId valuation]
  else setOf (successors.map stateId)

theorem successorIds_ne_nil (valuation : Valuation) (successors : List Valuation) :
    successorIds valuation successors ≠ [] := by
  unfold successorIds
  split
  · simp
  · assumption

theorem mem_successorIds {valuation : Valuation} {successors : List Valuation} {id : JsString}
    (h : id ∈ successorIds valuation successors) :
    id = stateId valuation ∨ id ∈ successors.map stateId := by
  unfold successorIds at h
  split at h
  · exact Or.inl (List.mem_singleton.mp h)
  · exact Or.inr (mem_setOf.mp h)

/-- What visiting a list of valuations adds to the seen ones. -/
structure Visited (visits seen new : List Valuation) : Prop where
  nodup : (new.map stateId).Nodup
  fresh : ∀ v ∈ new, stateId v ∉ seen.map stateId
  sound : ∀ v ∈ new, v ∈ visits
  complete : ∀ v ∈ visits, stateId v ∈ (seen ++ new).map stateId

@[simp] theorem keys_stateEntry (seen : List Valuation) :
    (seen.map stateEntry).map Prod.fst = seen.map stateId := by
  simp [stateEntry]

theorem visitAll_eq (visits seen queue : List Valuation) (ids : List JsString) :
    ∃ new, visitAll visits ⟨seen.map stateEntry, queue⟩ ids =
        (⟨(seen ++ new).map stateEntry, queue ++ new⟩, (visits.map stateId).foldl setAdd ids) ∧
      Visited visits seen new := by
  induction visits generalizing seen queue ids with
  | nil => exact ⟨[], by simp [visitAll], by simp, by simp, by simp, by simp⟩
  | cons v visits ih =>
      by_cases hseen : stateId v ∈ seen.map stateId
      · have hvisit : Frontier.visit ⟨seen.map stateEntry, queue⟩ v =
            ⟨seen.map stateEntry, queue⟩ := by
          have hsome : (mapGet (seen.map stateEntry) (stateId v)).isSome := by
            rw [Option.isSome_iff_ne_none, Ne, mapGet_eq_none_iff, keys_stateEntry]
            simpa using hseen
          simp [Frontier.visit, hsome]
        obtain ⟨new, heq, hnew⟩ := ih seen queue (setAdd ids (stateId v))
        refine ⟨new, ?_, hnew.nodup, hnew.fresh,
          fun w hw ↦ List.mem_cons_of_mem _ (hnew.sound w hw), ?_⟩
        · rw [visitAll, hvisit, heq, List.map_cons, List.foldl_cons]
        · rintro w (_ | ⟨_, hw⟩)
          · rw [List.map_append]
            exact List.mem_append_left _ hseen
          · exact hnew.complete w hw
      · have hnone : mapGet (seen.map stateEntry) (stateId v) = none := by
          rw [mapGet_eq_none_iff, keys_stateEntry]
          exact hseen
        have hvisit : Frontier.visit ⟨seen.map stateEntry, queue⟩ v =
            ⟨(seen ++ [v]).map stateEntry, queue ++ [v]⟩ := by
          have hset := mapSet_of_not_mem (mapGet_eq_none_iff.mp hnone)
            (⟨stateId v, v⟩ : FormalVerificationState)
          simp [Frontier.visit, hnone, hset, stateEntry]
        obtain ⟨new, heq, hnew⟩ := ih (seen ++ [v]) (queue ++ [v]) (setAdd ids (stateId v))
        refine ⟨v :: new, ?_, ?_, ?_, ?_, ?_⟩
        · rw [visitAll, hvisit, heq, List.map_cons, List.foldl_cons]
          simp
        · refine List.nodup_cons.mpr ⟨fun h ↦ ?_, hnew.nodup⟩
          obtain ⟨w, hw, hid⟩ := List.mem_map.mp h
          exact hnew.fresh w hw (by simp [hid])
        · rintro w (_ | ⟨_, hw⟩)
          · exact hseen
          · exact fun h ↦ hnew.fresh w hw (by
              rw [List.map_append]
              exact List.mem_append_left _ h)
        · rintro w (_ | ⟨_, hw⟩)
          · exact List.mem_cons_self
          · exact List.mem_cons_of_mem _ (hnew.sound w hw)
        · rintro w (_ | ⟨_, hw⟩)
          · simp
          · simpa using hnew.complete w hw

/-! ## The loop -/

/-- The invariant of the search: `done` has been expanded, `queue` has not. -/
structure Searching (spec : ParsedSpec) (done queue : List Valuation)
    (transitions : List (JsString × List JsString)) : Prop where
  nodup : ((done ++ queue).map stateId).Nodup
  transitions_eq : transitions.map Prod.fst = done.map stateId
  expanded : ∀ v ∈ done, ∃ ws, spec.successors v = .ok ws ∧
    (stateId v, successorIds v ws) ∈ transitions ∧
      ∀ w ∈ ws, stateId w ∈ (done ++ queue).map stateId
  recorded : ∀ p ∈ transitions, ∃ v ∈ done, ∃ ws, spec.successors v = .ok ws ∧
    p = (stateId v, successorIds v ws)
  reachable : ∀ v ∈ done ++ queue, spec.Reachable v

/-- A turn expands the first queued valuation. -/
theorem Searching.expand {spec : ParsedSpec} {done queue : List Valuation} {current : Valuation}
    {transitions : List (JsString × List JsString)}
    (h : Searching spec done (current :: queue) transitions) {ws new : List Valuation}
    (hws : spec.successors current = .ok ws) (hnew : Visited ws (done ++ current :: queue) new) :
    Searching spec (done ++ [current]) (queue ++ new)
      (transitions ++ [(stateId current, successorIds current ws)]) := by
  have hall : done ++ [current] ++ (queue ++ new) = (done ++ current :: queue) ++ new := by simp
  have hgrow : ∀ id, id ∈ (done ++ current :: queue).map stateId →
      id ∈ (done ++ [current] ++ (queue ++ new)).map stateId := by
    intro id hid
    rw [hall, List.map_append]
    exact List.mem_append_left _ hid
  constructor
  · rw [hall, List.map_append, List.nodup_append]
    refine ⟨h.nodup, hnew.nodup, ?_⟩
    rintro a ha b hb rfl
    obtain ⟨v, hv, rfl⟩ := List.mem_map.mp hb
    exact hnew.fresh v hv ha
  · simp [h.transitions_eq]
  · intro v hv
    rcases List.mem_append.mp hv with hv | hv
    · obtain ⟨vs, hvs, hmem, hids⟩ := h.expanded v hv
      exact ⟨vs, hvs, List.mem_append_left _ hmem, fun w hw ↦ hgrow _ (hids w hw)⟩
    · rw [List.mem_singleton.mp hv]
      refine ⟨ws, hws, by simp, fun w hw ↦ ?_⟩
      rw [hall]
      exact hnew.complete w hw
  · intro p hp
    rcases List.mem_append.mp hp with hp | hp
    · obtain ⟨v, hv, vs, hvs, rfl⟩ := h.recorded p hp
      exact ⟨v, List.mem_append_left _ hv, vs, hvs, rfl⟩
    · exact ⟨current, by simp, ws, hws, List.mem_singleton.mp hp⟩
  · intro v hv
    rw [hall] at hv
    rcases List.mem_append.mp hv with hv | hv
    · exact h.reachable v hv
    · exact .step (h.reachable current (by simp)) hws (hnew.sound v hv)

/-- A turn of the loop, on the states its invariant describes. -/
theorem explore_step {limit fuel : ℕ} {spec : ParsedSpec} {done queue : List Valuation}
    {current : Valuation} {transitions : List (JsString × List JsString)}
    (h : Searching spec done (current :: queue) transitions)
    (hlimit : (done ++ current :: queue).length ≤ limit) {ws : List Valuation}
    (hws : spec.successors current = .ok ws) :
    ∃ new, Visited ws (done ++ current :: queue) new ∧
      explore limit spec (collectEnumLiterals spec) (fuel + 1)
          ⟨(done ++ current :: queue).map stateEntry, current :: queue⟩ transitions =
        explore limit spec (collectEnumLiterals spec) fuel
          ⟨(done ++ [current] ++ (queue ++ new)).map stateEntry, queue ++ new⟩
          (transitions ++ [(stateId current, successorIds current ws)]) := by
  obtain ⟨new, heq, hnew⟩ := visitAll_eq ws (done ++ current :: queue) queue []
  refine ⟨new, hnew, ?_⟩
  have hkey : stateId current ∉ transitions.map Prod.fst := by
    rw [h.transitions_eq]
    intro hmem
    have hnodup := h.nodup
    rw [List.map_append, List.nodup_append] at hnodup
    exact hnodup.2.2 _ hmem _ (by simp) rfl
  have hset := mapSet_of_not_mem hkey (successorIds current ws)
  have hle : ¬ limit < ((done ++ current :: queue).map stateEntry).length := by
    rw [List.length_map]
    omega
  unfold ParsedSpec.successors at hws
  simp only [explore, if_neg hle, hws, ok_bind, heq]
  rw [← hset]
  by_cases hnil : (ws.map stateId).foldl setAdd [] = []
  · simp [successorIds, Js.setOf, hnil]
  · simp [successorIds, Js.setOf, hnil]

/-- How a search from the given valuations can end. -/
inductive SearchEnds (limit : ℕ) (spec : ParsedSpec) (start : List Valuation) :
    Eval (List (JsString × FormalVerificationState) × List (JsString × List JsString)) → Prop
  | built {done : List Valuation} {transitions : List (JsString × List JsString)}
      (h : Searching spec done [] transitions) (hlimit : done.length ≤ limit)
      (hstart : ∀ v ∈ start, v ∈ done) :
      SearchEnds limit spec start (.ok (done.map stateEntry, transitions))
  | refused {seen : List Valuation} (hnodup : (seen.map stateId).Nodup)
      (hreach : ∀ v ∈ seen, spec.Reachable v) (hlimit : limit < seen.length) :
      SearchEnds limit spec start (.error (.model limitMessage))
  | failed {v : Valuation} {e : VerificationError} (hreach : spec.Reachable v)
      (h : spec.successors v = .error e) : SearchEnds limit spec start (.error e)

/-- Every run of the loop ends in one of the three ways; the fuel is never used up
because a state is expanded once and at most `limit` are. -/
theorem explore_ends {limit : ℕ} {spec : ParsedSpec} {start : List Valuation} {fuel : ℕ}
    {done queue : List Valuation} {transitions : List (JsString × List JsString)}
    (h : Searching spec done queue transitions) (hfuel : fuel + done.length = limit + 2)
    (hdone : done.length ≤ limit) (hstart : ∀ v ∈ start, v ∈ done ++ queue) :
    SearchEnds limit spec start (explore limit spec (collectEnumLiterals spec) fuel
      ⟨(done ++ queue).map stateEntry, queue⟩ transitions) := by
  induction fuel generalizing done queue transitions with
  | zero => omega
  | succ fuel ih =>
      cases queue with
      | nil =>
          simp only [explore, List.append_nil]
          exact .built h hdone (by simpa using hstart)
      | cons current queue =>
          by_cases hlimit : limit < (done ++ current :: queue).length
          · have hlimit' : limit < ((done ++ current :: queue).map stateEntry).length := by
              rwa [List.length_map]
            simp only [explore, if_pos hlimit']
            exact .refused h.nodup h.reachable hlimit
          · cases hws : spec.successors current with
            | error e =>
                have hlimit' : ¬ limit < ((done ++ current :: queue).map stateEntry).length := by
                  rwa [List.length_map]
                have herr := hws
                unfold ParsedSpec.successors at herr
                simp only [explore, if_neg hlimit', herr]
                exact .failed (h.reachable current (by simp)) hws
            | ok ws =>
                obtain ⟨new, hnew, heq⟩ := @explore_step limit fuel spec done queue current
                  transitions h (by omega) ws hws
                rw [heq]
                simp only [List.length_append, List.length_cons] at hlimit
                refine ih (h.expand hws hnew) (by simp; omega) (by simp; omega) fun v hv ↦ ?_
                have hmem := hstart v hv
                simp only [List.mem_append, List.mem_cons, List.not_mem_nil, or_false] at hmem ⊢
                tauto

/-! ## The built structure -/

/-- The valuations of the states, in the order they were found. -/
def KripkeStructure.valuations (kripke : KripkeStructure) : List Valuation :=
  kripke.states.map fun p ↦ p.2.valuation

/-- What a build that succeeds returns. -/
structure Built (limit : ℕ) (spec : ParsedSpec) (kripke : KripkeStructure) : Prop where
  states_eq : kripke.states = kripke.valuations.map stateEntry
  searching : Searching spec kripke.valuations [] kripke.transitions
  length_le : kripke.states.length ≤ limit
  initial_eq : ∃ vs, spec.initials = .ok vs ∧ kripke.initial = Js.setOf (vs.map stateId) ∧
    ∀ v ∈ vs, stateId v ∈ kripke.valuations.map stateId

/-- How a build can end. -/
inductive BuildEnds (limit : ℕ) (spec : ParsedSpec) : Eval KripkeStructure → Prop
  | built {kripke : KripkeStructure} (h : Built limit spec kripke) : BuildEnds limit spec (.ok kripke)
  | refused {seen : List Valuation} (hnodup : (seen.map stateId).Nodup)
      (hreach : ∀ v ∈ seen, spec.Reachable v) (hlimit : limit < seen.length) :
      BuildEnds limit spec (.error (.model limitMessage))
  | failedInitially {e : VerificationError} (h : spec.initials = .error e) :
      BuildEnds limit spec (.error e)
  | failed {v : Valuation} {e : VerificationError} (hreach : spec.Reachable v)
      (h : spec.successors v = .error e) : BuildEnds limit spec (.error e)

@[simp] theorem valuations_stateEntry (seen : List Valuation) :
    (seen.map stateEntry).map (fun p ↦ p.2.valuation) = seen := by
  simp [stateEntry, Function.comp_def]

theorem buildKripkeWithin_ends (limit : ℕ) (spec : ParsedSpec) :
    BuildEnds limit spec (buildKripkeWithin limit spec) := by
  cases hvs : spec.initials with
  | error e =>
      have herr := hvs
      unfold ParsedSpec.initials at herr
      simp only [buildKripkeWithin, herr]
      exact .failedInitially hvs
  | ok vs =>
      obtain ⟨new, heq, hnew⟩ := visitAll_eq vs [] [] []
      have hstart : Searching spec [] new [] := by
        refine ⟨hnew.nodup, rfl, nofun, nofun, fun v hv ↦ ?_⟩
        exact .initial hvs (hnew.sound v hv)
      have hends := @explore_ends limit spec new (limit + 2) [] new [] hstart rfl
        (Nat.zero_le _) (fun _ h ↦ h)
      have hinit := hvs
      unfold ParsedSpec.initials at hinit
      simp only [List.map_nil, List.nil_append] at heq hends
      simp only [buildKripkeWithin, hinit, ok_bind, heq]
      generalize hrun : explore limit spec (collectEnumLiterals spec) (limit + 2)
        ⟨new.map stateEntry, new⟩ [] = run at hends ⊢
      cases hends with
      | @built done transitions h hlimit hkept =>
          have hval : KripkeStructure.valuations ⟨done.map stateEntry,
              (vs.map stateId).foldl setAdd [], transitions⟩ = done := valuations_stateEntry done
          refine .built ⟨?_, ?_, ?_, vs, hvs, rfl, fun v hv ↦ ?_⟩
          · rw [hval]
          · rwa [hval]
          · simpa using hlimit
          · rw [hval]
            obtain ⟨w, hw, hid⟩ := List.mem_map.mp (hnew.complete v hv)
            exact List.mem_map.mpr ⟨w, hkept w hw, hid⟩
      | refused hnodup hreach hlimit => exact .refused hnodup hreach hlimit
      | failed hreach h => exact .failed hreach h

/-- A total structure that starts in its states. -/
structure KripkeStructure.WellFormed (kripke : KripkeStructure) : Prop extends kripke.Total where
  initial_mem : ∀ id ∈ kripke.initial, id ∈ allStateIds kripke

namespace Built

variable {limit : ℕ} {spec : ParsedSpec} {kripke : KripkeStructure}

theorem allStateIds_eq (h : Built limit spec kripke) :
    allStateIds kripke = kripke.valuations.map stateId := by
  rw [allStateIds, h.states_eq, keys_stateEntry]

theorem wellFormed (h : Built limit spec kripke) : kripke.WellFormed := by
  have hids := h.allStateIds_eq
  have hnodup : (allStateIds kripke).Nodup := by
    rw [hids]
    simpa using h.searching.nodup
  have hkeys : kripke.transitions.map Prod.fst = allStateIds kripke :=
    h.searching.transitions_eq.trans hids.symm
  have hself : ∀ v ∈ kripke.valuations, stateId v ∈ allStateIds kripke := by
    intro v hv
    rw [hids]
    exact List.mem_map_of_mem hv
  refine ⟨⟨hnodup, hkeys ▸ hnodup, ?_, ?_, ?_⟩, ?_⟩
  · intro p hp
    rw [← hkeys]
    exact List.mem_map_of_mem hp
  · intro p hp t ht
    obtain ⟨v, hv, ws, hws, rfl⟩ := h.searching.recorded p hp
    obtain ⟨ws', hws', -, hmem⟩ := h.searching.expanded v hv
    rw [hws, Except.ok.injEq] at hws'
    subst hws'
    rcases mem_successorIds ht with rfl | ht
    · exact hself v hv
    · obtain ⟨w, hw, rfl⟩ := List.mem_map.mp ht
      rw [hids]
      simpa using hmem w hw
  · intro id hid
    rw [hids] at hid
    obtain ⟨v, hv, rfl⟩ := List.mem_map.mp hid
    obtain ⟨ws, -, hmem, -⟩ := h.searching.expanded v hv
    rw [successorsOf, mapGet_eq_some_of_mem (hkeys ▸ hnodup) hmem]
    exact successorIds_ne_nil v ws
  · intro id hid
    obtain ⟨vs, -, hinit, hmem⟩ := h.initial_eq
    rw [hinit, mem_setOf] at hid
    obtain ⟨v, hv, rfl⟩ := List.mem_map.mp hid
    rw [hids]
    exact hmem v hv

end Built

theorem built_of_buildKripke {spec : ParsedSpec} {kripke : KripkeStructure}
    (h : buildKripke spec = .ok kripke) : Built stateLimit spec kripke := by
  have hends := buildKripkeWithin_ends stateLimit spec
  unfold buildKripke at h
  rw [h] at hends
  cases hends with
  | built h => exact h

end TestIntelligence.AgenticHarness.FormalVerification
