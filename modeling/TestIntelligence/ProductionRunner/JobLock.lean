import TestIntelligence.Js.Collections
import TestIntelligence.Systems.Runs

/-!
# The per-job lock

`withJobLock` of `review-store.ts`.  A call reads the promise stored for its job
and stores its own in one turn of the event loop, waits for the promise it read,
runs its work, resolves its own promise and removes the map entry if it is still
its own.  A promise is named by the call that owns it.  Every later turn is a
separate action here, so an execution of the event loop is one of the
interleavings considered, and so are many finer ones.
-/

namespace TestIntelligence.ProductionRunner.JobLock

open Js Systems

inductive WorkOutcome
  | returned
  | threw
  deriving DecidableEq, Repr

/-- Where a call is in its body; `finishing` is the start of the `finally` block. -/
inductive Phase
  | awaiting
  | working
  | finishing (outcome : WorkOutcome)
  | released (outcome : WorkOutcome)
  | settled (outcome : WorkOutcome)
  deriving DecidableEq, Repr

/-- The work function has been called. -/
def Phase.hasStarted : Phase → Bool
  | .awaiting => false
  | _ => true

/-- The promise of the call is resolved. -/
def Phase.hasReleased : Phase → Bool
  | .released _ => true
  | .settled _ => true
  | _ => false

theorem Phase.hasStarted_of_hasReleased {phase : Phase} (h : phase.hasReleased = true) :
    phase.hasStarted = true := by
  cases phase <;> first | rfl | cases h

def Phase.isSettled : Phase → Bool
  | .settled _ => true
  | _ => false

structure LockCall (κ : Type*) where
  jobId : κ
  previous : Option ℕ
  phase : Phase
  deriving DecidableEq, Repr

/-- The store's `locks` map, the calls in the order in which they were made, and
the order in which their work functions started. -/
structure LockState (κ : Type*) where
  locks : List (κ × ℕ)
  calls : List (LockCall κ)
  startOrder : List ℕ

def LockState.initial {κ : Type*} : LockState κ := ⟨[], [], []⟩

inductive Action (κ : Type*)
  | call (jobId : κ)
  | startWork (i : ℕ)
  | finishWork (i : ℕ) (outcome : WorkOutcome)
  | release (i : ℕ)
  | cleanUp (i : ℕ)

variable {κ : Type*}

/-- Whether `await previous` lets the call go on. -/
def LockState.isResolved (s : LockState κ) (previous : Option ℕ) : Bool :=
  match previous with
  | none => true
  | some i => s.calls[i]?.any (·.phase.hasReleased)

def LockState.setPhase (s : LockState κ) (i : ℕ) (call : LockCall κ) (phase : Phase) :
    LockState κ :=
  { s with calls := s.calls.set i { call with phase := phase } }

/-- Earlier calls for the job have resolved their promises. -/
def LockState.EarlierReleased (s : LockState κ) (jobId : κ) (i : ℕ) : Prop :=
  ∀ (k : ℕ) (call : LockCall κ), k < i → s.calls[k]? = some call → call.jobId = jobId →
    call.phase.hasReleased = true

/-! ## Moving a call -/

theorem getElem?_concat_eq_some {γ : Type*} {xs : List γ} {x y : γ} {i : ℕ} :
    (xs ++ [x])[i]? = some y ↔ xs[i]? = some y ∨ (i = xs.length ∧ y = x) := by
  rw [List.getElem?_append]
  split
  · next hlt => simp [Nat.ne_of_lt hlt]
  · next hge =>
      by_cases hi : i = xs.length
      · simp [hi, eq_comm]
      · have hsingle : [x][i - xs.length]? = none := by
          rw [List.getElem?_eq_none_iff, List.length_singleton]
          omega
        have hnone : xs[i]? = none := List.getElem?_eq_none_iff.mpr (Nat.le_of_not_lt hge)
        simp [hsingle, hnone, hi]

theorem getElem?_lt {γ : Type*} {xs : List γ} {x : γ} {i : ℕ} (h : xs[i]? = some x) :
    i < xs.length := (List.getElem?_eq_some_iff.mp h).1

/-- An increasing list that contains, with each member, everything below it in
another increasing list, starts that list. -/
theorem prefix_of_pairwise_lt {xs ys : List ℕ} (hxs : xs.Pairwise (· < ·))
    (hys : ys.Pairwise (· < ·)) (hsub : ∀ x ∈ xs, x ∈ ys)
    (hdown : ∀ x ∈ xs, ∀ y ∈ ys, y < x → y ∈ xs) : xs <+: ys := by
  induction xs generalizing ys with
  | nil => exact List.nil_prefix
  | cons x xs ih =>
      obtain ⟨hx, hxs⟩ := List.pairwise_cons.mp hxs
      cases ys with
      | nil => exact absurd (hsub x List.mem_cons_self) (by simp)
      | cons y ys =>
          obtain ⟨hy, htail⟩ := List.pairwise_cons.mp hys
          have hxy : x = y := by
            rcases List.mem_cons.mp (hsub x List.mem_cons_self) with hxy | hmem
            · exact hxy
            · have hlt := hy x hmem
              rcases List.mem_cons.mp (hdown x List.mem_cons_self y List.mem_cons_self hlt) with
                heq | hin
              · exact heq.symm
              · exact absurd (hx y hin) (by omega)
          subst hxy
          refine (List.cons_prefix_cons).mpr ⟨rfl, ih hxs htail (fun a ha ↦ ?_) fun a ha b hb hba ↦ ?_⟩
          · rcases List.mem_cons.mp (hsub a (List.mem_cons_of_mem x ha)) with rfl | hmem
            · exact absurd (hx a ha) (by omega)
            · exact hmem
          · rcases List.mem_cons.mp (hdown a (List.mem_cons_of_mem x ha) b
              (List.mem_cons_of_mem x hb) hba) with rfl | hmem
            · exact absurd (hy b hb) (by omega)
            · exact hmem

/-- The calls after one of them has moved to another phase. -/
theorem getElem?_setPhase {s : LockState κ} {i : ℕ} {call : LockCall κ}
    (hcall : s.calls[i]? = some call) (phase : Phase) (k : ℕ) (found : LockCall κ) :
    (s.setPhase i call phase).calls[k]? = some found ↔
      (k = i ∧ found = { call with phase := phase }) ∨ (k ≠ i ∧ s.calls[k]? = some found) := by
  unfold LockState.setPhase
  by_cases hki : k = i
  · subst hki
    simp [List.getElem?_set_self (getElem?_lt hcall), eq_comm]
  · simp [List.getElem?_set_ne (Ne.symm hki), hki]

/-- Every call keeps its job and its place in the chain. -/
theorem exists_of_setPhase {s : LockState κ} {i : ℕ} {call : LockCall κ}
    (hcall : s.calls[i]? = some call) {phase : Phase} {k : ℕ} {found : LockCall κ}
    (h : (s.setPhase i call phase).calls[k]? = some found) :
    ∃ old : LockCall κ, s.calls[k]? = some old ∧ found.jobId = old.jobId ∧
      found.previous = old.previous := by
  rcases (getElem?_setPhase hcall phase k found).mp h with ⟨rfl, rfl⟩ | ⟨-, hold⟩
  · exact ⟨call, hcall, rfl, rfl⟩
  · exact ⟨found, hold, rfl, rfl⟩

theorem earlierReleased_setPhase {s : LockState κ} {i : ℕ} {call : LockCall κ}
    (hcall : s.calls[i]? = some call) {phase : Phase}
    (hmono : call.phase.hasReleased = true → phase.hasReleased = true) {jobId : κ} {n : ℕ}
    (h : s.EarlierReleased jobId n) : (s.setPhase i call phase).EarlierReleased jobId n := by
  intro k found hk hfound hjob
  rcases (getElem?_setPhase hcall phase k found).mp hfound with ⟨rfl, rfl⟩ | ⟨-, hold⟩
  · exact hmono (h _ call hk hcall hjob)
  · exact h k found hk hold hjob

/-! ## Actions -/

variable [DecidableEq κ]

def next (s : LockState κ) : Action κ → Option (LockState κ)
  | .call jobId =>
      some { s with
        locks := mapSet s.locks jobId s.calls.length
        calls := s.calls ++ [⟨jobId, mapGet s.locks jobId, .awaiting⟩] }
  | .startWork i =>
      match s.calls[i]? with
      | none => none
      | some call =>
          if call.phase = .awaiting ∧ s.isResolved call.previous then
            some { s.setPhase i call .working with startOrder := s.startOrder ++ [i] }
          else none
  | .finishWork i outcome =>
      match s.calls[i]? with
      | none => none
      | some call =>
          if call.phase = .working then some (s.setPhase i call (.finishing outcome)) else none
  | .release i =>
      match s.calls[i]? with
      | none => none
      | some call =>
          match call.phase with
          | .finishing outcome => some (s.setPhase i call (.released outcome))
          | _ => none
  | .cleanUp i =>
      match s.calls[i]? with
      | none => none
      | some call =>
          match call.phase with
          | .released outcome =>
              some { s.setPhase i call (.settled outcome) with
                locks :=
                  if mapGet s.locks call.jobId = some i then mapDelete s.locks call.jobId
                  else s.locks }
          | _ => none

/-- The chain of promises: a call waits behind the call made just before it for
the same job, the map names the last call, and a job without a map entry has no
promise left to resolve. -/
structure Chained (s : LockState κ) : Prop where
  previous_some : ∀ (i : ℕ) (call : LockCall κ) (p : ℕ), s.calls[i]? = some call →
    call.previous = some p →
      p < i ∧ (∃ before : LockCall κ, s.calls[p]? = some before ∧ before.jobId = call.jobId) ∧
      ∀ (k : ℕ) (between : LockCall κ), p < k → k < i → s.calls[k]? = some between →
        between.jobId ≠ call.jobId
  previous_none : ∀ (i : ℕ) (call : LockCall κ), s.calls[i]? = some call →
    call.previous = none → s.EarlierReleased call.jobId i
  started : ∀ (i : ℕ) (call : LockCall κ), s.calls[i]? = some call →
    call.phase.hasStarted = true → s.EarlierReleased call.jobId i
  entry_some : ∀ (jobId : κ) (i : ℕ), mapGet s.locks jobId = some i →
    (∃ call : LockCall κ, s.calls[i]? = some call ∧ call.jobId = jobId ∧
      call.phase.isSettled = false) ∧
      ∀ (k : ℕ) (later : LockCall κ), i < k → s.calls[k]? = some later → later.jobId ≠ jobId
  entry_none : ∀ jobId : κ, mapGet s.locks jobId = none → s.EarlierReleased jobId s.calls.length
  mem_startOrder : ∀ i : ℕ, i ∈ s.startOrder ↔ ∃ call : LockCall κ, s.calls[i]? = some call ∧
    call.phase.hasStarted = true
  startOrder_pairwise : s.startOrder.Pairwise fun i k ↦
    ∀ call call' : LockCall κ, s.calls[i]? = some call → s.calls[k]? = some call' →
      call.jobId = call'.jobId → i < k

theorem chained_initial : Chained (LockState.initial : LockState κ) := by
  constructor <;> simp [LockState.initial, LockState.EarlierReleased]

theorem chained_call {s : LockState κ} (h : Chained s) (jobId : κ) :
    Chained { s with
      locks := mapSet s.locks jobId s.calls.length
      calls := s.calls ++ [⟨jobId, mapGet s.locks jobId, .awaiting⟩] } where
  previous_some := by
    intro i call p hcall hp
    simp only [getElem?_concat_eq_some] at hcall ⊢
    rcases hcall with hcall | ⟨rfl, rfl⟩
    · obtain ⟨hlt, ⟨before, hbefore, hjob⟩, hbetween⟩ := h.previous_some i call p hcall hp
      refine ⟨hlt, ⟨before, .inl hbefore, hjob⟩, fun k between hpk hki hk ↦ ?_⟩
      rcases hk with hk | ⟨rfl, -⟩
      · exact hbetween k between hpk hki hk
      · exact absurd (getElem?_lt hcall) (by omega)
    · obtain ⟨⟨before, hbefore, hjob, -⟩, hlater⟩ := h.entry_some jobId p hp
      refine ⟨getElem?_lt hbefore, ⟨before, .inl hbefore, hjob⟩, fun k between hpk hki hk ↦ ?_⟩
      rcases hk with hk | ⟨rfl, -⟩
      · exact hlater k between hpk hk
      · omega
  previous_none := by
    intro i call hcall hp k earlier hki hk hjob
    simp only [getElem?_concat_eq_some] at hcall hk
    rcases hk with hk | ⟨rfl, -⟩
    · rcases hcall with hcall | ⟨rfl, rfl⟩
      · exact h.previous_none i call hcall hp k earlier hki hk hjob
      · exact h.entry_none jobId hp k earlier hki hk hjob
    · rcases hcall with hcall | ⟨rfl, -⟩
      · exact absurd (getElem?_lt hcall) (by omega)
      · omega
  started := by
    intro i call hcall hstarted k earlier hki hk hjob
    simp only [getElem?_concat_eq_some] at hcall hk
    rcases hcall with hcall | ⟨rfl, rfl⟩
    · rcases hk with hk | ⟨rfl, -⟩
      · exact h.started i call hcall hstarted k earlier hki hk hjob
      · exact absurd (getElem?_lt hcall) (by omega)
    · cases hstarted
  entry_some := by
    intro jobId' i hentry
    simp only [getElem?_concat_eq_some, mapGet_mapSet] at hentry ⊢
    split at hentry
    · next hjob =>
        cases hentry
        refine ⟨⟨_, .inr ⟨rfl, rfl⟩, hjob.symm, rfl⟩, fun k later hk hlater ↦ ?_⟩
        rcases hlater with hlater | ⟨rfl, -⟩
        · exact absurd (getElem?_lt hlater) (by omega)
        · omega
    · next hjob =>
        obtain ⟨⟨call, hcall, hown, hsettled⟩, hlast⟩ := h.entry_some jobId' i hentry
        refine ⟨⟨call, .inl hcall, hown, hsettled⟩, fun k later hk hlater ↦ ?_⟩
        rcases hlater with hlater | ⟨-, rfl⟩
        · exact hlast k later hk hlater
        · exact Ne.symm hjob
  entry_none := by
    intro jobId' hentry k call hk hcall hjob
    simp only [getElem?_concat_eq_some, mapGet_mapSet] at hentry hcall
    split at hentry
    · cases hentry
    · next hne =>
        rcases hcall with hcall | ⟨-, rfl⟩
        · exact h.entry_none jobId' hentry k call (getElem?_lt hcall) hcall hjob
        · exact absurd hjob.symm hne
  mem_startOrder := by
    intro i
    simp only [getElem?_concat_eq_some]
    rw [h.mem_startOrder]
    constructor
    · rintro ⟨call, hcall, hstarted⟩
      exact ⟨call, .inl hcall, hstarted⟩
    · rintro ⟨call, hcall | ⟨-, rfl⟩, hstarted⟩
      · exact ⟨call, hcall, hstarted⟩
      · cases hstarted
  startOrder_pairwise := by
    have hstarted : ∀ i ∈ s.startOrder, i < s.calls.length := by
      intro i hi
      obtain ⟨call, hcall, -⟩ := (h.mem_startOrder i).mp hi
      exact getElem?_lt hcall
    refine (List.Pairwise.and_mem.mp h.startOrder_pairwise).imp ?_
    rintro i k ⟨hi, hk, hik⟩ call call' hcall hcall'
    simp only [getElem?_concat_eq_some] at hcall hcall'
    rcases hcall with hcall | ⟨rfl, -⟩
    · rcases hcall' with hcall' | ⟨rfl, -⟩
      · exact hik call call' hcall hcall'
      · exact absurd (hstarted _ hk) (by omega)
    · exact absurd (hstarted _ hi) (by omega)

/-- A call moves on: its start needs the earlier calls released, and a map entry
disappears only with the release of its owner. -/
theorem chained_setPhase {s : LockState κ} (h : Chained s) {i : ℕ} {call : LockCall κ}
    (hcall : s.calls[i]? = some call) {phase : Phase} {locks : List (κ × ℕ)}
    {startOrder : List ℕ}
    (hmono : call.phase.hasReleased = true → phase.hasReleased = true)
    (hstart : phase.hasStarted = true → s.EarlierReleased call.jobId i)
    (hsome : ∀ (jobId : κ) (k : ℕ), mapGet locks jobId = some k →
      mapGet s.locks jobId = some k ∧ (k = i → phase.isSettled = false))
    (hnone : ∀ jobId : κ, mapGet locks jobId = none → mapGet s.locks jobId = none ∨
      (mapGet s.locks jobId = some i ∧ phase.hasReleased = true ∧ phase.hasStarted = true))
    (hmem : ∀ k, k ∈ startOrder ↔
      (k = i ∧ phase.hasStarted = true) ∨ (k ≠ i ∧ k ∈ s.startOrder))
    (hpair : startOrder.Pairwise fun a b ↦ ∀ call call' : LockCall κ,
      s.calls[a]? = some call → s.calls[b]? = some call' → call.jobId = call'.jobId → a < b) :
    Chained { s.setPhase i call phase with locks := locks, startOrder := startOrder } where
  previous_some := by
    intro k found p hfound hp
    obtain ⟨old, hold, hjob, hprevious⟩ := exists_of_setPhase hcall hfound
    obtain ⟨hlt, ⟨before, hbefore, hsame⟩, hbetween⟩ :=
      h.previous_some k old p hold (hprevious ▸ hp)
    refine ⟨hlt, ?_, fun m between hpm hmk hm ↦ ?_⟩
    · by_cases hpi : p = i
      · subst hpi
        cases hcall.symm.trans hbefore
        exact ⟨_, (getElem?_setPhase hcall phase p _).mpr (.inl ⟨rfl, rfl⟩), hjob ▸ hsame⟩
      · exact ⟨before, (getElem?_setPhase hcall phase p _).mpr (.inr ⟨hpi, hbefore⟩),
          hjob ▸ hsame⟩
    · obtain ⟨old', hold', hjob', -⟩ := exists_of_setPhase hcall hm
      rw [hjob, hjob']
      exact hbetween m old' hpm hmk hold'
  previous_none := by
    intro k found hfound hp
    obtain ⟨old, hold, hjob, hprevious⟩ := exists_of_setPhase hcall hfound
    rw [hjob]
    exact earlierReleased_setPhase hcall hmono (h.previous_none k old hold (hprevious ▸ hp))
  started := by
    intro k found hfound hstarted
    refine earlierReleased_setPhase hcall hmono ?_
    rcases (getElem?_setPhase hcall phase k found).mp hfound with ⟨rfl, rfl⟩ | ⟨-, hold⟩
    · exact hstart hstarted
    · exact h.started k found hold hstarted
  entry_some := by
    intro jobId k hentry
    obtain ⟨hold, hsettled⟩ := hsome jobId k hentry
    obtain ⟨⟨owner, howner, hjob, hunsettled⟩, hlast⟩ := h.entry_some jobId k hold
    refine ⟨?_, fun m later hkm hlater ↦ ?_⟩
    · by_cases hki : k = i
      · subst hki
        cases hcall.symm.trans howner
        exact ⟨_, (getElem?_setPhase hcall phase k _).mpr (.inl ⟨rfl, rfl⟩), hjob, hsettled rfl⟩
      · exact ⟨owner, (getElem?_setPhase hcall phase k _).mpr (.inr ⟨hki, howner⟩), hjob,
          hunsettled⟩
    · obtain ⟨old, hold', hjob', -⟩ := exists_of_setPhase hcall hlater
      rw [hjob']
      exact hlast m old hkm hold'
  entry_none := by
    intro jobId hentry
    have hlength : (s.setPhase i call phase).calls.length = s.calls.length := by
      simp [LockState.setPhase]
    change (s.setPhase i call phase).EarlierReleased jobId
      (s.setPhase i call phase).calls.length
    rw [hlength]
    rcases hnone jobId hentry with hold | ⟨hown, hreleased, hstarted⟩
    · exact earlierReleased_setPhase hcall hmono (h.entry_none jobId hold)
    · obtain ⟨⟨owner, howner, hjob, -⟩, hlast⟩ := h.entry_some jobId i hown
      cases hcall.symm.trans howner
      intro k found hk hfound hfoundJob
      rcases (getElem?_setPhase hcall phase k found).mp hfound with ⟨rfl, rfl⟩ | ⟨hne, hold⟩
      · exact hreleased
      · rcases Nat.lt_or_gt_of_ne hne with hlt | hgt
        · exact hstart hstarted k found hlt hold (hfoundJob.trans hjob.symm)
        · exact absurd hfoundJob (hlast k found hgt hold)
  mem_startOrder := by
    intro k
    change k ∈ startOrder ↔ _
    rw [hmem]
    constructor
    · rintro (⟨rfl, hstarted⟩ | ⟨hne, hk⟩)
      · exact ⟨_, (getElem?_setPhase hcall phase k _).mpr (.inl ⟨rfl, rfl⟩), hstarted⟩
      · obtain ⟨found, hfound, hstarted⟩ := (h.mem_startOrder k).mp hk
        exact ⟨found, (getElem?_setPhase hcall phase k _).mpr (.inr ⟨hne, hfound⟩), hstarted⟩
    · rintro ⟨found, hfound, hstarted⟩
      rcases (getElem?_setPhase hcall phase k found).mp hfound with ⟨rfl, rfl⟩ | ⟨hne, hold⟩
      · exact .inl ⟨rfl, hstarted⟩
      · exact .inr ⟨hne, (h.mem_startOrder k).mpr ⟨found, hold, hstarted⟩⟩
  startOrder_pairwise := by
    refine hpair.imp fun {a b} hab first second hfirst hsecond hjob ↦ ?_
    obtain ⟨old, hold, hfirstJob, -⟩ := exists_of_setPhase hcall hfirst
    obtain ⟨old', hold', hsecondJob, -⟩ := exists_of_setPhase hcall hsecond
    exact hab old old' hold hold' (hfirstJob ▸ hsecondJob ▸ hjob)

theorem earlierReleased_of_isResolved {s : LockState κ} (h : Chained s) {i : ℕ}
    {call : LockCall κ} (hcall : s.calls[i]? = some call)
    (hresolved : s.isResolved call.previous = true) : s.EarlierReleased call.jobId i := by
  cases hprevious : call.previous with
  | none => exact h.previous_none i call hcall hprevious
  | some p =>
      obtain ⟨hlt, ⟨before, hbefore, hjob⟩, hbetween⟩ := h.previous_some i call p hcall hprevious
      have hreleased : before.phase.hasReleased = true := by
        simpa [LockState.isResolved, hprevious, hbefore] using hresolved
      have hstarted := Phase.hasStarted_of_hasReleased hreleased
      intro k found hk hfound hfoundJob
      rcases Nat.lt_trichotomy k p with hkp | rfl | hpk
      · exact h.started p before hbefore hstarted k found hkp hfound (hfoundJob.trans hjob.symm)
      · cases hbefore.symm.trans hfound
        exact hreleased
      · exact absurd hfoundJob (hbetween k found hpk hk hfound)

theorem chained_startWork {s : LockState κ} (h : Chained s) {i : ℕ} {call : LockCall κ}
    (hcall : s.calls[i]? = some call) (hawaiting : call.phase = .awaiting)
    (hresolved : s.isResolved call.previous = true) :
    Chained { s.setPhase i call .working with startOrder := s.startOrder ++ [i] } := by
  have hearlier := earlierReleased_of_isResolved h hcall hresolved
  have hnew : i ∉ s.startOrder := by
    intro hi
    obtain ⟨found, hfound, hstarted⟩ := (h.mem_startOrder i).mp hi
    cases hcall.symm.trans hfound
    rw [hawaiting] at hstarted
    cases hstarted
  refine chained_setPhase h hcall (fun hreleased ↦ ?_) (fun _ ↦ hearlier)
    (fun jobId k hentry ↦ ⟨hentry, fun _ ↦ rfl⟩) (fun jobId hentry ↦ .inl hentry) (fun k ↦ ?_) ?_
  · rw [hawaiting] at hreleased
    cases hreleased
  · rw [List.mem_append, List.mem_singleton]
    constructor
    · rintro (hk | rfl)
      · exact .inr ⟨fun heq ↦ hnew (heq ▸ hk), hk⟩
      · exact .inl ⟨rfl, rfl⟩
    · rintro (⟨rfl, -⟩ | ⟨-, hk⟩)
      · exact .inr rfl
      · exact .inl hk
  · refine List.pairwise_append.mpr ⟨h.startOrder_pairwise, List.pairwise_singleton _ _, ?_⟩
    intro a ha b hb first second hfirst hsecond hjob
    obtain rfl := List.mem_singleton.mp hb
    cases hcall.symm.trans hsecond
    obtain ⟨found, hfound, hstarted⟩ := (h.mem_startOrder a).mp ha
    cases hfirst.symm.trans hfound
    rcases Nat.lt_trichotomy a b with hlt | rfl | hgt
    · exact hlt
    · exact absurd ha hnew
    · have hreleased := h.started a first hfirst hstarted b call hgt hcall hjob.symm
      rw [hawaiting] at hreleased
      cases hreleased

/-- A call that has started moves on without touching the map. -/
theorem chained_proceed {s : LockState κ} (h : Chained s) {i : ℕ} {call : LockCall κ}
    (hcall : s.calls[i]? = some call) {phase : Phase} {locks : List (κ × ℕ)}
    (hstarted : call.phase.hasStarted = true) (hphase : phase.hasStarted = true)
    (hmono : call.phase.hasReleased = true → phase.hasReleased = true)
    (hsome : ∀ (jobId : κ) (k : ℕ), mapGet locks jobId = some k →
      mapGet s.locks jobId = some k ∧ (k = i → phase.isSettled = false))
    (hnone : ∀ jobId : κ, mapGet locks jobId = none → mapGet s.locks jobId = none ∨
      (mapGet s.locks jobId = some i ∧ phase.hasReleased = true ∧ phase.hasStarted = true)) :
    Chained { s.setPhase i call phase with locks := locks } := by
  have hmem : i ∈ s.startOrder := (h.mem_startOrder i).mpr ⟨call, hcall, hstarted⟩
  refine chained_setPhase h hcall hmono (fun _ ↦ h.started i call hcall hstarted) hsome hnone
    (fun k ↦ ?_) h.startOrder_pairwise
  constructor
  · intro hk
    by_cases hki : k = i
    · exact .inl ⟨hki, hphase⟩
    · exact .inr ⟨hki, hk⟩
  · rintro (⟨rfl, -⟩ | ⟨-, hk⟩)
    · exact hmem
    · exact hk

theorem chained_cleanUp {s : LockState κ} (h : Chained s) {i : ℕ} {call : LockCall κ}
    (hcall : s.calls[i]? = some call) {outcome : WorkOutcome}
    (hphase : call.phase = .released outcome) :
    Chained { s.setPhase i call (.settled outcome) with
      locks :=
        if mapGet s.locks call.jobId = some i then mapDelete s.locks call.jobId else s.locks } := by
  refine chained_proceed h hcall (by rw [hphase]; rfl) rfl (fun _ ↦ rfl) ?_ ?_
  · intro jobId k hentry
    split at hentry
    · next hown =>
        rw [mapGet_mapDelete] at hentry
        split at hentry
        · cases hentry
        · next hne =>
            refine ⟨hentry, fun hki ↦ ?_⟩
            obtain ⟨⟨owner, howner, hjob, -⟩, -⟩ := h.entry_some jobId k hentry
            subst hki
            cases hcall.symm.trans howner
            exact absurd hjob.symm hne
    · next hother =>
        refine ⟨hentry, fun hki ↦ ?_⟩
        obtain ⟨⟨owner, howner, hjob, -⟩, -⟩ := h.entry_some jobId k hentry
        subst hki
        cases hcall.symm.trans howner
        exact absurd (hjob ▸ hentry) hother
  · intro jobId hentry
    split at hentry
    · next hown =>
        rw [mapGet_mapDelete] at hentry
        split at hentry
        · next heq =>
            subst heq
            exact .inr ⟨hown, rfl, rfl⟩
        · exact .inl hentry
    · exact .inl hentry

theorem chained_next {s s' : LockState κ} {action : Action κ} (hnext : next s action = some s')
    (h : Chained s) : Chained s' := by
  have hkeepSome : ∀ {i : ℕ} {phase : Phase}, phase.isSettled = false → ∀ (jobId : κ) (k : ℕ),
      mapGet s.locks jobId = some k →
        mapGet s.locks jobId = some k ∧ (k = i → phase.isSettled = false) :=
    fun hphase _ _ hentry ↦ ⟨hentry, fun _ ↦ hphase⟩
  cases action with
  | call jobId =>
      obtain rfl := Option.some.inj hnext
      exact chained_call h jobId
  | startWork i =>
      simp only [next] at hnext
      split at hnext
      · cases hnext
      · next call hcall =>
          split at hnext
          · next hready =>
              obtain rfl := Option.some.inj hnext
              exact chained_startWork h hcall hready.1 hready.2
          · cases hnext
  | finishWork i outcome =>
      simp only [next] at hnext
      split at hnext
      · cases hnext
      · next call hcall =>
          split at hnext
          · next hworking =>
              obtain rfl := Option.some.inj hnext
              exact chained_proceed h hcall (by rw [hworking]; rfl) rfl
                (by rw [hworking]; nofun) (hkeepSome rfl) (fun _ hentry ↦ .inl hentry)
          · cases hnext
  | release i =>
      simp only [next] at hnext
      split at hnext
      · cases hnext
      · next call hcall =>
          split at hnext
          · next outcome hfinishing =>
              obtain rfl := Option.some.inj hnext
              exact chained_proceed h hcall (by rw [hfinishing]; rfl) rfl (fun _ ↦ rfl)
                (hkeepSome rfl) (fun _ hentry ↦ .inl hentry)
          · cases hnext
  | cleanUp i =>
      simp only [next] at hnext
      split at hnext
      · cases hnext
      · next call hcall =>
          split at hnext
          · next outcome hreleased =>
              obtain rfl := Option.some.inj hnext
              exact chained_cleanUp h hcall hreleased
          · cases hnext

/-- The states that some interleaving of calls reaches. -/
theorem chained_of_guardedRun {actions : List (Action κ)} {s : LockState κ}
    (h : guardedRun next .initial actions = some s) : Chained s :=
  guardedRun_induction (fun _ _ _ ↦ chained_next) h chained_initial

/-! ## Serialisation -/

/-- Whether the call with this number is for the job. -/
def LockState.isFor (s : LockState κ) (jobId : κ) (i : ℕ) : Bool :=
  s.calls[i]?.any (·.jobId = jobId)

theorem isFor_iff {s : LockState κ} {jobId : κ} {i : ℕ} :
    s.isFor jobId i = true ↔ ∃ call : LockCall κ, s.calls[i]? = some call ∧
      call.jobId = jobId := by
  unfold LockState.isFor
  cases s.calls[i]? <;> simp

/-- The calls for the job, in the order in which they were made. -/
def LockState.callsFor (s : LockState κ) (jobId : κ) : List ℕ :=
  (List.range s.calls.length).filter (s.isFor jobId)

/-- The calls for the job, in the order in which their work functions started. -/
def LockState.startsFor (s : LockState κ) (jobId : κ) : List ℕ :=
  s.startOrder.filter (s.isFor jobId)

/-- The work function of the call is running. -/
def LockState.IsRunning (s : LockState κ) (jobId : κ) (i : ℕ) : Prop :=
  ∃ call : LockCall κ, s.calls[i]? = some call ∧ call.jobId = jobId ∧ call.phase = .working

theorem startsFor_prefix {s : LockState κ} (h : Chained s) (jobId : κ) :
    s.startsFor jobId <+: s.callsFor jobId := by
  refine prefix_of_pairwise_lt ?_ ?_ (fun i hi ↦ ?_) fun i hi k hk hki ↦ ?_
  · refine (List.Pairwise.and_mem.mp (h.startOrder_pairwise.filter _)).imp ?_
    rintro i k ⟨hi, hk, hik⟩
    obtain ⟨call, hcall, hjob⟩ := isFor_iff.mp (List.mem_filter.mp hi).2
    obtain ⟨call', hcall', hjob'⟩ := isFor_iff.mp (List.mem_filter.mp hk).2
    exact hik call call' hcall hcall' (hjob.trans hjob'.symm)
  · exact List.pairwise_lt_range.filter _
  · obtain ⟨hi, hjob⟩ := List.mem_filter.mp hi
    obtain ⟨call, hcall, -⟩ := (h.mem_startOrder i).mp hi
    exact List.mem_filter.mpr ⟨List.mem_range.mpr (getElem?_lt hcall), hjob⟩
  · obtain ⟨hi, hjob⟩ := List.mem_filter.mp hi
    obtain ⟨-, hkjob⟩ := List.mem_filter.mp hk
    obtain ⟨call, hcall, hcallJob⟩ := isFor_iff.mp hjob
    obtain ⟨call', hcall', hcallJob'⟩ := isFor_iff.mp hkjob
    obtain ⟨found, hfound, hstarted⟩ := (h.mem_startOrder i).mp hi
    cases hcall.symm.trans hfound
    have hreleased := h.started i call hcall hstarted k call' hki hcall'
      (hcallJob'.trans hcallJob.symm)
    exact List.mem_filter.mpr ⟨(h.mem_startOrder k).mpr
      ⟨call', hcall', Phase.hasStarted_of_hasReleased hreleased⟩, hkjob⟩

/-- In every interleaving, at most one work function of a job runs, the work
functions start in the order of the calls, and a job whose calls have all settled
has no entry in the map. -/
theorem withJobLock_serialises (actions : List (Action κ)) (s : LockState κ)
    (h : guardedRun next .initial actions = some s) (jobId : κ) :
    (∀ i k, s.IsRunning jobId i → s.IsRunning jobId k → i = k) ∧
      s.startsFor jobId <+: s.callsFor jobId ∧
      ((∀ (i : ℕ) (call : LockCall κ), s.calls[i]? = some call → call.jobId = jobId →
        call.phase.isSettled = true) → mapGet s.locks jobId = none) := by
  have hchained := chained_of_guardedRun h
  refine ⟨?_, startsFor_prefix hchained jobId, fun hsettled ↦ ?_⟩
  · have hnot : ∀ i k, i < k → s.IsRunning jobId i → ¬ s.IsRunning jobId k := by
      rintro i k hik ⟨call, hcall, hjob, hworking⟩ ⟨call', hcall', hjob', hworking'⟩
      have hreleased := hchained.started k call' hcall' (by rw [hworking']; rfl) i call hik hcall
        (hjob.trans hjob'.symm)
      rw [hworking] at hreleased
      cases hreleased
    intro i k hi hk
    rcases Nat.lt_trichotomy i k with hlt | heq | hgt
    · exact absurd hk (hnot i k hlt hi)
    · exact heq
    · exact absurd hi (hnot k i hgt hk)
  · cases hentry : mapGet s.locks jobId with
    | none => rfl
    | some i =>
        obtain ⟨⟨owner, howner, hjob, hunsettled⟩, -⟩ := hchained.entry_some jobId i hentry
        rw [hsettled i owner howner hjob] at hunsettled
        cases hunsettled

/-- Three calls for one job: the second is made between the release and the
clean-up of the first, and its work throws. -/
theorem withJobLock_serialises_three :
    let actions : List (Action ℕ) := [.call 7, .startWork 0, .finishWork 0 .returned, .release 0,
      .call 7, .startWork 1, .cleanUp 0, .call 7, .finishWork 1 .threw, .release 1,
      .startWork 2, .cleanUp 1, .finishWork 2 .returned, .release 2, .cleanUp 2]
    let s : LockState ℕ := ⟨[], [⟨7, none, .settled .returned⟩, ⟨7, some 0, .settled .threw⟩,
      ⟨7, some 1, .settled .returned⟩], [0, 1, 2]⟩
    guardedRun next .initial actions = some s ∧ s.startsFor 7 = [0, 1, 2] ∧
      s.startsFor 7 <+: s.callsFor 7 ∧ mapGet s.locks 7 = none := by
  intro actions s
  have hrun : guardedRun next .initial actions = some s := rfl
  obtain ⟨-, hstarts, hempty⟩ := withJobLock_serialises actions s hrun 7
  refine ⟨hrun, by decide, hstarts, hempty fun i call hcall _ ↦ ?_⟩
  have hall : ∀ call ∈ s.calls, call.phase.isSettled = true := by decide
  exact hall call (List.mem_of_getElem? hcall)

end TestIntelligence.ProductionRunner.JobLock
