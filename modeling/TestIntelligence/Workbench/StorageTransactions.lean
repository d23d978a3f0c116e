import TestIntelligence.Systems.Answers
import TestIntelligence.Workbench.MemoryAdapter

/-!
# Transactions of the memory adapter

Work changes the maps that the state refers to and no others, so that the copies of a
transaction hold what the maps held when it was opened.  What a call does depends on the
contents of the maps only: states with the same contents answer alike.
-/

namespace TestIntelligence.Workbench

open Js Systems

namespace MemoryAdapter

/-- The maps of the state are on the heap. -/
def WellFormed (s : MemoryAdapter) : Prop := ∀ kind, s.state kind < s.heap.allocated

theorem wellFormed_start (version : JsNumber) : (start version).WellFormed :=
  fun _ ↦ Nat.zero_lt_one

@[simp] theorem maps_start (version : JsNumber) : (start version).maps = fun _ ↦ [] := rfl

@[simp] theorem maps_close (s : MemoryAdapter) : s.close.maps = fun _ ↦ [] :=
  MapHeap.contents_clear s.heap s.state

/-- What a step inside a transaction leaves alone. -/
structure Keeps (s s' : MemoryAdapter) : Prop where
  state : s'.state = s.state
  allocated : s'.heap.allocated = s.heap.allocated
  inTransaction : s'.inTransaction = s.inTransaction
  issued : s.issued ≤ s'.issued
  others : ∀ backup, (∀ kind, s.state kind ≠ backup kind) →
    s'.heap.contents backup = s.heap.contents backup

theorem Keeps.refl (s : MemoryAdapter) : s.Keeps s := ⟨rfl, rfl, rfl, le_rfl, fun _ _ ↦ rfl⟩

theorem Keeps.trans {s t u : MemoryAdapter} (hst : s.Keeps t) (htu : t.Keeps u) : s.Keeps u where
  state := htu.state.trans hst.state
  allocated := htu.allocated.trans hst.allocated
  inTransaction := htu.inTransaction.trans hst.inTransaction
  issued := hst.issued.trans htu.issued
  others backup hne :=
    (htu.others backup (by rwa [hst.state])).trans (hst.others backup hne)

theorem Keeps.wellFormed {s t : MemoryAdapter} (h : s.Keeps t) (hs : s.WellFormed) :
    t.WellFormed := by
  intro kind
  rw [h.state, h.allocated]
  exact hs kind

end MemoryAdapter

open MemoryAdapter

section

variable (env : StorageEnvironment) (migrations : List WorkbenchMigration)

/-! ## Steps of the work -/

/-- What the call does in this state. -/
def effectIn (s : MemoryAdapter) (call : RepositoryCall) :
    Except WorkbenchStorageError RepositoryEffect :=
  call.effect (fun i ↦ env.randomUUID (s.issued + i)) (env.now s.readings) s.maps

variable {env} in
theorem performRepositoryCall_of_error {s : MemoryAdapter} {call : RepositoryCall}
    {error : WorkbenchStorageError} (h : effectIn env s call = .error error) :
    performRepositoryCall env s call = (.error (.storage error), s) := by
  rw [effectIn] at h
  rw [performRepositoryCall, h]

variable {env} in
theorem performRepositoryCall_of_ok {s : MemoryAdapter} {call : RepositoryCall}
    {effect : RepositoryEffect} (h : effectIn env s call = .ok effect) :
    performRepositoryCall env s call = (.ok effect.reply, { s with
      heap := s.heap.putAll s.state effect.entries
      issued := s.issued + effect.issued
      readings := s.readings + effect.readings }) := by
  rw [effectIn] at h
  rw [performRepositoryCall, h]

theorem keeps_performRepositoryCall (s : MemoryAdapter) (call : RepositoryCall) :
    s.Keeps (performRepositoryCall env s call).2 := by
  cases heffect : effectIn env s call with
  | error error =>
      rw [performRepositoryCall_of_error heffect]
      exact .refl s
  | ok effect =>
      rw [performRepositoryCall_of_ok heffect]
      exact ⟨rfl, MapHeap.allocated_putAll _ _ _, rfl, Nat.le_add_right _ _,
        fun backup hne ↦ MapHeap.contents_putAll_of_ne hne _⟩

theorem keeps_close (s : MemoryAdapter) : s.Keeps s.close :=
  ⟨rfl, rfl, rfl, le_rfl, fun _ hne ↦ MapHeap.contents_clear_of_ne hne⟩

theorem performHandleCall_snd (s : MemoryAdapter) (call : LifecycleCall) :
    (performHandleCall s call).2 = s := by
  cases call <;> rfl

/-- Of the lifecycle methods only `close` has an effect inside a transaction. -/
theorem performNestedCall_snd (s : MemoryAdapter) (call : LifecycleCall) :
    (performNestedCall migrations s call).2 = if call matches .close then s.close else s := by
  cases call with
  | migrateToLatest =>
      rw [performNestedCall]
      split
      · rfl
      · split <;> rfl
  | _ => rfl

theorem keeps_performWorkCall (s : MemoryAdapter) (call : WorkCall) :
    s.Keeps (performWorkCall env migrations s call).2 := by
  cases call with
  | repository call => exact keeps_performRepositoryCall env s call
  | handle call =>
      rw [performWorkCall, performHandleCall_snd]
      exact .refl s
  | adapter call =>
      rw [performWorkCall, performNestedCall_snd]
      split
      · exact keeps_close s
      · exact .refl s

theorem keeps_runWork {ρ : Type} (work : Work ρ) (s : MemoryAdapter) :
    s.Keeps (runWork env migrations work s).2 := by
  induction work generalizing s with
  | finish result => exact .refl s
  | fail thrown => exact .refl s
  | call call next ih => exact (keeps_performWorkCall env migrations s call).trans (ih _ _)

theorem keeps_applyMigrations (pending : List WorkbenchMigration) (s : MemoryAdapter) :
    s.Keeps (applyMigrations env migrations pending s).2 := by
  induction pending generalizing s with
  | nil => exact .refl s
  | cons migration rest ih =>
      have hup := keeps_runWork env migrations migration.up s
      rw [applyMigrations]
      rcases hrun : runWork env migrations migration.up s with ⟨outcome, after⟩
      rw [hrun] at hup
      cases outcome with
      | error thrown => exact hup
      | ok result =>
          have hversion : after.Keeps { after with schemaVersion := migration.version } :=
            ⟨rfl, rfl, rfl, le_rfl, fun _ _ ↦ rfl⟩
          exact (hup.trans hversion).trans (ih _)

/-! ## Transactions -/

/-- The bodies of transactions: they keep what work keeps. -/
def KeepsAll {ρ : Type} (body : MemoryAdapter → Except Thrown ρ × MemoryAdapter) : Prop :=
  ∀ s, Keeps s (body s).2

theorem wellFormed_openTransaction {s : MemoryAdapter} (hs : s.WellFormed) :
    (openTransaction s).1.WellFormed := (MapHeap.apart_copy hs).object_lt

theorem maps_openTransaction {s : MemoryAdapter} (hs : s.WellFormed) :
    (openTransaction s).1.maps = s.maps := MapHeap.contents_of_copy hs

/-- How a transaction ends. -/
inductive TransactionEnd {ρ : Type} (body : MemoryAdapter → Except Thrown ρ × MemoryAdapter)
    (s : MemoryAdapter) : Except Thrown ρ → MemoryAdapter → Prop
  | committed {result : ρ} {after : MemoryAdapter}
      (hbody : body (openTransaction s).1 = (.ok result, after)) :
      TransactionEnd body s (.ok result) { after with inTransaction := false }
  | rolledBack {thrown : Thrown} {after : MemoryAdapter}
      (hbody : body (openTransaction s).1 = (.error thrown, after)) :
      TransactionEnd body s (.error thrown) { after with
        state := (openTransaction s).2
        schemaVersion := s.schemaVersion
        inTransaction := false }

theorem transaction_end {ρ : Type} (body : MemoryAdapter → Except Thrown ρ × MemoryAdapter)
    {s : MemoryAdapter} (hs : s.inTransaction = false) :
    TransactionEnd body s (transaction body s).1 (transaction body s).2 := by
  unfold transaction
  rw [hs]
  rcases hbody : body (openTransaction s).1 with ⟨outcome, after⟩
  cases outcome with
  | ok result => simpa [hbody] using TransactionEnd.committed hbody
  | error thrown => simpa [hbody] using TransactionEnd.rolledBack hbody

/-- The maps after a rollback are those of before the transaction. -/
theorem maps_of_rolledBack {ρ : Type} {body : MemoryAdapter → Except Thrown ρ × MemoryAdapter}
    (hbody : KeepsAll body) {s : MemoryAdapter} (hs : s.WellFormed) :
    (body (openTransaction s).1).2.heap.contents (openTransaction s).2 = s.maps := by
  have hne : ∀ kind, (openTransaction s).1.state kind ≠ (openTransaction s).2 kind :=
    (MapHeap.apart_copy hs).ne
  rw [(hbody (openTransaction s).1).others _ hne]
  exact MapHeap.contents_copy s.heap s.state

/-- A transaction that throws leaves the maps, the version and the flag as they were. -/
theorem transaction_of_error {ρ : Type} {body : MemoryAdapter → Except Thrown ρ × MemoryAdapter}
    (hbody : KeepsAll body) {s s' : MemoryAdapter} (hs : s.WellFormed)
    (hopen : s.inTransaction = false) {thrown : Thrown}
    (h : transaction body s = (.error thrown, s')) :
    s'.maps = s.maps ∧ s'.schemaVersion = s.schemaVersion ∧ s'.inTransaction = false := by
  have hend := transaction_end body hopen
  rw [h] at hend
  cases hend with
  | rolledBack hrun =>
      have hmaps := maps_of_rolledBack hbody hs
      rw [hrun] at hmaps
      exact ⟨hmaps, rfl, rfl⟩

theorem wellFormed_transaction {ρ : Type}
    {body : MemoryAdapter → Except Thrown ρ × MemoryAdapter} (hbody : KeepsAll body)
    {s : MemoryAdapter} (hs : s.WellFormed) : (transaction body s).2.WellFormed := by
  cases hopen : s.inTransaction with
  | true =>
      unfold transaction
      rw [hopen]
      exact hs
  | false =>
      have hend := transaction_end body hopen
      have hkeeps := hbody (openTransaction s).1
      generalize (transaction body s).1 = outcome at hend
      generalize (transaction body s).2 = s' at hend
      cases hend with
      | committed hrun =>
          rw [hrun] at hkeeps
          exact hkeeps.wellFormed (wellFormed_openTransaction hs)
      | rolledBack hrun =>
          rw [hrun] at hkeeps
          intro kind
          rw [hkeeps.allocated]
          exact (MapHeap.apart_copy hs).backup_lt kind

/-! ## States that answer alike -/

/-- The states differ in the addresses of their maps only. -/
structure Alike (s t : MemoryAdapter) : Prop where
  wellFormed_left : s.WellFormed
  wellFormed_right : t.WellFormed
  maps : s.maps = t.maps
  schemaVersion : s.schemaVersion = t.schemaVersion
  inTransaction : s.inTransaction = t.inTransaction
  issued : s.issued = t.issued
  readings : s.readings = t.readings

/-- A computation answers alike in states that are alike, and leaves states that are. -/
def Uniform {α : Type} (body : MemoryAdapter → α × MemoryAdapter) : Prop :=
  ∀ s t, Alike s t → (body s).1 = (body t).1 ∧ Alike (body s).2 (body t).2

theorem uniform_performRepositoryCall (call : RepositoryCall) :
    Uniform fun s ↦ performRepositoryCall env s call := by
  intro s t h
  change (performRepositoryCall env s call).1 = (performRepositoryCall env t call).1 ∧
    Alike (performRepositoryCall env s call).2 (performRepositoryCall env t call).2
  have hleft := (keeps_performRepositoryCall env s call).wellFormed h.wellFormed_left
  have hright := (keeps_performRepositoryCall env t call).wellFormed h.wellFormed_right
  have hsame : effectIn env s call = effectIn env t call := by
    rw [effectIn, effectIn, h.issued, h.readings, h.maps]
  cases heffect : effectIn env t call with
  | error error =>
      rw [performRepositoryCall_of_error heffect,
        performRepositoryCall_of_error (hsame.trans heffect)]
      exact ⟨rfl, h⟩
  | ok effect =>
      rw [performRepositoryCall_of_ok heffect] at hright ⊢
      rw [performRepositoryCall_of_ok (hsame.trans heffect)] at hleft ⊢
      refine ⟨rfl, hleft, hright, ?_, h.schemaVersion, h.inTransaction,
        congrArg (· + effect.issued) h.issued, congrArg (· + effect.readings) h.readings⟩
      exact (MapHeap.contents_putAll s.heap s.state effect.entries).trans
        ((congrArg (effect.entries.foldl putContents) h.maps).trans
          (MapHeap.contents_putAll t.heap t.state effect.entries).symm)

theorem Alike.close {s t : MemoryAdapter} (h : Alike s t) : Alike s.close t.close where
  wellFormed_left := (keeps_close s).wellFormed h.wellFormed_left
  wellFormed_right := (keeps_close t).wellFormed h.wellFormed_right
  maps := (maps_close s).trans (maps_close t).symm
  schemaVersion := h.schemaVersion
  inTransaction := h.inTransaction
  issued := h.issued
  readings := h.readings

theorem uniform_performHandleCall (call : LifecycleCall) :
    Uniform fun s ↦ performHandleCall s call := by
  intro s t h
  cases call with
  | getSchemaVersion =>
      refine ⟨?_, h⟩
      change Except.ok _ = Except.ok _
      rw [h.schemaVersion]
  | _ => exact ⟨rfl, h⟩

theorem uniform_performNestedCall (call : LifecycleCall) :
    Uniform fun s ↦ performNestedCall migrations s call := by
  intro s t h
  cases call with
  | migrateToLatest =>
      have hpending : pendingMigrations migrations s = pendingMigrations migrations t := by
        rw [pendingMigrations, pendingMigrations, h.schemaVersion]
      change (performNestedCall migrations s .migrateToLatest).1 =
          (performNestedCall migrations t .migrateToLatest).1 ∧
        Alike (performNestedCall migrations s .migrateToLatest).2
          (performNestedCall migrations t .migrateToLatest).2
      refine ⟨?_, ?_⟩
      · rw [performNestedCall, performNestedCall, h.schemaVersion, hpending]
        split
        · rfl
        · split <;> rfl
      · rw [performNestedCall_snd, performNestedCall_snd]
        exact h
  | getSchemaVersion =>
      refine ⟨?_, h⟩
      change Except.ok _ = Except.ok _
      rw [h.schemaVersion]
  | transaction => exact ⟨rfl, h⟩
  | close => exact ⟨rfl, h.close⟩

theorem uniform_performWorkCall (call : WorkCall) :
    Uniform fun s ↦ performWorkCall env migrations s call := by
  intro s t h
  cases call with
  | repository call =>
      obtain ⟨hreply, hafter⟩ := uniform_performRepositoryCall env call s t h
      exact ⟨congrArg (Except.map WorkReply.repository) hreply, hafter⟩
  | handle call => exact uniform_performHandleCall call s t h
  | adapter call => exact uniform_performNestedCall migrations call s t h

theorem uniform_runWork {ρ : Type} (work : Work ρ) : Uniform (runWork env migrations work) := by
  intro s t h
  induction work generalizing s t with
  | finish result => exact ⟨rfl, h⟩
  | fail thrown => exact ⟨rfl, h⟩
  | call call next ih =>
      obtain ⟨hreply, hafter⟩ :=
        uniform_performWorkCall env migrations call s t h
      dsimp only at hreply hafter
      rw [runWork, runWork, hreply]
      exact ih _ _ _ hafter

theorem uniform_applyMigrations (pending : List WorkbenchMigration) :
    Uniform (applyMigrations env migrations pending) := by
  intro s t h
  induction pending generalizing s t with
  | nil => exact ⟨rfl, h⟩
  | cons migration rest ih =>
      obtain ⟨houtcome, hafter⟩ :=
        uniform_runWork env migrations migration.up s t h
      rw [applyMigrations, applyMigrations]
      rcases hs : runWork env migrations migration.up s with ⟨outcome, after⟩
      rcases ht : runWork env migrations migration.up t with ⟨outcome', after'⟩
      rw [hs, ht] at houtcome hafter
      obtain rfl : outcome = outcome' := houtcome
      cases outcome with
      | error thrown => exact ⟨rfl, hafter⟩
      | ok result =>
          exact ih _ _ ⟨hafter.wellFormed_left, hafter.wellFormed_right, hafter.maps, rfl,
            hafter.inTransaction, hafter.issued, hafter.readings⟩

theorem Alike.openTransaction {s t : MemoryAdapter} (h : Alike s t) :
    Alike (openTransaction s).1 (openTransaction t).1 where
  wellFormed_left := wellFormed_openTransaction h.wellFormed_left
  wellFormed_right := wellFormed_openTransaction h.wellFormed_right
  maps := (maps_openTransaction h.wellFormed_left).trans
    (h.maps.trans (maps_openTransaction h.wellFormed_right).symm)
  schemaVersion := h.schemaVersion
  inTransaction := rfl
  issued := h.issued
  readings := h.readings

theorem uniform_transaction {ρ : Type} {body : MemoryAdapter → Except Thrown ρ × MemoryAdapter}
    (hkeeps : KeepsAll body) (hbody : Uniform body) : Uniform (transaction body) := by
  intro s t h
  cases hopen : t.inTransaction with
  | true =>
      have hopen' := h.inTransaction.trans hopen
      unfold transaction
      rw [hopen, hopen']
      exact ⟨rfl, h⟩
  | false =>
      have hs := transaction_end body (h.inTransaction.trans hopen)
      have ht := transaction_end body hopen
      have hleft := wellFormed_transaction hkeeps h.wellFormed_left
      have hright := wellFormed_transaction hkeeps h.wellFormed_right
      have hmapsLeft := maps_of_rolledBack hkeeps h.wellFormed_left
      have hmapsRight := maps_of_rolledBack hkeeps h.wellFormed_right
      obtain ⟨houtcome, hafter⟩ := hbody _ _ h.openTransaction
      generalize (transaction body s).1 = outcome at hs
      generalize (transaction body s).2 = s' at hs hleft
      generalize (transaction body t).1 = outcome' at ht
      generalize (transaction body t).2 = t' at ht hright
      cases hs with
      | committed hs =>
          rw [hs] at houtcome hafter
          cases ht with
          | committed ht =>
              rw [ht] at houtcome hafter
              exact ⟨houtcome, hleft, hright, hafter.maps, hafter.schemaVersion, rfl,
                hafter.issued, hafter.readings⟩
          | rolledBack ht =>
              rw [ht] at houtcome
              cases houtcome
      | rolledBack hs =>
          rw [hs] at houtcome hafter hmapsLeft
          cases ht with
          | committed ht =>
              rw [ht] at houtcome
              cases houtcome
          | rolledBack ht =>
              rw [ht] at houtcome hafter hmapsRight
              exact ⟨houtcome, hleft, hright, hmapsLeft.trans (h.maps.trans hmapsRight.symm),
                h.schemaVersion, rfl, hafter.issued, hafter.readings⟩

theorem uniform_migrateToLatest : Uniform (migrateToLatest env migrations) := by
  intro s t h
  have hpending : pendingMigrations migrations s = pendingMigrations migrations t := by
    rw [pendingMigrations, pendingMigrations, h.schemaVersion]
  unfold migrateToLatest
  rw [h.schemaVersion, hpending]
  cases assertSchemaVersionSupported t.schemaVersion migrations with
  | error error => exact ⟨rfl, h⟩
  | ok _ =>
      dsimp only
      split
      · exact ⟨rfl, h⟩
      · obtain ⟨houtcome, hafter⟩ := uniform_transaction
          (keeps_applyMigrations env migrations (pendingMigrations migrations t))
          (uniform_applyMigrations env migrations _) s t h
        rcases hs : transaction (applyMigrations env migrations
          (pendingMigrations migrations t)) s with ⟨outcome, after⟩
        rcases ht : transaction (applyMigrations env migrations
          (pendingMigrations migrations t)) t with ⟨outcome', after'⟩
        rw [hs, ht] at houtcome hafter
        obtain rfl : outcome = outcome' := houtcome
        cases outcome with
        | error thrown => exact ⟨rfl, hafter⟩
        | ok result => exact ⟨congrArg Except.ok hafter.schemaVersion, hafter⟩

/-- The calls on the adapter answer alike in states that are alike. -/
theorem Alike.performCall {ρ : Type} {s t : MemoryAdapter} (h : Alike s t)
    (call : AdapterCall ρ) :
    (performCall env migrations s call).2 = (performCall env migrations t call).2 ∧
      Alike (performCall env migrations s call).1 (performCall env migrations t call).1 := by
  cases call with
  | repository call =>
      obtain ⟨hreply, hafter⟩ := uniform_performRepositoryCall env call s t h
      exact ⟨congrArg (Except.map AdapterReply.repository) hreply, hafter⟩
  | migrateToLatest =>
      obtain ⟨hreply, hafter⟩ :=
        uniform_migrateToLatest env migrations s t h
      exact ⟨congrArg (Except.map AdapterReply.schemaVersion) hreply, hafter⟩
  | getSchemaVersion =>
      exact ⟨congrArg (fun v ↦ Except.ok (AdapterReply.schemaVersion v)) h.schemaVersion, h⟩
  | transaction work =>
      obtain ⟨hreply, hafter⟩ := uniform_transaction
        (keeps_runWork env migrations work) (uniform_runWork env migrations work) s t h
      exact ⟨congrArg (Except.map AdapterReply.result) hreply, hafter⟩
  | close => exact ⟨rfl, h.close⟩

theorem Alike.answers {ρ : Type} {s t : MemoryAdapter} (h : Alike s t)
    (calls : List (AdapterCall ρ)) :
    answers (Workbench.performCall env migrations) s calls =
      answers (Workbench.performCall env migrations) t calls := by
  induction calls generalizing s t with
  | nil => rfl
  | cons call calls ih =>
      obtain ⟨hreply, hafter⟩ := h.performCall env migrations call
      rw [Systems.answers, Systems.answers, hreply, ih hafter]

end

end TestIntelligence.Workbench
