import TestIntelligence.Security.Digests
import TestIntelligence.Workbench.StorageIntegrity

/-!
# Atomicity of the memory adapter

A transaction that throws leaves no trace but the identifiers that it drew, and a migration
either reaches the last version or leaves the adapter as it was.
-/

namespace TestIntelligence.Workbench

open Js Systems

section

variable (env : StorageEnvironment) (migrations : List WorkbenchMigration)

/-! ## Rollback -/

/-- The state after a transaction that threw, compared with the state before it. -/
structure RolledBack (s s' : MemoryAdapter) : Prop where
  maps : s'.maps = s.maps
  schemaVersion : s'.schemaVersion = s.schemaVersion
  /-- The next transaction runs its work. -/
  accepts : ∀ {ρ : Type} (work : Work ρ), (transaction (runWork env migrations work) s').1 =
    (runWork env migrations work (openTransaction s').1).1
  /-- Later calls answer as if it had not run, with the next identifiers and clock readings. -/
  answers : ∀ {ρ : Type} (calls : List (AdapterCall ρ)),
    answers (performCall env migrations) s' calls = answers (performCall env migrations)
      { s with issued := s'.issued, readings := s'.readings } calls

variable {env migrations}

theorem transaction_fst {ρ : Type} (body : MemoryAdapter → Except Thrown ρ × MemoryAdapter)
    {s : MemoryAdapter} (hs : s.inTransaction = false) :
    (transaction body s).1 = (body (openTransaction s).1).1 := by
  have hend := transaction_end body hs
  generalize (transaction body s).1 = outcome at hend
  generalize (transaction body s).2 = s' at hend
  cases hend with
  | committed hrun => rw [hrun]
  | rolledBack hrun => rw [hrun]

theorem rolledBack_of_error {ρ : Type} {work : Work ρ} {s s' : MemoryAdapter}
    (hs : s.WellFormed) (hidle : s.inTransaction = false) {thrown : Thrown}
    (h : transaction (runWork env migrations work) s = (.error thrown, s')) :
    RolledBack env migrations s s' := by
  have hkeeps : KeepsAll (runWork env migrations work) := keeps_runWork env migrations work
  obtain ⟨hmaps, hversion, hidle'⟩ := transaction_of_error hkeeps hs hidle h
  have hs' := wellFormed_transaction hkeeps hs
  rw [h] at hs'
  refine ⟨hmaps, hversion, fun work ↦ transaction_fst _ hidle', fun calls ↦ ?_⟩
  have halike : Alike s' { s with issued := s'.issued, readings := s'.readings } :=
    ⟨hs', hs, hmaps, hversion, hidle'.trans hidle.symm, rfl, rfl⟩
  exact halike.answers env migrations calls

/-! ## Migrations -/

theorem schemaVersion_of_applyMigrations {pending : List WorkbenchMigration}
    {s s' : MemoryAdapter} {u : Unit} (h : applyMigrations env migrations pending s = (.ok u, s'))
    {last : WorkbenchMigration} (hlast : pending.getLast? = some last) :
    s'.schemaVersion = last.version := by
  induction pending generalizing s with
  | nil => cases hlast
  | cons migration rest ih =>
      rw [applyMigrations] at h
      rcases hrun : runWork env migrations migration.up s with ⟨outcome, after⟩
      rw [hrun] at h
      cases outcome with
      | error thrown => cases h
      | ok result =>
          cases rest with
          | nil =>
              obtain rfl := Option.some.inj hlast
              obtain ⟨-, rfl⟩ := Prod.mk.inj h
              rfl
          | cons migration' rest => exact ih h (by simpa using hlast)

theorem lt_of_lt_of_toRat_le {x y z : JsNumber} (hxy : x.lt y = true) (hy : y.isFinite = true)
    (hz : z.isFinite = true) (hyz : y.toRat ≤ z.toRat) : x.lt z = true := by
  cases x <;> cases y <;> cases z <;>
    simp_all [JsNumber.lt, JsNumber.toRat, JsNumber.isFinite] <;> grind

theorem version_of_validateMigrationsFrom {index : ℕ} {migrations : List WorkbenchMigration}
    {u : Unit} (h : validateMigrationsFrom index migrations = .ok u) {i : ℕ}
    {migration : WorkbenchMigration} (hi : migrations[i]? = some migration) :
    migration.version.eqNat (index + i + 1) = true := by
  induction migrations generalizing index i with
  | nil => cases hi
  | cons first rest ih =>
      obtain ⟨v, hfirst, hrest⟩ := bind_eq_ok h
      cases i with
      | zero =>
          obtain rfl := Option.some.inj hi
          unfold validateMigration at hfirst
          split at hfirst
          · cases hfirst
          · split at hfirst
            · cases hfirst
            · next hversion => simpa using hversion
      | succ i =>
          have hversion := ih hrest hi
          rwa [Nat.add_right_comm index 1 i] at hversion

/-- Where a migration is pending, the last one is. -/
theorem getLast?_pendingMigrations {s : MemoryAdapter} {u : Unit}
    (hvalid : validateMigrationSequence migrations = .ok u)
    (hpending : pendingMigrations migrations s ≠ []) :
    ∃ last, migrations.getLast? = some last ∧
      (pendingMigrations migrations s).getLast? = some last := by
  obtain ⟨migration, hmem⟩ := List.exists_mem_of_ne_nil _ hpending
  obtain ⟨hmem, hlt⟩ := List.mem_filter.mp hmem
  obtain ⟨i, hi⟩ := List.getElem?_of_mem hmem
  obtain ⟨before, last, rfl⟩ :=
    (List.eq_nil_or_concat migrations).resolve_left (List.ne_nil_of_mem hmem)
  rw [List.concat_eq_append] at *
  have hlast : (before ++ [last])[before.length]? = some last := by simp
  have hversion := JsNumber.eqNat_iff.mp (version_of_validateMigrationsFrom hvalid hi)
  have hversion' := JsNumber.eqNat_iff.mp (version_of_validateMigrationsFrom hvalid hlast)
  have hle : i ≤ before.length := by
    have hlength := (List.getElem?_eq_some_iff.mp hi).1
    rw [List.length_append, List.length_singleton] at hlength
    omega
  have hlt' : s.schemaVersion.lt last.version = true := by
    apply lt_of_lt_of_toRat_le hlt hversion.1 hversion'.1
    rw [hversion.2, hversion'.2]
    exact_mod_cast by omega
  refine ⟨last, by simp, ?_⟩
  rw [pendingMigrations, List.filter_append, List.filter_cons_of_pos (by simpa using hlt')]
  simp

/-- The migrations reach the last version, or nothing has changed. -/
theorem migrateToLatest_spec {s : MemoryAdapter} (hs : s.WellFormed)
    (hidle : s.inTransaction = false) :
    (∃ last, migrations.getLast? = some last ∧
      (migrateToLatest env migrations s).2.schemaVersion = last.version) ∨
    (migrateToLatest env migrations s).2.maps = s.maps ∧
      (migrateToLatest env migrations s).2.schemaVersion = s.schemaVersion := by
  unfold migrateToLatest
  cases hsupported : assertSchemaVersionSupported s.schemaVersion migrations with
  | error error => exact .inr ⟨rfl, rfl⟩
  | ok u =>
      obtain ⟨v, hvalid, -⟩ := bind_eq_ok hsupported
      dsimp only
      split
      · exact .inr ⟨rfl, rfl⟩
      · next hpending =>
          rcases htransaction : transaction (applyMigrations env migrations
            (pendingMigrations migrations s)) s with ⟨outcome, after⟩
          cases outcome with
          | error thrown =>
              obtain ⟨hmaps, hversion, -⟩ := transaction_of_error
                (keeps_applyMigrations env migrations _) hs hidle htransaction
              exact .inr ⟨hmaps, hversion⟩
          | ok result =>
              have hend := transaction_end (applyMigrations env migrations
                (pendingMigrations migrations s)) hidle
              rw [htransaction] at hend
              obtain ⟨last, hlast, hpendingLast⟩ := getLast?_pendingMigrations hvalid hpending
              cases hend with
              | committed hrun =>
                  exact .inl ⟨last, hlast, schemaVersion_of_applyMigrations hrun hpendingLast⟩

/-! ## The adapter -/

/-- In every reachable state references are sound, a transaction that throws rolls back, and a
migration reaches the last version or changes nothing. -/
theorem storage_atomic_and_sound (huuid : Function.Injective env.randomUUID)
    {initialSchemaVersion : JsNumber} {s : MemoryAdapter}
    (h : Reachable env migrations initialSchemaVersion s) :
    RefersSoundly s.maps ∧
    (s.inTransaction = false →
      (∀ {ρ : Type} (work : Work ρ) (thrown : Thrown) (s' : MemoryAdapter),
        transaction (runWork env migrations work) s = (.error thrown, s') →
          RolledBack env migrations s s') ∧
      ((∃ last, migrations.getLast? = some last ∧
          (migrateToLatest env migrations s).2.schemaVersion = last.version) ∨
        (migrateToLatest env migrations s).2.maps = s.maps ∧
          (migrateToLatest env migrations s).2.schemaVersion = s.schemaVersion)) := by
  have hsound := h.soundState huuid
  refine ⟨hsound.sound.refers, fun hidle ↦ ⟨fun work thrown s' hthrown ↦ ?_, ?_⟩⟩
  · exact rolledBack_of_error hsound.wellFormed hidle hthrown
  · exact migrateToLatest_spec hsound.wellFormed hidle

end

/-! ## A transaction that throws -/

def sampleUuids : List (ℕ × JsString) :=
  [(0, js "6f3b0f0e-53d9-4f55-9a38-6f1f6c0f2f11"), (1, js "0b5ce6b7-7f0c-4c1c-8b44-2f7d1f2a9d02")]

/-- Identifiers after the first two are told apart by their length. -/
def sampleEnvironment : StorageEnvironment where
  randomUUID := Security.tabled sampleUuids fun i ↦ 0x2D :: List.replicate i 0x30
  now := fun _ ↦ js "2026-01-02T03:04:05.000Z"

theorem randomUUID_injective : Function.Injective sampleEnvironment.randomUUID := by
  apply Security.tabled_injective
  · decide
  · intro i j h
    simpa using congrArg List.length h
  · intro entry hentry i heq
    have hheads : ∀ entry ∈ sampleUuids, entry.2.head? ≠ some 0x2D := by decide
    exact hheads entry hentry (congrArg List.head? heq.symm)

def sampleRun : CreateRunInput := ⟨js "tenant-a", .queued, none, some (js "first run"), none⟩

/-- The adapter with one run. -/
def sampleAdapter : MemoryAdapter :=
  (performCall sampleEnvironment [] (.start 0)
    (.repository (.createRun sampleRun) : AdapterCall Unit)).1

/-- Work that creates a snapshot, closes the adapter and throws. -/
def sampleWork : Work Unit :=
  .call (.repository (.createSnapshot
    ⟨js "tenant-a", none, js "figma", 12, 2, 3, js "ready", none⟩)) fun _ ↦
      .call (.adapter .close) fun _ ↦ .fail (.work (js "interrupted"))

theorem sampleWork_rolledBack : RefersSoundly sampleAdapter.maps ∧
    RolledBack sampleEnvironment [] sampleAdapter
      (transaction (runWork sampleEnvironment [] sampleWork) sampleAdapter).2 := by
  have hreachable : Reachable sampleEnvironment [] 0 sampleAdapter :=
    .after .start rfl (.repository (.createRun sampleRun) : AdapterCall Unit)
  obtain ⟨hsound, hidle⟩ := storage_atomic_and_sound randomUUID_injective hreachable
  exact ⟨hsound, (hidle rfl).1 sampleWork (.work (js "interrupted")) _ rfl⟩

end TestIntelligence.Workbench
