import Mathlib.Data.Nat.Find
import Mathlib.Data.Set.Lattice
import Mathlib.Tactic.Common

/-!
# Infinite paths of a transition relation

Path properties and path quantifiers over an arbitrary relation.  A state property
is read on a path at its first state.  The greatest-fixed-point reading of `EG`
and the least-fixed-point reading of `E[_ U _]` are proved equal to the reading
over infinite paths; the latter needs every state it visits to have a successor.
-/

namespace TestIntelligence.Temporal

variable {σ : Type*}

/-! ## Path properties -/

/-- The path from position `n` on. -/
def suffix (π : ℕ → σ) (n : ℕ) : ℕ → σ := fun k ↦ π (n + k)

@[simp] theorem suffix_apply (π : ℕ → σ) (n k : ℕ) : suffix π n k = π (n + k) := rfl

/-- A state property, at the first state of a path. -/
def now (P : σ → Prop) (π : ℕ → σ) : Prop := P (π 0)

def next (φ : (ℕ → σ) → Prop) (π : ℕ → σ) : Prop := φ (suffix π 1)

def globally (φ : (ℕ → σ) → Prop) (π : ℕ → σ) : Prop := ∀ n, φ (suffix π n)

def eventually (φ : (ℕ → σ) → Prop) (π : ℕ → σ) : Prop := ∃ n, φ (suffix π n)

def until_ (φ ψ : (ℕ → σ) → Prop) (π : ℕ → σ) : Prop :=
  ∃ n, ψ (suffix π n) ∧ ∀ m < n, φ (suffix π m)

@[simp] theorem now_suffix (P : σ → Prop) (π : ℕ → σ) (n : ℕ) :
    now P (suffix π n) ↔ P (π n) := Iff.rfl

theorem eventually_iff_until (φ : (ℕ → σ) → Prop) (π : ℕ → σ) :
    eventually φ π ↔ until_ (fun _ ↦ True) φ π := by
  simp [eventually, until_]

/-- A path fails `φ U ψ` when `ψ` never holds, or fails together with `φ` before
it first holds. -/
theorem until_iff (φ ψ : (ℕ → σ) → Prop) (π : ℕ → σ) :
    until_ φ ψ π ↔ ¬ until_ (fun ρ ↦ ¬ ψ ρ) (fun ρ ↦ ¬ φ ρ ∧ ¬ ψ ρ) π ∧
      ¬ globally (fun ρ ↦ ¬ ψ ρ) π := by
  classical
  constructor
  · rintro ⟨n, hψ, hφ⟩
    refine ⟨?_, fun hnever ↦ hnever n hψ⟩
    rintro ⟨m, ⟨hnφ, hnψ⟩, hbefore⟩
    rcases Nat.lt_trichotomy m n with hlt | rfl | hgt
    · exact hnφ (hφ m hlt)
    · exact hnψ hψ
    · exact hbefore n hgt hψ
  · rintro ⟨hrelease, hsome⟩
    have hex : ∃ n, ψ (suffix π n) := by
      simpa [globally] using hsome
    refine ⟨Nat.find hex, Nat.find_spec hex, fun m hm ↦ ?_⟩
    by_contra hnφ
    exact hrelease ⟨m, ⟨hnφ, Nat.find_min hex hm⟩, fun k hk ↦ Nat.find_min hex (hk.trans hm)⟩

/-! ## Paths of a relation -/

variable (R : σ → σ → Prop)

def IsPath (π : ℕ → σ) : Prop := ∀ n, R (π n) (π (n + 1))

/-- Some path from the state. -/
def exPath (φ : (ℕ → σ) → Prop) (s : σ) : Prop := ∃ π, IsPath R π ∧ π 0 = s ∧ φ π

/-- Every path from the state. -/
def allPaths (φ : (ℕ → σ) → Prop) (s : σ) : Prop := ∀ π, IsPath R π → π 0 = s → φ π

variable {R}

theorem IsPath.suffix {π : ℕ → σ} (h : IsPath R π) (n : ℕ) : IsPath R (suffix π n) :=
  fun k ↦ h (n + k)

theorem allPaths_iff_not_exPath_not {φ : (ℕ → σ) → Prop} {s : σ} :
    allPaths R φ s ↔ ¬ exPath R (fun π ↦ ¬ φ π) s := by
  simp [allPaths, exPath]

theorem allPaths_congr {φ ψ : (ℕ → σ) → Prop} {s : σ} (h : ∀ π, φ π ↔ ψ π) :
    allPaths R φ s ↔ allPaths R ψ s := by
  simp [allPaths, h]

/-- A premise about the first state can be tested there. -/
theorem allPaths_now_imp {P : σ → Prop} {φ : (ℕ → σ) → Prop} {s : σ} :
    allPaths R (fun π ↦ now P π → φ π) s ↔ (P s → allPaths R φ s) := by
  constructor
  · rintro h hP π hπ rfl
    exact h π hπ rfl hP
  · rintro h π hπ rfl hP
    exact h hP π hπ rfl

/-- The path that starts in `s` and goes on as `π`. -/
def consPath (s : σ) (π : ℕ → σ) : ℕ → σ
  | 0 => s
  | n + 1 => π n

@[simp] theorem consPath_zero (s : σ) (π : ℕ → σ) : consPath s π 0 = s := rfl

@[simp] theorem consPath_succ (s : σ) (π : ℕ → σ) (n : ℕ) : consPath s π (n + 1) = π n := rfl

@[simp] theorem suffix_consPath_succ (s : σ) (π : ℕ → σ) (n : ℕ) :
    suffix (consPath s π) (n + 1) = suffix π n := by
  funext k
  rw [suffix_apply, Nat.add_right_comm, consPath_succ, suffix_apply]

theorem isPath_consPath {s : σ} {π : ℕ → σ} (hstep : R s (π 0)) (h : IsPath R π) :
    IsPath R (consPath s π) := by
  intro n
  cases n with
  | zero => exact hstep
  | succ n => exact h n

/-- A set in which every state has a successor carries a path from each of its
states. -/
theorem exists_path_of_postfixed {D : Set σ} (hD : ∀ s ∈ D, ∃ t ∈ D, R s t) {s : σ} (hs : s ∈ D) :
    ∃ π, IsPath R π ∧ π 0 = s ∧ ∀ n, π n ∈ D := by
  classical
  choose! step hmem hstep using hD
  have hall : ∀ n, step^[n] s ∈ D := by
    intro n
    induction n with
    | zero => exact hs
    | succ n ih =>
        rw [Function.iterate_succ_apply']
        exact hmem _ ih
  refine ⟨fun n ↦ step^[n] s, fun n ↦ ?_, rfl, hall⟩
  dsimp only
  rw [Function.iterate_succ_apply']
  exact hstep _ (hall n)

/-- `EG` as a greatest fixed point. -/
theorem exPath_globally_iff {P : σ → Prop} {s : σ} :
    exPath R (globally (now P)) s ↔
      ∃ D : Set σ, s ∈ D ∧ (∀ t ∈ D, P t) ∧ ∀ t ∈ D, ∃ u ∈ D, R t u := by
  constructor
  · rintro ⟨π, hπ, rfl, hP⟩
    refine ⟨Set.range π, ⟨0, rfl⟩, ?_, ?_⟩
    · rintro t ⟨n, rfl⟩
      exact hP n
    · rintro t ⟨n, rfl⟩
      exact ⟨π (n + 1), ⟨n + 1, rfl⟩, hπ n⟩
  · rintro ⟨D, hs, hP, hD⟩
    obtain ⟨π, hπ, hzero, hmem⟩ := exists_path_of_postfixed hD hs
    exact ⟨π, hπ, hzero, fun n ↦ hP _ (hmem n)⟩

/-- The least property that holds where `Q` does, and where `P` does with a
successor that has it. -/
inductive Reaches (R : σ → σ → Prop) (P Q : σ → Prop) : σ → Prop
  | here {s : σ} (h : Q s) : Reaches R P Q s
  | later {s t : σ} (h : P s) (hstep : R s t) (hlater : Reaches R P Q t) : Reaches R P Q s

/-- A domain that the relation does not leave and in which it never gets stuck. -/
structure TotalOn (R : σ → σ → Prop) (D : Set σ) : Prop where
  closed : ∀ s ∈ D, ∀ t, R s t → t ∈ D
  serial : ∀ s ∈ D, ∃ t, R s t

theorem TotalOn.exists_path {D : Set σ} (h : TotalOn R D) {s : σ} (hs : s ∈ D) :
    ∃ π, IsPath R π ∧ π 0 = s ∧ ∀ n, π n ∈ D := by
  refine exists_path_of_postfixed (fun t ht ↦ ?_) hs
  obtain ⟨u, hu⟩ := h.serial t ht
  exact ⟨u, h.closed t ht u hu, hu⟩

theorem reaches_of_path {P Q : σ → Prop} {π : ℕ → σ} (hπ : IsPath R π) {n : ℕ} (hQ : Q (π n))
    (hP : ∀ m < n, P (π m)) : Reaches R P Q (π 0) := by
  induction n generalizing π with
  | zero => exact .here hQ
  | succ n ih =>
      refine .later (hP 0 (Nat.succ_pos n)) (hπ 0) ?_
      have htail := @ih (suffix π 1) (hπ.suffix 1)
      simp only [suffix_apply, Nat.add_comm 1] at htail
      exact htail hQ fun m hm ↦ hP (m + 1) (Nat.succ_lt_succ hm)

/-- `E[_ U _]` as a least fixed point. -/
theorem exPath_until_iff {D : Set σ} (hD : TotalOn R D) {P Q : σ → Prop} {s : σ} (hs : s ∈ D) :
    exPath R (until_ (now P) (now Q)) s ↔ Reaches R P Q s := by
  constructor
  · rintro ⟨π, hπ, rfl, n, hQ, hP⟩
    exact reaches_of_path hπ hQ hP
  · intro h
    induction h with
    | here hQ =>
        obtain ⟨π, hπ, rfl, -⟩ := hD.exists_path hs
        exact ⟨π, hπ, rfl, 0, hQ, nofun⟩
    | @later s t hP hstep _ ih =>
        obtain ⟨π, hπ, rfl, n, hQ, hbefore⟩ := ih (hD.closed _ hs _ hstep)
        refine ⟨consPath s π, isPath_consPath hstep hπ, rfl, n + 1, ?_, fun m hm ↦ ?_⟩
        · rw [suffix_consPath_succ]
          exact hQ
        · cases m with
          | zero => exact hP
          | succ m =>
              rw [suffix_consPath_succ]
              exact hbefore m (Nat.lt_of_succ_lt_succ hm)

/-- `EX` looks at one successor. -/
theorem exPath_next_iff {D : Set σ} (hD : TotalOn R D) {P : σ → Prop} {s : σ} (hs : s ∈ D) :
    exPath R (next (now P)) s ↔ ∃ t, R s t ∧ P t := by
  constructor
  · rintro ⟨π, hπ, rfl, hP⟩
    exact ⟨π 1, hπ 0, hP⟩
  · rintro ⟨t, hstep, hP⟩
    obtain ⟨π, hπ, rfl, -⟩ := hD.exists_path (hD.closed s hs t hstep)
    exact ⟨consPath s π, isPath_consPath hstep hπ, rfl, hP⟩

/-- `AX` looks at all successors. -/
theorem allPaths_next_iff {D : Set σ} (hD : TotalOn R D) {P : σ → Prop} {s : σ} (hs : s ∈ D) :
    allPaths R (next (now P)) s ↔ ∀ t, R s t → P t := by
  constructor
  · intro h t hstep
    obtain ⟨π, hπ, rfl, -⟩ := hD.exists_path (hD.closed s hs t hstep)
    exact h (consPath s π) (isPath_consPath hstep hπ) rfl
  · rintro h π hπ rfl
    exact h _ (hπ 0)

/-! ## Dualities -/

theorem allPaths_eventually_iff {P : σ → Prop} {s : σ} :
    allPaths R (eventually (now P)) s ↔ ¬ exPath R (globally (now fun t ↦ ¬ P t)) s := by
  rw [allPaths_iff_not_exPath_not]
  simp [exPath, eventually, globally, now]

theorem allPaths_globally_iff {P : σ → Prop} {s : σ} :
    allPaths R (globally (now P)) s ↔ ¬ exPath R (eventually (now fun t ↦ ¬ P t)) s := by
  rw [allPaths_iff_not_exPath_not]
  simp [exPath, eventually, globally, now]

theorem allPaths_until_iff {P Q : σ → Prop} {s : σ} :
    allPaths R (until_ (now P) (now Q)) s ↔
      ¬ exPath R (until_ (now fun t ↦ ¬ Q t) (now fun t ↦ ¬ P t ∧ ¬ Q t)) s ∧
        ¬ exPath R (globally (now fun t ↦ ¬ Q t)) s := by
  rw [allPaths_congr (until_iff (now P) (now Q))]
  constructor
  · intro h
    refine ⟨?_, ?_⟩
    · rintro ⟨π, hπ, hzero, hrelease⟩
      exact (h π hπ hzero).1 hrelease
    · rintro ⟨π, hπ, hzero, hnever⟩
      exact (h π hπ hzero).2 hnever
  · rintro ⟨hrelease, hnever⟩ π hπ hzero
    exact ⟨fun h ↦ hrelease ⟨π, hπ, hzero, h⟩, fun h ↦ hnever ⟨π, hπ, hzero, h⟩⟩

/-! ## Splicing -/

/-- The first `n` states of `π`, then `ρ`. -/
def splice (π : ℕ → σ) (n : ℕ) (ρ : ℕ → σ) : ℕ → σ := fun k ↦ if k < n then π k else ρ (k - n)

@[simp] theorem suffix_splice (π : ℕ → σ) (n : ℕ) (ρ : ℕ → σ) : suffix (splice π n ρ) n = ρ := by
  funext k
  simp [splice]

theorem splice_zero_apply {π ρ : ℕ → σ} {n : ℕ} (h : ρ 0 = π n) : splice π n ρ 0 = π 0 := by
  cases n with
  | zero => exact h
  | succ n => simp [splice]

theorem isPath_splice {π ρ : ℕ → σ} {n : ℕ} (hπ : IsPath R π) (hρ : IsPath R ρ)
    (h : ρ 0 = π n) : IsPath R (splice π n ρ) := by
  intro k
  unfold splice
  rcases Nat.lt_trichotomy (k + 1) n with hlt | heq | hgt
  · rw [if_pos (by omega), if_pos hlt]
    exact hπ k
  · rw [if_pos (by omega), if_neg (by omega), heq, Nat.sub_self, h, ← heq]
    exact hπ k
  · rw [if_neg (by omega), if_neg (by omega), Nat.sub_add_comm (by omega)]
    exact hρ (k - n)

/-- On all paths it is enough to look at all continuations from every position. -/
theorem allPaths_globally_allPaths {φ : (ℕ → σ) → Prop} {s : σ} :
    allPaths R (globally (now (allPaths R φ))) s ↔ allPaths R (globally φ) s := by
  constructor
  · intro h π hπ hzero n
    exact h π hπ hzero n (suffix π n) (hπ.suffix n) rfl
  · rintro h π hπ rfl n ρ hρ hstart
    have hat := h (splice π n ρ) (isPath_splice hπ hρ hstart) (splice_zero_apply hstart) n
    rwa [suffix_splice] at hat

end TestIntelligence.Temporal
