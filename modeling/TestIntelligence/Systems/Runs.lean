import Mathlib.Data.List.Basic
import Mathlib.Tactic.Common

/-!
# Runs of a state machine

A machine is a step function on states.  A run performs a finite list of
actions.  Two rules carry properties from one step to every state of a run:
an invariant that every step keeps, and a property that holds along the whole
run exactly when each step meets a side condition at the state where it starts.
-/

namespace TestIntelligence.Systems

variable {σ α : Type*} (step : σ → α → σ)

/-- The state after the listed actions. -/
def run (s : σ) (actions : List α) : σ := actions.foldl step s

@[simp] theorem run_nil (s : σ) : run step s [] = s := rfl

@[simp] theorem run_cons (s : σ) (a : α) (actions : List α) :
    run step s (a :: actions) = run step (step s a) actions := rfl

theorem run_append (s : σ) (before after : List α) :
    run step s (before ++ after) = run step (run step s before) after :=
  List.foldl_append ..

/-- Every state of the run, the first and the last one included. -/
def Always (P : σ → Prop) (s : σ) (actions : List α) : Prop :=
  ∀ done, done <+: actions → P (run step s done)

/-- Every action of the run meets `ok` at the state where it is performed. -/
def MeetsAlong (ok : σ → α → Prop) : σ → List α → Prop
  | _, [] => True
  | s, a :: actions => ok s a ∧ MeetsAlong ok (step s a) actions

variable {step}

theorem always_nil {P : σ → Prop} {s : σ} : Always step P s [] ↔ P s := by
  simp [Always]

theorem always_cons {P : σ → Prop} {s : σ} {a : α} {actions : List α} :
    Always step P s (a :: actions) ↔ P s ∧ Always step P (step s a) actions := by
  constructor
  · intro h
    refine ⟨h [] (List.nil_prefix), fun done hdone ↦ ?_⟩
    exact h (a :: done) ((List.cons_prefix_cons).mpr ⟨rfl, hdone⟩)
  · rintro ⟨hs, h⟩ done hdone
    cases done with
    | nil => exact hs
    | cons b done =>
        obtain ⟨rfl, htail⟩ := List.cons_prefix_cons.mp hdone
        exact h done htail

/-- The invariant rule. -/
theorem run_induction {Inv : σ → Prop} {ok : α → Prop}
    (hstep : ∀ s a, ok a → Inv s → Inv (step s a)) {s : σ} (hs : Inv s) {actions : List α}
    (hok : ∀ a ∈ actions, ok a) : Inv (run step s actions) := by
  induction actions generalizing s with
  | nil => exact hs
  | cons a actions ih =>
      refine ih (hstep s a (hok a List.mem_cons_self) hs) ?_
      exact fun b hb ↦ hok b (List.mem_cons_of_mem a hb)

/-- A property that one step keeps exactly when it meets `ok` holds along a run
exactly when all its steps do; `Inv` may be used at each of them. -/
theorem always_iff_meetsAlong {Inv P : σ → Prop} {ok : σ → α → Prop} {legal : α → Prop}
    (hInv : ∀ s a, legal a → Inv s → Inv (step s a))
    (hP : ∀ s a, legal a → Inv s → P s → (P (step s a) ↔ ok s a)) {s : σ} (hs : Inv s)
    (hPs : P s) {actions : List α} (hlegal : ∀ a ∈ actions, legal a) :
    Always step P s actions ↔ MeetsAlong step ok s actions := by
  induction actions generalizing s with
  | nil => simpa [always_nil, MeetsAlong] using hPs
  | cons a actions ih =>
      have ha := hlegal a List.mem_cons_self
      have htail : ∀ b ∈ actions, legal b := fun b hb ↦ hlegal b (List.mem_cons_of_mem a hb)
      rw [always_cons, MeetsAlong, ← hP s a ha hs hPs]
      constructor
      · rintro ⟨-, h⟩
        have hnext : P (step s a) := h [] (List.nil_prefix)
        exact ⟨hnext, (ih (hInv s a ha hs) hnext htail).mp h⟩
      · rintro ⟨hnext, h⟩
        exact ⟨hPs, (ih (hInv s a ha hs) hnext htail).mpr h⟩

instance decidableMeetsAlong (step : σ → α → σ) (ok : σ → α → Prop)
    [∀ s a, Decidable (ok s a)] : ∀ s actions, Decidable (MeetsAlong step ok s actions)
  | _, [] => .isTrue trivial
  | s, a :: actions =>
      have := decidableMeetsAlong step ok (step s a) actions
      inferInstanceAs (Decidable (_ ∧ _))

/-- The invariant rule for the runs that meet a side condition. -/
theorem always_of_meetsAlong {Inv : σ → Prop} {ok : σ → α → Prop} {legal : α → Prop}
    (hstep : ∀ s a, legal a → ok s a → Inv s → Inv (step s a)) {s : σ} (hs : Inv s)
    {actions : List α} (hlegal : ∀ a ∈ actions, legal a) (hmeets : MeetsAlong step ok s actions) :
    Always step Inv s actions := by
  induction actions generalizing s with
  | nil => exact always_nil.mpr hs
  | cons a actions ih =>
      have hnext := hstep s a (hlegal a List.mem_cons_self) hmeets.1 hs
      have htail : ∀ b ∈ actions, legal b := fun b hb ↦ hlegal b (List.mem_cons_of_mem a hb)
      exact always_cons.mpr ⟨hs, ih hnext htail hmeets.2⟩

theorem MeetsAlong.and {ok ok' : σ → α → Prop} {s : σ} {actions : List α}
    (h : MeetsAlong step ok s actions) (h' : MeetsAlong step ok' s actions) :
    MeetsAlong step (fun s a ↦ ok s a ∧ ok' s a) s actions := by
  induction actions generalizing s with
  | nil => trivial
  | cons a actions ih => exact ⟨⟨h.1, h'.1⟩, ih h.2 h'.2⟩

theorem MeetsAlong.mono {ok ok' : σ → α → Prop} (himp : ∀ s a, ok s a → ok' s a) {s : σ}
    {actions : List α} (h : MeetsAlong step ok s actions) : MeetsAlong step ok' s actions := by
  induction actions generalizing s with
  | nil => trivial
  | cons a actions ih => exact ⟨himp s a h.1, ih h.2⟩

theorem meetsAlong_append {ok : σ → α → Prop} {s : σ} {before after : List α} :
    MeetsAlong step ok s (before ++ after) ↔
      MeetsAlong step ok s before ∧ MeetsAlong step ok (run step s before) after := by
  induction before generalizing s with
  | nil => simp [MeetsAlong]
  | cons a before ih => simp [MeetsAlong, ih, and_assoc]

theorem MeetsAlong.at_append {ok : σ → α → Prop} {s : σ} {before after : List α} {a : α}
    (h : MeetsAlong step ok s (before ++ a :: after)) : ok (run step s before) a := by
  induction before generalizing s with
  | nil => exact h.1
  | cons b before ih => exact ih h.2

/-! ## Guarded steps -/

/-- The state after the listed actions, each of which must be enabled. -/
def guardedRun (next : σ → α → Option σ) : σ → List α → Option σ
  | s, [] => some s
  | s, a :: actions => (next s a).bind fun s' ↦ guardedRun next s' actions

/-- The invariant rule for guarded steps: it holds after every enabled sequence
of actions, in whatever order they come. -/
theorem guardedRun_induction {next : σ → α → Option σ} {Inv : σ → Prop}
    (hstep : ∀ s a s', next s a = some s' → Inv s → Inv s') {s s' : σ} {actions : List α}
    (h : guardedRun next s actions = some s') (hs : Inv s) : Inv s' := by
  induction actions generalizing s with
  | nil =>
      obtain rfl := Option.some.inj h
      exact hs
  | cons a actions ih =>
      obtain ⟨mid, hmid, hrest⟩ := Option.bind_eq_some_iff.mp h
      exact ih hrest (hstep s a mid hmid hs)

/-- Every action of a guarded run meets `ok` at the state where it is performed. -/
def GuardedMeets (next : σ → α → Option σ) (ok : σ → α → Prop) : σ → List α → Prop
  | _, [] => True
  | s, a :: actions => ok s a ∧ ∀ s', next s a = some s' → GuardedMeets next ok s' actions

instance decidableGuardedMeets (next : σ → α → Option σ) (ok : σ → α → Prop)
    [∀ s a, Decidable (ok s a)] : ∀ s actions, Decidable (GuardedMeets next ok s actions)
  | _, [] => .isTrue trivial
  | s, a :: actions =>
      have : Decidable (∀ s', next s a = some s' → GuardedMeets next ok s' actions) :=
        match next s a with
        | none => .isTrue nofun
        | some mid =>
            match decidableGuardedMeets next ok mid actions with
            | .isTrue h => .isTrue fun _ hmid ↦ Option.some.inj hmid ▸ h
            | .isFalse h => .isFalse fun hall ↦ h (hall mid rfl)
      inferInstanceAs (Decidable (_ ∧ _))

/-- The invariant rule for the guarded runs that meet a side condition. -/
theorem guardedRun_induction_of_meets {next : σ → α → Option σ} {Inv : σ → Prop}
    {ok : σ → α → Prop} (hstep : ∀ s a s', ok s a → next s a = some s' → Inv s → Inv s')
    {s s' : σ} {actions : List α} (h : guardedRun next s actions = some s')
    (hmeets : GuardedMeets next ok s actions) (hs : Inv s) : Inv s' := by
  induction actions generalizing s with
  | nil =>
      obtain rfl := Option.some.inj h
      exact hs
  | cons a actions ih =>
      obtain ⟨mid, hmid, hrest⟩ := Option.bind_eq_some_iff.mp h
      exact ih hrest (hmeets.2 mid hmid) (hstep s a mid hmeets.1 hmid hs)

/-- Where an invariant enables every action, every sequence of actions is a run. -/
theorem guardedRun_total {next : σ → α → Option σ} {Inv : σ → Prop}
    (hstep : ∀ s a, Inv s → ∃ s', next s a = some s' ∧ Inv s') {s : σ} (hs : Inv s)
    (actions : List α) : ∃ s', guardedRun next s actions = some s' ∧ Inv s' := by
  induction actions generalizing s with
  | nil => exact ⟨s, rfl, hs⟩
  | cons a actions ih =>
      obtain ⟨mid, hmid, hInv⟩ := hstep s a hs
      obtain ⟨s', hrun, hs'⟩ := ih hInv
      refine ⟨s', ?_, hs'⟩
      rw [guardedRun, hmid]
      exact hrun

end TestIntelligence.Systems
