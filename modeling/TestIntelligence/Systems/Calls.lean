import Mathlib.Data.List.Basic

/-!
# Calls that may throw

A call acts on the state of the party behind it, and throws or returns.  Calls follow one
another as in the standard error monad over a state; a call may also be logged.
-/

namespace TestIntelligence.Systems

abbrev Call (ε σ : Type) := ExceptT ε (StateM σ)

namespace Call

variable {ε σ η α β : Type}

def exec (x : Call ε σ α) (s : σ) : Except ε α × σ := x.run.run s

def of (f : σ → Except ε α × σ) : Call ε σ α := ExceptT.mk (fun s ↦ f s)

@[simp] theorem exec_of (f : σ → Except ε α × σ) (s : σ) : (of f).exec s = f s := rfl

@[simp] theorem exec_pure (a : α) (s : σ) : (pure a : Call ε σ α).exec s = (.ok a, s) := rfl

@[simp] theorem exec_throw (e : ε) (s : σ) : (throw e : Call ε σ α).exec s = (.error e, s) := rfl

theorem exec_bind_of_ok {x : Call ε σ α} {f : α → Call ε σ β} {s s' : σ} {a : α}
    (h : x.exec s = (.ok a, s')) : (x >>= f).exec s = (f a).exec s' := by
  change (StateT.bind (x : StateM σ (Except ε α)) (ExceptT.bindCont f)) s = _
  change x s = _ at h
  simp only [StateT.bind, h]
  rfl

theorem exec_bind_of_error {x : Call ε σ α} {f : α → Call ε σ β} {s s' : σ} {e : ε}
    (h : x.exec s = (.error e, s')) : (x >>= f).exec s = (.error e, s') := by
  change (StateT.bind (x : StateM σ (Except ε α)) (ExceptT.bindCont f)) s = _
  change x s = _ at h
  simp only [StateT.bind, h]
  rfl

theorem exec_bind_eq_ok {x : Call ε σ α} {f : α → Call ε σ β} {s s' : σ} {b : β} :
    (x >>= f).exec s = (.ok b, s') ↔
      ∃ a t, x.exec s = (.ok a, t) ∧ (f a).exec t = (.ok b, s') := by
  rcases hexec : x.exec s with ⟨result, t⟩
  cases result with
  | error e => simp [exec_bind_of_error hexec]
  | ok a => simp [exec_bind_of_ok hexec]

theorem exec_mapM_cons_eq_ok {f : α → Call ε σ β} {a : α} {as : List α} {bs : List β} {s s' : σ} :
    ((a :: as).mapM f).exec s = (.ok bs, s') ↔
      ∃ b bs' t, (f a).exec s = (.ok b, t) ∧ (as.mapM f).exec t = (.ok bs', s') ∧
        b :: bs' = bs := by
  rw [List.mapM_cons]
  constructor
  · intro h
    obtain ⟨b, t, hb, h⟩ := exec_bind_eq_ok.mp h
    obtain ⟨bs', t', hbs, h⟩ := exec_bind_eq_ok.mp h
    obtain ⟨hcons, rfl⟩ := Prod.mk.inj h
    exact ⟨b, bs', t, hb, hbs, Except.ok.inj hcons⟩
  · rintro ⟨b, bs', t, hb, hbs, rfl⟩
    exact exec_bind_eq_ok.mpr ⟨b, t, hb, exec_bind_eq_ok.mpr ⟨bs', s', hbs, rfl⟩⟩

/-- A call that cannot throw any more, with what it threw. -/
def attempt (x : Call ε σ α) : Call ε σ (Except ε α) := of fun s ↦ (.ok (x.exec s).1, (x.exec s).2)

@[simp] theorem exec_attempt (x : Call ε σ α) (s : σ) :
    x.attempt.exec s = (.ok (x.exec s).1, (x.exec s).2) := rfl

def Returns (x : Call ε σ α) (s : σ) : Prop := ∃ a s', x.exec s = (.ok a, s')

theorem returns_bind_iff {x : Call ε σ α} {f : α → Call ε σ β} {s : σ} :
    (x >>= f).Returns s ↔ ∃ a t, x.exec s = (.ok a, t) ∧ (f a).Returns t := by
  constructor
  · rintro ⟨b, s', h⟩
    obtain ⟨a, t, ha, hb⟩ := exec_bind_eq_ok.mp h
    exact ⟨a, t, ha, b, s', hb⟩
  · rintro ⟨a, t, ha, b, s', hb⟩
    exact ⟨b, s', exec_bind_eq_ok.mpr ⟨a, t, ha, hb⟩⟩

@[simp] theorem returns_pure (a : α) (s : σ) : (pure a : Call ε σ α).Returns s := ⟨a, s, rfl⟩

@[simp] theorem not_returns_throw (e : ε) (s : σ) : ¬ (throw e : Call ε σ α).Returns s :=
  fun ⟨_, _, h⟩ ↦ absurd (congrArg Prod.fst h) (by simp)

/-! ## Calls over a list -/

/-- The calls return one after another. -/
def AllReturn (f : α → Call ε σ β) : List α → σ → Prop
  | [], _ => True
  | a :: as, s => (f a).Returns s ∧ AllReturn f as ((f a).exec s).2

theorem returns_mapM_iff {f : α → Call ε σ β} {as : List α} {s : σ} :
    (as.mapM f).Returns s ↔ AllReturn f as s := by
  induction as generalizing s with
  | nil => simp [AllReturn, List.mapM_nil]
  | cons a as ih =>
      rw [AllReturn]
      constructor
      · rintro ⟨bs, s', h⟩
        obtain ⟨b, bs', t, hb, hbs, -⟩ := exec_mapM_cons_eq_ok.mp h
        refine ⟨⟨b, t, hb⟩, ?_⟩
        rw [hb]
        exact ih.mp ⟨bs', s', hbs⟩
      · rintro ⟨⟨b, t, hb⟩, hrest⟩
        rw [hb] at hrest
        obtain ⟨bs', s', hbs⟩ := ih.mpr hrest
        exact ⟨b :: bs', s', exec_mapM_cons_eq_ok.mpr ⟨b, bs', t, hb, hbs, rfl⟩⟩

/-- What the calls return, one for each value. -/
theorem forall₂_of_exec_mapM {f : α → Call ε σ β} {as : List α} {bs : List β} {s s' : σ}
    (h : (as.mapM f).exec s = (.ok bs, s')) :
    List.Forall₂ (fun a b ↦ ∃ t t', (f a).exec t = (.ok b, t')) as bs := by
  induction as generalizing s bs with
  | nil =>
      rw [List.mapM_nil, exec_pure] at h
      obtain ⟨hbs, -⟩ := Prod.mk.inj h
      rw [← Except.ok.inj hbs]
      exact .nil
  | cons a as ih =>
      obtain ⟨b, bs', t, hb, hbs, rfl⟩ := exec_mapM_cons_eq_ok.mp h
      exact .cons ⟨s, t, hb⟩ (ih hbs)

/-! ## Logged calls -/

/-- The log grows by what the call returned. -/
def logging (event : α → η) (x : Call ε σ α) : Call ε (σ × List η) α :=
  of fun s ↦
    match x.exec s.1 with
    | (.ok a, s') => (.ok a, s', s.2 ++ [event a])
    | (.error e, s') => (.error e, s', s.2)

/-- The log grows whether the call returns or throws. -/
def announcing (event : η) (x : Call ε σ α) : Call ε (σ × List η) α :=
  of fun s ↦ ((x.exec s.1).1, (x.exec s.1).2, s.2 ++ [event])

/-- Nothing is logged. -/
def silent (η : Type) (x : Call ε σ α) : Call ε (σ × List η) α :=
  of fun s ↦ ((x.exec s.1).1, (x.exec s.1).2, s.2)

theorem exec_logging_eq_ok {event : α → η} {x : Call ε σ α} {s : σ} {log : List η} {a : α}
    {t : σ × List η} :
    (x.logging event).exec (s, log) = (.ok a, t) ↔
      x.exec s = (.ok a, t.1) ∧ t.2 = log ++ [event a] := by
  simp only [logging, exec_of]
  rcases x.exec s with ⟨result, s'⟩
  cases result with
  | error e => simp
  | ok b =>
      constructor
      · intro h
        obtain ⟨hb, rfl⟩ := Prod.mk.inj h
        exact ⟨by rw [hb], by rw [Except.ok.inj hb]⟩
      · rintro ⟨h, hlog⟩
        obtain ⟨hb, hs⟩ := Prod.mk.inj h
        rw [hb, hs]
        exact Prod.ext rfl (Prod.ext rfl hlog.symm)

theorem log_of_exec_logging_error {event : α → η} {x : Call ε σ α} {s : σ} {log : List η} {e : ε}
    (h : ((x.logging event).exec (s, log)).1 = .error e) :
    ((x.logging event).exec (s, log)).2.2 = log := by
  simp only [logging, exec_of] at h ⊢
  rcases hexec : x.exec s with ⟨result, s'⟩
  rw [hexec] at h
  cases result with
  | error e => rfl
  | ok a => cases h

@[simp] theorem exec_silent (x : Call ε σ α) (s : σ) (log : List η) :
    (x.silent η).exec (s, log) = ((x.exec s).1, (x.exec s).2, log) := rfl

/-- Calls that all return are all in the log. -/
theorem log_of_exec_mapM_logging {event : β → η} {f : α → Call ε σ β} {as : List α}
    {bs : List β} {s : σ} {log : List η} {t : σ × List η}
    (h : (as.mapM fun a ↦ (f a).logging event).exec (s, log) = (.ok bs, t)) :
    t.2 = log ++ bs.map event := by
  induction as generalizing s bs log with
  | nil =>
      rw [List.mapM_nil, exec_pure] at h
      obtain ⟨hbs, rfl⟩ := Prod.mk.inj h
      simp [← Except.ok.inj hbs]
  | cons a as ih =>
      obtain ⟨b, bs', t', hb, hbs, rfl⟩ := exec_mapM_cons_eq_ok.mp h
      obtain ⟨-, hlog⟩ := exec_logging_eq_ok.mp hb
      have htail : t.2 = t'.2 ++ bs'.map event := ih hbs
      rw [htail, hlog]
      simp

theorem log_of_exec_mapM_silent {f : α → Call ε σ β} {as : List α} {bs : List β} {s : σ}
    {log : List η} {t : σ × List η}
    (h : (as.mapM fun a ↦ (f a).silent η).exec (s, log) = (.ok bs, t)) : t.2 = log := by
  induction as generalizing s bs with
  | nil =>
      rw [List.mapM_nil, exec_pure] at h
      rw [← (Prod.mk.inj h).2]
  | cons a as ih =>
      obtain ⟨b, bs', t', hb, hbs, rfl⟩ := exec_mapM_cons_eq_ok.mp h
      rw [exec_silent] at hb
      obtain ⟨-, rfl⟩ := Prod.mk.inj hb
      exact ih hbs

/-! ## What a log does not change -/

/-- The call does the same, whatever the log says. -/
def Shadows (x' : Call ε (σ × List η) α) (x : Call ε σ α) : Prop :=
  ∀ s log, (x'.exec (s, log)).1 = (x.exec s).1 ∧ (x'.exec (s, log)).2.1 = (x.exec s).2

theorem shadows_logging (event : α → η) (x : Call ε σ α) : (x.logging event).Shadows x := by
  intro s log
  simp only [logging, exec_of]
  rcases x.exec s with ⟨result, s'⟩
  cases result with
  | ok a => exact ⟨rfl, rfl⟩
  | error e => exact ⟨rfl, rfl⟩

theorem shadows_announcing (event : η) (x : Call ε σ α) : (x.announcing event).Shadows x :=
  fun _ _ ↦ ⟨rfl, rfl⟩

theorem shadows_silent (x : Call ε σ α) : (x.silent η).Shadows x := fun _ _ ↦ ⟨rfl, rfl⟩

theorem shadows_pure (a : α) : (pure a : Call ε (σ × List η) α).Shadows (pure a) :=
  fun _ _ ↦ ⟨rfl, rfl⟩

theorem shadows_throw (e : ε) : (throw e : Call ε (σ × List η) α).Shadows (throw e) :=
  fun _ _ ↦ ⟨rfl, rfl⟩

theorem Shadows.attempt {x' : Call ε (σ × List η) α} {x : Call ε σ α} (h : x'.Shadows x) :
    x'.attempt.Shadows x.attempt := by
  intro s log
  simp only [exec_attempt]
  exact ⟨by rw [(h s log).1], (h s log).2⟩

theorem Shadows.bind {x' : Call ε (σ × List η) α} {x : Call ε σ α} (h : x'.Shadows x)
    {f' : α → Call ε (σ × List η) β} {f : α → Call ε σ β} (hf : ∀ a, (f' a).Shadows (f a)) :
    (x' >>= f').Shadows (x >>= f) := by
  intro s log
  obtain ⟨hresult, hstate⟩ := h s log
  rcases hexec : x.exec s with ⟨result, t⟩
  rcases hexec' : x'.exec (s, log) with ⟨result', t', log'⟩
  rw [hexec, hexec'] at hresult hstate
  obtain rfl : result' = result := hresult
  obtain rfl : t' = t := hstate
  cases result' with
  | error e =>
      rw [exec_bind_of_error hexec, exec_bind_of_error hexec']
      exact ⟨rfl, rfl⟩
  | ok a =>
      rw [exec_bind_of_ok hexec, exec_bind_of_ok hexec']
      exact hf a t' log'

theorem Shadows.mapM {f' : α → Call ε (σ × List η) β} {f : α → Call ε σ β}
    (hf : ∀ a, (f' a).Shadows (f a)) (as : List α) : (as.mapM f').Shadows (as.mapM f) := by
  induction as with
  | nil => exact shadows_pure []
  | cons a as ih =>
      rw [List.mapM_cons, List.mapM_cons]
      exact (hf a).bind fun b ↦ ih.bind fun bs ↦ shadows_pure (b :: bs)

theorem Shadows.returns_iff {x' : Call ε (σ × List η) α} {x : Call ε σ α} (h : x'.Shadows x)
    (s : σ) (log : List η) : x'.Returns (s, log) ↔ x.Returns s := by
  have hresult := (h s log).1
  constructor
  · rintro ⟨a, t, hexec⟩
    rw [hexec] at hresult
    exact ⟨a, (x.exec s).2, Prod.ext hresult.symm rfl⟩
  · rintro ⟨a, t, hexec⟩
    rw [hexec] at hresult
    exact ⟨a, (x'.exec (s, log)).2, Prod.ext hresult rfl⟩

end Call

end TestIntelligence.Systems
