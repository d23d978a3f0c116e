import TestIntelligence.Systems.Runs
import Mathlib.Data.List.Nodup

/-!
# Read, modify and write without a lock

Calls that read a cell, compute its next value and replace it some steps later.  A call
that reads while another one is about to write works on a value that is out of date.
As long as no call does, the cells are those of the same calls one after the other, in
the order in which they land.
-/

namespace TestIntelligence.Systems.ReadModifyWrite

/-- Where a call stands, named by the operation that comes next; a call that is about to
write, and one that has landed, keeps the value that it read. -/
inductive Phase (σ : Type*)
  | check
  | read
  | write (seen value : σ)
  | rename (seen value : σ)
  | refused
  | returned (seen : σ)

structure Store (ι κ σ : Type*) where
  cells : κ → σ
  phase : ι → Phase σ
  landed : List ι

/-- A call may begin with a check; it has nothing to write where `update` is `none`. -/
structure Calls (ι κ σ : Type*) where
  cell : ι → κ
  check : ι → Option Bool
  update : ι → σ → Option σ

def Phase.isWriting {σ : Type*} : Phase σ → Bool
  | .write _ _ => true
  | .rename _ _ => true
  | _ => false

variable {ι κ σ : Type*} [DecidableEq ι] [DecidableEq κ]

def Store.enter (s : Store ι κ σ) (i : ι) (phase : Phase σ) : Store ι κ σ :=
  { s with phase := Function.update s.phase i phase }

/-- The call takes effect. -/
def Store.land (s : Store ι κ σ) (i : ι) (seen : σ) : Store ι κ σ :=
  { s.enter i (.returned seen) with landed := s.landed ++ [i] }

section

variable (calls : Calls ι κ σ)

def step (s : Store ι κ σ) (i : ι) : Store ι κ σ :=
  match s.phase i with
  | .check => s.enter i (if (calls.check i).getD true then .read else .refused)
  | .read =>
      match calls.update i (s.cells (calls.cell i)) with
      | none => s.land i (s.cells (calls.cell i))
      | some value => s.enter i (.write (s.cells (calls.cell i)) value)
  | .write seen value => s.enter i (.rename seen value)
  | .rename seen value =>
      { s.land i seen with cells := Function.update s.cells (calls.cell i) value }
  | .refused => s
  | .returned _ => s

omit [DecidableEq ι] [DecidableEq κ] in
def Store.begin (cells : κ → σ) : Store ι κ σ where
  cells := cells
  phase := fun i ↦ if (calls.check i).isSome then .check else .read
  landed := []

/-! ## One call after the other -/

def apply (value : σ) (i : ι) : σ := (calls.update i value).getD value

/-- The value of a cell after the listed calls, each run to its end before the next. -/
def serial (cells : κ → σ) (k : κ) (order : List ι) : σ :=
  (order.filter (calls.cell · = k)).foldl (apply calls) (cells k)

/-- The call reads its cell only while no other call is about to write it, and the value
that it reads fits. -/
def ReadsAlone (fits : ι → σ → Prop) (s : Store ι κ σ) (i : ι) : Prop :=
  s.phase i = .read → fits i (s.cells (calls.cell i)) ∧
    ∀ j, j ≠ i → calls.cell j = calls.cell i → (s.phase j).isWriting = false

end

variable {calls : Calls ι κ σ} {cells : κ → σ} {fits : ι → σ → Prop}

omit [DecidableEq ι] in
theorem serial_append (k : κ) (order : List ι) (i : ι) :
    serial calls cells k (order ++ [i]) =
      if calls.cell i = k then apply calls (serial calls cells k order) i
      else serial calls cells k order := by
  rw [serial, List.filter_append, List.foldl_append, ← serial]
  split
  · next h => simp [h]
  · next h => simp [h]

/-- The cells are serial, and each call that landed read what the calls before it left. -/
structure Inv (calls : Calls ι κ σ) (cells : κ → σ) (fits : ι → σ → Prop) (s : Store ι κ σ) :
    Prop where
  serial : ∀ k, s.cells k = serial calls cells k s.landed
  writing : ∀ i seen value, s.phase i = .write seen value ∨ s.phase i = .rename seen value →
    seen = s.cells (calls.cell i) ∧ calls.update i seen = some value ∧ fits i seen
  alone : ∀ i j, calls.cell j = calls.cell i → (s.phase i).isWriting = true →
    (s.phase j).isWriting = true → j = i
  landed : ∀ before i after, s.landed = before ++ i :: after →
    s.phase i = .returned (ReadModifyWrite.serial calls cells (calls.cell i) before) ∧
      fits i (ReadModifyWrite.serial calls cells (calls.cell i) before)
  returned : ∀ i seen, s.phase i = .returned seen → i ∈ s.landed

omit [DecidableEq ι] in
theorem inv_begin : Inv calls cells fits (.begin calls cells) := by
  have hphase : ∀ i, (Store.begin calls cells).phase i = .check ∨
      (Store.begin calls cells).phase i = .read := by
    intro i
    simp only [Store.begin]
    split
    · exact .inl rfl
    · exact .inr rfl
  refine ⟨fun k ↦ rfl, fun i seen value h ↦ ?_, fun i j _ hi ↦ ?_, fun before i after h ↦ ?_,
    fun i seen h ↦ ?_⟩
  · rcases hphase i with heq | heq <;> simp [heq] at h
  · rcases hphase i with heq | heq <;> simp [heq, Phase.isWriting] at hi
  · simp [Store.begin] at h
  · rcases hphase i with heq | heq <;> simp [heq] at h

variable {s : Store ι κ σ} {i : ι}

omit [DecidableEq κ] in
theorem enter_phase (s : Store ι κ σ) (i j : ι) (phase : Phase σ) :
    (s.enter i phase).phase j = if j = i then phase else s.phase j :=
  Function.update_apply s.phase i phase j

/-- A call that has not landed moves on without a write. -/
theorem Inv.enter (h : Inv calls cells fits s) {phase : Phase σ}
    (hphase : ∀ seen, s.phase i ≠ .returned seen) (hnext : ∀ seen, phase ≠ .returned seen)
    (hwriting : ∀ seen value, phase = .write seen value ∨ phase = .rename seen value →
      seen = s.cells (calls.cell i) ∧ calls.update i seen = some value ∧ fits i seen)
    (halone : phase.isWriting = true →
      ∀ j, j ≠ i → calls.cell j = calls.cell i → (s.phase j).isWriting = false) :
    Inv calls cells fits (s.enter i phase) := by
  refine ⟨h.serial, fun j seen value hj ↦ ?_, fun j k hcell hj hk ↦ ?_, fun before j after hj ↦ ?_,
    fun j seen hj ↦ ?_⟩
  · rw [enter_phase] at hj
    by_cases hji : j = i
    · subst hji
      exact hwriting seen value (by simpa using hj)
    · exact h.writing j seen value (by simpa [hji] using hj)
  · rw [enter_phase] at hj hk
    by_cases hji : j = i
    · subst hji
      by_cases hki : k = j
      · exact hki
      · rw [if_pos rfl] at hj
        rw [if_neg hki, halone hj k hki hcell] at hk
        cases hk
    · rw [if_neg hji] at hj
      by_cases hki : k = i
      · subst hki
        rw [if_pos rfl] at hk
        rw [halone hk j hji hcell.symm] at hj
        cases hj
      · rw [if_neg hki] at hk
        exact h.alone j k hcell hj hk
  · obtain ⟨hreturned, hfits⟩ := h.landed before j after hj
    have hji : j ≠ i := fun heq ↦ hphase _ (heq ▸ hreturned)
    rw [enter_phase, if_neg hji]
    exact ⟨hreturned, hfits⟩
  · rw [enter_phase] at hj
    by_cases hji : j = i
    · rw [if_pos hji] at hj
      exact (hnext seen hj).elim
    · rw [if_neg hji] at hj
      exact h.returned j seen hj

/-- A call lands with the value that it computed from what it read. -/
theorem Inv.land (h : Inv calls cells fits s) (hphase : ∀ seen, s.phase i ≠ .returned seen)
    {value : σ} (hvalue : value = apply calls (s.cells (calls.cell i)) i)
    (hfits : fits i (s.cells (calls.cell i)))
    (halone : ∀ j, j ≠ i → calls.cell j = calls.cell i → (s.phase j).isWriting = false) :
    Inv calls cells fits { s.land i (s.cells (calls.cell i)) with
      cells := Function.update s.cells (calls.cell i) value } := by
  have hphases : ∀ j, (s.land i (s.cells (calls.cell i))).phase j =
      if j = i then .returned (s.cells (calls.cell i)) else s.phase j := fun j ↦ enter_phase s i j _
  have hwriting : ∀ j, ((s.land i (s.cells (calls.cell i))).phase j).isWriting = true →
      j ≠ i ∧ (s.phase j).isWriting = true := by
    intro j hj
    rw [hphases] at hj
    split at hj
    · cases hj
    · next hji => exact ⟨hji, hj⟩
  refine ⟨fun k ↦ ?_, fun j seen value' hj ↦ ?_, fun j k hcell hj hk ↦ ?_,
    fun before j after hj ↦ ?_, fun j seen hj ↦ ?_⟩
  · change Function.update s.cells (calls.cell i) value k =
      ReadModifyWrite.serial calls cells k (s.landed ++ [i])
    rw [serial_append, Function.update_apply]
    by_cases hk : k = calls.cell i
    · rw [if_pos hk, if_pos hk.symm, hvalue, hk, h.serial]
    · rw [if_neg hk, if_neg (Ne.symm hk), h.serial]
  · have hpending : ((s.land i (s.cells (calls.cell i))).phase j).isWriting = true := by
      rcases hj with hj | hj <;> exact congrArg Phase.isWriting hj
    obtain ⟨hji, hwriting⟩ := hwriting j hpending
    have hcell : calls.cell j ≠ calls.cell i := by
      intro heq
      rw [halone j hji heq] at hwriting
      cases hwriting
    have hj' : s.phase j = .write seen value' ∨ s.phase j = .rename seen value' := by
      simpa only [hphases, if_neg hji] using hj
    obtain ⟨hseen, hupdate, hfits⟩ := h.writing j seen value' hj'
    exact ⟨hseen.trans (Function.update_of_ne hcell _ _).symm, hupdate, hfits⟩
  · exact h.alone j k hcell (hwriting j hj).2 (hwriting k hk).2
  · change s.landed ++ [i] = before ++ j :: after at hj
    rcases List.eq_nil_or_concat after with rfl | ⟨after, k, rfl⟩
    · obtain ⟨rfl, heq⟩ := List.append_inj' hj rfl
      obtain rfl := List.singleton_inj.mp heq
      rw [← h.serial]
      refine ⟨?_, hfits⟩
      exact (hphases i).trans (if_pos rfl)
    · rw [List.concat_eq_append, ← List.cons_append, ← List.append_assoc] at hj
      obtain ⟨hlanded, -⟩ := List.append_inj' hj rfl
      obtain ⟨hreturned, hfits⟩ := h.landed before j after hlanded
      have hji : j ≠ i := fun heq ↦ hphase _ (heq ▸ hreturned)
      exact ⟨((hphases j).trans (if_neg hji)).trans hreturned, hfits⟩
  · change j ∈ s.landed ++ [i]
    rw [List.mem_append, List.mem_singleton]
    by_cases hji : j = i
    · exact .inr hji
    · exact .inl (h.returned j seen (((hphases j).trans (if_neg hji)).symm.trans hj))

/-- The invariant is kept by the steps of calls that read alone. -/
theorem Inv.step (h : Inv calls cells fits s) (halone : ReadsAlone calls fits s i) :
    Inv calls cells fits (step calls s i) := by
  rw [ReadModifyWrite.step]
  cases hphase : s.phase i with
  | check =>
      apply h.enter
      · simp [hphase]
      · intro seen
        split <;> simp
      · intro seen value hnext
        split at hnext <;> simp at hnext
      · intro hnext
        split at hnext <;> cases hnext
  | read =>
      obtain ⟨hfits, hothers⟩ := halone hphase
      cases hupdate : calls.update i (s.cells (calls.cell i)) with
      | none =>
          have hsame : s.cells (calls.cell i) = apply calls (s.cells (calls.cell i)) i := by
            rw [apply, hupdate, Option.getD_none]
          have hland := h.land (by simp [hphase]) hsame hfits hothers
          rwa [Function.update_eq_self] at hland
      | some value =>
          apply h.enter
          · simp [hphase]
          · simp
          · intro seen value' hnext
            simp only [Phase.write.injEq, reduceCtorEq, or_false] at hnext
            obtain ⟨rfl, rfl⟩ := hnext
            exact ⟨rfl, hupdate, hfits⟩
          · exact fun _ ↦ hothers
  | write seen value =>
      have hi : (s.phase i).isWriting = true := by rw [hphase]; rfl
      apply h.enter
      · simp [hphase]
      · simp
      · intro seen' value' hnext
        simp only [Phase.rename.injEq, reduceCtorEq, false_or] at hnext
        obtain ⟨rfl, rfl⟩ := hnext
        exact h.writing i seen value (.inl hphase)
      · intro _ j hji hcell
        by_contra hj
        exact hji (h.alone i j hcell hi (by simpa using hj))
  | rename seen value =>
      have hi : (s.phase i).isWriting = true := by rw [hphase]; rfl
      obtain ⟨rfl, hupdate, hfits⟩ := h.writing i seen value (.inr hphase)
      apply h.land (by simp [hphase]) ?_ hfits
      · intro j hji hcell
        by_contra hj
        exact hji (h.alone i j hcell hi (by simpa using hj))
      · rw [apply, hupdate, Option.getD_some]
  | refused => exact h
  | returned seen => exact h

/-- Every state of a run in which the calls read alone is serial. -/
theorem always_inv {actions : List ι}
    (h : MeetsAlong (step calls) (ReadsAlone calls fits) (.begin calls cells) actions) :
    Always (step calls) (Inv calls cells fits) (.begin calls cells) actions := by
  have hlegal : ∀ i ∈ actions, (fun _ : ι ↦ True) i := fun _ _ ↦ trivial
  exact always_of_meetsAlong (fun _ _ _ halone h ↦ h.step halone) inv_begin hlegal h

/-! ## Calls on cells of their own -/

/-- The cell of a call that has not read it yet is as it was. -/
def Untouched (calls : Calls ι κ σ) (cells : κ → σ) (s : Store ι κ σ) : Prop :=
  ∀ i, s.phase i = .check ∨ s.phase i = .read → s.cells (calls.cell i) = cells (calls.cell i)

theorem Untouched.step (hcell : Function.Injective calls.cell) (h : Untouched calls cells s) :
    Untouched calls cells (step calls s i) := by
  have henter : ∀ phase, (phase = .check ∨ phase = .read →
      s.cells (calls.cell i) = cells (calls.cell i)) → Untouched calls cells (s.enter i phase) := by
    intro phase hphase j hj
    rw [enter_phase] at hj
    split at hj
    · next hji => exact hji ▸ hphase hj
    · exact h j hj
  rw [ReadModifyWrite.step]
  cases hphase : s.phase i with
  | check => exact henter _ fun _ ↦ h i (.inl hphase)
  | read =>
      cases calls.update i (s.cells (calls.cell i)) with
      | none => exact henter _ fun _ ↦ h i (.inr hphase)
      | some value => exact henter _ fun _ ↦ h i (.inr hphase)
  | write seen value => exact henter _ fun hnext ↦ by simp at hnext
  | rename seen value =>
      intro j hj
      have hj' : (s.enter i (.returned seen)).phase j = .check ∨
          (s.enter i (.returned seen)).phase j = .read := hj
      have hji : j ≠ i := by
        rintro rfl
        simp [enter_phase] at hj'
      rw [enter_phase, if_neg hji] at hj'
      exact (Function.update_of_ne (hcell.ne hji) _ _).trans (h j hj')
  | refused => exact h
  | returned seen => exact h

/-- Calls that share no cell read alone in every order. -/
theorem meetsAlong_of_injective (hcell : Function.Injective calls.cell)
    (hfits : ∀ i, fits i (cells (calls.cell i))) (actions : List ι) :
    MeetsAlong (step calls) (ReadsAlone calls fits) (.begin calls cells) actions := by
  have hbegin : Untouched calls cells (.begin calls cells) := fun i _ ↦ rfl
  generalize Store.begin calls cells = s at hbegin ⊢
  induction actions generalizing s with
  | nil => trivial
  | cons i actions ih =>
      refine ⟨fun hread ↦ ⟨?_, fun j hji heq ↦ ?_⟩, ih _ (hbegin.step hcell)⟩
      · rw [hbegin i (.inr hread)]
        exact hfits i
      · exact (hji (hcell heq)).elim

/-! ## Two calls that overlap -/

/-- Both calls read before either writes: what the first one wrote is lost. -/
theorem run_overlap {i j : ι} (hij : i ≠ j) (hcell : calls.cell j = calls.cell i)
    (hi : calls.check i = some true) (hj : calls.check j = some true) {value value' : σ}
    (hvalue : calls.update i (cells (calls.cell i)) = some value)
    (hvalue' : calls.update j (cells (calls.cell i)) = some value') :
    let s := run (step calls) (.begin calls cells) [i, j, i, j, i, j, i, j]
    s.cells (calls.cell i) = value' ∧ s.landed = [i, j] ∧
      s.phase i = .returned (cells (calls.cell i)) ∧
      s.phase j = .returned (cells (calls.cell i)) := by
  have hji : j ≠ i := hij.symm
  simp [run, step, Store.begin, Store.enter, Store.land, hi, hj, hij, hji,
    hcell, hvalue, hvalue']

/-- The same for calls that begin with their read. -/
theorem run_overlap_unchecked {i j : ι} (hij : i ≠ j) (hcell : calls.cell j = calls.cell i)
    (hi : calls.check i = none) (hj : calls.check j = none) {value value' : σ}
    (hvalue : calls.update i (cells (calls.cell i)) = some value)
    (hvalue' : calls.update j (cells (calls.cell i)) = some value') :
    let s := run (step calls) (.begin calls cells) [i, j, i, j, i, j]
    s.cells (calls.cell i) = value' ∧ s.landed = [i, j] ∧
      s.phase i = .returned (cells (calls.cell i)) ∧
      s.phase j = .returned (cells (calls.cell i)) := by
  have hji : j ≠ i := hij.symm
  simp [run, step, Store.begin, Store.enter, Store.land, hi, hj, hij, hji, hcell, hvalue,
    hvalue']

/-- A call that begins once the other one has landed reads alone. -/
theorem meetsAlong_apart {i j : ι} (hij : i ≠ j) (hcell : calls.cell j = calls.cell i)
    (hcheck : ∀ k, calls.check k = none) {value value' : σ}
    (hvalue : calls.update i (cells (calls.cell i)) = some value)
    (hvalue' : calls.update j value = some value')
    (hfits : fits i (cells (calls.cell i))) (hfits' : fits j value) :
    MeetsAlong (step calls) (ReadsAlone calls fits) (.begin calls cells) [i, i, i, j, j, j] := by
  have hji : j ≠ i := hij.symm
  refine ⟨fun _ ↦ ⟨hfits, fun k _ _ ↦ ?_⟩, fun h ↦ ?_, fun h ↦ ?_, fun _ ↦ ⟨?_, fun k hk _ ↦ ?_⟩,
    fun h ↦ ?_, fun h ↦ ?_, trivial⟩
  · simp [Store.begin, hcheck, Phase.isWriting]
  · simp [step, Store.begin, Store.enter, hcheck, hvalue] at h
  · simp [step, Store.begin, Store.enter, hcheck, hvalue] at h
  · simpa [step, Store.begin, Store.enter, Store.land, hcheck, hvalue, hcell] using hfits'
  · by_cases hki : k = i
    · simp [step, Store.begin, Store.enter, Store.land, hcheck, hvalue, hki, Phase.isWriting]
    · simp [step, Store.begin, Store.enter, Store.land, hcheck, hvalue, hki, Phase.isWriting]
  · simp [step, Store.begin, Store.enter, Store.land, hcheck, hvalue, hji, hcell, hvalue'] at h
  · simp [step, Store.begin, Store.enter, Store.land, hcheck, hvalue, hji, hcell, hvalue'] at h

end TestIntelligence.Systems.ReadModifyWrite
