import TestIntelligence.Quality.SelfConsistencyVoter

/-!
# What a majority of the samples holds

A vote is settled when one key has a strict majority.  The absent value has a key of its own, and
when that key wins nothing is written: the merged case keeps what its base holds.
-/

namespace TestIntelligence.Quality

open Js Votes

/-! ## Samples -/

/-- What each sample casts on a field. -/
def fieldColumn (samples : List (Option GeneratedTestCase))
    (field : GeneratedTestCase → Option JsString) : List (Option JsString) :=
  samples.map fun sample ↦ sample.bind field

def typeOf (testCase : GeneratedTestCase) : Option JsString := some testCase.type

def techniqueOf (testCase : GeneratedTestCase) : Option JsString := some testCase.technique

def riskCategoryOf (testCase : GeneratedTestCase) : Option JsString := some testCase.riskCategory

def HeldByMajority (values : List (Option JsString)) (value : Option JsString) : Prop :=
  majorityThreshold values.length ≤ values.count value

def MajorityHasStep (samples : List (Option GeneratedTestCase)) (s : ℕ) : Prop :=
  majorityThreshold samples.length ≤
    samples.countP fun sample ↦ sample.any fun testCase ↦ s < testCase.steps.length

/-- The merged case is what a strict majority of the samples says. -/
structure MajorityCase (samples : List (Option GeneratedTestCase)) (merged : GeneratedTestCase) :
    Prop where
  present : majorityThreshold samples.length ≤ samples.countP Option.isSome
  type : HeldByMajority (fieldColumn samples typeOf) (some merged.type)
  technique : HeldByMajority (fieldColumn samples techniqueOf) (some merged.technique)
  riskCategory : HeldByMajority (fieldColumn samples riskCategoryOf) (some merged.riskCategory)
  positions : ∀ s, s < merged.steps.length ↔ MajorityHasStep samples s
  action : ∀ s step, merged.steps[s]? = some step →
    HeldByMajority (fieldColumn samples (actionAt s)) (some step.action)
  expected : ∀ s step, merged.steps[s]? = some step →
    HeldByMajority (fieldColumn samples (expectedAt s)) step.expected

/-! ## Votes -/

def Settled (values : List (Option JsString)) : Prop :=
  ∃ key, majorityThreshold values.length ≤ votesFor voteKey values key

/-- The winning key is the one of the absent value. -/
def AbsenceWins (values : List (Option JsString)) : Prop :=
  majorityThreshold values.length ≤ votesFor voteKey values undefinedKey

/-- What stays when absence wins: the value of the base, unless the first vote under the key is
the text of the key. -/
def keptValue (values : List (Option JsString)) (own : Option JsString) : Option JsString :=
  (firstFor voteKey values undefinedKey).join.or own

def Kept (values : List (Option JsString)) (own : Option JsString) : Prop :=
  AbsenceWins values → HeldByMajority values (keptValue values own)

structure Undisputed (samples : List (Option GeneratedTestCase)) : Prop where
  type : Settled (fieldColumn samples typeOf)
  technique : Settled (fieldColumn samples techniqueOf)
  riskCategory : Settled (fieldColumn samples riskCategoryOf)
  action : ∀ s, Settled (fieldColumn samples (actionAt s))
  expected : ∀ s, Settled (fieldColumn samples (expectedAt s))

/-- Wherever absence wins, a strict majority holds what is kept. -/
structure KeepsMajority (samples : List (Option GeneratedTestCase)) (base : GeneratedTestCase) :
    Prop where
  type : Kept (fieldColumn samples typeOf) (typeOf base)
  technique : Kept (fieldColumn samples techniqueOf) (techniqueOf base)
  riskCategory : Kept (fieldColumn samples riskCategoryOf) (riskCategoryOf base)
  action : ∀ s step, base.steps[s]? = some step →
    Kept (fieldColumn samples (actionAt s)) (some step.action)
  missing : ∀ s, base.steps[s]? = none → MajorityHasStep samples s →
    ¬ AbsenceWins (fieldColumn samples (actionAt s))
  expected : ∀ s, MajorityHasStep samples s → Kept (fieldColumn samples (expectedAt s))
    (base.steps[s]?.bind GeneratedTestCaseStep.expected)

theorem majorityThreshold_le_iff {n k : ℕ} : majorityThreshold n ≤ k ↔ n < 2 * k := by
  rw [majorityThreshold]
  omega

section

variable {localeCompare : JsString → JsString → ℤ} {figures : Figures}
  {values : List (Option JsString)} {key : JsString}

theorem voteScalar_of_majority (localeCompare : JsString → JsString → ℤ) (figures : Figures)
    (h : majorityThreshold values.length ≤ votesFor voteKey values key) :
    ∃ first, firstFor voteKey values key = some first ∧
      (voteScalar localeCompare figures values values.length).winner = first ∧
      majorityThreshold values.length ≤
        (voteScalar localeCompare figures values values.length).majorityCount := by
  obtain ⟨first, hfirst, hwinner⟩ := @winnerOf_of_majority _ _ _ voteKey
    (prefersValue localeCompare) values key (majorityThreshold_le_iff.mp h)
  refine ⟨first, hfirst, ?_, ?_⟩
  · simp [voteScalar, hwinner]
  · simpa [voteScalar, hwinner] using h

theorem settled_iff (localeCompare : JsString → JsString → ℤ) (figures : Figures)
    (hvalues : values ≠ []) :
    majorityThreshold values.length ≤
        (voteScalar localeCompare figures values values.length).majorityCount ↔
      Settled values := by
  constructor
  · intro h
    obtain ⟨key, first, -, hwinner, -⟩ := winnerOf_spec voteKey (prefersValue localeCompare) hvalues
    refine ⟨key, ?_⟩
    simpa [voteScalar, hwinner] using h
  · rintro ⟨key, h⟩
    obtain ⟨first, -, -, hcount⟩ := voteScalar_of_majority localeCompare figures h
    exact hcount

theorem voteKey_eq_iff (hkey : key ≠ undefinedKey) {value : Option JsString} :
    voteKey value = key ↔ value = some key := by
  cases value with
  | none =>
      simp only [voteKey, Option.getD_none, reduceCtorEq, iff_false]
      exact Ne.symm hkey
  | some text => simp [voteKey]

/-- A text of its own key is held by everyone who voted for the key. -/
theorem votesFor_eq_count (hkey : key ≠ undefinedKey) :
    votesFor voteKey values key = values.count (some key) := by
  rw [votesFor, List.count]
  apply List.countP_congr
  intro value _
  rw [decide_eq_true_eq, beq_iff_eq, voteKey_eq_iff hkey]

theorem not_absenceWins (hkey : key ≠ undefinedKey)
    (h : majorityThreshold values.length ≤ votesFor voteKey values key) : ¬ AbsenceWins values := by
  intro habsence
  exact hkey (majority_unique (majorityThreshold_le_iff.mp h) (majorityThreshold_le_iff.mp habsence))

/-- A settled vote is won by absence or by a text that a strict majority holds. -/
theorem settled_cases (localeCompare : JsString → JsString → ℤ) (figures : Figures)
    (h : Settled values) :
    (AbsenceWins values ∧ (voteScalar localeCompare figures values values.length).winner =
      (firstFor voteKey values undefinedKey).join) ∨
    ∃ text, ¬ AbsenceWins values ∧ HeldByMajority values (some text) ∧
      (voteScalar localeCompare figures values values.length).winner = some text := by
  obtain ⟨key, hkey⟩ := h
  obtain ⟨first, hfirst, hwinner, -⟩ := voteScalar_of_majority localeCompare figures hkey
  by_cases hundefined : key = undefinedKey
  · subst hundefined
    left
    refine ⟨hkey, ?_⟩
    rw [hwinner, hfirst, Option.join_some]
  · right
    have htext : first = some key := (voteKey_eq_iff hundefined).mp (key_of_firstFor hfirst)
    refine ⟨key, not_absenceWins hundefined hkey, ?_, hwinner.trans htext⟩
    rw [HeldByMajority, ← votesFor_eq_count hundefined]
    exact hkey

/-- A settled vote leaves a value that a strict majority holds, unless what was kept is not. -/
theorem heldByMajority_iff (localeCompare : JsString → JsString → ℤ) (figures : Figures)
    (h : Settled values) (own : Option JsString) :
    HeldByMajority values
        ((voteScalar localeCompare figures values values.length).winner.or own) ↔
      Kept values own := by
  rcases settled_cases localeCompare figures h with ⟨habsence, hwinner⟩ |
    ⟨text, habsence, hheld, hwinner⟩
  · rw [hwinner, Kept, keptValue]
    exact ⟨fun hheld _ ↦ hheld, fun hkept ↦ hkept habsence⟩
  · rw [hwinner, Option.some_or]
    exact ⟨fun _ hwins ↦ absurd hwins habsence, fun _ ↦ hheld⟩

end

end TestIntelligence.Quality

/-!
## The loop over the steps

Where every vote is settled, the loop writes the winners into the steps of the base, and appends a
step where the base has none.  A position at which absence won is passed over, so that a later
step would go to the wrong place; such a gap leaves the case short of a step.
-/

namespace TestIntelligence.Quality

open Js Votes

def writeAction (action : Option JsString) (s : ℕ) (steps : List GeneratedTestCaseStep) :
    List GeneratedTestCaseStep :=
  match action with
  | none => steps
  | some action =>
      if s < steps.length then steps.modify s fun step ↦ { step with action }
      else steps ++ [⟨s + 1, action, none, none, none⟩]

def writeExpected (expected : Option JsString) (s : ℕ) (steps : List GeneratedTestCaseStep) :
    List GeneratedTestCaseStep :=
  match expected with
  | none => steps
  | some expected => steps.modify s fun step ↦ { step with expected := some expected }

section

variable (actions expecteds : ℕ → Option JsString) (base : List GeneratedTestCaseStep)

/-- The steps after the given number of turns. -/
def writeSteps (n : ℕ) : List GeneratedTestCaseStep :=
  (List.range n).foldl
    (fun steps s ↦ writeExpected (expecteds s) s (writeAction (actions s) s steps)) base

/-- What the loop should leave at a position. -/
def settledStep (s : ℕ) : Option GeneratedTestCaseStep :=
  match base[s]? with
  | some step => some { step with
      action := (actions s).getD step.action
      expected := (expecteds s).or step.expected }
  | none => (actions s).map fun action ↦ ⟨s + 1, action, none, expecteds s, none⟩

/-- From the end of the base on, an absent action has only absent ones after it. -/
def NoGap : Prop := ∀ s, base.length ≤ s → actions s = none → actions (s + 1) = none

end

variable {actions expecteds : ℕ → Option JsString} {base steps : List GeneratedTestCaseStep}

theorem writeSteps_succ (n : ℕ) : writeSteps actions expecteds base (n + 1) =
    writeExpected (expecteds n) n (writeAction (actions n) n (writeSteps actions expecteds base n)) := by
  rw [writeSteps, List.range_succ, List.foldl_append]
  rfl

theorem length_writeAction (action : Option JsString) (s : ℕ) :
    (writeAction action s steps).length =
      if action.isSome ∧ steps.length ≤ s then steps.length + 1 else steps.length := by
  cases action with
  | none => simp [writeAction]
  | some action =>
      rw [writeAction]
      by_cases hs : s < steps.length
      · simp [hs]
      · simp [hs, Nat.not_lt.mp hs]

@[simp] theorem length_writeExpected (expected : Option JsString) (s : ℕ) :
    (writeExpected expected s steps).length = steps.length := by
  cases expected <;> simp [writeExpected]

theorem getElem?_writeExpected (expected : Option JsString) (s i : ℕ) :
    (writeExpected expected s steps)[i]? =
      if i = s then steps[s]?.map fun step ↦ { step with expected := expected.or step.expected }
      else steps[i]? := by
  cases expected with
  | none =>
      by_cases hi : i = s
      · subst hi
        simp [writeExpected]
      · simp [writeExpected, hi]
  | some expected =>
      rw [writeExpected, List.getElem?_modify]
      by_cases hi : i = s
      · subst hi
        simp
      · simp [hi, Ne.symm hi]

theorem getElem?_writeAction {action : Option JsString} {s : ℕ}
    (h : action = none ∨ s ≤ steps.length) (i : ℕ) :
    (writeAction action s steps)[i]? =
      if i = s then
        match steps[s]? with
        | some step => some { step with action := action.getD step.action }
        | none => action.map fun action ↦ ⟨s + 1, action, none, none, none⟩
      else steps[i]? := by
  cases action with
  | none =>
      by_cases hi : i = s
      · subst hi
        cases hstep : steps[i]? <;> simp [writeAction, hstep]
      · simp [writeAction, hi]
  | some action =>
      have hle : s ≤ steps.length := h.resolve_left (by simp)
      rw [writeAction]
      by_cases hs : s < steps.length
      · rw [if_pos hs, List.getElem?_modify]
        by_cases hi : i = s
        · subst hi
          simp [hs]
        · simp [hi, Ne.symm hi]
      · obtain rfl : s = steps.length := by omega
        rw [if_neg hs]
        by_cases hi : i = steps.length
        · subst hi
          simp
        · rcases Nat.lt_or_gt_of_ne hi with hlt | hgt
          · simp [hi, List.getElem?_append_left hlt]
          · rw [if_neg hi, List.getElem?_eq_none (by simp; omega), List.getElem?_eq_none (by omega)]

theorem NoGap.isSome {n : ℕ} (h : NoGap actions base) (hn : (actions n).isSome = true) {s : ℕ}
    (hbase : base.length ≤ s) (hs : s ≤ n) : (actions s).isSome = true := by
  induction n with
  | zero =>
      obtain rfl : s = 0 := by omega
      exact hn
  | succ n ih =>
      rcases Nat.lt_or_ge n s with hlt | hge
      · obtain rfl : s = n + 1 := by omega
        exact hn
      · refine ih ?_ hge
        cases hnone : actions n with
        | none => simp [h n (by omega) hnone] at hn
        | some action => rfl

theorem isSome_settledStep (actions expecteds : ℕ → Option JsString)
    (base : List GeneratedTestCaseStep) (s : ℕ) :
    (settledStep actions expecteds base s).isSome = true ↔ s < base.length ∨ (actions s).isSome = true := by
  rw [settledStep]
  cases hstep : base[s]? with
  | none => simp [List.getElem?_eq_none_iff.mp hstep]
  | some step => simp [(List.getElem?_eq_some_iff.mp hstep).1]

/-- Without a gap, every position gets what it should. -/
theorem getElem?_writeSteps (h : NoGap actions base) (n i : ℕ) :
    (writeSteps actions expecteds base n)[i]? =
      if i < n then settledStep actions expecteds base i else base[i]? := by
  induction n generalizing i with
  | zero => simp [writeSteps]
  | succ n ih =>
      have hplace : actions n = none ∨ n ≤ (writeSteps actions expecteds base n).length := by
        cases haction : actions n with
        | none => exact Or.inl rfl
        | some action =>
            right
            by_contra hshort
            have hnone := List.getElem?_eq_none (Nat.le_refl
              (writeSteps actions expecteds base n).length)
            rw [ih, if_pos (by omega)] at hnone
            have hsome := isSome_settledStep actions expecteds base
              (writeSteps actions expecteds base n).length
            rw [hnone] at hsome
            simp only [Option.isSome_none, Bool.false_eq_true, false_iff, not_or] at hsome
            exact hsome.2 (h.isSome (by rw [haction]; rfl) (by omega) (by omega))
      rw [writeSteps_succ, getElem?_writeExpected]
      by_cases hi : i = n
      · subst hi
        rw [if_pos rfl, if_pos (Nat.lt_succ_self _), getElem?_writeAction hplace, if_pos rfl, ih,
          if_neg (Nat.lt_irrefl _), settledStep]
        cases base[i]? with
        | some step => rfl
        | none => cases actions i <;> simp
      · rw [if_neg hi, getElem?_writeAction hplace, if_neg hi, ih]
        by_cases hlt : i < n
        · rw [if_pos hlt, if_pos (by omega)]
        · rw [if_neg hlt, if_neg (by omega)]

/-! ## Gaps -/

theorem length_writeSteps_succ (n : ℕ) :
    (writeSteps actions expecteds base (n + 1)).length =
      if (actions n).isSome ∧ (writeSteps actions expecteds base n).length ≤ n then
        (writeSteps actions expecteds base n).length + 1
      else (writeSteps actions expecteds base n).length := by
  rw [writeSteps_succ, length_writeExpected, length_writeAction]

theorem length_writeSteps_le (actions expecteds : ℕ → Option JsString)
    (base : List GeneratedTestCaseStep) (n : ℕ) :
    (writeSteps actions expecteds base n).length ≤ max base.length n := by
  induction n with
  | zero => simp [writeSteps]
  | succ n ih =>
      rw [length_writeSteps_succ]
      split <;> omega

/-- After a gap the steps stay short. -/
theorem length_writeSteps_lt (expecteds : ℕ → Option JsString) {s : ℕ} (hbase : base.length ≤ s) (hgap : actions s = none) {n : ℕ}
    (hn : s < n) : (writeSteps actions expecteds base n).length < n := by
  induction n with
  | zero => omega
  | succ n ih =>
      rw [length_writeSteps_succ]
      rcases Nat.lt_or_ge s n with hlt | hge
      · have hshort := ih hlt
        split <;> omega
      · obtain rfl : s = n := by omega
        have hle := length_writeSteps_le actions expecteds base s
        rw [hgap, if_neg (by simp)]
        omega

/-- Where no action is left, nothing is appended. -/
theorem length_writeSteps_of_none (expecteds : ℕ → Option JsString)
    (base : List GeneratedTestCaseStep) {m n : ℕ} (hmn : m ≤ n)
    (hnone : ∀ s, m ≤ s → actions s = none) :
    (writeSteps actions expecteds base n).length = (writeSteps actions expecteds base m).length := by
  induction n with
  | zero =>
      obtain rfl : m = 0 := by omega
      rfl
  | succ n ih =>
      rcases Nat.lt_or_ge n m with hlt | hge
      · obtain rfl : m = n + 1 := by omega
        rfl
      · rw [length_writeSteps_succ, hnone n hge, if_neg (by simp), ih hge]

/-! ## The columns of the steps -/

variable {samples : List (Option GeneratedTestCase)} {first : GeneratedTestCase}
  {field : GeneratedTestCase → Option JsString}

@[simp] theorem length_fieldColumn : (fieldColumn samples field).length = samples.length :=
  List.length_map _

/-- The text that a majority holds is held by so many samples. -/
theorem countP_of_held {text : JsString} (h : HeldByMajority (fieldColumn samples field) (some text))
    {p : Option GeneratedTestCase → Bool}
    (hp : ∀ sample : Option GeneratedTestCase, sample.bind field = some text → p sample = true) :
    majorityThreshold samples.length ≤ samples.countP p := by
  rw [HeldByMajority, length_fieldColumn, fieldColumn, List.count, List.countP_map] at h
  refine Nat.le_trans h (List.countP_mono_left fun sample _ hsample ↦ ?_)
  exact hp sample (by simpa using hsample)

theorem majorityHasStep_of_held {s : ℕ} {text : JsString}
    (h : HeldByMajority (fieldColumn samples (actionAt s)) (some text)) :
    MajorityHasStep samples s := by
  apply countP_of_held h
  intro sample hsample
  obtain ⟨testCase, rfl, haction⟩ := Option.bind_eq_some_iff.mp hsample
  obtain ⟨step, hstep, -⟩ := Option.map_eq_some_iff.mp haction
  simpa using (List.getElem?_eq_some_iff.mp hstep).1

theorem MajorityHasStep.of_le {s t : ℕ} (h : MajorityHasStep samples t) (hst : s ≤ t) :
    MajorityHasStep samples s := by
  refine Nat.le_trans h (List.countP_mono_left fun sample _ hsample ↦ ?_)
  cases sample with
  | none => exact hsample
  | some testCase =>
      simp only [Option.any_some, decide_eq_true_eq] at hsample ⊢
      omega

/-- The samples before the base have nothing to say. -/
theorem firstFor_of_missing (hfirst : samples.findSome? id = some first)
    (hfield : field first = none) :
    firstFor voteKey (fieldColumn samples field) undefinedKey = some none := by
  cases samples with
  | nil => exact absurd hfirst (by simp)
  | cons sample samples =>
      have hhead : sample.bind field = none := by
        cases sample with
        | none => rfl
        | some testCase =>
            obtain rfl : testCase = first := by simpa using hfirst
            exact hfield
      rw [fieldColumn, List.map_cons, hhead, firstFor]
      exact List.find?_cons_of_pos (by simp [voteKey])

end TestIntelligence.Quality
