import Mathlib.Data.Finset.Card
import Mathlib.Data.Finset.Range
import Mathlib.Data.List.Induction
import TestIntelligence.Quality.ParetoFronts

/-!
# The fronts are the layers of dominance

Every round of the sort discharges one front.  The count of an individual is at any time
the number of its dominators that no discharged front holds, so the next front consists of
the individuals whose dominators have all been discharged, one of them just now.
-/

namespace TestIntelligence.Quality

open Orders

variable {P K : Type*} [LinearOrder K]

section

variable (population : List (MutableIndividual P K))

/-! ## Dominance between positions -/

variable {population} in
theorem dominatesAt_iff {p q : ℕ} : dominatesAt population p q = true ↔
    ∃ a b, population[p]? = some a ∧ population[q]? = some b ∧
      dominates a.objectives b.objectives = true := by
  rw [dominatesAt]
  split
  · next a b ha hb => simp [ha, hb]
  · next h =>
      refine iff_of_false (by simp) ?_
      rintro ⟨a, b, ha, hb, -⟩
      exact h a b ha hb

variable {population} in
theorem dominatesAt_lt {p q : ℕ} (h : dominatesAt population p q = true) :
    p < population.length ∧ q < population.length := by
  obtain ⟨a, b, ha, hb, -⟩ := dominatesAt_iff.mp h
  exact ⟨(List.getElem?_eq_some_iff.mp ha).1, (List.getElem?_eq_some_iff.mp hb).1⟩

theorem dominatesAt_self (p : ℕ) : dominatesAt population p p = false := by
  rw [Bool.eq_false_iff]
  intro h
  obtain ⟨a, b, ha, hb, hab⟩ := dominatesAt_iff.mp h
  obtain rfl := Option.some.inj (ha.symm.trans hb)
  rw [dominates_self] at hab
  cases hab

variable {population} in
theorem dominatesAt_trans {p q r : ℕ} (hpq : dominatesAt population p q = true)
    (hqr : dominatesAt population q r = true) : dominatesAt population p r = true := by
  obtain ⟨a, b, ha, hb, hab⟩ := dominatesAt_iff.mp hpq
  obtain ⟨b', c, hb', hc, hbc⟩ := dominatesAt_iff.mp hqr
  obtain rfl := Option.some.inj (hb.symm.trans hb')
  exact dominatesAt_iff.mpr ⟨a, c, ha, hc, dominates_trans hab hbc⟩

variable {population} in
theorem dominatesAt_asymm {p q : ℕ} (h : dominatesAt population p q = true) :
    dominatesAt population q p = false := by
  rw [Bool.eq_false_iff]
  intro h'
  have hself := dominatesAt_trans h h'
  rw [dominatesAt_self] at hself
  cases hself

theorem wellFounded_dominatesAt :
    WellFounded fun p q ↦ dominatesAt population p q = true := by
  let dominators (q : ℕ) : Finset ℕ :=
    (Finset.range population.length).filter fun p ↦ dominatesAt population p q = true
  refine Subrelation.wf ?_ (measure fun q ↦ (dominators q).card).wf
  intro p q hpq
  apply Finset.card_lt_card
  refine ⟨fun a ha ↦ ?_, fun hsub ↦ ?_⟩
  · obtain ⟨hlt, hap⟩ := Finset.mem_filter.mp ha
    exact Finset.mem_filter.mpr ⟨hlt, dominatesAt_trans hap hpq⟩
  · have hp : p ∈ dominators q :=
      Finset.mem_filter.mpr ⟨Finset.mem_range.mpr (dominatesAt_lt hpq).1, hpq⟩
    have hself := (Finset.mem_filter.mp (hsub hp)).2
    rw [dominatesAt_self] at hself
    cases hself

/-! ## The comparisons -/

def dominated (p : ℕ) : List ℕ := (List.range population.length).filter (dominatesAt population p)

def dominatorCount (q : ℕ) : ℕ :=
  (List.range population.length).countP fun p ↦ dominatesAt population p q

theorem compareWithAll_eq (p : ℕ) :
    compareWithAll population p = (dominated population p, (dominatorCount population p : ℤ)) := by
  have hfold : ∀ (qs row : List ℕ) (count : ℤ),
      qs.foldl (fun row q ↦
        if p = q then row
        else if dominatesAt population p q then (row.1 ++ [q], row.2)
        else if dominatesAt population q p then (row.1, row.2 + 1)
        else row) (row, count) =
      (row ++ qs.filter (dominatesAt population p),
        count + (qs.countP fun q ↦ dominatesAt population q p : ℕ)) := by
    intro qs
    induction qs with
    | nil => simp
    | cons q qs ih =>
        intro row count
        rw [List.foldl_cons]
        by_cases hpq : p = q
        · subst hpq
          simp [ih, dominatesAt_self]
        · rw [if_neg hpq]
          by_cases hdominates : dominatesAt population p q = true
          · simp [ih, hdominates, dominatesAt_asymm hdominates]
          · by_cases hdominated : dominatesAt population q p = true
            · simp only [hdominates, hdominated, ih, if_true, List.filter_cons, List.countP_cons,
                Bool.false_eq_true, if_false]
              push_cast
              exact congrArg _ (by omega)
            · simp [ih, hdominates, hdominated]
  rw [compareWithAll, hfold]
  simp [dominated, dominatorCount]

/-- The state after the loop over `ps`. -/
structure Placed (ps : List ℕ) (start : SortState) (s : SortState) (front : List ℕ) : Prop where
  count : ∀ p, s.dominationCount p =
    if p ∈ ps then (dominatorCount population p : ℤ) else start.dominationCount p
  rows : ∀ p, s.dominatedBy p = if p ∈ ps then dominated population p else start.dominatedBy p
  first : front = ps.filter fun p ↦ dominatorCount population p = 0
  rank : ∀ p ∈ front, s.rank p = 0

theorem placed_foldl (ps : List ℕ) (start : SortState) :
    Placed population ps start (ps.foldl (placeFirst population) (start, [])).1
      (ps.foldl (placeFirst population) (start, [])).2 := by
  induction ps using List.reverseRecOn with
  | nil => constructor <;> simp
  | append_singleton ps p ih =>
      rw [List.foldl_concat]
      generalize ps.foldl (placeFirst population) (start, []) = acc at ih ⊢
      have hcount : ∀ p', Function.update acc.1.dominationCount p (dominatorCount population p) p' =
          if p' ∈ ps ++ [p] then (dominatorCount population p' : ℤ)
            else start.dominationCount p' := by
        intro p'
        by_cases hp : p' = p
        · simp [hp]
        · simp [hp, ih.count]
      have hrows : ∀ p', Function.update acc.1.dominatedBy p (dominated population p) p' =
          if p' ∈ ps ++ [p] then dominated population p' else start.dominatedBy p' := by
        intro p'
        by_cases hp : p' = p
        · simp [hp]
        · simp [hp, ih.rows]
      rw [placeFirst, compareWithAll_eq]
      by_cases hzero : dominatorCount population p = 0
      · have hcast : (dominatorCount population p : ℤ) = 0 := by omega
        simp only [Function.update_self, if_pos hcast]
        refine ⟨hcount, hrows, by simp [ih.first, hzero], ?_⟩
        intro p' hp'
        by_cases hp : p' = p
        · simp [hp]
        · simpa [hp] using ih.rank p' (by simpa [hp] using hp')
      · have hcast : (dominatorCount population p : ℤ) ≠ 0 := by omega
        simp only [Function.update_self, if_neg hcast]
        exact ⟨hcount, hrows, by simp [ih.first, hzero], ih.rank⟩

/-! ## The discharge of a front -/

structure Discharged (k : ℕ) (qs : List ℕ) (start s : SortState) (next : List ℕ) : Prop where
  count : ∀ q, s.dominationCount q = start.dominationCount q - qs.count q
  rows : s.dominatedBy = start.dominatedBy
  nodup : next.Nodup
  mem_next : ∀ q, q ∈ next ↔
    1 ≤ start.dominationCount q ∧ start.dominationCount q ≤ qs.count q
  rank : ∀ q, s.rank q = if q ∈ next then k + 1 else start.rank q

theorem discharged_foldl (k : ℕ) (qs : List ℕ) (start : SortState) :
    Discharged k qs start (qs.foldl (discharge k) (start, [])).1
      (qs.foldl (discharge k) (start, [])).2 := by
  induction qs using List.reverseRecOn with
  | nil =>
      refine ⟨by simp, rfl, List.nodup_nil, fun q ↦ ?_, by simp⟩
      simp only [List.foldl_nil, List.not_mem_nil, List.count_nil, false_iff]
      omega
  | append_singleton qs q ih =>
      rw [List.foldl_concat]
      generalize qs.foldl (discharge k) (start, []) = acc at ih ⊢
      have hcount : ∀ q', Function.update acc.1.dominationCount q (acc.1.dominationCount q - 1) q' =
          start.dominationCount q' - (qs ++ [q]).count q' := by
        intro q'
        by_cases hq : q' = q
        · subst hq
          simp [ih.count]
          omega
        · simp [hq, ih.count, Ne.symm hq]
      have hself := hcount q
      have hadd : (qs ++ [q]).count q = qs.count q + 1 := by simp
      rw [Function.update_self, hadd] at hself
      have hold := ih.mem_next q
      rw [discharge]
      simp only [Function.update_self]
      split_ifs with hzero
      · have hfresh : q ∉ acc.2 := by
          rw [hold]
          omega
        refine ⟨hcount, ih.rows, ?_, fun q' ↦ ?_, fun q' ↦ ?_⟩
        · exact List.nodup_append'.mpr ⟨ih.nodup, List.nodup_singleton q, by simpa using hfresh⟩
        · by_cases hq : q' = q
          · subst hq
            rw [hadd]
            simp only [List.mem_append, List.mem_singleton, or_true, true_iff]
            omega
          · simp [hq, ih.mem_next, Ne.symm hq]
        · by_cases hq : q' = q
          · simp [hq]
          · simp [hq, ih.rank]
      · refine ⟨hcount, ih.rows, ih.nodup, fun q' ↦ ?_, ih.rank⟩
        by_cases hq : q' = q
        · subst hq
          rw [hold, hadd]
          omega
        · simp [hq, ih.mem_next, Ne.symm hq]

omit [LinearOrder K] in
theorem dischargeFront_eq (k : ℕ) (front : List ℕ) (s : SortState) :
    dischargeFront k front s = (front.flatMap s.dominatedBy).foldl (discharge k) (s, []) := by
  have hfold : ∀ (front qs : List ℕ),
      front.foldl (fun acc p ↦ (acc.1.dominatedBy p).foldl (discharge k) acc)
        (qs.foldl (discharge k) (s, [])) =
      (qs ++ front.flatMap s.dominatedBy).foldl (discharge k) (s, []) := by
    intro front
    induction front with
    | nil => simp
    | cons p front ih =>
        intro qs
        rw [List.foldl_cons, (discharged_foldl k qs s).rows, ← List.foldl_append, ih,
          List.flatMap_cons, List.append_assoc]
  exact hfold front []

theorem count_flatMap_dominated (front : List ℕ) (q : ℕ) :
    (front.flatMap (dominated population)).count q =
      front.countP fun p ↦ dominatesAt population p q := by
  induction front with
  | nil => rfl
  | cons p front ih =>
      rw [List.flatMap_cons, List.count_append, ih, List.countP_cons, Nat.add_comm]
      congr 1
      have hnodup : (dominated population p).Nodup := List.nodup_range.filter _
      split_ifs with h
      · apply List.count_eq_one_of_mem hnodup
        exact List.mem_filter.mpr ⟨List.mem_range.mpr (dominatesAt_lt h).2, h⟩
      · apply List.count_eq_zero_of_not_mem
        exact fun hmem ↦ h (List.mem_filter.mp hmem).2

/-! ## The invariant of the rounds -/

/-- The dominators that no discharged front holds. -/
def remaining (done : List ℕ) (q : ℕ) : ℕ :=
  (List.range population.length).countP fun p ↦ dominatesAt population p q && !done.contains p

variable {population} in
theorem remaining_eq_zero {done : List ℕ} {q : ℕ} : remaining population done q = 0 ↔
    ∀ p, dominatesAt population p q = true → p ∈ done := by
  rw [remaining, List.countP_eq_zero]
  constructor
  · intro h p hp
    by_contra hdone
    exact h p (List.mem_range.mpr (dominatesAt_lt hp).1) (by simp [hp, hdone])
  · intro h p _ hp
    rw [Bool.and_eq_true] at hp
    simp [h p hp.1] at hp

theorem remaining_nil (q : ℕ) : remaining population [] q = dominatorCount population q := by
  simp [remaining, dominatorCount]

theorem remaining_append {done front : List ℕ} (hnodup : (done ++ front).Nodup)
    (hlt : ∀ p ∈ front, p < population.length) (q : ℕ) :
    remaining population done q =
      front.countP (fun p ↦ dominatesAt population p q) +
        remaining population (done ++ front) q := by
  obtain ⟨-, hfront, hdisjoint⟩ := List.nodup_append'.mp hnodup
  have hperm : ((List.range population.length).filter fun p ↦ front.contains p).Perm front := by
    apply (List.perm_ext_iff_of_nodup (List.nodup_range.filter _) hfront).mpr
    intro p
    simp only [List.mem_filter, List.mem_range, List.contains_iff_mem]
    exact ⟨And.right, fun h ↦ ⟨hlt p h, h⟩⟩
  have hsplit : ∀ ps : List ℕ, (ps.countP fun p ↦ dominatesAt population p q && !done.contains p) =
      (ps.filter fun p ↦ front.contains p).countP (fun p ↦ dominatesAt population p q) +
        ps.countP fun p ↦ dominatesAt population p q && !(done ++ front).contains p := by
    intro ps
    induction ps with
    | nil => rfl
    | cons p ps ih =>
        rw [List.countP_cons, List.countP_cons, ih]
        by_cases hmem : p ∈ front
        · have hdone : p ∉ done := fun h ↦ hdisjoint h hmem
          by_cases hp : dominatesAt population p q = true <;> simp [hmem, hdone, hp]
          omega
        · by_cases hp : dominatesAt population p q = true <;> simp [hmem, hp]
          omega
  rw [remaining, hsplit, hperm.countP_eq, remaining]

structure Peeling (k : ℕ) (done front : List ℕ) (s : SortState) : Prop where
  nodup : (done ++ front).Nodup
  done_lt : ∀ q ∈ done, q < population.length
  closed : ∀ q ∈ done, ∀ p, dominatesAt population p q = true → p ∈ done
  mem_front : ∀ q, q ∈ front ↔ q < population.length ∧ q ∉ done ∧
    ∀ p, dominatesAt population p q = true → p ∈ done
  count : ∀ q < population.length, s.dominationCount q = remaining population done q
  rows : ∀ p < population.length, s.dominatedBy p = dominated population p
  rank_front : ∀ q ∈ front, s.rank q = k
  rank_done : ∀ q ∈ done, s.rank q < k
  lower : ∀ q ∈ done, ∀ p, dominatesAt population p q = true → s.rank p < s.rank q
  climb : ∀ q ∈ done ++ front, ∀ j, s.rank q = j + 1 →
    ∃ p, dominatesAt population p q = true ∧ s.rank p = j

variable {population}

theorem peeling_first (start : SortState) :
    Peeling population 0 [] ((List.range population.length).foldl (placeFirst population)
      (start, [])).2 ((List.range population.length).foldl (placeFirst population)
        (start, [])).1 := by
  have h := placed_foldl population (List.range population.length) start
  generalize (List.range population.length).foldl (placeFirst population) (start, []) = acc at h ⊢
  have hmem : ∀ q, q ∈ acc.2 ↔ q < population.length ∧ dominatorCount population q = 0 := by
    intro q
    rw [h.first, List.mem_filter, List.mem_range, decide_eq_true_iff]
  refine ⟨?_, nofun, nofun, fun q ↦ ?_, ?_, ?_, h.rank, nofun, nofun, ?_⟩
  · rw [List.nil_append, h.first]
    exact List.nodup_range.filter _
  · rw [hmem, ← remaining_nil, remaining_eq_zero]
    simp
  · intro q hq
    rw [h.count, if_pos (List.mem_range.mpr hq), remaining_nil]
  · intro p hp
    rw [h.rows, if_pos (List.mem_range.mpr hp)]
  · intro q hq j hj
    rw [List.nil_append] at hq
    rw [h.rank q hq] at hj
    cases hj

theorem Peeling.step {k : ℕ} {done front : List ℕ} {s : SortState}
    (h : Peeling population k done front s) :
    Peeling population (k + 1) (done ++ front) (dischargeFront k front s).2
        (dischargeFront k front s).1 ∧
      ∀ q ∈ done ++ front, (dischargeFront k front s).1.rank q = s.rank q := by
  have hlt : ∀ p ∈ front, p < population.length := fun p hp ↦ ((h.mem_front p).mp hp).1
  have hrows : front.flatMap s.dominatedBy = front.flatMap (dominated population) :=
    List.flatMap_congr fun p hp ↦ h.rows p (hlt p hp)
  have hdischarged := discharged_foldl k (front.flatMap (dominated population)) s
  rw [dischargeFront_eq, hrows]
  generalize (front.flatMap (dominated population)).foldl (discharge k) (s, []) = acc
    at hdischarged ⊢
  have hnext : ∀ q, q ∈ acc.2 ↔ q < population.length ∧ remaining population done q ≠ 0 ∧
      remaining population (done ++ front) q = 0 := by
    intro q
    rw [hdischarged.mem_next, count_flatMap_dominated]
    by_cases hq : q < population.length
    · have hsplit := remaining_append population h.nodup hlt q
      rw [h.count q hq]
      omega
    · have hzero : front.countP (fun p ↦ dominatesAt population p q) = 0 := by
        rw [List.countP_eq_zero]
        exact fun p _ hp ↦ hq (dominatesAt_lt hp).2
      omega
  have hfresh : ∀ q ∈ done ++ front, q ∉ acc.2 := by
    intro q hq hmem
    obtain ⟨-, hremaining, -⟩ := (hnext q).mp hmem
    apply hremaining
    rw [remaining_eq_zero]
    rcases List.mem_append.mp hq with hq | hq
    · exact h.closed q hq
    · exact ((h.mem_front q).mp hq).2.2
  have hrank : ∀ q ∈ done ++ front, acc.1.rank q = s.rank q := by
    intro q hq
    rw [hdischarged.rank, if_neg (hfresh q hq)]
  have hclosed : ∀ q ∈ done ++ front, ∀ p, dominatesAt population p q = true → p ∈ done := by
    intro q hq
    rcases List.mem_append.mp hq with hq | hq
    · exact h.closed q hq
    · exact ((h.mem_front q).mp hq).2.2
  refine ⟨⟨?_, ?_, ?_, ?_, ?_, ?_, ?_, ?_, ?_, ?_⟩, hrank⟩
  · exact List.nodup_append'.mpr ⟨h.nodup, hdischarged.nodup, fun q hq ↦ hfresh q hq⟩
  · intro q hq
    rcases List.mem_append.mp hq with hq | hq
    · exact h.done_lt q hq
    · exact hlt q hq
  · exact fun q hq p hp ↦ List.mem_append_left _ (hclosed q hq p hp)
  · intro q
    rw [hnext, remaining_eq_zero]
    constructor
    · rintro ⟨hq, hremaining, hall⟩
      refine ⟨hq, fun hmem ↦ ?_, hall⟩
      exact hremaining (remaining_eq_zero.mpr (hclosed q hmem))
    · rintro ⟨hq, hmem, hall⟩
      rw [List.mem_append, not_or] at hmem
      refine ⟨hq, fun hzero ↦ hmem.2 ?_, hall⟩
      exact (h.mem_front q).mpr ⟨hq, hmem.1, remaining_eq_zero.mp hzero⟩
  · intro q hq
    rw [hdischarged.count, count_flatMap_dominated, h.count q hq,
      remaining_append population h.nodup hlt q]
    push_cast
    omega
  · intro p hp
    rw [hdischarged.rows, h.rows p hp]
  · intro q hq
    rw [hdischarged.rank, if_pos hq]
  · intro q hq
    rw [hrank q hq]
    rcases List.mem_append.mp hq with hq | hq
    · exact (h.rank_done q hq).trans (Nat.lt_succ_self k)
    · exact (h.rank_front q hq).trans_lt (Nat.lt_succ_self k)
  · intro q hq p hp
    have hdone := hclosed q hq p hp
    rw [hrank q hq, hrank p (List.mem_append_left _ hdone)]
    rcases List.mem_append.mp hq with hq | hq
    · exact h.lower q hq p hp
    · exact (h.rank_done p hdone).trans_eq (h.rank_front q hq).symm
  · intro q hq j hj
    rcases List.mem_append.mp hq with hq | hq
    · rw [hrank q hq] at hj
      obtain ⟨p, hp, hrankp⟩ := h.climb q hq j hj
      exact ⟨p, hp, (hrank p (List.mem_append_left _ (hclosed q hq p hp))).trans hrankp⟩
    · rw [hdischarged.rank, if_pos hq] at hj
      obtain rfl := Nat.succ.inj hj
      obtain ⟨-, hremaining, hall⟩ := (hnext q).mp hq
      rw [Ne, remaining_eq_zero] at hremaining
      push Not at hremaining
      obtain ⟨p, hp, hdone⟩ := hremaining
      have hmem := remaining_eq_zero.mp hall p hp
      have hfront := (List.mem_append.mp hmem).resolve_left hdone
      exact ⟨p, hp, (hrank p hmem).trans (h.rank_front p hfront)⟩

/-- An empty front comes only after the last individual. -/
theorem Peeling.mem_done {k : ℕ} {done : List ℕ} {s : SortState}
    (h : Peeling population k done [] s) {q : ℕ} (hq : q < population.length) : q ∈ done := by
  induction q using (wellFounded_dominatesAt population).induction with
  | _ q ih =>
      by_contra hdone
      have hnot := (not_congr (h.mem_front q)).mp List.not_mem_nil
      exact hnot ⟨hq, hdone, fun p hp ↦ ih p hp (dominatesAt_lt hp).1⟩

theorem Peeling.perm {k : ℕ} {done : List ℕ} {s : SortState}
    (h : Peeling population k done [] s) : done.Perm (List.range population.length) := by
  have hnodup := h.nodup
  rw [List.append_nil] at hnodup
  apply (List.perm_ext_iff_of_nodup hnodup List.nodup_range).mpr
  intro q
  rw [List.mem_range]
  exact ⟨h.done_lt q, h.mem_done⟩

/-! ## The run of the loop -/

structure Peeled (k : ℕ) (done front : List ℕ) (s s' : SortState) (fronts : List (List ℕ)) :
    Prop where
  final : ∃ k', Peeling population k' (done ++ fronts.flatten) [] s'
  nonempty : ∀ f ∈ fronts, f ≠ []
  rank : ∀ j f, fronts[j]? = some f → ∀ q ∈ f, s'.rank q = k + j
  kept : ∀ q ∈ done ++ front, s'.rank q = s.rank q

theorem Peeling.run {fuel k : ℕ} {done front : List ℕ} {s : SortState}
    (h : Peeling population k done front s) (hfuel : population.length < fuel + done.length) :
    ∃ s' fronts, peelFronts fuel k front s = some (s', fronts ++ [[]]) ∧
      @Peeled _ _ _ population k done front s s' fronts := by
  induction fuel generalizing k done front s with
  | zero =>
      have hsub : done.Subset (List.range population.length) :=
        fun q hq ↦ List.mem_range.mpr (h.done_lt q hq)
      have hle := ((List.nodup_append'.mp h.nodup).1.subperm hsub).length_le
      rw [List.length_range] at hle
      omega
  | succ fuel ih =>
      cases front with
      | nil =>
          refine ⟨s, [], rfl, ⟨k, by simpa using h⟩, nofun, nofun, fun q _ ↦ rfl⟩
      | cons p front =>
          obtain ⟨hstep, hkept⟩ := h.step
          have hlength : population.length < fuel + (done ++ p :: front).length := by
            rw [List.length_append, List.length_cons]
            omega
          obtain ⟨s', fronts, hrun, hpeeled⟩ := ih hstep hlength
          refine ⟨s', (p :: front) :: fronts, ?_, ?_, ?_, ?_, ?_⟩
          · have hpos : (p :: front).length > 0 := Nat.succ_pos _
            rw [peelFronts, if_pos hpos]
            simp [hrun]
          · obtain ⟨k', hfinal⟩ := hpeeled.final
            exact ⟨k', by simpa using hfinal⟩
          · exact List.forall_mem_cons.mpr ⟨List.cons_ne_nil p front, hpeeled.nonempty⟩
          · intro j f hf q hq
            cases j with
            | zero =>
                obtain rfl := Option.some.inj hf
                have hmem : q ∈ done ++ p :: front := List.mem_append_right _ hq
                rw [hpeeled.kept q (List.mem_append_left _ hmem), hkept q hmem,
                  h.rank_front q hq, Nat.add_zero]
            | succ j =>
                rw [hpeeled.rank j f hf q hq]
                omega
          · intro q hq
            rw [hpeeled.kept q (List.mem_append_left _ hq), hkept q hq]

/-! ## The Pareto ranking -/

def IsDominator (population : List (MutableIndividual P K)) (p q : ℕ) : Prop :=
  dominatesAt population p q = true

structure ParetoRanking (population ranked : List (MutableIndividual P K))
    (fronts : List (List ℕ)) : Prop where
  kept : ranked = setRanks population (ranksOf ranked)
  nonempty : ∀ front ∈ fronts, front ≠ []
  once : fronts.flatten.Perm (List.range population.length)
  apart : ∀ front ∈ fronts, ∀ p ∈ front, ∀ q ∈ front, ¬ IsDominator population p q
  below : ∀ k front next, fronts[k]? = some front → fronts[k + 1]? = some next →
    ∀ q ∈ next, ∃ p ∈ front, IsDominator population p q
  height : ∀ p individual, ranked[p]? = some individual →
    IsHeight (IsDominator population) (List.range population.length) p individual.rank

theorem Peeling.isLayering {k : ℕ} {done : List ℕ} {s : SortState}
    (h : Peeling population k done [] s) :
    IsLayering (IsDominator population) (List.range population.length) s.rank := by
  have hmem : ∀ {q}, q ∈ List.range population.length ↔ q ∈ done := h.perm.mem_iff.symm
  constructor
  · exact fun q hq p _ hp ↦ h.lower q (hmem.mp hq) p hp
  · intro q hq j hj
    obtain ⟨p, hp, hrank⟩ := h.climb q (List.mem_append_left _ (hmem.mp hq)) j hj
    exact ⟨p, List.mem_range.mpr (dominatesAt_lt hp).1, hp, hrank⟩

omit [LinearOrder K] in
theorem ranksOf_setRanks (rank : ℕ → ℕ) {p : ℕ} (hp : p < population.length) :
    ranksOf (setRanks population rank) p = rank p := by
  simp [ranksOf, setRanks, hp]

omit [LinearOrder K] in
theorem setRanks_congr {rank rank' : ℕ → ℕ} (h : ∀ p < population.length, rank p = rank' p) :
    setRanks population rank = setRanks population rank' := by
  apply List.ext_getElem (by simp [setRanks])
  intro p hp hp'
  rw [setRanks, List.length_mapIdx] at hp
  simp [setRanks, h p hp]

theorem exists_peeled (population : List (MutableIndividual P K)) :
    ∃ s fronts, nonDominatedSort population = some (setRanks population s.rank, fronts) ∧
      (∃ k, Peeling population k fronts.flatten [] s) ∧ (∀ front ∈ fronts, front ≠ []) ∧
        ∀ k front, fronts[k]? = some front → ∀ q ∈ front, s.rank q = k := by
  have hfirst := @peeling_first _ _ _ population
    ⟨fun _ ↦ 0, fun _ ↦ [], ranksOf population⟩
  rw [nonDominatedSort]
  generalize (List.range population.length).foldl (placeFirst population) _ = acc at hfirst ⊢
  obtain ⟨s, fronts, hrun, hpeeled⟩ := hfirst.run (Nat.lt_succ_self _)
  have hfilter : (fronts ++ [[]]).filter (fun front ↦ front.length > 0) = fronts := by
    rw [List.filter_append, List.filter_eq_self.mpr]
    · simp
    · intro front hfront
      simpa [List.length_pos_iff] using hpeeled.nonempty front hfront
  refine ⟨s, fronts, ?_, hpeeled.final, hpeeled.nonempty, ?_⟩
  · simp [hrun, hfilter]
  · intro k front hfront q hq
    rw [hpeeled.rank k front hfront q hq, Nat.zero_add]

/-- The sort terminates and computes the Pareto ranking. -/
theorem nonDominatedSort_ranking (population : List (MutableIndividual P K)) :
    ∃ ranked fronts, nonDominatedSort population = some (ranked, fronts) ∧
      ParetoRanking population ranked fronts := by
  obtain ⟨s, fronts, hsort, ⟨k', hfinal⟩, hnonempty, hrank⟩ := exists_peeled population
  refine ⟨_, fronts, hsort, ?_, hnonempty, hfinal.perm, ?_, ?_, ?_⟩
  · exact setRanks_congr fun p hp ↦ (ranksOf_setRanks s.rank hp).symm
  · intro front hfront p hp q hq hdominates
    obtain ⟨k, hk⟩ := List.mem_iff_getElem?.mp hfront
    have hlower := hfinal.lower q (List.mem_flatten.mpr ⟨front, hfront, hq⟩) p hdominates
    rw [hrank k front hk p hp, hrank k front hk q hq] at hlower
    exact lt_irrefl k hlower
  · intro k front next hfront hnext q hq
    have hmem : q ∈ fronts.flatten :=
      List.mem_flatten.mpr ⟨next, List.mem_iff_getElem?.mpr ⟨_, hnext⟩, hq⟩
    obtain ⟨p, hp, hrankp⟩ :=
      hfinal.climb q (List.mem_append_left _ hmem) k (hrank _ _ hnext q hq)
    obtain ⟨front', hfront', hpfront⟩ :=
      List.mem_flatten.mp (hfinal.mem_done (dominatesAt_lt hp).1)
    obtain ⟨j, hj⟩ := List.mem_iff_getElem?.mp hfront'
    rw [hrank j front' hj p hpfront] at hrankp
    subst hrankp
    obtain rfl := Option.some.inj (hj.symm.trans hfront)
    exact ⟨p, hpfront, hp⟩
  · intro p individual hindividual
    have hlt : p < population.length := by
      simpa [setRanks] using (List.getElem?_eq_some_iff.mp hindividual).1
    have hheight := hfinal.isLayering.isHeight (List.mem_range.mpr hlt)
    rw [← ranksOf_setRanks s.rank hlt, ranksOf, hindividual] at hheight
    exact hheight

end

end TestIntelligence.Quality
