import TestIntelligence.Js.Text
import TestIntelligence.Lists.EditDistance

/-!
# The capped Levenshtein distance

Two rows of cells are filled in turn, each in a band around the diagonal only.  A cell that was
never written is a hole, and the cells outside the band keep what an earlier row left there.
-/

namespace TestIntelligence.CoreEngine.NearDuplicates

open Js Lists

/-! ## The function -/

abbrev Row := List (Option ℕ)

/-- `row[j] ?? cap + 1` -/
def readCell (cap : ℕ) (row : Row) (j : ℕ) : ℕ := row[j]?.join.getD (cap + 1)

def writeCell (row : Row) (j value : ℕ) : Row := row.set j (some value)

section

variable (left right : JsString) (cap : ℕ)

/-- One turn of the inner loop, on the row and `rowMin`. -/
def fillCell (prev : Row) (i : ℕ) (state : Row × ℕ) (j : ℕ) : Row × ℕ :=
  let cost := if left[i - 1]? = right[j - 1]? then 0 else 1
  let del := readCell cap prev j + 1
  let ins := readCell cap state.1 (j - 1) + 1
  let sub := readCell cap prev (j - 1) + cost
  let v := min (min del ins) sub
  (writeCell state.1 j v, if v < state.2 then v else state.2)

/-- One turn of the outer loop. -/
def fillRow (prev curr : Row) (i : ℕ) : Row × ℕ :=
  let n := right.length
  let curr := writeCell curr 0 i
  let lo := max 1 (i - cap)
  let hi := min n (i + cap)
  let curr := if lo > 1 then writeCell curr (lo - 1) (cap + 1) else curr
  let state := (List.range' lo (hi + 1 - lo)).foldl (fillCell left right cap prev i) (curr, i)
  (if hi < n then writeCell state.1 (hi + 1) (cap + 1) else state.1, state.2)

/-- The outer loop from row `i` on, for a number of rows. -/
def fillRows : ℕ → ℕ → Row → Row → ℕ
  | 0, _, prev, _ => min (readCell cap prev right.length) (cap + 1)
  | turns + 1, i, prev, curr =>
      let (curr, rowMin) := fillRow left right cap prev curr i
      if rowMin > cap then cap + 1 else fillRows turns (i + 1) curr prev

end

def capError : JsString := js "levenshteinCapped: cap must be >= 0"

/-- The distance for a cap that is not negative. -/
def levenshteinWithin (left right : JsString) (cap : ℕ) : ℕ :=
  if left = right then 0
  else if ((left.length : ℤ) - right.length).natAbs > cap then cap + 1
  else if left.length = 0 then min right.length (cap + 1)
  else if right.length = 0 then min left.length (cap + 1)
  else
    let m := left.length
    let n := right.length
    fillRows left right cap m 1 ((List.range (n + 1)).map some) (List.replicate (n + 1) none)

def levenshteinCapped (left right : JsString) (cap : ℤ) : Except JsString ℕ :=
  if cap < 0 then .error capError else .ok (levenshteinWithin left right cap.toNat)

/-! ## The cells -/

section

variable {left right : JsString} {cap : ℕ} {row prev curr : Row} {i j k v : ℕ}

theorem readCell_writeCell (h : j < row.length) :
    readCell cap (writeCell row j v) k = if k = j then v else readCell cap row k := by
  unfold readCell writeCell
  split
  · next heq =>
      rw [heq, List.getElem?_set_self h]
      rfl
  · next hne => rw [List.getElem?_set_ne (Ne.symm hne)]

@[simp] theorem length_writeCell (row : Row) (j v : ℕ) :
    (writeCell row j v).length = row.length := List.length_set

/-- The distance of two fronts. -/
def frontDistance (left right : JsString) (i j : ℕ) : ℕ :=
  editDistance (left.take i) (right.take j)

theorem frontDistance_zero (j : ℕ) (hj : j ≤ right.length) : frontDistance left right 0 j = j := by
  rw [frontDistance, List.take_zero, editDistance_nil, List.length_take_of_le hj]

theorem frontDistance_zero_right (i : ℕ) (hi : i ≤ left.length) :
    frontDistance left right i 0 = i := by
  rw [frontDistance, List.take_zero, editDistance_nil_right, List.length_take_of_le hi]

theorem frontDistance_succ (hi : i < left.length) (hj : j < right.length) :
    frontDistance left right (i + 1) (j + 1) =
      min (min (frontDistance left right i (j + 1) + 1) (frontDistance left right (i + 1) j + 1))
        (frontDistance left right i j + if left[i]? = right[j]? then 0 else 1) := by
  have hcost : replacementCost left[i] right[j] = if left[i]? = right[j]? then 0 else 1 := by
    rw [List.getElem?_eq_getElem hi, List.getElem?_eq_getElem hj, replacementCost]
    exact if_congr (Option.some.injEq _ _).to_iff.symm rfl rfl
  unfold frontDistance
  rw [← List.take_concat_get' left i hi, ← List.take_concat_get' right j hj, editDistance_concat,
    hcost]

/-- Off the band the distance is above the cap. -/
theorem cap_lt_frontDistance (hi : i ≤ left.length) (hj : j ≤ right.length)
    (hoff : j + cap < i ∨ i + cap < j) : cap < frontDistance left right i j := by
  have hfirst := length_le_add_editDistance (left.take i) (right.take j)
  have hsecond := length_le_add_editDistance (right.take j) (left.take i)
  rw [editDistance_comm] at hsecond
  rw [List.length_take_of_le hi, List.length_take_of_le hj] at hfirst hsecond
  rw [frontDistance]
  omega

/-! ## A row -/

/-- Up to the cap a cell is the distance. -/
def Agrees (cap v d : ℕ) : Prop := min v (cap + 1) = min d (cap + 1)

/-- The cells of row `i` that the next row reads. -/
structure Filled (left right : JsString) (cap i : ℕ) (row : Row) : Prop where
  length : row.length = right.length + 1
  agrees : ∀ j ≤ right.length, i ≤ j + cap + 1 → j ≤ i + cap + 1 →
    Agrees cap (readCell cap row j) (frontDistance left right i j)

theorem filled_zero : Filled left right cap 0 ((List.range (right.length + 1)).map some) := by
  refine ⟨by simp, fun j hj _ _ ↦ ?_⟩
  have hcell : readCell cap ((List.range (right.length + 1)).map some) j = j := by
    rw [readCell, List.getElem?_map, List.getElem?_range (by omega)]
    rfl
  rw [hcell, frontDistance_zero j hj]
  rfl

/-- The row after some turns of the inner loop, from cell `lo` on. -/
structure Filling (left right : JsString) (cap i lo turns : ℕ) (state : Row × ℕ) : Prop where
  length : state.1.length = right.length + 1
  agrees : ∀ j, lo ≤ j + 1 → j < lo + turns →
    Agrees cap (readCell cap state.1 j) (frontDistance left right i j)
  least : state.2 ≤ i ∧ ∀ j, lo ≤ j → j < lo + turns → state.2 ≤ readCell cap state.1 j

theorem agrees_min {a b c a' b' c' : ℕ} (ha : Agrees cap a a') (hb : Agrees cap b b')
    (hc : Agrees cap c c') (cost : ℕ) :
    Agrees cap (min (min (a + 1) (b + 1)) (c + cost)) (min (min (a' + 1) (b' + 1)) (c' + cost)) := by
  unfold Agrees at *
  omega

theorem agrees_off {d : ℕ} (h : cap < d) : Agrees cap (cap + 1) d := by
  unfold Agrees
  omega

/-- The inner loop fills the next cell. -/
theorem Filling.fillCell {lo turns : ℕ} {state : Row × ℕ} (hi : i < left.length)
    (hprev : Filled left right cap i prev) (hlo : lo = max 1 (i + 1 - cap))
    (hlast : lo + turns ≤ min right.length (i + 1 + cap))
    (h : Filling left right cap (i + 1) lo turns state) :
    Filling left right cap (i + 1) lo (turns + 1)
      (fillCell left right cap prev (i + 1) state (lo + turns)) := by
  obtain ⟨j, hj⟩ : ∃ j, lo + turns = j + 1 := ⟨lo + turns - 1, by omega⟩
  have hlength := h.length
  have hjright : j < right.length := by omega
  set v := min (min (readCell cap prev (j + 1) + 1) (readCell cap state.1 j + 1))
    (readCell cap prev j + if left[i]? = right[j]? then 0 else 1) with hv
  have hstep : NearDuplicates.fillCell left right cap prev (i + 1) state (j + 1) =
      (writeCell state.1 (j + 1) v, if v < state.2 then v else state.2) := rfl
  have hcell : Agrees cap v (frontDistance left right (i + 1) (j + 1)) := by
    rw [frontDistance_succ hi hjright, hv]
    apply agrees_min
    · exact hprev.agrees (j + 1) (by omega) (by omega) (by omega)
    · exact h.agrees j (by omega) (by omega)
    · exact hprev.agrees j (by omega) (by omega) (by omega)
  have hread : ∀ k, readCell cap (writeCell state.1 (j + 1) v) k =
      if k = j + 1 then v else readCell cap state.1 k := fun k ↦ readCell_writeCell (by omega)
  rw [hj, hstep]
  refine ⟨by rw [length_writeCell, hlength], fun k hk hk' ↦ ?_, ?_, fun k hk hk' ↦ ?_⟩
  · rw [hread]
    split
    · next heq => exact heq ▸ hcell
    · next hne => exact h.agrees k hk (by omega)
  · have hleast := h.least.1
    simp only
    split <;> omega
  · rw [hread]
    simp only
    by_cases heq : k = j + 1
    · rw [if_pos heq]
      split <;> omega
    · have hleast := h.least.2 k hk (by omega)
      rw [if_neg heq]
      split <;> omega

theorem Filling.foldl {lo turns : ℕ} {state : Row × ℕ} (hi : i < left.length)
    (hprev : Filled left right cap i prev) (hlo : lo = max 1 (i + 1 - cap))
    (hlast : lo + turns ≤ min right.length (i + 1 + cap) + 1)
    (h : Filling left right cap (i + 1) lo 0 state) :
    Filling left right cap (i + 1) lo turns
      ((List.range' lo turns).foldl (NearDuplicates.fillCell left right cap prev (i + 1)) state) := by
  induction turns with
  | zero => exact h
  | succ turns ih =>
      rw [List.range'_1_concat, List.foldl_append]
      exact (ih (by omega)).fillCell hi hprev hlo (by omega)

/-- The outer loop fills the next row, and notices when nothing in it is within the cap. -/
theorem filled_fillRow (hi : i < left.length) (hprev : Filled left right cap i prev)
    (hcurr : curr.length = right.length + 1)
    (hlengths : left.length ≤ right.length + cap) :
    Filled left right cap (i + 1) (fillRow left right cap prev curr (i + 1)).1 ∧
      (cap < (fillRow left right cap prev curr (i + 1)).2 →
        ∀ j ≤ right.length, cap < frontDistance left right (i + 1) j) := by
  set lo := max 1 (i + 1 - cap) with hlo
  set hi' := min right.length (i + 1 + cap) with hhi
  have hfirst : frontDistance left right (i + 1) 0 = i + 1 := frontDistance_zero_right _ hi
  -- what stands before the first cell of the band
  set start := if lo > 1 then writeCell (writeCell curr 0 (i + 1)) (lo - 1) (cap + 1)
    else writeCell curr 0 (i + 1) with hstart
  have hstartLength : start.length = right.length + 1 := by
    rw [hstart]
    split <;> simp [hcurr]
  have hbefore : Filling left right cap (i + 1) lo 0 (start, i + 1) := by
    refine ⟨hstartLength, fun j hj hj' ↦ ?_, le_rfl, fun j hj hj' ↦ absurd hj' (by omega)⟩
    obtain rfl : j = lo - 1 := by omega
    rw [hstart]
    split
    · next hgt =>
        rw [readCell_writeCell (by simp; omega), if_pos rfl]
        exact agrees_off (cap_lt_frontDistance hi (by omega) (by omega))
    · next hle =>
        have hzero : lo - 1 = 0 := by omega
        rw [hzero, readCell_writeCell (by omega), if_pos rfl, hfirst]
        rfl
  have hlast : lo + (hi' + 1 - lo) ≤ min right.length (i + 1 + cap) + 1 := by omega
  have hloop := hbefore.foldl hi hprev hlo hlast
  set state := (List.range' lo (hi' + 1 - lo)).foldl
    (NearDuplicates.fillCell left right cap prev (i + 1)) (start, i + 1) with hstate
  have hrow : fillRow left right cap prev curr (i + 1) =
      (if hi' < right.length then writeCell state.1 (hi' + 1) (cap + 1) else state.1, state.2) := rfl
  rw [hrow]
  refine ⟨⟨?_, fun j hj hj' hj'' ↦ ?_⟩, fun hmin j hj ↦ ?_⟩
  · split <;> simp [hloop.length]
  · simp only
    split
    · next hlt =>
        rw [readCell_writeCell (by rw [hloop.length]; omega)]
        split
        · next heq => exact agrees_off (cap_lt_frontDistance hi hj (by omega))
        · next hne => exact hloop.agrees j (by omega) (by omega)
    · next hge => exact hloop.agrees j (by omega) (by omega)
  · by_cases hband : lo ≤ j ∧ j < lo + (hi' + 1 - lo)
    · have hcell := hloop.agrees j (by omega) hband.2
      have hleast := hloop.least.2 j hband.1 hband.2
      unfold Agrees at hcell
      omega
    · by_cases hzero : j = 0
      · have hleast := hloop.least.1
        rw [hzero, hfirst]
        omega
      · exact cap_lt_frontDistance hi hj (by omega)

theorem fillRows_eq (turns : ℕ) (hturns : i + turns = left.length)
    (hprev : Filled left right cap i prev) (hcurr : curr.length = right.length + 1)
    (hlengths : left.length ≤ right.length + cap) (hlengths' : right.length ≤ left.length + cap) :
    fillRows left right cap turns (i + 1) prev curr = min (editDistance left right) (cap + 1) := by
  induction turns generalizing i prev curr with
  | zero =>
      have hlast := hprev.agrees right.length le_rfl (by omega) (by omega)
      rw [frontDistance, List.take_length, show i = left.length by omega, List.take_length] at hlast
      exact hlast
  | succ turns ih =>
      obtain ⟨hfilled, hfar⟩ := filled_fillRow (by omega) hprev hcurr hlengths
      rw [fillRows]
      simp only
      split
      · next hgt =>
          obtain ⟨j, hj, hle⟩ := exists_take_editDistance_le left right (i + 1)
          have hrow := hfar hgt j hj
          rw [frontDistance] at hrow
          omega
      · exact ih (by omega) hfilled hprev.length

/-- The capped distance is exact. -/
theorem levenshteinWithin_eq (left right : JsString) (cap : ℕ) :
    levenshteinWithin left right cap = min (editDistance left right) (cap + 1) := by
  have hleft := length_le_add_editDistance left right
  have hright := length_le_add_editDistance right left
  rw [editDistance_comm] at hright
  unfold levenshteinWithin
  split
  · next heq =>
      rw [heq, editDistance_self]
      rfl
  · split
    · next hfar => omega
    · next hnear =>
        split
        · next hzero => rw [List.length_eq_zero_iff.mp hzero, editDistance_nil]
        · split
          · next hzero => rw [List.length_eq_zero_iff.mp hzero, editDistance_nil_right]
          · exact fillRows_eq left.length (Nat.zero_add _) filled_zero (by simp) (by omega)
              (by omega)

end

end TestIntelligence.CoreEngine.NearDuplicates
