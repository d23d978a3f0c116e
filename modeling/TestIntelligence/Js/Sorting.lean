import TestIntelligence.Js.Number
import TestIntelligence.Js.Text

/-!
# Sorting with a comparator

`Array.prototype.sort` is stable and keeps two values in their order unless the
comparator returns a positive number.
-/

namespace TestIntelligence.Js

section

variable {α : Type*}

/-- The order need only be total and transitive on the values of the list. -/
theorem pairwise_insertionSort_of {r : α → α → Prop} [DecidableRel r] {xs : List α}
    (htotal : ∀ a ∈ xs, ∀ b ∈ xs, r a b ∨ r b a)
    (htrans : ∀ a ∈ xs, ∀ b ∈ xs, ∀ c ∈ xs, r a b → r b c → r a c) :
    (xs.insertionSort r).Pairwise r := by
  let r' : {a // a ∈ xs} → {a // a ∈ xs} → Prop := fun a b ↦ r a.1 b.1
  have : DecidableRel r' := fun a b ↦ inferInstanceAs (Decidable (r a.1 b.1))
  have : Std.Total r' := ⟨fun a b ↦ htotal a.1 a.2 b.1 b.2⟩
  have : IsTrans _ r' := ⟨fun a b c ↦ htrans a.1 a.2 b.1 b.2 c.1 c.2⟩
  have hmap : (xs.attach.insertionSort r').map Subtype.val = xs.insertionSort r := by
    rw [List.map_insertionSort r' r Subtype.val xs.attach fun _ _ _ _ ↦ Iff.rfl,
      List.attach_map_subtype_val]
  rw [← hmap, List.pairwise_map]
  exact List.pairwise_insertionSort r' xs.attach

/-- A comparator that orders all values. -/
structure Consistent (compare : α → α → ℤ) : Prop where
  total : ∀ a b, compare a b ≤ 0 ∨ compare b a ≤ 0
  trans : ∀ a b c, compare a b ≤ 0 → compare b c ≤ 0 → compare a c ≤ 0

def sortBy (compare : α → α → ℤ) (xs : List α) : List α :=
  xs.insertionSort fun a b ↦ compare a b ≤ 0

theorem sortBy_perm (compare : α → α → ℤ) (xs : List α) : (sortBy compare xs).Perm xs :=
  List.perm_insertionSort _ xs

@[simp] theorem mem_sortBy {compare : α → α → ℤ} {xs : List α} {x : α} :
    x ∈ sortBy compare xs ↔ x ∈ xs := (sortBy_perm compare xs).mem_iff

theorem Consistent.pairwise_sortBy {compare : α → α → ℤ} (h : Consistent compare) (xs : List α) :
    (sortBy compare xs).Pairwise fun a b ↦ compare a b ≤ 0 :=
  pairwise_insertionSort_of (fun a _ b _ ↦ h.total a b) fun a _ b _ c _ ↦ h.trans a b c

/-- Where only equal values tie, the sorted list does not depend on the order of the values. -/
theorem Consistent.sortBy_eq_of_perm {compare : α → α → ℤ} (h : Consistent compare)
    {xs ys : List α} (hanti : ∀ a ∈ xs, ∀ b ∈ xs, compare a b ≤ 0 → compare b a ≤ 0 → a = b)
    (hperm : xs.Perm ys) : sortBy compare xs = sortBy compare ys := by
  have hsorted := (sortBy_perm compare xs).trans (hperm.trans (sortBy_perm compare ys).symm)
  apply hsorted.eq_of_pairwise _ (h.pairwise_sortBy xs) (h.pairwise_sortBy ys)
  intro a b ha hb
  exact hanti a (mem_sortBy.mp ha) b (hperm.mem_iff.mpr (mem_sortBy.mp hb))

theorem orderedInsert_congr {r r' : α → α → Prop} [DecidableRel r] [DecidableRel r']
    {a : α} {xs : List α} (h : ∀ b ∈ xs, r a b ↔ r' a b) :
    xs.orderedInsert r a = xs.orderedInsert r' a := by
  induction xs with
  | nil => rfl
  | cons b xs ih =>
      obtain ⟨hb, hxs⟩ := List.forall_mem_cons.mp h
      rw [List.orderedInsert_cons, List.orderedInsert_cons, ih hxs]
      simp only [hb]

/-- Two comparators that agree on the pairs of the list sort it alike. -/
theorem sortBy_congr {compare compare' : α → α → ℤ} {xs : List α}
    (h : xs.Pairwise fun a b ↦ (compare a b ≤ 0 ↔ compare' a b ≤ 0)) :
    sortBy compare xs = sortBy compare' xs := by
  induction xs with
  | nil => rfl
  | cons a xs ih =>
      obtain ⟨ha, hxs⟩ := List.pairwise_cons.mp h
      have hrest : xs.insertionSort (fun a b ↦ compare a b ≤ 0) =
          xs.insertionSort (fun a b ↦ compare' a b ≤ 0) := ih hxs
      rw [sortBy, sortBy, List.insertionSort_cons, List.insertionSort_cons, hrest]
      apply orderedInsert_congr
      intro b hb
      exact ha b ((List.perm_insertionSort _ xs).mem_iff.mp hb)

/-- Where only equal values tie, the sorted list says no more than the values with their
multiplicities. -/
theorem Consistent.sortBy_eq_iff {compare : α → α → ℤ} (h : Consistent compare)
    (hanti : ∀ a b, compare a b ≤ 0 → compare b a ≤ 0 → a = b) {xs ys : List α} :
    sortBy compare xs = sortBy compare ys ↔ xs.Perm ys := by
  constructor
  · intro heq
    exact (sortBy_perm compare xs).symm.trans (heq ▸ sortBy_perm compare ys)
  · exact h.sortBy_eq_of_perm fun a _ b _ ↦ hanti a b

theorem Consistent.comap {β : Type*} {compare : α → α → ℤ} (h : Consistent compare) (f : β → α) :
    Consistent fun a b ↦ compare (f a) (f b) :=
  ⟨fun a b ↦ h.total (f a) (f b), fun a b c ↦ h.trans (f a) (f b) (f c)⟩

end

/-- The order of the code units; on texts of lower-case letters it is that of the root
collation. -/
def codeUnitCompare (s t : JsString) : ℤ := if s < t then -1 else if s = t then 0 else 1

theorem codeUnitCompare_nonpos {s t : JsString} : codeUnitCompare s t ≤ 0 ↔ s ≤ t := by
  unfold codeUnitCompare
  split
  · next hlt => simpa using Std.le_of_lt hlt
  · next hlt =>
    split
    · next heq => simp [heq]
    · next hne =>
      refine ⟨fun h ↦ absurd h (by decide), fun hle ↦ ?_⟩
      exact absurd (Std.le_antisymm hle (Std.not_lt.mp hlt)) hne

theorem consistent_codeUnitCompare : Consistent codeUnitCompare := by
  constructor
  · intro s t
    rw [codeUnitCompare_nonpos, codeUnitCompare_nonpos]
    exact Std.le_total
  · intro s t u
    rw [codeUnitCompare_nonpos, codeUnitCompare_nonpos, codeUnitCompare_nonpos]
    exact Std.le_trans

section

variable {α β : Type*} [LT β] [LE β] [Std.LawfulOrderLT β] [Std.IsLinearOrder β]
  {compare second : α → α → ℤ}

/-- A comparator that goes by a value, and by another comparator where that is the same. -/
theorem consistent_of_lex (hsecond : Consistent second) {f : α → β}
    (h : ∀ a b, compare a b ≤ 0 ↔ f a < f b ∨ f a = f b ∧ second a b ≤ 0) :
    Consistent compare := by
  constructor
  · intro a b
    rw [h, h]
    rcases Std.lt_trichotomy (f a) (f b) with hlt | heq | hlt
    · exact Or.inl (Or.inl hlt)
    · rcases hsecond.total a b with hle | hle
      · exact Or.inl (Or.inr ⟨heq, hle⟩)
      · exact Or.inr (Or.inr ⟨heq.symm, hle⟩)
    · exact Or.inr (Or.inl hlt)
  · intro a b c
    rw [h, h, h]
    rintro (hab | ⟨hab, hab'⟩) (hbc | ⟨hbc, hbc'⟩)
    · exact Or.inl (Std.lt_trans hab hbc)
    · exact Or.inl (hbc ▸ hab)
    · exact Or.inl (hab ▸ hbc)
    · exact Or.inr ⟨hab.trans hbc, hsecond.trans a b c hab' hbc'⟩

theorem eq_of_lex {f : α → β}
    (h : ∀ a b, compare a b ≤ 0 ↔ f a < f b ∨ f a = f b ∧ second a b ≤ 0) {a b : α}
    (hab : compare a b ≤ 0) (hba : compare b a ≤ 0) :
    f a = f b ∧ second a b ≤ 0 ∧ second b a ≤ 0 := by
  rw [h] at hab hba
  rcases hab with hab | ⟨hfirst, hsecond⟩
  · rcases hba with hba | ⟨hfirst, -⟩
    · exact absurd hba (Std.not_lt.mpr (Std.le_of_lt hab))
    · exact absurd hab (hfirst ▸ Std.lt_irrefl)
  · rcases hba with hba | ⟨-, hsecond'⟩
    · exact absurd hba (hfirst ▸ Std.lt_irrefl)
    · exact ⟨hfirst, hsecond, hsecond'⟩

/-- A comparator that goes by two texts. -/
theorem consistent_of_texts {f g : α → JsString}
    (h : ∀ a b, compare a b ≤ 0 ↔ f a < f b ∨ f a = f b ∧ g a ≤ g b) : Consistent compare := by
  refine consistent_of_lex (f := f) (consistent_codeUnitCompare.comap g) fun a b ↦ ?_
  rw [h, codeUnitCompare_nonpos]

theorem texts_eq_of_compare {f g : α → JsString}
    (h : ∀ a b, compare a b ≤ 0 ↔ f a < f b ∨ f a = f b ∧ g a ≤ g b) {a b : α}
    (hab : compare a b ≤ 0) (hba : compare b a ≤ 0) : f a = f b ∧ g a = g b := by
  have hlex : ∀ a b, compare a b ≤ 0 ↔
      f a < f b ∨ f a = f b ∧ codeUnitCompare (g a) (g b) ≤ 0 := by
    intro a b
    rw [h, codeUnitCompare_nonpos]
  obtain ⟨hfirst, hle, hge⟩ := eq_of_lex hlex hab hba
  exact ⟨hfirst, Std.le_antisymm (codeUnitCompare_nonpos.mp hle) (codeUnitCompare_nonpos.mp hge)⟩

end

namespace JsNumber

theorem zero_lt_ofRat {j : ℤ} (hj : 0 < j) : lt 0 (ofRat (j * pow2 (-1074))) = true := by
  have hpow := pow2_pos (-1074)
  have hq : 0 < (j : ℚ) * pow2 (-1074) := mul_pos (by exact_mod_cast hj) hpow
  have hzero : (0 : JsNumber) = ofRat 0 := congrArg ofRat Nat.cast_zero
  rw [hzero, ofRat_zero]
  unfold ofRat
  split
  · simp [lt, hq.le]
  · next r hr =>
      have hsmallest : round64 (pow2 (-1074)) = some (pow2 (-1074)) := by
        apply round64_of_isBinary64
        refine ⟨?_, 1, -1074, by norm_num, le_rfl, by simp⟩
        rw [abs_of_pos hpow, pow2_eq_zpow, pow2_eq_zpow]
        exact zpow_lt_zpow_right₀ (by norm_num) (by norm_num)
      have hle : pow2 (-1074) ≤ (j : ℚ) * pow2 (-1074) := by
        apply le_mul_of_one_le_left hpow.le
        exact_mod_cast hj
      have hr' : pow2 (-1074) ≤ r := le_of_round64 hsmallest hle hr
      split
      · next hneg => exact absurd hq (not_lt.mpr hneg.1.le)
      · exact decide_eq_true (lt_of_lt_of_le hpow hr')

/-- A number of the format is a multiple of the smallest one. -/
theorem exists_eq_mul_smallest (x : Double) : ∃ j : ℤ, x.val = j * pow2 (-1074) :=
  exists_eq_mul_pow2 x.exact (lastBit_ge _)

theorem zero_lt_ofRat_sub {p q : ℚ} (hp : ∃ j : ℤ, p = j * pow2 (-1074))
    (hq : ∃ j : ℤ, q = j * pow2 (-1074)) : lt 0 (ofRat (p - q)) = decide (q < p) := by
  by_cases hlt : q < p
  · obtain ⟨j, rfl⟩ := hp
    obtain ⟨k, rfl⟩ := hq
    have hkj : k < j := by
      exact_mod_cast lt_of_mul_lt_mul_right hlt (pow2_pos (-1074)).le
    have hsub : (j : ℚ) * pow2 (-1074) - k * pow2 (-1074) = ((j - k : ℤ) : ℚ) * pow2 (-1074) := by
      push_cast
      ring
    rw [hsub, zero_lt_ofRat (by omega), decide_eq_true hlt]
  · rw [decide_eq_false hlt]
    exact zero_lt_ofRat_eq_false (sub_nonpos.mpr (not_lt.mp hlt))

/-- Rounding a difference keeps its sign. -/
theorem zero_lt_sub (x y : JsNumber) : lt 0 (x.sub y) = y.lt x := by
  have hpositive := zero_lt_infinity
  have hnegative := zero_lt_negInfinity
  have hnan := zero_lt_nan
  have hzero : ∃ j : ℤ, (0 : ℚ) = j * pow2 (-1074) := ⟨0, by simp⟩
  cases x with
  | nan => cases y <;> exact hnan
  | infinity a =>
      cases y with
      | nan => exact hnan
      | infinity b => cases a <;> cases b <;> first | exact hnan | exact hpositive
      | negZero => cases a <;> first | exact hpositive | exact hnegative
      | finite y => cases a <;> first | exact hpositive | exact hnegative
  | negZero =>
      cases y with
      | nan => exact hnan
      | infinity b => cases b <;> first | exact hpositive | exact hnegative
      | negZero => exact zero_lt_ofRat_sub hzero hzero
      | finite y =>
          by_cases hy : y.val = 0
          · rw [sub, if_pos hy, zero_lt_negZero]
            simp [lt, toRat, hy]
          · rw [sub, if_neg hy]
            exact zero_lt_ofRat_sub hzero (exists_eq_mul_smallest y)
  | finite x =>
      cases y with
      | nan => exact hnan
      | infinity b => cases b <;> first | exact hpositive | exact hnegative
      | negZero => exact zero_lt_ofRat_sub (exists_eq_mul_smallest x) hzero
      | finite y => exact zero_lt_ofRat_sub (exists_eq_mul_smallest x) (exists_eq_mul_smallest y)

/-- The numbers that are not `NaN` are in a total order. -/
theorem lt_eq_false_trans {x y z : JsNumber} (hy : y ≠ .nan) (hxy : y.lt x = false)
    (hyz : z.lt y = false) : z.lt x = false := by
  cases x <;> cases y <;> cases z <;> simp_all [lt, toRat] <;> grind

theorem lt_eq_false_total (x y : JsNumber) : y.lt x = false ∨ x.lt y = false := by
  by_contra h
  simp only [not_or, Bool.not_eq_false] at h
  have hself := lt_trans h.1 h.2
  cases y <;> simp [lt] at hself

end JsNumber

end TestIntelligence.Js
