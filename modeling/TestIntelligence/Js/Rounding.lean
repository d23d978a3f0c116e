import TestIntelligence.Js.Number

/-!
# Rounding is monotone

A larger rational is rounded to a number that is no smaller, and the comparison of numbers
is transitive.
-/

namespace TestIntelligence.Js

theorem roundHalfEven_mono {x y : ℚ} (h : x ≤ y) : roundHalfEven x ≤ roundHalfEven y := by
  have hfloor : ⌊x⌋ ≤ ⌊y⌋ := Int.floor_le_floor h
  rcases hfloor.lt_or_eq with hlt | heq
  · rcases roundHalfEven_mem x with hx | hx <;> rcases roundHalfEven_mem y with hy | hy <;> omega
  · have hfract : x - ⌊x⌋ ≤ y - ⌊y⌋ := by
      rw [heq]
      linarith
    unfold roundHalfEven
    rw [heq] at hfract ⊢
    split_ifs <;> first | omega | linarith

/-- The rounded value when no number is too large. -/
def rounded (q : ℚ) : ℚ := roundHalfEven (q / pow2 (lastBit q)) * pow2 (lastBit q)

theorem round64_eq_rounded (q : ℚ) :
    round64 q = if |rounded q| < pow2 1024 then some (rounded q) else none := by
  by_cases hq : q = 0
  · have hzero : roundHalfEven 0 = 0 := roundHalfEven_intCast 0
    simp [hq, round64, rounded, hzero, pow2_pos]
  · rw [round64, if_neg hq]
    rfl

theorem rounded_nonneg {q : ℚ} (hq : 0 ≤ q) : 0 ≤ rounded q := by
  have hround := roundHalfEven_mono (div_nonneg hq (pow2_pos (lastBit q)).le)
  have hzero : roundHalfEven 0 = 0 := roundHalfEven_intCast 0
  rw [hzero] at hround
  exact mul_nonneg (by exact_mod_cast hround) (pow2_pos _).le

theorem lastBit_mono {p q : ℚ} (hp : 0 < p) (h : p ≤ q) : lastBit p ≤ lastBit q := by
  have hlog : Int.log 2 |p| ≤ Int.log 2 |q| := by
    rw [abs_of_pos hp, abs_of_pos (hp.trans_le h)]
    exact Int.log_mono_right hp h
  unfold lastBit
  omega

theorem rounded_mono {p q : ℚ} (hp : 0 ≤ p) (h : p ≤ q) : rounded p ≤ rounded q := by
  rcases hp.eq_or_lt with rfl | hpos
  · have hzero : roundHalfEven 0 = 0 := roundHalfEven_intCast 0
    have hleft : rounded 0 = 0 := by simp [rounded, hzero]
    rw [hleft]
    exact rounded_nonneg h
  · rcases (lastBit_mono hpos h).eq_or_lt with heq | hlt
    · unfold rounded
      rw [heq]
      apply mul_le_mul_of_nonneg_right _ (pow2_pos _).le
      exact_mod_cast roundHalfEven_mono (div_le_div_of_nonneg_right h (pow2_pos _).le)
    · -- a power of two lies between the two numbers
      have hq : 0 < q := hpos.trans_le h
      have hbottom : lastBit q ≠ -1074 := by
        have := lastBit_ge p
        omega
      have hlow := pow2_lastBit_le_abs hq.ne' hbottom
      rw [abs_of_pos hq, ← le_div_iff₀ (pow2_pos _)] at hlow
      have hhigh := abs_lt_pow2_lastBit p
      rw [abs_of_pos hpos, ← div_lt_iff₀ (pow2_pos _)] at hhigh
      have hright : (2 ^ 52 : ℤ) ≤ roundHalfEven (q / pow2 (lastBit q)) := by
        rw [← roundHalfEven_intCast (2 ^ 52)]
        exact roundHalfEven_mono (by exact_mod_cast hlow)
      have hleft : roundHalfEven (p / pow2 (lastBit p)) ≤ (2 ^ 53 : ℤ) := by
        rw [← roundHalfEven_intCast (2 ^ 53)]
        exact roundHalfEven_mono (by exact_mod_cast hhigh.le)
      have hpow : pow2 (lastBit p + 1) ≤ pow2 (lastBit q) := by
        rw [pow2_eq_zpow, pow2_eq_zpow]
        exact zpow_le_zpow_right₀ (by norm_num) (by omega)
      have hone : pow2 1 = 2 := by norm_num [pow2_eq_zpow]
      rw [pow2_add, hone] at hpow
      calc
        rounded p ≤ 2 ^ 53 * pow2 (lastBit p) := by
          apply mul_le_mul_of_nonneg_right _ (pow2_pos _).le
          exact_mod_cast hleft
        _ = 2 ^ 52 * (pow2 (lastBit p) * 2) := by ring
        _ ≤ 2 ^ 52 * pow2 (lastBit q) := by gcongr
        _ ≤ rounded q := by
          apply mul_le_mul_of_nonneg_right _ (pow2_pos _).le
          exact_mod_cast hright

namespace JsNumber

theorem ofRat_of_nonneg {q : ℚ} (hq : 0 ≤ q) :
    (∃ d : Double, ofRat q = .finite d ∧ d.val = rounded q) ∨
      ofRat q = .infinity false ∧ pow2 1024 ≤ rounded q := by
  have hround := round64_eq_rounded q
  rw [abs_of_nonneg (rounded_nonneg hq)] at hround
  split at hround
  · have hof := ofRat_of_round64 hround fun h ↦ absurd h.1 (not_lt.mpr hq)
    exact .inl ⟨_, hof, rfl⟩
  · next hlarge =>
    refine .inr ⟨?_, not_lt.mp hlarge⟩
    unfold ofRat
    split
    · rw [decide_eq_false (not_lt.mpr hq)]
    · next r hr => cases hround.symm.trans hr

theorem ofRat_mono {p q : ℚ} (hp : 0 ≤ p) (h : p ≤ q) : (ofRat p).le (ofRat q) = true := by
  have hle := rounded_mono hp h
  rcases ofRat_of_nonneg hp with ⟨d, hd, hdval⟩ | ⟨hd, hlarge⟩
  · rcases ofRat_of_nonneg (hp.trans h) with ⟨e, he, heval⟩ | ⟨he, -⟩
    · rw [hd, he, le_finite_iff, hdval, heval]
      exact hle
    · rw [hd, he]
      rfl
  · rcases ofRat_of_nonneg (hp.trans h) with ⟨e, he, heval⟩ | ⟨he, -⟩
    · have hsmall := (isBinary64_of_round64 e.exact).1
      rw [heval, abs_of_nonneg (rounded_nonneg (hp.trans h))] at hsmall
      exact absurd (hlarge.trans hle) (not_le.mpr hsmall)
    · rw [hd, he]
      rfl

theorem le_of_le_of_le {x y z : JsNumber} (hxy : x.le y = true) (hyz : y.le z = true) :
    x.le z = true := by
  cases x <;> cases y <;> cases z <;> simp_all [le, lt, strictEq, toRat] <;> grind

theorem ofRat_natCast {n : ℕ} (hn : n ≤ 2 ^ 53) :
    ∃ d : Double, ofRat (n : ℚ) = .finite d ∧ d.val = n := by
  have hround := round64_of_isBinary64 (isBinary64_natCast hn)
  have hpos : (0 : ℚ) ≤ (n : ℚ) := by positivity
  exact ⟨_, ofRat_of_round64 hround fun h ↦ absurd h.1 (not_lt.mpr hpos), rfl⟩

/-- The integer part of a number of the format is one. -/
theorem isBinary64_floor {q : ℚ} (hq : IsBinary64 q) (hpos : 0 ≤ q) : IsBinary64 (⌊q⌋ : ℚ) := by
  obtain ⟨hlt, m, e, hm, he, rfl⟩ := hq
  rcases le_or_gt 0 e with hexp | hexp
  · obtain ⟨k, rfl⟩ := Int.eq_ofNat_of_zero_le hexp
    have hint : (m : ℚ) * pow2 (k : ℤ) = ((m * 2 ^ k : ℤ) : ℚ) := by
      rw [pow2_natCast]
      push_cast
      ring
    have hfloor : (⌊(m : ℚ) * pow2 (k : ℤ)⌋ : ℚ) = (m : ℚ) * pow2 (k : ℤ) := by
      rw [hint, Int.floor_intCast]
    rw [hfloor]
    exact ⟨hlt, m, k, hm, he, rfl⟩
  · have hpow : pow2 e ≤ 1 := by
      rw [pow2_eq_zpow]
      exact zpow_le_one_of_nonpos₀ (by norm_num) hexp.le
    have hm' : (m : ℚ) ≤ 2 ^ 53 := by exact_mod_cast ((le_abs_self m).trans hm.le)
    have hfloor : 0 ≤ ⌊(m : ℚ) * pow2 e⌋ := Int.floor_nonneg.mpr hpos
    have hsmall : (m : ℚ) * pow2 e ≤ 2 ^ 53 := by
      have hm0 : (0 : ℚ) ≤ m := by
        by_contra hneg
        exact absurd hpos (not_le.mpr (mul_neg_of_neg_of_pos (not_le.mp hneg) (pow2_pos e)))
      calc
        (m : ℚ) * pow2 e ≤ m * 1 := by gcongr
        _ ≤ 2 ^ 53 := by linarith
    obtain ⟨n, hn⟩ := Int.eq_ofNat_of_zero_le hfloor
    rw [hn]
    apply isBinary64_natCast
    have hle : (⌊(m : ℚ) * pow2 e⌋ : ℚ) ≤ 2 ^ 53 := (Int.floor_le _).trans hsmall
    rw [hn] at hle
    exact_mod_cast hle

/-! ## Sums of counts -/

theorem add_finite (d e : Double) :
    (JsNumber.finite d).add (.finite e) = ofRat (d.val + e.val) := rfl

/-- A number that is at most a finite one and not negative is finite. -/
theorem ofRat_finite_of_le {q : ℚ} (hq : 0 ≤ q) {x : JsNumber} (hx : x.isFinite = true)
    (h : (ofRat q).le x = true) : ∃ d : Double, ofRat q = .finite d ∧ 0 ≤ d.val := by
  rcases ofRat_of_nonneg hq with ⟨d, hd, hval⟩ | ⟨hd, -⟩
  · exact ⟨d, hd, hval ▸ rounded_nonneg hq⟩
  · rw [hd] at h
    cases x <;> simp_all [le, lt, strictEq, isFinite]

theorem lt_of_lt_le {x y z : JsNumber} (hxy : x.lt y = true) (hyz : y.le z = true) :
    x.lt z = true := by
  cases x <;> cases y <;> cases z <;> simp_all [le, lt, strictEq, toRat] <;> grind

theorem le_of_lt_eq_false {x y : JsNumber} (hx : x.isFinite = true) (hy : y ≠ .nan)
    (h : x.lt y = false) : y.le x = true := by
  cases x <;> cases y <;> simp_all [le, lt, strictEq, isFinite, toRat] <;> grind

theorem lt_eq_false_of_le {x y : JsNumber} (h : x.le y = true) : y.lt x = false := by
  cases x <;> cases y <;> simp_all [le, lt, strictEq, toRat] <;> grind

/-- A count that is not above a limit below `2 ^ 53` is not above it exactly. -/
theorem natCast_le_of_lt_eq_false {d : Double} (hd : d.val < 2 ^ 53) {n : ℕ}
    (h : (JsNumber.finite d).lt (ofRat n) = false) : (n : ℚ) ≤ d.val ∧ n ≤ 2 ^ 53 := by
  have hsmall : n ≤ 2 ^ 53 := by
    by_contra hlarge
    obtain ⟨big, hbig, hval⟩ := ofRat_natCast (le_refl (2 ^ 53))
    have hle : (ofRat ((2 ^ 53 : ℕ) : ℚ)).le (ofRat n) = true :=
      ofRat_mono (Nat.cast_nonneg _) (by exact_mod_cast (not_le.mp hlarge).le)
    have hlt : (JsNumber.finite d).lt (ofRat ((2 ^ 53 : ℕ) : ℚ)) = true := by
      rw [hbig]
      apply decide_eq_true
      rw [toRat, toRat, hval]
      exact_mod_cast hd
    exact absurd (h.symm.trans (lt_of_lt_le hlt hle)) Bool.false_ne_true
  obtain ⟨e, he, hval⟩ := ofRat_natCast hsmall
  rw [he] at h
  have hle := not_lt.mp (of_decide_eq_false h)
  rw [toRat, toRat, hval] at hle
  exact ⟨hle, hsmall⟩

end JsNumber

end TestIntelligence.Js
