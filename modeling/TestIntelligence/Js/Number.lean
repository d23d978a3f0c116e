import Mathlib.Data.Int.Log
import Mathlib.Data.Rat.Floor
import Mathlib.Tactic.Linarith
import Mathlib.Tactic.Positivity

/-!
# Double-precision numbers

A finite number is a rational that survives rounding to the binary64 format,
so every finite value carries the proof that it is representable.  Arithmetic
computes the exact rational result and rounds it once, to nearest with ties to
even; results of magnitude `2 ^ 1024` and more become infinite.
-/

namespace TestIntelligence.Js

/-- `b ^ e` for an integer exponent. -/
def powInt (b : ℕ) (e : ℤ) : ℚ :=
  if 0 ≤ e then ((b ^ e.toNat : ℕ) : ℚ) else 1 / ((b ^ (-e).toNat : ℕ) : ℚ)

theorem powInt_eq_zpow (b : ℕ) (e : ℤ) : powInt b e = (b : ℚ) ^ e := by
  obtain ⟨n, rfl | rfl⟩ := e.eq_nat_or_neg
  · simp [powInt]
  · cases n with
    | zero => simp [powInt]
    | succ n =>
        have hneg : ¬ (0 : ℤ) ≤ -((n + 1 : ℕ) : ℤ) := by omega
        simp only [powInt, if_neg hneg, neg_neg, Int.toNat_natCast, zpow_neg, zpow_natCast]
        simp

theorem powInt_pos {b : ℕ} (hb : 0 < b) (e : ℤ) : 0 < powInt b e := by
  rw [powInt_eq_zpow]
  exact zpow_pos (by exact_mod_cast hb) e

theorem powInt_add {b : ℕ} (hb : 0 < b) (c d : ℤ) :
    powInt b (c + d) = powInt b c * powInt b d := by
  simp only [powInt_eq_zpow]
  exact zpow_add₀ (by exact_mod_cast hb.ne') c d

theorem powInt_natCast (b n : ℕ) : powInt b n = ((b ^ n : ℤ) : ℚ) := by
  simp [powInt_eq_zpow]

abbrev pow2 : ℤ → ℚ := powInt 2

theorem pow2_pos (e : ℤ) : 0 < pow2 e := powInt_pos (by norm_num) e

theorem pow2_add (c d : ℤ) : pow2 (c + d) = pow2 c * pow2 d := powInt_add (by norm_num) c d

theorem pow2_eq_zpow (e : ℤ) : pow2 e = (2 : ℚ) ^ e := by
  exact_mod_cast powInt_eq_zpow 2 e

theorem pow2_natCast (n : ℕ) : pow2 n = ((2 ^ n : ℤ) : ℚ) := by
  exact_mod_cast powInt_natCast 2 n

theorem pow2_mantissa : pow2 53 = ((2 ^ 53 : ℤ) : ℚ) := by
  exact_mod_cast pow2_natCast 53

/-- The nearest integer, ties going to the even one. -/
def roundHalfEven (x : ℚ) : ℤ :=
  if x - ⌊x⌋ < 1 / 2 then ⌊x⌋
  else if 1 / 2 < x - ⌊x⌋ then ⌊x⌋ + 1
  else if ⌊x⌋ % 2 = 0 then ⌊x⌋ else ⌊x⌋ + 1

@[simp] theorem roundHalfEven_intCast (n : ℤ) : roundHalfEven (n : ℚ) = n := by
  simp [roundHalfEven]

theorem roundHalfEven_mem (x : ℚ) : roundHalfEven x = ⌊x⌋ ∨ roundHalfEven x = ⌊x⌋ + 1 := by
  unfold roundHalfEven
  split
  · exact Or.inl rfl
  · split
    · exact Or.inr rfl
    · split
      · exact Or.inl rfl
      · exact Or.inr rfl

theorem roundHalfEven_neg (x : ℚ) : roundHalfEven (-x) = -roundHalfEven x := by
  by_cases hint : x = ⌊x⌋
  · rw [hint, ← Int.cast_neg, roundHalfEven_intCast, roundHalfEven_intCast]
  · have hlt : (⌊x⌋ : ℚ) < x := lt_of_le_of_ne (Int.floor_le x) (Ne.symm hint)
    have hfloor : ⌊-x⌋ = -⌊x⌋ - 1 := by
      rw [Int.floor_eq_iff]
      push_cast
      have := Int.lt_floor_add_one x
      constructor <;> linarith
    simp only [roundHalfEven, hfloor]
    push_cast
    split_ifs <;> first | omega | (exfalso; linarith)

/-- Rounding keeps a value between two integers between them. -/
theorem abs_roundHalfEven_le {x : ℚ} {n : ℤ} (h : |x| ≤ n) : |roundHalfEven x| ≤ n := by
  have hlow : -n ≤ ⌊x⌋ := by
    apply Int.le_floor.mpr
    push_cast
    exact (abs_le.mp h).1
  have hfloor : (⌊x⌋ : ℚ) ≤ n := (Int.floor_le x).trans (abs_le.mp h).2
  have hhigh : ⌊x⌋ ≤ n := by exact_mod_cast hfloor
  rcases roundHalfEven_mem x with heq | heq
  · rw [heq, abs_le]
    exact ⟨hlow, hhigh⟩
  · by_cases htop : ⌊x⌋ = n
    · have hx : x = n := le_antisymm (abs_le.mp h).2 (htop ▸ Int.floor_le x)
      rw [hx, roundHalfEven_intCast]
      rw [hx] at h
      exact_mod_cast h
    · rw [heq, abs_le]
      omega

/-! ## Rounding to binary64 -/

/-- The weight of the last mantissa bit of a number of magnitude `|q|`. -/
def lastBit (q : ℚ) : ℤ := max (Int.log 2 |q| - 52) (-1074)

/-- Round to binary64; `none` is overflow. -/
def round64 (q : ℚ) : Option ℚ :=
  if q = 0 then some 0
  else
    let r := (roundHalfEven (q / pow2 (lastBit q)) : ℚ) * pow2 (lastBit q)
    if |r| < pow2 1024 then some r else none

theorem lastBit_ge (q : ℚ) : -1074 ≤ lastBit q := le_max_right _ _

theorem abs_lt_pow2_lastBit (q : ℚ) : |q| < 2 ^ 53 * pow2 (lastBit q) := by
  have hlog : |q| < (2 : ℚ) ^ (Int.log 2 |q| + 1) := by
    simpa using Int.lt_zpow_succ_log_self (R := ℚ) (b := 2) (by norm_num) |q|
  have hexp : Int.log 2 |q| + 1 ≤ 53 + lastBit q := by
    have := le_max_left (Int.log 2 |q| - 52) (-1074)
    unfold lastBit
    omega
  calc
    |q| < (2 : ℚ) ^ (Int.log 2 |q| + 1) := hlog
    _ ≤ (2 : ℚ) ^ (53 + lastBit q) := zpow_le_zpow_right₀ (by norm_num) hexp
    _ = 2 ^ 53 * pow2 (lastBit q) := by
      rw [← pow2_eq_zpow, pow2_add, pow2_mantissa]
      norm_num

/-- The values of the format: a mantissa of 53 bits times a power of two. -/
def IsBinary64 (q : ℚ) : Prop :=
  |q| < pow2 1024 ∧ ∃ m e : ℤ, |m| < 2 ^ 53 ∧ -1074 ≤ e ∧ q = m * pow2 e

/-- A carry out of the mantissa moves into the exponent. -/
theorem exists_mantissa_of_abs_le {m e : ℤ} (hm : |m| ≤ 2 ^ 53) (he : -1074 ≤ e) :
    ∃ m' e' : ℤ, |m'| < 2 ^ 53 ∧ -1074 ≤ e' ∧ (m : ℚ) * pow2 e = m' * pow2 e' := by
  rcases lt_or_eq_of_le hm with hlt | heq
  · exact ⟨m, e, hlt, he, rfl⟩
  · have hhalf : m = 2 * (m / 2) := by
      rcases (abs_eq (by norm_num)).mp heq with h | h <;> rw [h] <;> norm_num
    refine ⟨m / 2, e + 1, ?_, by omega, ?_⟩
    · rcases (abs_eq (by norm_num)).mp heq with h | h <;> rw [h] <;> norm_num
    · have hone : pow2 1 = 2 := by norm_num [pow2_eq_zpow]
      rw [pow2_add, hone]
      conv_lhs => rw [hhalf]
      push_cast
      ring

theorem isBinary64_of_round64 {q r : ℚ} (h : round64 q = some r) : IsBinary64 r := by
  by_cases hq : q = 0
  · simp only [round64, hq, if_pos, Option.some.injEq] at h
    subst h
    exact ⟨by simpa using pow2_pos 1024, 0, 0, by norm_num, by norm_num, by simp⟩
  · simp only [round64, if_neg hq] at h
    split at h
    · next hlt =>
        have hr := Option.some.inj h
        subst hr
        refine ⟨hlt, exists_mantissa_of_abs_le (abs_roundHalfEven_le ?_) (lastBit_ge q)⟩
        rw [abs_div, abs_of_pos (pow2_pos _), div_le_iff₀ (pow2_pos _)]
        exact_mod_cast (abs_lt_pow2_lastBit q).le
    · exact absurd h (by simp)

theorem lastBit_le {m e : ℤ} (hm : |m| < 2 ^ 53) (hm0 : m ≠ 0) (he : -1074 ≤ e) :
    lastBit (m * pow2 e) ≤ e := by
  have hpos : 0 < |(m : ℚ) * pow2 e| :=
    abs_pos.mpr (mul_ne_zero (by exact_mod_cast hm0) (pow2_pos e).ne')
  have hlt : |(m : ℚ) * pow2 e| < (2 : ℚ) ^ (53 + e) := by
    rw [abs_mul, abs_of_pos (pow2_pos e), ← pow2_eq_zpow, pow2_add]
    apply mul_lt_mul_of_pos_right _ (pow2_pos e)
    rw [← Int.cast_abs, pow2_mantissa]
    exact_mod_cast hm
  have hlog : (2 : ℚ) ^ Int.log 2 |(m : ℚ) * pow2 e| ≤ |(m : ℚ) * pow2 e| := by
    simpa using Int.zpow_log_le_self (R := ℚ) (b := 2) (by norm_num) hpos
  have hexp := (zpow_lt_zpow_iff_right₀ (by norm_num : (1 : ℚ) < 2)).mp (hlog.trans_lt hlt)
  unfold lastBit
  omega

/-- Rounding leaves the values of the format alone. -/
theorem round64_of_isBinary64 {q : ℚ} (h : IsBinary64 q) : round64 q = some q := by
  obtain ⟨hlt, m, e, hm, he, rfl⟩ := h
  by_cases hm0 : m = 0
  · simp [hm0, round64]
  · have hq : (m : ℚ) * pow2 e ≠ 0 := mul_ne_zero (by exact_mod_cast hm0) (pow2_pos e).ne'
    obtain ⟨k, hk⟩ := Int.le.dest (lastBit_le hm hm0 he)
    have hdiv : (m : ℚ) * pow2 e / pow2 (lastBit (m * pow2 e)) = ((m * 2 ^ k : ℤ) : ℚ) := by
      have hsplit : pow2 e = pow2 (lastBit (m * pow2 e)) * ((2 ^ k : ℤ) : ℚ) := by
        rw [← pow2_natCast, ← pow2_add, hk]
      rw [div_eq_iff (pow2_pos _).ne']
      conv_lhs => rw [hsplit]
      push_cast
      ring
    have hround : (roundHalfEven ((m : ℚ) * pow2 e / pow2 (lastBit (m * pow2 e))) : ℚ) *
        pow2 (lastBit (m * pow2 e)) = m * pow2 e := by
      rw [hdiv, roundHalfEven_intCast, ← hdiv, div_mul_cancel₀ _ (pow2_pos _).ne']
    simp only [round64, if_neg hq, hround, if_pos hlt]

theorem round64_neg (q : ℚ) : round64 (-q) = (round64 q).map (-·) := by
  by_cases hq : q = 0
  · simp [hq, round64]
  · have hlast : lastBit (-q) = lastBit q := by simp [lastBit]
    simp only [round64, neg_eq_zero, if_neg hq, hlast, neg_div, roundHalfEven_neg,
      Int.cast_neg, neg_mul, abs_neg]
    split <;> simp

theorem round64_round64 {q r : ℚ} (h : round64 q = some r) : round64 r = some r :=
  round64_of_isBinary64 (isBinary64_of_round64 h)

theorem roundHalfEven_nonpos {x : ℚ} (hx : x < 0) : roundHalfEven x ≤ 0 := by
  have hfloor : ⌊x⌋ < 0 := Int.floor_lt.mpr (by simpa using hx)
  rcases roundHalfEven_mem x with h | h <;> omega

/-- Rounding does not cross zero. -/
theorem round64_nonpos {q r : ℚ} (hq : q ≤ 0) (h : round64 q = some r) : r ≤ 0 := by
  by_cases hzero : q = 0
  · simp only [round64, hzero, if_pos, Option.some.injEq] at h
    exact h.symm.le
  · simp only [round64, if_neg hzero] at h
    split at h
    · have hneg : q / pow2 (lastBit q) < 0 :=
        div_neg_of_neg_of_pos (lt_of_le_of_ne hq hzero) (pow2_pos _)
      have hround : ((roundHalfEven (q / pow2 (lastBit q)) : ℤ) : ℚ) ≤ 0 := by
        exact_mod_cast roundHalfEven_nonpos hneg
      rw [← Option.some.inj h]
      exact mul_nonpos_of_nonpos_of_nonneg hround (pow2_pos _).le
    · cases h

/-- Above the smallest numbers the mantissa has its leading bit. -/
theorem pow2_lastBit_le_abs {q : ℚ} (hq : q ≠ 0) (h : lastBit q ≠ -1074) :
    2 ^ 52 * pow2 (lastBit q) ≤ |q| := by
  have hlog : lastBit q + 52 = Int.log 2 |q| := by
    unfold lastBit at h ⊢
    omega
  have hlow : (2 : ℚ) ^ Int.log 2 |q| ≤ |q| := by
    simpa using Int.zpow_log_le_self (R := ℚ) (b := 2) (by norm_num) (abs_pos.mpr hq)
  rw [← hlog, ← pow2_eq_zpow, pow2_add] at hlow
  have hpow : pow2 52 = 2 ^ 52 := by norm_num [pow2_eq_zpow]
  rwa [hpow, mul_comm] at hlow

theorem le_lastBit_of_pow2_le {d : ℚ} {e : ℤ} (h : 2 ^ 52 * pow2 e ≤ |d|) : e ≤ lastBit d := by
  have hpos : 0 < |d| := lt_of_lt_of_le (mul_pos (by norm_num) (pow2_pos e)) h
  have hpow : (2 : ℚ) ^ 52 * pow2 e = (2 : ℚ) ^ (52 + e) := by
    rw [pow2_eq_zpow, zpow_add₀ (by norm_num)]
    norm_num
  have hlog : 52 + e ≤ Int.log 2 |d| := by
    apply (Int.zpow_le_iff_le_log (by norm_num) hpos).mp
    rw [hpow] at h
    exact_mod_cast h
  unfold lastBit
  omega

/-- A number of the format is a multiple of its last bit. -/
theorem exists_eq_mul_pow2 {d : ℚ} (hd : round64 d = some d) {e : ℤ} (he : e ≤ lastBit d) :
    ∃ j : ℤ, d = j * pow2 e := by
  by_cases hzero : d = 0
  · exact ⟨0, by simp [hzero]⟩
  · simp only [round64, if_neg hzero] at hd
    split at hd
    · obtain ⟨k, hk⟩ := Int.le.dest he
      have hsplit : pow2 (lastBit d) = ((2 ^ k : ℤ) : ℚ) * pow2 e := by
        rw [← hk, pow2_add, pow2_natCast, mul_comm]
      refine ⟨roundHalfEven (d / pow2 (lastBit d)) * 2 ^ k, ?_⟩
      calc
        d = roundHalfEven (d / pow2 (lastBit d)) * pow2 (lastBit d) := (Option.some.inj hd).symm
        _ = roundHalfEven (d / pow2 (lastBit d)) * (((2 ^ k : ℤ) : ℚ) * pow2 e) := by
          rw [← hsplit]
        _ = ((roundHalfEven (d / pow2 (lastBit d)) * 2 ^ k : ℤ) : ℚ) * pow2 e := by
          rw [← mul_assoc, Int.cast_mul]
    · cases hd

/-- Rounding does not go below a number of the format. -/
theorem le_of_round64 {d q r : ℚ} (hd : round64 d = some d) (hdq : d ≤ q)
    (hr : round64 q = some r) : d ≤ r := by
  by_cases hq : q = 0
  · simp only [round64, hq, if_pos, Option.some.injEq] at hr
    rw [← hr, ← hq]
    exact hdq
  · by_contra hlt
    rw [not_le] at hlt
    simp only [round64, if_neg hq] at hr
    split at hr
    · have hpos := pow2_pos (lastBit q)
      have hrk : (roundHalfEven (q / pow2 (lastBit q)) : ℚ) * pow2 (lastBit q) = r :=
        Option.some.inj hr
      have hfloor : roundHalfEven (q / pow2 (lastBit q)) = ⌊q / pow2 (lastBit q)⌋ := by
        rcases roundHalfEven_mem (q / pow2 (lastBit q)) with h | h
        · exact h
        · have hge : q < r := by
            rw [← hrk, h, ← div_lt_iff₀ hpos]
            exact_mod_cast Int.lt_floor_add_one (q / pow2 (lastBit q))
          linarith
      have hbits : lastBit q ≤ lastBit d := by
        by_cases hbottom : lastBit q = -1074
        · exact hbottom ▸ lastBit_ge d
        · apply le_lastBit_of_pow2_le
          have hlow := pow2_lastBit_le_abs hq hbottom
          rcases lt_or_gt_of_ne hq with hneg | hqpos
          · rw [abs_of_neg hneg] at hlow
            rw [abs_of_neg (lt_of_le_of_lt hdq hneg)]
            linarith
          · rw [abs_of_pos hqpos, ← le_div_iff₀ hpos] at hlow
            have hk : (2 ^ 52 : ℤ) ≤ ⌊q / pow2 (lastBit q)⌋ := by
              apply Int.le_floor.mpr
              exact_mod_cast hlow
            have hkr : 2 ^ 52 * pow2 (lastBit q) ≤ r := by
              rw [← hrk, hfloor]
              apply mul_le_mul_of_nonneg_right _ hpos.le
              exact_mod_cast hk
            exact (hkr.trans hlt.le).trans (le_abs_self d)
      obtain ⟨j, hj⟩ := exists_eq_mul_pow2 hd hbits
      have hjk : roundHalfEven (q / pow2 (lastBit q)) < j := by
        rw [← hrk, hj] at hlt
        exact_mod_cast lt_of_mul_lt_mul_right hlt hpos.le
      have hjfloor : j ≤ ⌊q / pow2 (lastBit q)⌋ := by
        apply Int.le_floor.mpr
        rw [le_div_iff₀ hpos, ← hj]
        exact hdq
      omega
    · cases hr

/-! ## Number values -/

/-- A finite number other than negative zero. -/
structure Double where
  val : ℚ
  exact : round64 val = some val

theorem Double.ext_val {x y : Double} (h : x.val = y.val) : x = y := by
  cases x
  cases y
  cases h
  rfl

instance : DecidableEq Double := fun x y ↦
  decidable_of_iff (x.val = y.val) ⟨Double.ext_val, congrArg Double.val⟩

inductive JsNumber where
  | nan
  | infinity (negative : Bool)
  | negZero
  | finite (x : Double)
  deriving DecidableEq

namespace JsNumber

/-- The number value for an exact rational: `𝔽` of the language definition. -/
def ofRat (q : ℚ) : JsNumber :=
  match h : round64 q with
  | none => .infinity (decide (q < 0))
  | some r => if q < 0 ∧ r = 0 then .negZero else .finite ⟨r, round64_round64 h⟩

theorem ofRat_of_round64 {q r : ℚ} (h : round64 q = some r) (hzero : ¬ (q < 0 ∧ r = 0)) :
    ofRat q = .finite ⟨r, round64_round64 h⟩ := by
  unfold ofRat
  split
  · next hnone => simp [hnone] at h
  · next r' hr' =>
      have heq : r' = r := Option.some.inj (hr'.symm.trans h)
      subst heq
      rw [if_neg hzero]

@[simp] theorem ofRat_val (x : Double) : ofRat x.val = .finite x := by
  apply ofRat_of_round64 x.exact
  rintro ⟨hneg, hzero⟩
  rw [hzero] at hneg
  exact lt_irrefl 0 hneg

/-- The exact value of a finite number. -/
def toRat : JsNumber → ℚ
  | .finite x => x.val
  | _ => 0

/-- `Number.isFinite`. -/
def isFinite : JsNumber → Bool
  | .finite _ | .negZero => true
  | .nan | .infinity _ => false

/-- `Number.isInteger`. -/
def isInteger : JsNumber → Bool
  | .finite x => decide (x.val.den = 1)
  | .negZero => true
  | .nan | .infinity _ => false

/-- `x + y`. -/
def add : JsNumber → JsNumber → JsNumber
  | .nan, _ | _, .nan => .nan
  | .infinity a, .infinity b => if a = b then .infinity a else .nan
  | .infinity a, _ | _, .infinity a => .infinity a
  | .negZero, .negZero => .negZero
  | x, y => ofRat (x.toRat + y.toRat)

example (x : JsNumber) : add x .nan = .nan := by cases x <;> simp [add]

/-- `x - y`. -/
def sub : JsNumber → JsNumber → JsNumber
  | .nan, _ | _, .nan => .nan
  | .infinity a, .infinity b => if a = b then .nan else .infinity a
  | .infinity a, _ => .infinity a
  | _, .infinity b => .infinity (!b)
  | .negZero, .finite y => if y.val = 0 then .negZero else ofRat (0 - y.val)
  | x, y => ofRat (x.toRat - y.toRat)

example (x : JsNumber) : sub x .nan = .nan := by cases x <;> simp [sub]

def isNegative : JsNumber → Bool
  | .nan => false
  | .infinity negative => negative
  | .negZero => true
  | .finite x => decide (x.val < 0)

/-- `x / y`. -/
def div : JsNumber → JsNumber → JsNumber
  | .nan, _ | _, .nan => .nan
  | .infinity _, .infinity _ => .nan
  | .infinity a, y => .infinity (a != y.isNegative)
  | x, .infinity b => if x.isNegative != b then .negZero else ofRat 0
  | x, y =>
      if x.toRat = 0 ∧ y.toRat = 0 then .nan
      else if y.toRat = 0 then .infinity (x.isNegative != y.isNegative)
      else if x.toRat = 0 ∧ x.isNegative != y.isNegative then .negZero
      else ofRat (x.toRat / y.toRat)

/-- `x < y`. -/
def lt : JsNumber → JsNumber → Bool
  | .nan, _ | _, .nan => false
  | .infinity a, .infinity b => a && !b
  | .infinity a, _ => a
  | _, .infinity b => !b
  | x, y => decide (x.toRat < y.toRat)

example (x : JsNumber) : lt x .nan = false := by cases x <;> simp [lt]

/-- `x === y`; the two zeros are equal and `NaN` equals nothing. -/
def strictEq : JsNumber → JsNumber → Bool
  | .nan, _ | _, .nan => false
  | .infinity a, .infinity b => a == b
  | .infinity _, _ | _, .infinity _ => false
  | x, y => decide (x.toRat = y.toRat)

example (x : JsNumber) : strictEq x .nan = false := by cases x <;> simp [strictEq]

/-- `x <= y`. -/
def le (x y : JsNumber) : Bool := lt x y || strictEq x y

instance (n : ℕ) : OfNat JsNumber n := ⟨ofRat n⟩

theorem ofRat_zero : ofRat 0 = .finite ⟨0, by simp [round64]⟩ :=
  ofRat_of_round64 (by simp [round64]) (by simp)

/-- `Math.max(x, y)`. -/
def max : JsNumber → JsNumber → JsNumber
  | .nan, _ | _, .nan => .nan
  | .negZero, y => if y.lt .negZero then .negZero else y
  | x, y => if x.lt y then y else x

/-- `x === n` for a count that is represented exactly. -/
def eqNat (x : JsNumber) (n : ℕ) : Bool := x.isFinite && decide (x.toRat = n)

theorem ofRat_ne_nan (q : ℚ) : ofRat q ≠ .nan := by
  unfold ofRat
  split
  · exact nofun
  · split <;> exact nofun

theorem zero_ne_nan : (0 : JsNumber) ≠ .nan := ofRat_ne_nan _

/-- What rounding and comparing do to the smallest constants. -/
theorem constants_spec : max 0 0 = 0 ∧ eqNat 0 0 = true ∧ lt 0 (.infinity false) = true ∧
    lt 0 (.infinity true) = false ∧ lt 0 .nan = false ∧ lt 0 .negZero = false ∧
    round64 1 = some 1 := by
  decide +kernel

theorem max_zero_zero : max 0 0 = 0 := constants_spec.1

theorem eqNat_zero : (0 : JsNumber).eqNat 0 = true := constants_spec.2.1

theorem zero_lt_infinity : lt 0 (.infinity false) = true := constants_spec.2.2.1

theorem zero_lt_negInfinity : lt 0 (.infinity true) = false := constants_spec.2.2.2.1

theorem zero_lt_nan : lt 0 .nan = false := constants_spec.2.2.2.2.1

theorem zero_lt_negZero : lt 0 .negZero = false := constants_spec.2.2.2.2.2.1

theorem round64_one : round64 1 = some 1 := constants_spec.2.2.2.2.2.2

theorem one_eq : (1 : JsNumber) = .finite ⟨1, round64_one⟩ :=
  ofRat_of_round64 round64_one (by norm_num)

theorem add_one_ne_nan {x : JsNumber} (hx : x ≠ .nan) : x.add 1 ≠ .nan := by
  rw [one_eq]
  cases x with
  | nan => exact absurd rfl hx
  | infinity a => exact nofun
  | negZero => exact ofRat_ne_nan _
  | finite x => exact ofRat_ne_nan _

/-- Two numbers other than `NaN` are comparable. -/
theorem lt_of_le_eq_false {x y : JsNumber} (hx : x ≠ .nan) (hy : y ≠ .nan)
    (h : x.le y = false) : y.lt x = true := by
  cases x with
  | nan => exact absurd rfl hx
  | infinity a =>
      cases y with
      | nan => exact absurd rfl hy
      | infinity b => cases a <;> cases b <;> simp_all [le, lt, strictEq]
      | _ => simp_all [le, lt, strictEq]
  | negZero =>
      cases y with
      | nan => exact absurd rfl hy
      | infinity b => simp_all [le, lt, strictEq]
      | negZero => simp [le, lt, strictEq] at h
      | finite y =>
          obtain ⟨hlt, heq⟩ := Bool.or_eq_false_iff.mp h
          apply decide_eq_true
          apply lt_of_le_of_ne (not_lt.mp (of_decide_eq_false hlt))
          exact Ne.symm (of_decide_eq_false heq)
  | finite x =>
      cases y with
      | nan => exact absurd rfl hy
      | infinity b => simp_all [le, lt, strictEq]
      | _ =>
          obtain ⟨hlt, heq⟩ := Bool.or_eq_false_iff.mp h
          apply decide_eq_true
          apply lt_of_le_of_ne (not_lt.mp (of_decide_eq_false hlt))
          exact Ne.symm (of_decide_eq_false heq)

theorem zero_lt_of_not_lt_one {x : JsNumber} (hx : x.isInteger = true) (h : x.lt 1 = false) :
    lt 0 x = true := by
  have hzero : (0 : JsNumber) = ofRat 0 := congrArg ofRat Nat.cast_zero
  rw [hzero, ofRat_zero]
  rw [one_eq] at h
  cases x with
  | nan => simp [isInteger] at hx
  | infinity a => simp [isInteger] at hx
  | negZero => simp [lt, toRat] at h
  | finite x =>
      have hone : 1 ≤ x.val := not_lt.mp (of_decide_eq_false h)
      exact decide_eq_true (lt_of_lt_of_le one_pos hone)

/-- `y < x` and `x <= y` exclude each other. -/
theorem le_eq_false_of_lt {x y : JsNumber} (h : y.lt x = true) : x.le y = false := by
  cases x <;> cases y <;> simp_all [le, lt, strictEq, toRat] <;> grind

theorem lt_trans {x y z : JsNumber} (hxy : x.lt y = true) (hyz : y.lt z = true) :
    x.lt z = true := by
  cases x <;> cases y <;> cases z <;> simp_all [lt, toRat] <;> grind

theorem zero_lt_ofRat_eq_false {q : ℚ} (hq : q ≤ 0) : lt 0 (ofRat q) = false := by
  have hzero : (0 : JsNumber) = ofRat 0 := congrArg ofRat Nat.cast_zero
  rw [hzero, ofRat_zero]
  unfold ofRat
  split
  · next hnone =>
      have hlt : q < 0 := lt_of_le_of_ne hq fun heq ↦ by simp [heq, round64] at hnone
      simp [lt, hlt]
  · next r hr =>
      split
      · simp [lt, toRat]
      · exact decide_eq_false (not_lt.mpr (round64_nonpos hq hr))

/-- The difference to a larger number is not positive. -/
theorem zero_lt_sub_eq_false {x y : JsNumber} (h : x.lt y = true) : lt 0 (x.sub y) = false := by
  have hinfinity := zero_lt_negInfinity
  cases x with
  | nan => cases h
  | infinity a =>
      cases y with
      | nan => cases h
      | infinity b =>
          obtain ⟨rfl, rfl⟩ : a = true ∧ b = false := by simpa [lt] using h
          exact hinfinity
      | negZero => exact (show a = true from h) ▸ hinfinity
      | finite y => exact (show a = true from h) ▸ hinfinity
  | negZero =>
      cases y with
      | nan => cases h
      | infinity b =>
          obtain rfl : b = false := by simpa [lt] using h
          exact hinfinity
      | negZero => simp [lt, toRat] at h
      | finite y =>
          have hy : 0 < y.val := of_decide_eq_true h
          rw [sub, if_neg hy.ne']
          exact zero_lt_ofRat_eq_false (sub_nonpos.mpr hy.le)
  | finite x =>
      cases y with
      | nan => cases h
      | infinity b =>
          obtain rfl : b = false := by simpa [lt] using h
          exact hinfinity
      | negZero =>
          have hx : x.val < 0 := of_decide_eq_true h
          exact zero_lt_ofRat_eq_false (sub_nonpos.mpr hx.le)
      | finite y =>
          have hxy : x.val < y.val := of_decide_eq_true h
          exact zero_lt_ofRat_eq_false (sub_nonpos.mpr hxy.le)

/-- The number without the sign of a zero. -/
def unsigned : JsNumber → JsNumber
  | .negZero => .ofRat 0
  | x => x

@[simp] theorem unsigned_finite (x : Double) : unsigned (.finite x) = .finite x := rfl

@[simp] theorem unsigned_unsigned (x : JsNumber) : x.unsigned.unsigned = x.unsigned := by
  cases x with
  | negZero => rw [unsigned, ofRat_zero, unsigned_finite]
  | _ => rfl

/-- Arithmetic and comparison do not see the sign of a zero. -/
theorem unsigned_sub (x y : JsNumber) :
    (x.sub y).unsigned = (x.unsigned.sub y.unsigned).unsigned := by
  cases x with
  | negZero =>
      cases y with
      | finite y => by_cases hy : y.val = 0 <;> simp [unsigned, sub, toRat, ofRat_zero, hy]
      | _ => simp [unsigned, sub, toRat, ofRat_zero]
  | _ => cases y <;> simp [unsigned, sub, toRat, ofRat_zero]

theorem unsigned_lt (x y : JsNumber) : x.unsigned.lt y.unsigned = x.lt y := by
  cases x <;> cases y <;> simp [unsigned, lt, toRat, ofRat_zero] <;> rfl

theorem unsigned_strictEq (x y : JsNumber) : x.unsigned.strictEq y.unsigned = x.strictEq y := by
  cases x <;> cases y <;> simp [unsigned, strictEq, toRat, ofRat_zero] <;> rfl

theorem isFinite_of_isInteger {x : JsNumber} (h : x.isInteger = true) : x.isFinite = true := by
  cases x <;> simp_all [isInteger, isFinite]

theorem exists_unsigned_eq_finite {x : JsNumber} (hx : x.isFinite = true) :
    ∃ d, x.unsigned = .finite d := by
  cases x with
  | nan => cases hx
  | infinity negative => cases hx
  | negZero => exact ⟨_, ofRat_zero⟩
  | finite d => exact ⟨d, rfl⟩

@[simp] theorem isInteger_unsigned (x : JsNumber) : x.unsigned.isInteger = x.isInteger := by
  cases x with
  | negZero =>
      rw [unsigned, ofRat_zero]
      simp [isInteger]
  | _ => rfl

@[simp] theorem isFinite_unsigned (x : JsNumber) : x.unsigned.isFinite = x.isFinite := by
  cases x with
  | negZero =>
      rw [unsigned, ofRat_zero]
      rfl
  | _ => rfl

@[simp] theorem toRat_unsigned (x : JsNumber) : x.unsigned.toRat = x.toRat := by
  cases x with
  | negZero =>
      rw [unsigned, ofRat_zero]
      rfl
  | _ => rfl

theorem eqNat_iff {x : JsNumber} {n : ℕ} : x.eqNat n = true ↔ x.isFinite = true ∧ x.toRat = n := by
  simp [eqNat]

theorem isBinary64_natCast {n : ℕ} (hn : n ≤ 2 ^ 53) : IsBinary64 (n : ℚ) := by
  have hbound : (n : ℚ) ≤ 2 ^ 53 := by exact_mod_cast hn
  have hlarge : (2 : ℚ) ^ 53 < pow2 1024 := by
    rw [show (1024 : ℤ) = ((1024 : ℕ) : ℤ) from rfl, pow2_natCast]
    exact_mod_cast Nat.pow_lt_pow_right (by norm_num) (by norm_num)
  have hmantissa : |(n : ℤ)| ≤ 2 ^ 53 := by
    rw [Nat.abs_cast]
    exact_mod_cast hn
  obtain ⟨m, e, hm, he, heq⟩ := exists_mantissa_of_abs_le hmantissa (by norm_num : -1074 ≤ (0 : ℤ))
  refine ⟨?_, m, e, hm, he, ?_⟩
  · rw [Nat.abs_cast]
    exact hbound.trans_lt hlarge
  · rw [← heq]
    simp [pow2_eq_zpow]

/-- Counting is exact up to `2 ^ 53`. -/
theorem eqNat_add_one {x : JsNumber} {n : ℕ} (hx : x.eqNat n = true) (hn : n + 1 ≤ 2 ^ 53) :
    (x.add 1).eqNat (n + 1) = true := by
  obtain ⟨hfinite, hrat⟩ := eqNat_iff.mp hx
  have hround := round64_of_isBinary64 (isBinary64_natCast hn)
  have hsum : x.add 1 = ofRat ((n + 1 : ℕ) : ℚ) := by
    rw [one_eq]
    cases x with
    | nan => cases hfinite
    | infinity negative => cases hfinite
    | negZero =>
        rw [toRat] at hrat
        · simp [add, toRat, ← hrat]
        · exact nofun
    | finite d =>
        have hval : d.val = n := hrat
        simp [add, toRat, hval]
  have hpos : (0 : ℚ) ≤ ((n + 1 : ℕ) : ℚ) := by positivity
  rw [hsum, ofRat_of_round64 hround fun h ↦ absurd h.1 (not_lt.mpr hpos), eqNat_iff]
  exact ⟨rfl, rfl⟩

/-- Counting stops at `2 ^ 53`. -/
theorem eqNat_add_one_of_limit {x : JsNumber} (hx : x.eqNat (2 ^ 53) = true) :
    (x.add 1).eqNat (2 ^ 53) = true := by
  obtain ⟨hfinite, hrat⟩ := eqNat_iff.mp hx
  have hlimit : (ofRat (2 ^ 53) : JsNumber) = x := by
    cases x with
    | nan => cases hfinite
    | infinity negative => cases hfinite
    | negZero => norm_num [toRat] at hrat
    | finite d =>
        have hval : d.val = 2 ^ 53 := by exact_mod_cast hrat
        have hround : round64 (2 ^ 53) = some d.val := by
          have hexact := round64_of_isBinary64 (isBinary64_natCast (le_refl (2 ^ 53)))
          rw [hval]
          exact_mod_cast hexact
        rw [ofRat_of_round64 hround (by norm_num)]
  rw [← hlimit]
  decide +kernel

theorem isInteger_of_eqNat {x : JsNumber} {n : ℕ} (hx : x.eqNat n = true) :
    x.isInteger = true := by
  obtain ⟨hfinite, hrat⟩ := eqNat_iff.mp hx
  cases x with
  | nan => cases hfinite
  | infinity negative => cases hfinite
  | negZero => rfl
  | finite d =>
      have hval : d.val = n := hrat
      simp [isInteger, hval]

theorem not_lt_zero_of_eqNat {x : JsNumber} {n : ℕ} (hx : x.eqNat n = true) : x.lt 0 = false := by
  obtain ⟨hfinite, hrat⟩ := eqNat_iff.mp hx
  rw [← unsigned_lt, show (0 : JsNumber).unsigned = ofRat 0 from rfl, ofRat_zero]
  obtain ⟨d, hd⟩ := exists_unsigned_eq_finite hfinite
  have hval : d.val = n := by
    rw [← hrat, ← toRat_unsigned, hd]
    rfl
  rw [hd]
  apply decide_eq_false
  simp only [toRat, hval, not_lt]
  positivity

theorem eq_zero_of_strictEq_zero {x : JsNumber} {n : ℕ} (hx : x.eqNat n = true)
    (h : x.strictEq 0 = true) : n = 0 := by
  obtain ⟨hfinite, hrat⟩ := eqNat_iff.mp hx
  rw [← unsigned_strictEq, show (0 : JsNumber).unsigned = ofRat 0 from rfl, ofRat_zero] at h
  obtain ⟨d, hd⟩ := exists_unsigned_eq_finite hfinite
  rw [hd] at h
  have hzero : d.val = 0 := of_decide_eq_true h
  rw [← toRat_unsigned, hd, show toRat (.finite d) = d.val from rfl, hzero] at hrat
  exact_mod_cast hrat.symm

theorem unsigned_strictEq_left (x y : JsNumber) : x.unsigned.strictEq y = x.strictEq y := by
  rw [← unsigned_strictEq, unsigned_unsigned, unsigned_strictEq]

theorem unsigned_lt_left (x y : JsNumber) : x.unsigned.lt y = x.lt y := by
  rw [← unsigned_lt, unsigned_unsigned, unsigned_lt]

theorem eqNat_unsigned (x : JsNumber) (n : ℕ) : x.unsigned.eqNat n = x.eqNat n := by
  simp [eqNat]

theorem unsigned_le (x y : JsNumber) : x.unsigned.le y.unsigned = x.le y := by
  rw [le, le, unsigned_lt, unsigned_strictEq]

theorem unsigned_le_right (x y : JsNumber) : x.le y.unsigned = x.le y := by
  rw [← unsigned_le, unsigned_unsigned, unsigned_le]

theorem lt_finite_of_lt {q : ℚ} {d : Double} (hq : 0 ≤ q) (h : (ofRat q).lt (.finite d) = true) :
    q < d.val := by
  by_contra hle
  rw [not_lt] at hle
  unfold ofRat at h
  split at h
  · simp [lt, not_lt.mpr hq] at h
  · next r hr =>
      have hdr := le_of_round64 d.exact hle hr
      split at h
      · next hneg => exact absurd hneg.1 (not_lt.mpr hq)
      · exact absurd (of_decide_eq_true h) (not_lt.mpr hdr)

theorem le_finite_iff {x y : Double} :
    (JsNumber.finite x).le (.finite y) = true ↔ x.val ≤ y.val := by
  rw [le, Bool.or_eq_true, le_iff_lt_or_eq]
  exact or_congr decide_eq_true_iff decide_eq_true_iff

/-- Non-decreasing readings whose difference is below a bound are finite, and their exact
difference is below it too. -/
theorem sub_lt_of_le {s t : JsNumber} {d : Double} (hst : s.le t = true)
    (h : (t.sub s).lt (.finite d) = true) :
    s.isFinite = true ∧ t.isFinite = true ∧ t.toRat - s.toRat < d.val := by
  have hfinite : s.isFinite = true ∧ t.isFinite = true := by
    cases s with
    | nan => simp [le, lt, strictEq] at hst
    | infinity a =>
        cases t with
        | infinity b => cases a <;> cases b <;> simp_all [sub, lt, le, strictEq]
        | _ => cases a <;> simp_all [sub, lt, le, strictEq]
    | negZero => cases t <;> simp_all [sub, lt, le, strictEq, isFinite]
    | finite x => cases t <;> simp_all [sub, lt, le, strictEq, isFinite]
  refine ⟨hfinite.1, hfinite.2, ?_⟩
  obtain ⟨x, hx⟩ := exists_unsigned_eq_finite hfinite.1
  obtain ⟨y, hy⟩ := exists_unsigned_eq_finite hfinite.2
  rw [← unsigned_le, hx, hy, le_finite_iff] at hst
  rw [← unsigned_lt_left, unsigned_sub, hx, hy, unsigned_lt_left] at h
  have hsub := lt_finite_of_lt (sub_nonneg.mpr hst) h
  rw [← toRat_unsigned, ← toRat_unsigned s, hx, hy]
  exact hsub

end JsNumber

end TestIntelligence.Js
