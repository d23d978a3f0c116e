import Mathlib.Data.Nat.Digits.Lemmas
import TestIntelligence.Js.Number
import TestIntelligence.Js.Text

/-!
# Numbers as text

`Number::toString` prints the shortest decimal that reads back as the same
number.  The reader splits a literal into integer digits, fraction digits and
exponent, evaluates it exactly and rounds once.  Every finite number other
than negative zero is recovered from its own text.
-/

namespace TestIntelligence.Js

/-! ## Digit strings -/

def isDigit (u : CodeUnit) : Bool := 0x30 ≤ u && u ≤ 0x39

def digitUnit (d : ℕ) : CodeUnit := (0x30 + d).toUInt16

def digitValue (u : CodeUnit) : ℕ := u.toNat - 0x30

/-- The decimal digits of a number, the most significant first; none for zero. -/
def digitsText (n : ℕ) : JsString := (Nat.digits 10 n).reverse.map digitUnit

def readDigits (ds : JsString) : ℕ := ds.foldl (fun acc u ↦ 10 * acc + digitValue u) 0

theorem digitUnit_spec : ∀ d < 10, isDigit (digitUnit d) = true ∧ digitValue (digitUnit d) = d ∧
    (digitUnit d = 0x30 → d = 0) := by
  decide

theorem readDigits_append (a b : JsString) :
    readDigits (a ++ b) = readDigits a * 10 ^ b.length + readDigits b := by
  induction b using List.reverseRecOn with
  | nil => simp [readDigits]
  | append_singleton b u ih =>
      have hstep (ds : JsString) : readDigits (ds ++ [u]) = 10 * readDigits ds + digitValue u := by
        simp [readDigits]
      rw [← List.append_assoc, hstep, ih, hstep, List.length_append]
      simp only [List.length_singleton, pow_succ]
      ring

theorem readDigits_digits (ds : List ℕ) (h : ∀ d ∈ ds, d < 10) :
    readDigits (ds.reverse.map digitUnit) = Nat.ofDigits 10 ds := by
  induction ds with
  | nil => simp [readDigits]
  | cons d ds ih =>
      have hd := (digitUnit_spec d (h d List.mem_cons_self)).2.1
      rw [List.reverse_cons, List.map_append, readDigits_append,
        ih fun e he ↦ h e (List.mem_cons_of_mem _ he)]
      simp [readDigits, hd, Nat.ofDigits_cons]
      ring

@[simp] theorem readDigits_digitsText (n : ℕ) : readDigits (digitsText n) = n := by
  rw [digitsText, readDigits_digits _ fun d ↦ Nat.digits_lt_base (by norm_num),
    Nat.ofDigits_digits]

theorem isDigit_of_mem_digitsText {n : ℕ} {u : CodeUnit} (h : u ∈ digitsText n) :
    isDigit u = true := by
  simp only [digitsText, List.mem_map, List.mem_reverse] at h
  obtain ⟨d, hd, rfl⟩ := h
  exact (digitUnit_spec d (Nat.digits_lt_base (by norm_num) hd)).1

@[simp] theorem readDigits_zeros (k : ℕ) : readDigits (List.replicate k 0x30) = 0 := by
  induction k with
  | zero => rfl
  | succ k ih =>
      rw [List.replicate_succ', readDigits_append, ih]
      decide

theorem isDigit_of_mem_zeros {k : ℕ} {u : CodeUnit} (h : u ∈ List.replicate k 0x30) :
    isDigit u = true := by
  rw [List.eq_of_mem_replicate h]
  decide

/-- A positive number starts with a digit other than zero. -/
theorem exists_digitsText_eq_cons {n : ℕ} (hn : 0 < n) :
    ∃ u ds, digitsText n = u :: ds ∧ u ≠ 0x30 := by
  have hne : Nat.digits 10 n ≠ [] := Nat.digits_ne_nil_iff_ne_zero.mpr hn.ne'
  obtain ⟨ds, d, hds⟩ := List.eq_nil_or_concat (Nat.digits 10 n) |>.resolve_left hne
  have hmem : d ∈ Nat.digits 10 n := by simp [hds]
  have hlast : d ≠ 0 := by
    have := Nat.getLast_digit_ne_zero 10 hn.ne'
    simpa [hds] using this
  refine ⟨digitUnit d, ds.reverse.map digitUnit, ?_, fun hzero ↦ ?_⟩
  · simp [digitsText, hds]
  · exact hlast ((digitUnit_spec d (Nat.digits_lt_base (by norm_num) hmem)).2.2 hzero)

/-! ## The parts of a decimal literal -/

/-- Integer digits, fraction digits after a point, and a signed exponent. -/
structure DecimalParts where
  int : JsString
  frac : Option JsString
  exp : Option (Bool × JsString)
  deriving DecidableEq

namespace DecimalParts

def fracText : Option JsString → JsString
  | none => []
  | some f => 0x2E :: f

/-- The exponent part; the sign is always written. -/
def expText : Option (Bool × JsString) → JsString
  | none => []
  | some (negative, ds) => 0x65 :: (if negative then 0x2D else 0x2B) :: ds

def render (p : DecimalParts) : JsString := p.int ++ fracText p.frac ++ expText p.exp

def exponent (p : DecimalParts) : ℤ :=
  match p.exp with
  | none => 0
  | some (negative, ds) => if negative then -(readDigits ds : ℤ) else readDigits ds

/-- The exact value of the literal. -/
def value (p : DecimalParts) : ℚ :=
  (readDigits (p.int ++ p.frac.getD []) : ℚ) *
    powInt 10 (p.exponent - (p.frac.getD []).length)

end DecimalParts

/-- An exponent part at the head of the text, if there is one. -/
def scanExponent (s : JsString) : Option (Bool × JsString) × JsString :=
  match s with
  | [] => (none, [])
  | u :: rest =>
      if u = 0x65 ∨ u = 0x45 then
        let signed : Bool × JsString :=
          match rest with
          | 0x2D :: rest' => (true, rest')
          | 0x2B :: rest' => (false, rest')
          | _ => (false, rest)
        let ds := signed.2.takeWhile isDigit
        if ds = [] then (none, s) else (some (signed.1, ds), signed.2.dropWhile isDigit)
      else (none, s)

/-- Split the longest decimal literal off the head of the text. -/
def scanDecimal (s : JsString) : DecimalParts × JsString :=
  let int := s.takeWhile isDigit
  let afterInt := s.dropWhile isDigit
  let frac : Option JsString × JsString :=
    match afterInt with
    | 0x2E :: rest => (some (rest.takeWhile isDigit), rest.dropWhile isDigit)
    | _ => (none, afterInt)
  let exp := scanExponent frac.2
  (⟨int, frac.1, exp.1⟩, exp.2)

/-- Nothing in the text continues a decimal literal that ends before it. -/
def EndsDecimal (rest : JsString) : Prop :=
  ∀ u ∈ rest.head?, isDigit u = false ∧ u ≠ 0x2E ∧ u ≠ 0x65 ∧ u ≠ 0x45

theorem takeWhile_append_of_head {p : CodeUnit → Bool} {a rest : JsString}
    (ha : ∀ u ∈ a, p u = true) (hrest : ∀ u ∈ rest.head?, p u = false) :
    (a ++ rest).takeWhile p = a ∧ (a ++ rest).dropWhile p = rest := by
  rw [List.takeWhile_append_of_pos ha, List.dropWhile_append_of_pos ha]
  cases rest with
  | nil => simp
  | cons u rest => simp [hrest u (by simp)]

theorem scanExponent_expText {e : Option (Bool × JsString)} {rest : JsString}
    (he : ∀ x ∈ e, x.2 ≠ [] ∧ ∀ u ∈ x.2, isDigit u = true) (hrest : EndsDecimal rest) :
    scanExponent (DecimalParts.expText e ++ rest) = (e, rest) := by
  cases e with
  | none =>
      cases rest with
      | nil => rfl
      | cons u rest =>
          have hu := hrest u (by simp)
          simp [DecimalParts.expText, scanExponent, hu.2.2.1, hu.2.2.2]
  | some x =>
      obtain ⟨negative, ds⟩ := x
      obtain ⟨hne, hds⟩ := he _ rfl
      have hspan := takeWhile_append_of_head hds fun u hu ↦ (hrest u hu).1
      cases negative <;>
        simp [DecimalParts.expText, scanExponent, hspan.1, hspan.2, hne]

/-- The scanner reads back what the parts print. -/
theorem scanDecimal_render {p : DecimalParts} {rest : JsString}
    (hint : ∀ u ∈ p.int, isDigit u = true)
    (hfrac : ∀ f ∈ p.frac, ∀ u ∈ f, isDigit u = true)
    (hexp : ∀ x ∈ p.exp, x.2 ≠ [] ∧ ∀ u ∈ x.2, isDigit u = true)
    (hrest : EndsDecimal rest) : scanDecimal (p.render ++ rest) = (p, rest) := by
  obtain ⟨int, frac, exp⟩ := p
  have hexpHead : ∀ u ∈ (DecimalParts.expText exp ++ rest).head?,
      isDigit u = false ∧ u ≠ 0x2E := by
    intro u hu
    cases exp with
    | none => exact ⟨(hrest u hu).1, (hrest u hu).2.1⟩
    | some x =>
        have : u = 0x65 := by simpa [DecimalParts.expText] using hu.symm
        subst this
        decide
  have hscan := scanExponent_expText hexp hrest
  cases frac with
  | none =>
      have hspan := takeWhile_append_of_head hint fun u hu ↦ (hexpHead u hu).1
      have hassoc : DecimalParts.render ⟨int, none, exp⟩ ++ rest =
          int ++ (DecimalParts.expText exp ++ rest) := by
        simp [DecimalParts.render, DecimalParts.fracText]
      rw [hassoc]
      simp only [scanDecimal, hspan.1, hspan.2]
      split
      · next tail heq =>
          have := (hexpHead 0x2E (by simp [heq])).2
          exact absurd rfl this
      · simp [hscan]
  | some f =>
      have hpoint : ∀ u ∈ (0x2E :: (f ++ (DecimalParts.expText exp ++ rest))).head?,
          isDigit u = false := by
        simp
        decide
      have hspan := takeWhile_append_of_head hint hpoint
      have hspan' := takeWhile_append_of_head (hfrac f rfl) fun u hu ↦ (hexpHead u hu).1
      have hassoc : DecimalParts.render ⟨int, some f, exp⟩ ++ rest =
          int ++ 0x2E :: (f ++ (DecimalParts.expText exp ++ rest)) := by
        simp [DecimalParts.render, DecimalParts.fracText]
      rw [hassoc]
      simp only [scanDecimal, hspan.1, hspan.2, hspan'.1, hspan'.2, hscan]

/-! ## The shortest decimal -/

/-- A decimal fraction `significand * 10 ^ exponent`. -/
structure Decimal where
  significand : ℕ
  exponent : ℤ

namespace Decimal

def value (d : Decimal) : ℚ := d.significand * powInt 10 d.exponent

/-- The decimals of `k` digits next to a positive `q`, from below and above. -/
def below (q : ℚ) (k : ℕ) : Decimal :=
  ⟨⌊q * powInt 10 (k - (Int.log 10 q + 1))⌋.toNat, Int.log 10 q + 1 - k⟩

def above (q : ℚ) (k : ℕ) : Decimal :=
  let s := (below q k).significand + 1
  if s = 10 ^ k then ⟨10 ^ (k - 1), (below q k).exponent + 1⟩ else ⟨s, (below q k).exponent⟩

/-- The closer of two decimals, the even one when both are equally close. -/
def closer (q : ℚ) (lo hi : Decimal) : Decimal :=
  if q - lo.value < hi.value - q then lo
  else if hi.value - q < q - lo.value then hi
  else if lo.significand % 2 = 0 then lo else hi

/-- A decimal of `k` digits that rounds to `q`. -/
def ofLength (q : ℚ) (k : ℕ) : Option Decimal :=
  if round64 (below q k).value = some q then
    if round64 (above q k).value = some q then some (closer q (below q k) (above q k))
    else some (below q k)
  else if round64 (above q k).value = some q then some (above q k)
  else none

def searchLength (q : ℚ) : (fuel k : ℕ) → Option Decimal
  | 0, _ => none
  | fuel + 1, k =>
      match ofLength q k with
      | some d => some d
      | none => searchLength q fuel (k + 1)

/-- The least number of digits that identifies `q`. -/
def shortest (q : ℚ) : Option Decimal := searchLength q 1400 1

theorem round64_value_of_ofLength {q : ℚ} {k : ℕ} {d : Decimal} (h : ofLength q k = some d) :
    round64 d.value = some q := by
  simp only [ofLength] at h
  split at h
  · next hlo =>
      split at h
      · next hhi =>
          obtain rfl := Option.some.inj h
          unfold closer
          split_ifs <;> assumption
      · obtain rfl := Option.some.inj h
        exact hlo
  · split at h
    · next hhi =>
        obtain rfl := Option.some.inj h
        exact hhi
    · simp at h

theorem round64_value_of_searchLength {q : ℚ} {fuel k : ℕ} {d : Decimal}
    (h : searchLength q fuel k = some d) : round64 d.value = some q := by
  induction fuel generalizing k with
  | zero => simp [searchLength] at h
  | succ fuel ih =>
      rw [searchLength] at h
      split at h
      · next d' hd' =>
          obtain rfl := Option.some.inj h
          exact round64_value_of_ofLength hd'
      · exact ih h

/-- The printed decimal rounds to the number. -/
theorem round64_value_of_shortest {q : ℚ} {d : Decimal} (h : shortest q = some d) :
    round64 d.value = some q := round64_value_of_searchLength h

theorem searchLength_isSome {q : ℚ} {fuel k j : ℕ} (hj : (ofLength q j).isSome) (hk : k ≤ j)
    (hfuel : j < k + fuel) : (searchLength q fuel k).isSome := by
  induction fuel generalizing k with
  | zero => omega
  | succ fuel ih =>
      rw [searchLength]
      split
      · rfl
      · next hnone =>
          have hne : k ≠ j := by
            rintro rfl
            simp [hnone] at hj
          exact ih (by omega) (by omega)

theorem ofLength_isSome_of_below {q : ℚ} {k : ℕ} (h : round64 (below q k).value = some q) :
    (ofLength q k).isSome := by
  simp only [ofLength, if_pos h]
  split <;> rfl

/-- A value of the format is an integer number of units `10 ^ (-1074)`. -/
theorem exists_mul_powInt_eq_intCast {q : ℚ} (h : IsBinary64 q) {j : ℕ} (hj : 1074 ≤ j) :
    ∃ n : ℤ, q * powInt 10 j = n := by
  obtain ⟨-, m, e, -, he, rfl⟩ := h
  obtain ⟨i, hi⟩ := Int.le.dest (show (0 : ℤ) ≤ e + j by omega)
  refine ⟨m * 2 ^ i * 5 ^ j, ?_⟩
  have hten : powInt 10 j = pow2 j * ((5 ^ j : ℤ) : ℚ) := by
    rw [pow2_natCast, powInt_natCast, ← Int.cast_mul, ← mul_pow]
    norm_num
  have hi' : pow2 e * pow2 j = ((2 ^ i : ℤ) : ℚ) := by
    rw [← pow2_add, ← pow2_natCast, ← hi, zero_add]
  calc
    (m : ℚ) * pow2 e * powInt 10 j = m * (pow2 e * pow2 j) * ((5 ^ j : ℤ) : ℚ) := by
      rw [hten]
      ring
    _ = ((m * 2 ^ i * 5 ^ j : ℤ) : ℚ) := by
      rw [hi']
      push_cast
      ring

theorem pow2_le_powInt : pow2 1024 ≤ powInt 10 309 := by
  decide +kernel

theorem log_ten_lt {q : ℚ} (hpos : 0 < q) (hlt : q < pow2 1024) : Int.log 10 q < 309 := by
  have hlog : ((10 : ℕ) : ℚ) ^ Int.log 10 q ≤ q := Int.zpow_log_le_self (by norm_num) hpos
  have hbound : pow2 1024 ≤ ((10 : ℕ) : ℚ) ^ (309 : ℤ) :=
    pow2_le_powInt.trans_eq (powInt_eq_zpow 10 309)
  have := hlog.trans_lt (hlt.trans_le hbound)
  exact (zpow_lt_zpow_iff_right₀ (by norm_num : (1 : ℚ) < ((10 : ℕ) : ℚ))).mp this

/-- With enough digits the decimal from below is exact. -/
theorem value_below_eq {q : ℚ} (hpos : 0 < q) (h : IsBinary64 q) : (below q 1400).value = q := by
  have hlt : q < pow2 1024 := lt_of_abs_lt h.1
  obtain ⟨j, hj⟩ := Int.le.dest
    (show (1074 : ℤ) ≤ (1400 : ℕ) - (Int.log 10 q + 1) by have := log_ten_lt hpos hlt; omega)
  obtain ⟨n, hn⟩ := exists_mul_powInt_eq_intCast h (show 1074 ≤ 1074 + j by omega)
  have hshift : (((1400 : ℕ) : ℤ) - (Int.log 10 q + 1)) = ((1074 + j : ℕ) : ℤ) := by
    push_cast
    omega
  have hexp : Int.log 10 q + 1 - ((1400 : ℕ) : ℤ) = -((1074 + j : ℕ) : ℤ) := by omega
  have hnonneg : 0 ≤ n := by
    have : (0 : ℚ) < n := hn ▸ mul_pos hpos (powInt_pos (by norm_num) _)
    exact_mod_cast this.le
  have hcancel : powInt 10 ((1074 + j : ℕ) : ℤ) * powInt 10 (-((1074 + j : ℕ) : ℤ)) = 1 := by
    rw [← powInt_add (by norm_num), add_neg_cancel]
    rfl
  simp only [value, below, hshift, hexp, hn, Int.floor_intCast]
  have hcast : ((n.toNat : ℕ) : ℚ) = n := by exact_mod_cast Int.toNat_of_nonneg hnonneg
  rw [hcast, ← hn, mul_assoc, hcancel, mul_one]

/-- The search always ends: every positive number has a shortest decimal. -/
theorem shortest_isSome {q : ℚ} (hpos : 0 < q) (h : round64 q = some q) :
    (shortest q).isSome := by
  have hbelow : round64 (below q 1400).value = some q := by
    rw [value_below_eq hpos (isBinary64_of_round64 h), h]
  exact searchLength_isSome (ofLength_isSome_of_below hbelow) (by norm_num) (by norm_num)

theorem significand_pos {q : ℚ} {d : Decimal} (hpos : 0 < q) (h : shortest q = some d) :
    0 < d.significand := by
  rcases Nat.eq_zero_or_pos d.significand with hzero | hpos'
  · have hround := round64_value_of_shortest h
    simp only [value, hzero, Nat.cast_zero, zero_mul, round64, if_pos, Option.some.injEq] at hround
    exact absurd hround hpos.ne
  · exact hpos'

/-- How `Number::toString` lays the digits out: `n` of them stand before the
point, and an exponent is written when that would need too many zeros. -/
def parts (d : Decimal) : DecimalParts :=
  let ds := digitsText d.significand
  let n := d.exponent + ds.length
  if ds.length ≤ n ∧ n ≤ 21 then
    ⟨ds ++ List.replicate (n - ds.length).toNat 0x30, none, none⟩
  else if 0 < n ∧ n ≤ 21 then
    ⟨ds.take n.toNat, some (ds.drop n.toNat), none⟩
  else if -6 < n ∧ n ≤ 0 then
    ⟨[0x30], some (List.replicate (-n).toNat 0x30 ++ ds), none⟩
  else
    ⟨ds.take 1, if ds.length = 1 then none else some (ds.drop 1),
      some (decide (n - 1 < 0), digitsText (n - 1).natAbs)⟩

theorem value_of_parts {p : DecimalParts} {d : Decimal} {j : ℕ}
    (hdigits : readDigits (p.int ++ p.frac.getD []) = d.significand * 10 ^ j)
    (hexp : p.exponent - ((p.frac.getD []).length : ℤ) + j = d.exponent) : p.value = d.value := by
  rw [DecimalParts.value, value, hdigits, ← hexp, powInt_add (by norm_num), powInt_natCast]
  push_cast
  ring

/-- Reading the laid-out digits gives the decimal back exactly. -/
theorem value_parts {d : Decimal} (hd : 0 < d.significand) : d.parts.value = d.value := by
  obtain ⟨u, us, hus, -⟩ := exists_digitsText_eq_cons hd
  have hlen : 0 < (digitsText d.significand).length := by simp [hus]
  have hread := readDigits_digitsText d.significand
  unfold parts
  generalize digitsText d.significand = ds at hlen hread
  dsimp only
  split
  · next h =>
      apply value_of_parts (j := d.exponent.toNat)
      · simp [readDigits_append, hread]
      · simp only [DecimalParts.exponent, Option.getD_none, List.length_nil]
        omega
  · next h₁ =>
      split
      · next h =>
          apply value_of_parts (j := 0)
          · simp [hread]
          · simp only [DecimalParts.exponent, Option.getD_some, List.length_drop]
            omega
      · next h₂ =>
          split
          · next h =>
              apply value_of_parts (j := 0)
              · simp only [Option.getD_some, readDigits_append, readDigits_zeros, hread]
                simp [readDigits, digitValue]
              · simp only [DecimalParts.exponent, Option.getD_some, List.length_append,
                  List.length_replicate]
                omega
          · next h₃ =>
              have hfrac : (if ds.length = 1 then none else some (ds.drop 1)).getD [] =
                  ds.drop 1 := by
                split
                · next hone => simp [List.drop_eq_nil_of_le hone.le]
                · rfl
              apply value_of_parts (j := 0)
              · rw [hfrac, List.take_append_drop, hread]
                simp
              · simp only [hfrac, DecimalParts.exponent, readDigits_digitsText, List.length_drop,
                  decide_eq_true_eq]
                split <;> omega

/-- Every unit the digits are laid out in is a digit, and a positive decimal
starts with a single zero or with another digit. -/
theorem parts_digits {d : Decimal} (hd : 0 < d.significand) :
    (∀ u ∈ d.parts.int, isDigit u = true) ∧
      (∀ f ∈ d.parts.frac, f ≠ [] ∧ ∀ u ∈ f, isDigit u = true) ∧
      (∀ x ∈ d.parts.exp, x.2 ≠ [] ∧ ∀ u ∈ x.2, isDigit u = true) ∧
      (d.parts.int = [0x30] ∨ ∃ u ∈ d.parts.int.head?, u ≠ 0x30) := by
  obtain ⟨u, us, hus, hu⟩ := exists_digitsText_eq_cons hd
  have hmem : ∀ v ∈ digitsText d.significand, isDigit v = true :=
    fun v ↦ isDigit_of_mem_digitsText
  unfold parts
  generalize digitsText d.significand = ds at hus hmem
  subst hus
  dsimp only
  split
  · next h =>
      refine ⟨?_, by simp, by simp, Or.inr ⟨u, by simp, hu⟩⟩
      intro v hv
      rcases List.mem_append.mp hv with hv | hv
      · exact hmem v hv
      · exact isDigit_of_mem_zeros hv
  · next h₁ =>
      split
      · next h =>
          obtain ⟨k, hk⟩ : ∃ k, (d.exponent + ((u :: us).length : ℤ)).toNat = k + 1 :=
            ⟨(d.exponent + ((u :: us).length : ℤ)).toNat - 1, by omega⟩
          refine ⟨fun v hv ↦ hmem v (List.mem_of_mem_take hv), ?_, by simp, Or.inr ⟨u, ?_, hu⟩⟩
          · rintro f ⟨rfl⟩
            refine ⟨?_, fun v hv ↦ hmem v (List.mem_of_mem_drop hv)⟩
            intro hnil
            have := List.drop_eq_nil_iff.mp hnil
            omega
          · rw [hk]
            rfl
      · next h₂ =>
          split
          · next h =>
              refine ⟨by simp; decide, ?_, by simp, Or.inl rfl⟩
              rintro f ⟨rfl⟩
              refine ⟨by simp, fun v hv ↦ ?_⟩
              rcases List.mem_append.mp hv with hv | hv
              · exact isDigit_of_mem_zeros hv
              · exact hmem v hv
          · next h₃ =>
              refine ⟨fun v hv ↦ hmem v (List.mem_of_mem_take hv), ?_, ?_,
                Or.inr ⟨u, by simp, hu⟩⟩
              · intro f hf
                split at hf
                · simp at hf
                · next hone =>
                    obtain rfl := Option.some.inj hf
                    refine ⟨?_, fun v hv ↦ hmem v (List.mem_of_mem_drop hv)⟩
                    simpa using hone
              · rintro x ⟨rfl⟩
                refine ⟨?_, fun v hv ↦ isDigit_of_mem_digitsText hv⟩
                have hexp : 0 < (d.exponent + ((u :: us).length : ℤ) - 1).natAbs := by
                  simp only [List.length_cons] at *
                  omega
                obtain ⟨w, ws, hws, -⟩ := exists_digitsText_eq_cons hexp
                rw [hws]
                simp

end Decimal

/-! ## Printing and reading numbers -/

def positiveText (q : ℚ) : JsString :=
  match Decimal.shortest q with
  | some d => d.parts.render
  | none => []

/-- `Number::toString` in radix ten. -/
def numberText : JsNumber → JsString
  | .nan => js "NaN"
  | .infinity negative => if negative then js "-Infinity" else js "Infinity"
  | .negZero => js "0"
  | .finite x =>
      if x.val = 0 then js "0"
      else if x.val < 0 then 0x2D :: positiveText (-x.val)
      else positiveText x.val

theorem numberText_unsigned (x : JsNumber) : numberText x.unsigned = numberText x := by
  cases x with
  | negZero =>
      rw [JsNumber.unsigned, JsNumber.ofRat_zero]
      simp [numberText]
  | _ => rfl

/-- The number denoted by a sign and an exact magnitude. -/
def signedNumber (negative : Bool) (q : ℚ) : JsNumber :=
  if negative then (if q = 0 then .negZero else .ofRat (-q)) else .ofRat q

/-- The restrictions of the JSON number grammar: no superfluous leading zero,
and digits after a point. -/
def DecimalParts.isJson (p : DecimalParts) : Bool :=
  (p.int == [0x30] || (p.int.head? != none && p.int.head? != some 0x30)) && p.frac != some []

/-- A minus sign at the head of the text. -/
def scanSign (s : JsString) : Bool × JsString :=
  match s with
  | 0x2D :: rest => (true, rest)
  | _ => (false, s)

/-- A JSON number at the head of the text. -/
def parseJsonNumber (s : JsString) : Option (JsNumber × JsString) :=
  let signed := scanSign s
  let scanned := scanDecimal signed.2
  if scanned.1.isJson then some (signedNumber signed.1 scanned.1.value, scanned.2) else none

theorem signedNumber_of_round64 {q : ℚ} {x : Double} (hround : round64 q = some x.val)
    (hpos : 0 < x.val) : signedNumber false q = .finite x := by
  simp only [signedNumber, Bool.false_eq_true, if_false]
  exact JsNumber.ofRat_of_round64 hround (fun h ↦ hpos.ne' h.2)

theorem signedNumber_neg_of_round64 {q : ℚ} {x : Double} (hround : round64 q = some (-x.val))
    (hneg : x.val < 0) : signedNumber true q = .finite x := by
  have hq : q ≠ 0 := by
    rintro rfl
    simp only [round64, if_pos, Option.some.injEq] at hround
    linarith
  have hround' : round64 (-q) = some x.val := by simp [round64_neg, hround]
  simp only [signedNumber, if_true, if_neg hq]
  exact JsNumber.ofRat_of_round64 hround' (fun h ↦ hneg.ne h.2)

/-- The text of a nonzero finite number: a sign and a well-formed literal whose
value rounds to the magnitude. -/
theorem exists_parts_numberText {x : Double} (hx : x.val ≠ 0) :
    ∃ d : Decimal, 0 < d.significand ∧
      numberText (.finite x) = (if x.val < 0 then [0x2D] else []) ++ d.parts.render ∧
      signedNumber (decide (x.val < 0)) d.parts.value = .finite x := by
  by_cases hneg : x.val < 0
  · have hpos : 0 < -x.val := neg_pos.mpr hneg
    have hexact : round64 (-x.val) = some (-x.val) := by simp [round64_neg, x.exact]
    obtain ⟨d, hd⟩ := Option.isSome_iff_exists.mp (Decimal.shortest_isSome hpos hexact)
    have hsig := Decimal.significand_pos hpos hd
    refine ⟨d, hsig, by simp [numberText, hx, hneg, positiveText, hd], ?_⟩
    rw [decide_eq_true hneg, Decimal.value_parts hsig]
    exact signedNumber_neg_of_round64 (Decimal.round64_value_of_shortest hd) hneg
  · have hpos : 0 < x.val := lt_of_le_of_ne (not_lt.mp hneg) (Ne.symm hx)
    obtain ⟨d, hd⟩ := Option.isSome_iff_exists.mp (Decimal.shortest_isSome hpos x.exact)
    have hsig := Decimal.significand_pos hpos hd
    refine ⟨d, hsig, by simp [numberText, hx, hneg, positiveText, hd], ?_⟩
    rw [decide_eq_false hneg, Decimal.value_parts hsig]
    exact signedNumber_of_round64 (Decimal.round64_value_of_shortest hd) hpos

theorem isJson_parts {d : Decimal} (hd : 0 < d.significand) : d.parts.isJson = true := by
  obtain ⟨-, hfrac, -, hint⟩ := Decimal.parts_digits hd
  have hfrac' : d.parts.frac ≠ some [] := fun h ↦ (hfrac [] (by simp [h])).1 rfl
  rcases hint with hint | ⟨u, hu, hne⟩
  · simp [DecimalParts.isJson, hint, hfrac']
  · have hhead : d.parts.int.head? = some u := hu
    simp [DecimalParts.isJson, hhead, hne, hfrac']

theorem scanDecimal_parts {d : Decimal} (hd : 0 < d.significand) {rest : JsString}
    (hrest : EndsDecimal rest) : scanDecimal (d.parts.render ++ rest) = (d.parts, rest) := by
  obtain ⟨hint, hfrac, hexp, -⟩ := Decimal.parts_digits hd
  exact scanDecimal_render hint (fun f hf ↦ (hfrac f hf).2) hexp hrest

/-- The first unit of a printed decimal is a digit. -/
theorem exists_render_eq_cons {d : Decimal} (hd : 0 < d.significand) :
    ∃ u us, d.parts.render = u :: us ∧ isDigit u = true := by
  obtain ⟨hint, -, -, hhead⟩ := Decimal.parts_digits hd
  have hne : d.parts.int ≠ [] := by
    rintro hnil
    simp [hnil] at hhead
  obtain ⟨u, us, hus⟩ := List.exists_cons_of_ne_nil hne
  refine ⟨u, us ++ DecimalParts.fracText d.parts.frac ++ DecimalParts.expText d.parts.exp, ?_,
    hint u (by simp [hus])⟩
  simp [DecimalParts.render, hus]

theorem scanSign_of_isDigit {u : CodeUnit} (hu : isDigit u = true) (us : JsString) :
    scanSign (u :: us) = (false, u :: us) := by
  unfold scanSign
  split
  · next heq =>
      obtain ⟨rfl, -⟩ := List.cons.inj heq
      exact absurd hu (by decide)
  · rfl

/-- A finite number reads back from its own text. -/
theorem parseJsonNumber_numberText (x : Double) {rest : JsString} (hrest : EndsDecimal rest) :
    parseJsonNumber (numberText (.finite x) ++ rest) = some (.finite x, rest) := by
  by_cases hx : x.val = 0
  · have hscan : scanDecimal ([0x30] ++ rest) = (⟨[0x30], none, none⟩, rest) := by
      have h := scanDecimal_render (p := ⟨[0x30], none, none⟩) (by simp; decide) (by simp)
        (by simp) hrest
      simpa [DecimalParts.render, DecimalParts.fracText, DecimalParts.expText] using h
    have hzero : (JsNumber.ofRat 0) = .finite x := by rw [← hx, JsNumber.ofRat_val]
    have htext : numberText (.finite x) = [0x30] := by
      simp only [numberText, if_pos hx]
      decide
    have hsign : scanSign ([0x30] ++ rest) = (false, [0x30] ++ rest) := rfl
    simp only [htext, parseJsonNumber, hsign, hscan]
    simp [DecimalParts.isJson, signedNumber, DecimalParts.value, readDigits, digitValue, hzero]
  · obtain ⟨d, hd, htext, hvalue⟩ := exists_parts_numberText hx
    have hscan := scanDecimal_parts hd hrest
    have hsign : scanSign (numberText (.finite x) ++ rest) =
        (decide (x.val < 0), d.parts.render ++ rest) := by
      rw [htext]
      by_cases hneg : x.val < 0
      · simp [hneg, scanSign]
      · obtain ⟨u, us, hus, hu⟩ := exists_render_eq_cons hd
        simp [hneg, hus, scanSign_of_isDigit hu]
    simp only [parseJsonNumber, hsign, hscan, isJson_parts hd, if_true, hvalue]

/-! ## `Number(text)` -/

def hexValue (u : CodeUnit) : Option ℕ :=
  if isDigit u then some (digitValue u)
  else if 0x61 ≤ u ∧ u ≤ 0x66 then some (u.toNat - 0x61 + 10)
  else if 0x41 ≤ u ∧ u ≤ 0x46 then some (u.toNat - 0x41 + 10)
  else none

/-- The radix announced by the letter after a leading zero. -/
def radixOf (u : CodeUnit) : Option ℕ :=
  if u = 0x78 ∨ u = 0x58 then some 16
  else if u = 0x6F ∨ u = 0x4F then some 8
  else if u = 0x62 ∨ u = 0x42 then some 2
  else none

def readRadix (radix : ℕ) : JsString → ℕ → Option ℕ
  | [], acc => some acc
  | u :: us, acc =>
      match hexValue u with
      | some d => if d < radix then readRadix radix us (radix * acc + d) else none
      | none => none

/-- A literal with a radix announcement. -/
def radixLiteral (s : JsString) : Option JsNumber :=
  match s with
  | 0x30 :: u :: ds =>
      (radixOf u).map fun radix ↦
        match ds with
        | [] => .nan
        | _ => ((readRadix radix ds 0).map fun n ↦ JsNumber.ofRat n).getD .nan
  | _ => none

/-- A sign of either kind at the head of the text. -/
def scanAnySign (s : JsString) : Bool × JsString :=
  match s with
  | 0x2B :: rest => (false, rest)
  | _ => scanSign s

def decimalLiteral (s : JsString) : JsNumber :=
  let signed := scanAnySign s
  if signed.2 = js "Infinity" then .infinity signed.1
  else
    let scanned := scanDecimal signed.2
    if scanned.2 = [] ∧ scanned.1.int ++ scanned.1.frac.getD [] ≠ [] then
      signedNumber signed.1 scanned.1.value
    else .nan

/-- `Number(s)` for a string `s`. -/
def stringToNumber (s : JsString) : JsNumber :=
  let t := trim s
  if t = [] then .ofRat 0 else (radixLiteral t).getD (decimalLiteral t)

/-- The units a printed decimal consists of. -/
def isNumberUnit (u : CodeUnit) : Bool :=
  isDigit u || u == 0x2E || u == 0x2D || u == 0x2B || u == 0x65

theorem isNumberUnit_spec {u : CodeUnit} (h : isNumberUnit u = true) :
    isWhiteSpace u = false ∧ radixOf u = none ∧ u ≠ 0x49 := by
  have hcases : u.toNat ∈ List.range 128 ∧ u = u.toNat.toUInt16 := by
    refine ⟨?_, by simp⟩
    simp only [isNumberUnit, isDigit, Bool.or_eq_true, Bool.and_eq_true, decide_eq_true_eq,
      beq_iff_eq, UInt16.le_iff_toNat_le] at h
    rw [List.mem_range]
    rcases h with (((h | rfl) | rfl) | rfl) | rfl
    · exact h.2.trans_lt (by decide)
    all_goals decide
  have hall : ∀ n ∈ List.range 128, isNumberUnit n.toUInt16 = true →
      isWhiteSpace n.toUInt16 = false ∧ radixOf n.toUInt16 = none ∧ n.toUInt16 ≠ 0x49 := by
    decide +kernel
  have hfinal := hall u.toNat hcases.1
  rw [← hcases.2] at hfinal
  exact hfinal h

theorem isNumberUnit_of_mem_render {d : Decimal} (hd : 0 < d.significand) {u : CodeUnit}
    (hu : u ∈ d.parts.render) : isNumberUnit u = true := by
  obtain ⟨hint, hfrac, hexp, -⟩ := Decimal.parts_digits hd
  have hdigit (v : CodeUnit) (hv : isDigit v = true) : isNumberUnit v = true := by
    simp [isNumberUnit, hv]
  simp only [DecimalParts.render, List.mem_append] at hu
  rcases hu with (hu | hu) | hu
  · exact hdigit u (hint u hu)
  · cases hf : d.parts.frac with
    | none => simp [hf, DecimalParts.fracText] at hu
    | some f =>
        simp only [hf, DecimalParts.fracText, List.mem_cons] at hu
        rcases hu with rfl | hu
        · decide
        · exact hdigit u ((hfrac f hf).2 u hu)
  · cases he : d.parts.exp with
    | none => simp [he, DecimalParts.expText] at hu
    | some x =>
        simp only [he, DecimalParts.expText, List.mem_cons] at hu
        rcases hu with rfl | rfl | hu
        · decide
        · split <;> decide
        · exact hdigit u ((hexp x he).2 u hu)

theorem trim_of_forall {s : JsString} (h : ∀ u ∈ s, isWhiteSpace u = false) : trim s = s := by
  have hdrop : ∀ t : JsString, (∀ u ∈ t, isWhiteSpace u = false) →
      t.dropWhile isWhiteSpace = t := by
    intro t ht
    cases t with
    | nil => rfl
    | cons u t => simp [ht u (by simp)]
  rw [trim, hdrop s h, hdrop s.reverse (by simpa using h), List.reverse_reverse]

/-- A finite number is recovered from its text by `Number(text)`. -/
theorem stringToNumber_numberText (x : Double) :
    stringToNumber (numberText (.finite x)) = .finite x := by
  by_cases hx : x.val = 0
  · have htext : numberText (.finite x) = [0x30] := by
      simp only [numberText, if_pos hx]
      decide
    have hzero : JsNumber.ofRat 0 = .finite x := by rw [← hx, JsNumber.ofRat_val]
    have heval : stringToNumber [0x30] = .ofRat 0 := by
      decide +kernel
    rw [htext, heval, hzero]
  · obtain ⟨d, hd, htext, hvalue⟩ := exists_parts_numberText hx
    obtain ⟨u, us, hus, hu⟩ := exists_render_eq_cons hd
    have hunit : ∀ v ∈ numberText (.finite x), isNumberUnit v = true := by
      intro v hv
      rw [htext, List.mem_append] at hv
      rcases hv with hv | hv
      · split at hv
        · rw [List.mem_singleton.mp hv]
          decide
        · simp at hv
      · exact isNumberUnit_of_mem_render hd hv
    have htrim := trim_of_forall fun v hv ↦ (isNumberUnit_spec (hunit v hv)).1
    have hne : numberText (.finite x) ≠ [] := by simp [htext, hus]
    have hradix : radixLiteral (numberText (.finite x)) = none := by
      unfold radixLiteral
      split
      · next v ds heq =>
          rw [(isNumberUnit_spec (hunit v (by simp [heq]))).2.1]
          rfl
      · rfl
    have hsign : scanAnySign (numberText (.finite x)) =
        (decide (x.val < 0), d.parts.render) := by
      rw [htext]
      by_cases hneg : x.val < 0
      · simp [hneg, scanAnySign, scanSign]
      · simp only [hneg, if_false, List.nil_append, hus, decide_false]
        unfold scanAnySign
        split
        · next heq =>
            obtain ⟨rfl, -⟩ := List.cons.inj heq
            exact absurd hu (by decide)
        · exact scanSign_of_isDigit hu us
    have hinf : d.parts.render ≠ js "Infinity" := by
      intro heq
      have hmem : (0x49 : CodeUnit) ∈ d.parts.render := by
        rw [heq]
        decide
      exact (isNumberUnit_spec (isNumberUnit_of_mem_render hd hmem)).2.2 rfl
    have hscan : scanDecimal d.parts.render = (d.parts, []) := by
      have hend : EndsDecimal [] := by simp [EndsDecimal]
      simpa using scanDecimal_parts hd hend
    have hint : d.parts.int ++ d.parts.frac.getD [] ≠ [] := by
      obtain ⟨-, -, -, hhead⟩ := Decimal.parts_digits hd
      intro hnil
      simp [(List.append_eq_nil_iff.mp hnil).1] at hhead
    simp only [stringToNumber, htrim, if_neg hne, hradix, Option.getD_none, decimalLiteral, hsign,
      if_neg hinf, hscan]
    rw [if_pos ⟨trivial, hint⟩, hvalue]

end TestIntelligence.Js
