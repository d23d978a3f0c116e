import Mathlib.Data.List.Basic
import Mathlib.Logic.Function.Iterate
import Mathlib.Tactic.Common

/-!
# Cyclic redundancy checks of 32 bits

The register takes the message bit by bit, the low bit of each byte first.  A shift of the
register is linear in exclusive or, so eight shifts need only the low byte of the register:
they can be looked up in a table of 256 words.
-/

namespace TestIntelligence.Binary

section

variable (poly : BitVec 32)

/-- One bit of the message enters the register. -/
def crcBit (c : BitVec 32) (bit : Bool) : BitVec 32 :=
  (if (c.getLsbD 0 ^^ bit) then poly else 0) ^^^ (c >>> 1)

def byteBits (b : UInt8) : List Bool := (List.range 8).map b.toNat.testBit

/-- The check of a message, bit by bit. -/
def bitwiseCrc (bytes : List UInt8) : BitVec 32 :=
  ~~~ (bytes.flatMap byteBits).foldl (crcBit poly) (~~~ 0)

/-- The register moves on by a zero bit. -/
def crcShift (c : BitVec 32) : BitVec 32 := if c.getLsbD 0 then poly ^^^ (c >>> 1) else c >>> 1

/-- Eight shifts. -/
def crcWord (c : BitVec 32) : BitVec 32 := (crcShift poly)^[8] c

def lowByte (b : UInt8) : BitVec 32 := BitVec.ofNat 32 b.toNat

end

variable {poly : BitVec 32}

/-! ## Linearity -/

theorem xor_xor_xor_cancel (a b p : BitVec 32) : p ^^^ a ^^^ (p ^^^ b) = a ^^^ b := by
  rw [BitVec.xor_comm p a, BitVec.xor_assoc, ← BitVec.xor_assoc p, BitVec.xor_self, BitVec.zero_xor]

theorem crcShift_xor (a b : BitVec 32) :
    crcShift poly (a ^^^ b) = crcShift poly a ^^^ crcShift poly b := by
  simp only [crcShift, BitVec.getLsbD_xor, BitVec.ushiftRight_xor_distrib]
  cases ha : a.getLsbD 0 <;> cases hb : b.getLsbD 0 <;> simp only [Bool.xor_false, Bool.xor_true,
    Bool.not_false, Bool.not_true, Bool.false_eq_true, if_true, if_false]
  · rw [← BitVec.xor_assoc, BitVec.xor_comm poly, BitVec.xor_assoc]
  · rw [BitVec.xor_assoc]
  · rw [xor_xor_xor_cancel]

theorem iterate_crcShift_xor (n : ℕ) (a b : BitVec 32) :
    (crcShift poly)^[n] (a ^^^ b) = (crcShift poly)^[n] a ^^^ (crcShift poly)^[n] b := by
  induction n generalizing a b with
  | zero => rfl
  | succ n ih =>
      rw [Function.iterate_succ_apply, Function.iterate_succ_apply, Function.iterate_succ_apply,
        crcShift_xor, ih]

/-- A register whose low bits are clear only moves down. -/
theorem iterate_crcShift_of_clear {n : ℕ} {c : BitVec 32} (h : ∀ i < n, c.getLsbD i = false) :
    (crcShift poly)^[n] c = c >>> n := by
  induction n generalizing c with
  | zero => simp
  | succ n ih =>
      have hlow : c.getLsbD 0 = false := h 0 (by omega)
      have hshift : crcShift poly c = c >>> 1 := by
        rw [crcShift, hlow]
        rfl
      have hclear : ∀ i < n, (c >>> 1).getLsbD i = false := by
        intro i hi
        rw [BitVec.getLsbD_ushiftRight]
        exact h (1 + i) (by omega)
      rw [Function.iterate_succ_apply, hshift, ih hclear, ← BitVec.shiftRight_add, Nat.add_comm]

/-! ## Bits and bytes -/

/-- The number whose bits are listed, the low one first. -/
def bitsValue : List Bool → BitVec 32
  | [] => 0
  | bit :: bits => (BitVec.ofBool bit).setWidth 32 ^^^ (bitsValue bits <<< 1)

theorem getLsbD_bitsValue_of_lt (bits : List Bool) {i : ℕ} (hi : i < 32) :
    (bitsValue bits).getLsbD i = bits.getD i false := by
  induction bits generalizing i with
  | nil => simp [bitsValue]
  | cons bit bits ih =>
      cases i with
      | zero => simp [bitsValue]
      | succ i =>
          have htail := ih (show i < 32 by omega)
          simp [bitsValue, htail]
          omega

theorem bitsValue_byteBits (b : UInt8) : bitsValue (byteBits b) = lowByte b := by
  apply BitVec.eq_of_getLsbD_eq
  intro i hi
  rw [getLsbD_bitsValue_of_lt _ hi, lowByte, BitVec.getLsbD_ofNat, decide_eq_true hi,
    Bool.true_and, byteBits]
  by_cases hbyte : i < 8
  · simp [hbyte]
  · have hlt : b.toNat < 2 ^ i :=
      Nat.lt_of_lt_of_le b.toNat_lt_size (Nat.pow_le_pow_right Nat.two_pos (Nat.le_of_not_lt hbyte))
    rw [Nat.testBit_lt_two_pow hlt]
    simp [hbyte]

theorem getLsbD_bitsValue (bits : List Bool) (i : ℕ) (h : bits.length ≤ i) :
    (bitsValue bits).getLsbD i = false := by
  induction bits generalizing i with
  | nil => simp [bitsValue]
  | cons bit bits ih =>
      rw [List.length_cons] at h
      obtain ⟨j, rfl⟩ : ∃ j, i = j + 1 := ⟨i - 1, by omega⟩
      have htail := ih j (by omega)
      simp [bitsValue, htail]

theorem crcBit_eq (c : BitVec 32) (bit : Bool) :
    crcBit poly c bit = crcShift poly (c ^^^ (BitVec.ofBool bit).setWidth 32) := by
  have hlow : ((BitVec.ofBool bit).setWidth 32).getLsbD 0 = bit := by
    cases bit <;> rfl
  have hhigh : (BitVec.ofBool bit).setWidth 32 >>> 1 = 0#32 := by
    cases bit <;> rfl
  rw [crcBit, crcShift, BitVec.getLsbD_xor, hlow, BitVec.ushiftRight_xor_distrib, hhigh,
    BitVec.xor_zero]
  split
  · rfl
  · exact BitVec.zero_xor

/-- The bits of a word entering one by one are the word entering at once. -/
theorem foldl_crcBit (bits : List Bool) (hlength : bits.length ≤ 31) (c : BitVec 32) :
    bits.foldl (crcBit poly) c = (crcShift poly)^[bits.length] (c ^^^ bitsValue bits) := by
  induction bits generalizing c with
  | nil => simp [bitsValue]
  | cons bit bits ih =>
      rw [List.length_cons] at hlength
      have hclear : (bitsValue bits <<< 1).getLsbD 0 = false := by simp
      have hshift : crcShift poly (bitsValue bits <<< 1) = bitsValue bits := by
        rw [crcShift, if_neg (by simp)]
        apply BitVec.eq_of_getLsbD_eq
        intro i hi
        rw [BitVec.getLsbD_ushiftRight, BitVec.getLsbD_shiftLeft]
        by_cases hlast : i = 31
        · rw [hlast, getLsbD_bitsValue bits 31 (by omega)]
          simp
        · have hi' : 1 + i < 32 := by omega
          simp [hi']
      rw [List.foldl_cons, ih (by omega), crcBit_eq, List.length_cons, Function.iterate_succ_apply,
        bitsValue, ← BitVec.xor_assoc, crcShift_xor (c ^^^ _), hshift]

theorem foldl_byteBits (b : UInt8) (c : BitVec 32) :
    (byteBits b).foldl (crcBit poly) c = crcWord poly (c ^^^ lowByte b) := by
  rw [foldl_crcBit _ (by simp [byteBits]), bitsValue_byteBits]
  simp [byteBits, crcWord]

/-! ## The table -/

theorem eq_low_xor_high (c : BitVec 32) : c = (c &&& 255#32) ^^^ (c &&& ~~~255#32) := by
  apply BitVec.eq_of_getLsbD_eq
  intro i hi
  rw [BitVec.getLsbD_xor, BitVec.getLsbD_and, BitVec.getLsbD_and, BitVec.getLsbD_not]
  cases c.getLsbD i <;> cases (255#32).getLsbD i <;> simp [hi]

theorem getLsbD_255 {i : ℕ} : (255#32).getLsbD i = decide (i < 8) := by
  have hmask : (255 : ℕ) = 2 ^ 8 - 1 := rfl
  rw [BitVec.getLsbD_ofNat, hmask, Nat.testBit_two_pow_sub_one]
  by_cases hi : i < 8 <;> simp [hi]
  omega

/-- Eight shifts are a word of the table and the rest moved down. -/
theorem crcWord_eq (c : BitVec 32) :
    crcWord poly c = crcWord poly (c &&& 255#32) ^^^ (c >>> 8) := by
  have hclear : ∀ i < 8, (c &&& ~~~255#32).getLsbD i = false := by
    intro i hi
    rw [BitVec.getLsbD_and, BitVec.getLsbD_not, getLsbD_255, decide_eq_true hi]
    simp
  have hhigh : (c &&& ~~~255#32) >>> 8 = c >>> 8 := by
    apply BitVec.eq_of_getLsbD_eq
    intro i hi
    rw [BitVec.getLsbD_ushiftRight, BitVec.getLsbD_ushiftRight, BitVec.getLsbD_and,
      BitVec.getLsbD_not, getLsbD_255]
    by_cases hlast : 8 + i < 32
    · simp [hlast]
    · rw [BitVec.getLsbD_of_ge c (8 + i) (by omega)]
      rfl
  have hsplit : crcWord poly c =
      crcWord poly ((c &&& 255#32) ^^^ (c &&& ~~~255#32)) := by rw [← eq_low_xor_high]
  rw [hsplit, crcWord, iterate_crcShift_xor, iterate_crcShift_of_clear hclear, hhigh, ← crcWord]

/-- One byte by the table. -/
theorem crcWord_xor_lowByte (c : BitVec 32) (b : UInt8) :
    crcWord poly (c ^^^ lowByte b) =
      crcWord poly ((c ^^^ lowByte b) &&& 255#32) ^^^ (c >>> 8) := by
  have hbyte : lowByte b >>> 8 = 0#32 := by
    have hlt : b.toNat < 256 := b.toNat_lt_size
    apply BitVec.eq_of_toNat_eq
    rw [lowByte, BitVec.toNat_ushiftRight, BitVec.toNat_ofNat, Nat.mod_eq_of_lt (by omega),
      Nat.shiftRight_eq_div_pow]
    exact Nat.div_eq_of_lt hlt
  rw [crcWord_eq, BitVec.ushiftRight_xor_distrib, hbyte, BitVec.xor_zero]

/-- The check of a message, byte by byte. -/
theorem bitwiseCrc_eq_foldl (bytes : List UInt8) :
    bitwiseCrc poly bytes = ~~~ bytes.foldl
      (fun c b ↦ crcWord poly ((c ^^^ lowByte b) &&& 255#32) ^^^ (c >>> 8)) (~~~ 0) := by
  rw [bitwiseCrc]
  generalize (~~~ 0 : BitVec 32) = start
  congr 1
  induction bytes generalizing start with
  | nil => rfl
  | cons b bytes ih =>
      rw [List.flatMap_cons, List.foldl_append, foldl_byteBits, ih, List.foldl_cons,
        crcWord_xor_lowByte]

end TestIntelligence.Binary
