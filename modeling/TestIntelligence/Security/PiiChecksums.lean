import Mathlib.Data.Nat.ModEq
import Mathlib.Tactic.Ring
import TestIntelligence.Js.NumberText

/-!
# The checksums of account and card numbers

The remainder of an IBAN by 97 and the Luhn sum of a card number.
-/

namespace TestIntelligence.Security

open Js

def isIbanLetter (u : CodeUnit) : Bool := 0x41 ≤ u && u ≤ 0x5A

/-! ## The IBAN -/

/-- The loop over the characters.  The half of a surrogate pair is refused like any other
character that is neither a digit nor a letter. -/
def mod97Loop : ℕ → JsString → Option ℕ
  | remainder, [] => some remainder
  | remainder, ch :: rest =>
      let code := ch.toNat
      if 48 ≤ code ∧ code ≤ 57 then
        let num := code - 48
        mod97Loop ((remainder * (if num < 10 then 10 else 100) + num) % 97) rest
      else if 65 ≤ code ∧ code ≤ 90 then
        let num := code - 55
        mod97Loop ((remainder * (if num < 10 then 10 else 100) + num) % 97) rest
      else none

/-- The first four characters go to the end. -/
def rearranged (iban : JsString) : JsString := iban.drop 4 ++ iban.take 4

def validateIbanMod97 (iban : JsString) : Bool := mod97Loop 0 (rearranged iban) == some 1

/-- What a character counts. -/
def ibanNumber (u : CodeUnit) : ℕ := if isDigit u then u.toNat - 48 else u.toNat - 55

/-- The decimal digits a character is replaced by, a letter by the numbers from 10 to 35. -/
def expansion (u : CodeUnit) : List ℕ :=
  if isDigit u then [ibanNumber u] else [ibanNumber u / 10, ibanNumber u % 10]

/-- The integer that a list of decimal digits writes, the first digit the highest. -/
def decimal (digits : List ℕ) : ℕ := digits.foldl (fun n digit ↦ 10 * n + digit) 0

def ibanInteger (iban : JsString) : ℕ := decimal ((rearranged iban).flatMap expansion)

section

variable {u v : CodeUnit} {s pre post : JsString} {remainder n m : ℕ}

theorem isDigit_iff : isDigit u = true ↔ 48 ≤ u.toNat ∧ u.toNat ≤ 57 := by
  simp [isDigit, UInt16.le_iff_toNat_le]

theorem isIbanLetter_iff : isIbanLetter u = true ↔ 65 ≤ u.toNat ∧ u.toNat ≤ 90 := by
  simp [isIbanLetter, UInt16.le_iff_toNat_le]

/-- A character that the loop does not refuse. -/
def IsIbanCharacter (u : CodeUnit) : Prop := isDigit u = true ∨ isIbanLetter u = true

/-- What a character multiplies the number before it with. -/
def scale (u : CodeUnit) : ℕ := if isDigit u then 10 else 100

theorem mod97Loop_cons (h : IsIbanCharacter u) :
    mod97Loop remainder (u :: s) = mod97Loop ((remainder * scale u + ibanNumber u) % 97) s := by
  rcases h with hdigit | hletter
  · have hcode := isDigit_iff.mp hdigit
    have hnum : u.toNat - 48 < 10 := by omega
    rw [mod97Loop]
    simp only [if_pos hcode, if_pos hnum, scale, ibanNumber, if_pos hdigit]
  · have hcode := isIbanLetter_iff.mp hletter
    have hdigit : ¬ isDigit u = true := by
      rw [isDigit_iff]
      omega
    have hrange : ¬ (48 ≤ u.toNat ∧ u.toNat ≤ 57) := by omega
    have hnum : ¬ u.toNat - 55 < 10 := by omega
    rw [mod97Loop]
    simp only [if_pos hcode, if_neg hrange, if_neg hnum, scale, ibanNumber, if_neg hdigit]

theorem isIbanCharacter_of_mod97Loop (h : mod97Loop remainder s = some n) :
    ∀ u ∈ s, IsIbanCharacter u := by
  induction s generalizing remainder with
  | nil => exact fun u hu ↦ absurd hu List.not_mem_nil
  | cons u s ih =>
      rw [mod97Loop] at h
      simp only at h
      split at h
      · next hcode => exact List.forall_mem_cons.mpr ⟨.inl (isDigit_iff.mpr hcode), ih h⟩
      · split at h
        · next hcode => exact List.forall_mem_cons.mpr ⟨.inr (isIbanLetter_iff.mpr hcode), ih h⟩
        · cases h

theorem ibanNumber_lt (h : IsIbanCharacter u) : ibanNumber u < 36 := by
  unfold ibanNumber
  rcases h with hdigit | hletter
  · have hcode := isDigit_iff.mp hdigit
    rw [if_pos hdigit]
    omega
  · have hcode := isIbanLetter_iff.mp hletter
    rw [if_neg (by rw [isDigit_iff]; omega)]
    omega

theorem decimal_append (xs ys : List ℕ) :
    decimal (xs ++ ys) = decimal xs * 10 ^ ys.length + decimal ys := by
  have hfold : ∀ (ys : List ℕ) (start : ℕ), ys.foldl (fun n digit ↦ 10 * n + digit) start =
      start * 10 ^ ys.length + decimal ys := by
    intro ys
    induction ys with
    | nil => simp [decimal]
    | cons y ys ih =>
        intro start
        have hcons : decimal (y :: ys) = y * 10 ^ ys.length + decimal ys := by
          rw [decimal, List.foldl_cons, ih, Nat.mul_zero, Nat.zero_add]
        rw [List.foldl_cons, ih, hcons, List.length_cons, Nat.pow_succ]
        ring
  rw [decimal, List.foldl_append, hfold, ← decimal]

theorem decimal_expansion (u : CodeUnit) : decimal (expansion u) = ibanNumber u := by
  unfold expansion decimal
  split
  · simp
  · simp only [List.foldl_cons, List.foldl_nil]
    omega

theorem scale_eq (u : CodeUnit) : scale u = 10 ^ (expansion u).length := by
  unfold scale expansion
  split <;> rfl

/-- The loop keeps the remainder of the number read so far. -/
theorem mod97Loop_eq (h : ∀ u ∈ s, IsIbanCharacter u) (done : JsString) :
    mod97Loop (decimal (done.flatMap expansion) % 97) s =
      some (decimal ((done ++ s).flatMap expansion) % 97) := by
  induction s generalizing done with
  | nil => rw [mod97Loop, List.append_nil]
  | cons u s ih =>
      obtain ⟨hu, hs⟩ := List.forall_mem_cons.mp h
      have hstep : (decimal (done.flatMap expansion) % 97 * scale u + ibanNumber u) % 97 =
          decimal ((done ++ [u]).flatMap expansion) % 97 := by
        rw [List.flatMap_append, decimal_append, List.flatMap_singleton, decimal_expansion,
          scale_eq, Nat.add_mod, Nat.mod_mul_mod, ← Nat.add_mod]
      rw [mod97Loop_cons hu, hstep, ih hs, List.append_assoc, List.singleton_append]

theorem validateIbanMod97_iff (h : ∀ u ∈ s, IsIbanCharacter u) :
    validateIbanMod97 s = true ↔ ibanInteger s ≡ 1 [MOD 97] := by
  have hmoved : ∀ u ∈ rearranged s, IsIbanCharacter u := by
    intro u hu
    rcases List.mem_append.mp hu with hu | hu
    · exact h u (List.mem_of_mem_drop hu)
    · exact h u (List.mem_of_mem_take hu)
  have hloop := mod97Loop_eq hmoved []
  rw [List.nil_append] at hloop
  rw [validateIbanMod97, show (0 : ℕ) = decimal (([] : JsString).flatMap expansion) % 97 from rfl,
    hloop, beq_iff_eq, Option.some.injEq]
  rfl

theorem isIbanCharacter_of_validate (h : validateIbanMod97 s = true) :
    ∀ u ∈ s, IsIbanCharacter u := by
  have hall := isIbanCharacter_of_mod97Loop (beq_iff_eq.mp h)
  intro u hu
  apply hall
  rw [← List.take_append_drop 4 s, List.mem_append] at hu
  exact List.mem_append.mpr hu.symm

/-- A character keeps its place among the others when the first four are moved. -/
theorem exists_rearranged (pre post : JsString) :
    ∃ pre' post', ∀ u, rearranged (pre ++ u :: post) = pre' ++ u :: post' := by
  rcases Nat.lt_or_ge pre.length 4 with hlt | hge
  · refine ⟨post.drop (4 - pre.length - 1) ++ pre, post.take (4 - pre.length - 1), fun u ↦ ?_⟩
    obtain ⟨k, hk⟩ : ∃ k, 4 - pre.length = k + 1 := ⟨4 - pre.length - 1, by omega⟩
    rw [rearranged, List.drop_append, List.take_append, List.drop_of_length_le hlt.le,
      List.take_of_length_le hlt.le, hk, List.drop_succ_cons, List.take_succ_cons]
    simp
  · refine ⟨pre.drop 4, post ++ pre.take 4, fun u ↦ ?_⟩
    rw [rearranged, List.drop_append_of_le_length hge, List.take_append_of_le_length hge]
    simp

/-- One digit for another, or one letter for another, is noticed. -/
theorem validateIbanMod97_changed (hne : u ≠ v)
    (hkind : isDigit u = true ∧ isDigit v = true ∨ isIbanLetter u = true ∧ isIbanLetter v = true)
    (hu : validateIbanMod97 (pre ++ u :: post) = true) :
    validateIbanMod97 (pre ++ v :: post) = false := by
  rw [Bool.eq_false_iff]
  intro hv
  have hallu := isIbanCharacter_of_validate hu
  have hallv := isIbanCharacter_of_validate hv
  have hcharu : IsIbanCharacter u := hallu u (by simp)
  have hcharv : IsIbanCharacter v := hallv v (by simp)
  have hlength : (expansion u).length = (expansion v).length := by
    rcases hkind with ⟨hdu, hdv⟩ | ⟨hlu, hlv⟩
    · rw [expansion, expansion, if_pos hdu, if_pos hdv]
      rfl
    · have hcodeu := isIbanLetter_iff.mp hlu
      have hcodev := isIbanLetter_iff.mp hlv
      rw [expansion, expansion, if_neg (by rw [isDigit_iff]; omega),
        if_neg (by rw [isDigit_iff]; omega)]
      rfl
  obtain ⟨pre', post', hmoved⟩ := exists_rearranged pre post
  have hinteger : ∀ w, ibanInteger (pre ++ w :: post) =
      (decimal (pre'.flatMap expansion) * 10 ^ (expansion w).length + ibanNumber w) *
        10 ^ (post'.flatMap expansion).length + decimal (post'.flatMap expansion) := by
    intro w
    rw [ibanInteger, hmoved, List.flatMap_append, List.flatMap_cons, ← List.append_assoc,
      decimal_append, decimal_append, decimal_expansion]
  have hmod : ibanInteger (pre ++ u :: post) ≡ ibanInteger (pre ++ v :: post) [MOD 97] :=
    ((validateIbanMod97_iff hallu).mp hu).trans ((validateIbanMod97_iff hallv).mp hv).symm
  rw [hinteger, hinteger, hlength] at hmod
  -- ten has an inverse by 97
  have hcoprime : Nat.gcd 97 (10 ^ (post'.flatMap expansion).length) = 1 :=
    Nat.Coprime.pow_right _ (by decide)
  have hnumbers : ibanNumber u ≡ ibanNumber v [MOD 97] :=
    (Nat.ModEq.cancel_right_of_coprime hcoprime hmod.add_right_cancel').add_left_cancel'
  have hsame : ibanNumber u = ibanNumber v :=
    Nat.ModEq.eq_of_lt_of_lt hnumbers ((ibanNumber_lt hcharu).trans (by decide))
      ((ibanNumber_lt hcharv).trans (by decide))
  apply hne
  apply UInt16.toNat_inj.mp
  rcases hkind with ⟨hdu, hdv⟩ | ⟨hlu, hlv⟩
  · rw [ibanNumber, ibanNumber, if_pos hdu, if_pos hdv] at hsame
    have hcodeu := isDigit_iff.mp hdu
    have hcodev := isDigit_iff.mp hdv
    omega
  · have hcodeu := isIbanLetter_iff.mp hlu
    have hcodev := isIbanLetter_iff.mp hlv
    rw [ibanNumber, ibanNumber, if_neg (by rw [isDigit_iff]; omega),
      if_neg (by rw [isDigit_iff]; omega)] at hsame
    omega

end

/-! ## The card number -/

/-- The loop from the last digit to the first. -/
def luhnLoop : ℕ → Bool → JsString → Option ℕ
  | sum, _, [] => some sum
  | sum, doubled, char :: rest =>
      let d : ℤ := (char.toNat : ℤ) - 48
      if d < 0 ∨ d > 9 then none
      else
        let value := d.toNat
        let value := if doubled then
            let value := value * 2
            if value > 9 then value - 9 else value
          else value
        luhnLoop (sum + value) (!doubled) rest

def luhnValid (digits : JsString) : Bool :=
  if digits.length = 0 then false
  else
    match luhnLoop 0 false digits.reverse with
    | some sum => sum % 10 == 0
    | none => false

section

variable {u v : CodeUnit} {s pre post : JsString} {sum : ℕ} {doubled : Bool}

/-- What a digit adds to the sum. -/
def luhnValue (doubled : Bool) (n : ℕ) : ℕ :=
  if doubled then if n * 2 > 9 then n * 2 - 9 else n * 2 else n

def luhnSum : Bool → JsString → ℕ
  | _, [] => 0
  | doubled, u :: s => luhnValue doubled (u.toNat - 48) + luhnSum (!doubled) s

theorem luhnLoop_eq (h : ∀ u ∈ s, isDigit u = true) :
    luhnLoop sum doubled s = some (sum + luhnSum doubled s) := by
  induction s generalizing sum doubled with
  | nil => rfl
  | cons u s ih =>
      obtain ⟨hu, hs⟩ := List.forall_mem_cons.mp h
      have hcode := isDigit_iff.mp hu
      have hdigit : ((u.toNat : ℤ) - 48).toNat = u.toNat - 48 := by omega
      rw [luhnLoop]
      simp only
      rw [if_neg (by omega), hdigit, ih hs, luhnSum, luhnValue, Nat.add_assoc]

theorem luhnValid_iff (h : ∀ u ∈ s, isDigit u = true) (hne : s ≠ []) :
    luhnValid s = true ↔ luhnSum false s.reverse % 10 = 0 := by
  have hlength : s.length ≠ 0 := mt List.length_eq_zero_iff.mp hne
  have hreverse : ∀ u ∈ s.reverse, isDigit u = true := fun u hu ↦ h u (List.mem_reverse.mp hu)
  rw [luhnValid, if_neg hlength, luhnLoop_eq hreverse, Nat.zero_add]
  exact beq_iff_eq

theorem luhnSum_append (doubled : Bool) (s t : JsString) :
    luhnSum doubled (s ++ t) = luhnSum doubled s + luhnSum (not^[s.length] doubled) t := by
  induction s generalizing doubled with
  | nil => simp [luhnSum]
  | cons u s ih =>
      rw [List.cons_append, luhnSum, ih, luhnSum, List.length_cons, Function.iterate_succ_apply,
        Nat.add_assoc]

/-- The digits are told apart by what they add to the sum. -/
theorem luhnValue_inj : ∀ doubled, ∀ n < 10, ∀ m < 10,
    luhnValue doubled n % 10 = luhnValue doubled m % 10 → n = m := by
  decide

theorem luhnValue_swap : ∀ doubled, ∀ n < 10, ∀ m < 10,
    (luhnValue doubled n + luhnValue (!doubled) m) % 10 =
      (luhnValue doubled m + luhnValue (!doubled) n) % 10 →
    n = m ∨ n = 0 ∧ m = 9 ∨ n = 9 ∧ m = 0 := by
  decide

theorem luhnValid_changed (h : ∀ w ∈ pre ++ post, isDigit w = true) (hu : isDigit u = true)
    (hv : isDigit v = true) (hne : u ≠ v) (hvalid : luhnValid (pre ++ u :: post) = true) :
    luhnValid (pre ++ v :: post) = false := by
  rw [Bool.eq_false_iff]
  intro hvalid'
  have hall : ∀ w, isDigit w = true → ∀ x ∈ pre ++ w :: post, isDigit x = true := by
    intro w hw x hx
    rcases List.mem_append.mp hx with hx | hx
    · exact h x (List.mem_append_left _ hx)
    · rcases List.mem_cons.mp hx with rfl | hx
      · exact hw
      · exact h x (List.mem_append_right _ hx)
  have hsum : ∀ w, luhnSum false (pre ++ w :: post).reverse = luhnSum false post.reverse +
      (luhnValue (not^[post.length] false) (w.toNat - 48) +
        luhnSum (!not^[post.length] false) pre.reverse) := by
    intro w
    rw [List.reverse_append, List.reverse_cons, List.append_assoc, luhnSum_append,
      List.length_reverse, List.singleton_append, luhnSum]
  have hcodeu := isDigit_iff.mp hu
  have hcodev := isDigit_iff.mp hv
  rw [luhnValid_iff (hall u hu) (by simp), hsum] at hvalid
  rw [luhnValid_iff (hall v hv) (by simp), hsum] at hvalid'
  have hsame := luhnValue_inj (not^[post.length] false) (u.toNat - 48) (by omega) (v.toNat - 48)
    (by omega) (by omega)
  exact hne (UInt16.toNat_inj.mp (by omega))

theorem luhnValid_swapped (h : ∀ w ∈ pre ++ u :: v :: post, isDigit w = true) (hne : u ≠ v)
    (hpair : ¬ (u = 0x30 ∧ v = 0x39 ∨ u = 0x39 ∧ v = 0x30))
    (hvalid : luhnValid (pre ++ u :: v :: post) = true) :
    luhnValid (pre ++ v :: u :: post) = false := by
  rw [Bool.eq_false_iff]
  intro hvalid'
  have hperm : (pre ++ v :: u :: post).Perm (pre ++ u :: v :: post) :=
    (List.Perm.swap u v post).append_left pre
  have hall' : ∀ w ∈ pre ++ v :: u :: post, isDigit w = true :=
    fun w hw ↦ h w (hperm.mem_iff.mp hw)
  have hsum : ∀ w x, luhnSum false (pre ++ w :: x :: post).reverse = luhnSum false post.reverse +
      (luhnValue (not^[post.length] false) (x.toNat - 48) +
        (luhnValue (!not^[post.length] false) (w.toNat - 48) +
          luhnSum (!!not^[post.length] false) pre.reverse)) := by
    intro w x
    rw [List.reverse_append, List.reverse_cons, List.reverse_cons, List.append_assoc,
      List.append_assoc, luhnSum_append, List.length_reverse, List.singleton_append,
      List.singleton_append, luhnSum, luhnSum]
  have hcodeu := isDigit_iff.mp (h u (by simp))
  have hcodev := isDigit_iff.mp (h v (by simp))
  rw [luhnValid_iff h (by simp), hsum] at hvalid
  rw [luhnValid_iff hall' (by simp), hsum] at hvalid'
  rcases luhnValue_swap (not^[post.length] false) (v.toNat - 48) (by omega) (u.toNat - 48)
    (by omega) (by omega) with hsame | ⟨hv, hu⟩ | ⟨hv, hu⟩
  · exact hne (UInt16.toNat_inj.mp (by omega))
  · exact hpair (.inr ⟨UInt16.toNat_inj.mp (show u.toNat = 57 by omega),
      UInt16.toNat_inj.mp (show v.toNat = 48 by omega)⟩)
  · exact hpair (.inl ⟨UInt16.toNat_inj.mp (show u.toNat = 48 by omega),
      UInt16.toNat_inj.mp (show v.toNat = 57 by omega)⟩)

end

/-- The remainder is the one of the integer an IBAN stands for, and both sums notice a single
wrong character; the Luhn sum notices two neighbours that changed places as well. -/
theorem checksums_standard :
    (∀ iban : JsString, (∀ u ∈ iban, isDigit u = true ∨ isIbanLetter u = true) →
      (validateIbanMod97 iban = true ↔ ibanInteger iban ≡ 1 [MOD 97])) ∧
    (∀ (pre post : JsString) (u v : CodeUnit), u ≠ v →
      isDigit u = true ∧ isDigit v = true ∨ isIbanLetter u = true ∧ isIbanLetter v = true →
      ¬ (validateIbanMod97 (pre ++ u :: post) = true ∧
        validateIbanMod97 (pre ++ v :: post) = true)) ∧
    (∀ (pre post : JsString) (u v : CodeUnit), u ≠ v → isDigit u = true → isDigit v = true →
      (∀ w ∈ pre ++ post, isDigit w = true) →
      ¬ (luhnValid (pre ++ u :: post) = true ∧ luhnValid (pre ++ v :: post) = true)) ∧
    (∀ (pre post : JsString) (u v : CodeUnit), u ≠ v →
      (∀ w ∈ pre ++ u :: v :: post, isDigit w = true) →
      ¬ (u = 0x30 ∧ v = 0x39 ∨ u = 0x39 ∧ v = 0x30) →
      ¬ (luhnValid (pre ++ u :: v :: post) = true ∧
        luhnValid (pre ++ v :: u :: post) = true)) := by
  refine ⟨fun iban h ↦ validateIbanMod97_iff h, ?_, ?_, ?_⟩
  · rintro pre post u v hne hkind ⟨hu, hv⟩
    rw [validateIbanMod97_changed hne hkind hu] at hv
    cases hv
  · rintro pre post u v hne hdu hdv h ⟨hu, hv⟩
    rw [luhnValid_changed h hdu hdv hne hu] at hv
    cases hv
  · rintro pre post u v hne h hpair ⟨hu, hv⟩
    rw [luhnValid_swapped h hne hpair hu] at hv
    cases hv

theorem checksums_standard_sample :
    validateIbanMod97 (js "DE89370400440532013000") = true ∧
      ¬ (validateIbanMod97 (js "DE89370400440532013000") = true ∧
        validateIbanMod97 (js "DE89370400440532013001") = true) ∧
      luhnValid (js "4111111111111111") = true ∧
      ¬ (luhnValid (js "4111111111111111") = true ∧ luhnValid (js "1411111111111111") = true) := by
  obtain ⟨-, hiban, -, hluhn⟩ := checksums_standard
  refine ⟨by decide, ?_, by decide, ?_⟩
  · exact hiban (js "DE8937040044053201300") [] 0x30 0x31 (by decide) (.inl (by decide))
  · have hdigits : (js "4111111111111111").all isDigit = true := by decide
    exact hluhn [] (js "11111111111111") 0x34 0x31 (by decide) (List.all_eq_true.mp hdigits)
      (by decide)

end TestIntelligence.Security
