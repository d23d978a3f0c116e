import TestIntelligence.Js.NumberText

/-!
# Regular expressions of the sources

The tests that the sources write as regular expressions over ASCII classes, and
the string functions they use beside them.
-/

namespace TestIntelligence.Js

def isLowerHex (u : CodeUnit) : Bool := isDigit u || (0x61 ≤ u && u ≤ 0x66)

def isAlphanumeric (u : CodeUnit) : Bool :=
  isDigit u || (0x41 ≤ u && u ≤ 0x5A) || (0x61 ≤ u && u ≤ 0x7A)

/-- The string has one unit for each class, in order. -/
def matchesClasses : List (CodeUnit → Bool) → JsString → Bool
  | [], [] => true
  | p :: ps, u :: us => p u && matchesClasses ps us
  | _, _ => false

def literal (u : CodeUnit) : CodeUnit → Bool := (· == u)

/-- `/^[0-9a-f]{n}$/u` -/
def isHexOfLength (n : ℕ) (s : JsString) : Bool := s.length == n && s.all isLowerHex

/-- `/^[0-9a-f]{8}-[0-9a-f]{4}-[0-9a-f]{4}-[0-9a-f]{4}-[0-9a-f]{12}$/u` -/
def isUuidText : JsString → Bool :=
  matchesClasses (List.replicate 8 isLowerHex ++ literal 0x2D :: List.replicate 4 isLowerHex ++
    literal 0x2D :: List.replicate 4 isLowerHex ++ literal 0x2D :: List.replicate 4 isLowerHex ++
      literal 0x2D :: List.replicate 12 isLowerHex)

/-- The classes of `\d{4}-\d{2}-\d{2}T\d{2}:\d{2}:\d{2}`. -/
def dateTimeClasses : List (CodeUnit → Bool) :=
  [isDigit, isDigit, isDigit, isDigit, literal 0x2D, isDigit, isDigit, literal 0x2D, isDigit,
    isDigit, literal 0x54, isDigit, isDigit, literal 0x3A, isDigit, isDigit, literal 0x3A,
    isDigit, isDigit]

/-- The text after an optional `\.\d{1,9}`. -/
def afterFraction : JsString → JsString
  | 0x2E :: rest =>
      let digits := rest.takeWhile isDigit
      if 1 ≤ digits.length ∧ digits.length ≤ 9 then rest.dropWhile isDigit else 0x2E :: rest
  | s => s

/-- `/^\d{4}-\d{2}-\d{2}T\d{2}:\d{2}:\d{2}(\.\d{1,9})?(Z|[+-]\d{2}:\d{2})$/u` -/
def isIsoDateTime (s : JsString) : Bool :=
  let zone := afterFraction (s.drop 19)
  matchesClasses dateTimeClasses (s.take 19) &&
    (zone == [0x5A] || matchesClasses
      [fun u ↦ u == 0x2B || u == 0x2D, isDigit, isDigit, literal 0x3A, isDigit, isDigit] zone)

/-- `haystack.includes(needle)` -/
def includes (haystack needle : JsString) : Bool := haystack.tails.any needle.isPrefixOf

/-- `s.endsWith(suf)` -/
def endsWith (s suf : JsString) : Bool := suf.isSuffixOf s

/-- `s.padStart(width, "0")` -/
def padStartZero (width : ℕ) (s : JsString) : JsString :=
  List.replicate (width - s.length) 0x30 ++ s

/-! ## Padded numbers -/

/-- The text starts with a digit, and no digit follows a leading zero. -/
def NoLeadingZeros (s : JsString) : Prop :=
  ∃ u us, s = u :: us ∧ isDigit u = true ∧ (u = 0x30 → ∀ v ∈ us.head?, isDigit v = false)

theorem noLeadingZeros_numberText {x : JsNumber} (hx : x.isFinite = true) (hpos : 0 ≤ x.toRat) :
    NoLeadingZeros (numberText x) := by
  have hzero : NoLeadingZeros (js "0") := ⟨0x30, [], by decide, by decide, by simp⟩
  cases x with
  | nan => cases hx
  | infinity negative => cases hx
  | negZero => exact hzero
  | finite d =>
      have hpos : 0 ≤ d.val := hpos
      by_cases hval : d.val = 0
      · rw [numberText, if_pos hval]
        exact hzero
      · obtain ⟨decimal, hdecimal, htext, -⟩ := exists_parts_numberText hval
        rw [if_neg (not_lt.mpr hpos), List.nil_append] at htext
        obtain ⟨hint, hfrac, hexp, hhead⟩ := Decimal.parts_digits hdecimal
        rw [htext, DecimalParts.render]
        rcases hhead with hzero | ⟨u, hu, hne⟩
        · rw [hzero]
          refine ⟨0x30, DecimalParts.fracText decimal.parts.frac ++
            DecimalParts.expText decimal.parts.exp, rfl, by decide, fun _ v hv ↦ ?_⟩
          cases hf : decimal.parts.frac with
          | some f =>
              obtain rfl : 0x2E = v := by simpa [hf, DecimalParts.fracText] using hv
              decide
          | none =>
              cases he : decimal.parts.exp with
              | none => simp [hf, he, DecimalParts.fracText, DecimalParts.expText] at hv
              | some e =>
                  obtain rfl : 0x65 = v := by
                    simpa [hf, he, DecimalParts.fracText, DecimalParts.expText] using hv
                  decide
        · obtain ⟨us, hus⟩ : ∃ us, decimal.parts.int = u :: us := List.head?_eq_some_iff.mp hu
          rw [hus]
          exact ⟨u, _, rfl, hint u (by simp [hus]), fun heq ↦ absurd heq hne⟩

theorem eq_of_zeros_append {s t : JsString} (hs : NoLeadingZeros s) (ht : NoLeadingZeros t)
    {k : ℕ} (h : s = List.replicate k 0x30 ++ t) : s = t := by
  obtain ⟨w, ws, rfl, hw, -⟩ := ht
  cases k with
  | zero => simpa using h
  | succ k =>
      obtain ⟨u, us, rfl, hu, hnext⟩ := hs
      rw [List.replicate_succ, List.cons_append, List.cons.injEq] at h
      obtain ⟨rfl, rfl⟩ := h
      cases k with
      | zero => simp [hnext rfl w (by simp)] at hw
      | succ k =>
          have hdigit := hnext rfl 0x30 (by simp [List.replicate_succ])
          exact absurd hdigit (by decide)

theorem padStartZero_injective {width : ℕ} {s t : JsString} (hs : NoLeadingZeros s)
    (ht : NoLeadingZeros t) (h : padStartZero width s = padStartZero width t) : s = t := by
  unfold padStartZero at h
  rcases Nat.le_total (width - s.length) (width - t.length) with hle | hle
  · apply eq_of_zeros_append hs ht (k := width - t.length - (width - s.length))
    rw [← Nat.add_sub_cancel' hle, List.replicate_add, List.append_assoc] at h
    simpa using List.append_cancel_left h
  · apply Eq.symm
    apply eq_of_zeros_append ht hs (k := width - s.length - (width - t.length))
    rw [← Nat.add_sub_cancel' hle, List.replicate_add, List.append_assoc] at h
    simpa using (List.append_cancel_left h).symm

end TestIntelligence.Js
