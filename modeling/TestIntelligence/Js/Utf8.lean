import TestIntelligence.Js.Json

/-!
# UTF-8

`Buffer.from(text, "utf8")` and `buffer.toString("utf8")`.  A surrogate outside a pair
becomes U+FFFD, and so does every maximal part of the bytes that is not UTF-8.
-/

namespace TestIntelligence.Js

abbrev Bytes := List UInt8

/-- U+FFFD -/
def replacement : ℕ := 0xFFFD

/-! ## From code units to bytes -/

def isSurrogate (u : CodeUnit) : Bool := isLeadSurrogate u || isTrailSurrogate u

def pairPoint (u v : CodeUnit) : ℕ := 0x10000 + (u.toNat - 0xD800) * 0x400 + (v.toNat - 0xDC00)

def unitPoint (u : CodeUnit) : ℕ := if isSurrogate u then replacement else u.toNat

def codePoints : JsString → List ℕ
  | [] => []
  | [u] => [unitPoint u]
  | u :: v :: rest =>
      if isLeadSurrogate u && isTrailSurrogate v then pairPoint u v :: codePoints rest
      else unitPoint u :: codePoints (v :: rest)

/-- `String.prototype.isWellFormed` -/
def isWellFormed : JsString → Bool
  | [] => true
  | [u] => !isSurrogate u
  | u :: v :: rest =>
      if isLeadSurrogate u && isTrailSurrogate v then isWellFormed rest
      else !isSurrogate u && isWellFormed (v :: rest)

def encodePoint (p : ℕ) : Bytes :=
  if p < 0x80 then [.ofNat p]
  else if p < 0x800 then [.ofNat (0xC0 + p / 64), .ofNat (0x80 + p % 64)]
  else if p < 0x10000 then
    [.ofNat (0xE0 + p / 4096), .ofNat (0x80 + p / 64 % 64), .ofNat (0x80 + p % 64)]
  else
    [.ofNat (0xF0 + p / 262144), .ofNat (0x80 + p / 4096 % 64), .ofNat (0x80 + p / 64 % 64),
      .ofNat (0x80 + p % 64)]

def utf8Encode (s : JsString) : Bytes := (codePoints s).flatMap encodePoint

theorem length_codePoints_le (s : JsString) : (codePoints s).length ≤ s.length := by
  induction s using codePoints.induct with
  | case1 => rfl
  | case2 u => rfl
  | case3 u v rest hpair ih =>
      rw [codePoints, if_pos hpair, List.length_cons, List.length_cons, List.length_cons]
      omega
  | case4 u v rest hpair ih =>
      rw [codePoints, if_neg hpair, List.length_cons, List.length_cons]
      omega

theorem length_encodePoint_le (p : ℕ) : (encodePoint p).length ≤ 4 := by
  rw [encodePoint]
  split_ifs <;> simp

theorem length_utf8Encode_le (s : JsString) : (utf8Encode s).length ≤ 4 * s.length := by
  have hpoints : ∀ points : List ℕ, (points.flatMap encodePoint).length ≤ 4 * points.length := by
    intro points
    induction points with
    | nil => rfl
    | cons p points ih =>
        have hp := length_encodePoint_le p
        rw [List.flatMap_cons, List.length_append, List.length_cons]
        omega
  exact (hpoints _).trans (Nat.mul_le_mul_left 4 (length_codePoints_le s))

/-! ## From bytes to code units -/

/-- A character of which some bytes are missing: how many, the bounds of the next one,
and the bits so far. -/
structure PendingPoint where
  needed : ℕ
  lower : ℕ
  upper : ℕ
  bits : ℕ

def startByte (b : ℕ) : List ℕ × Option PendingPoint :=
  if b < 0x80 then ([b], none)
  else if 0xC2 ≤ b ∧ b ≤ 0xDF then ([], some ⟨1, 0x80, 0xBF, b - 0xC0⟩)
  else if 0xE0 ≤ b ∧ b ≤ 0xEF then
    ([], some ⟨2, if b = 0xE0 then 0xA0 else 0x80, if b = 0xED then 0x9F else 0xBF, b - 0xE0⟩)
  else if 0xF0 ≤ b ∧ b ≤ 0xF4 then
    ([], some ⟨3, if b = 0xF0 then 0x90 else 0x80, if b = 0xF4 then 0x8F else 0xBF, b - 0xF0⟩)
  else ([replacement], none)

def decodeByte (pending : Option PendingPoint) (b : ℕ) : List ℕ × Option PendingPoint :=
  match pending with
  | none => startByte b
  | some p =>
      if p.lower ≤ b ∧ b ≤ p.upper then
        let bits := p.bits * 64 + (b - 0x80)
        if p.needed = 1 then ([bits], none) else ([], some ⟨p.needed - 1, 0x80, 0xBF, bits⟩)
      else (replacement :: (startByte b).1, (startByte b).2)

def decodePoints (pending : Option PendingPoint) : Bytes → List ℕ
  | [] => if pending.isSome then [replacement] else []
  | b :: rest =>
      (decodeByte pending b.toNat).1 ++ decodePoints (decodeByte pending b.toNat).2 rest

def pointUnits (p : ℕ) : JsString :=
  if p < 0x10000 then [p.toUInt16]
  else [(0xD800 + (p - 0x10000) / 0x400).toUInt16, (0xDC00 + (p - 0x10000) % 0x400).toUInt16]

def utf8Decode (bytes : Bytes) : JsString := (decodePoints none bytes).flatMap pointUnits

/-! ## Reading back -/

def IsScalar (p : ℕ) : Prop := p < 0xD800 ∨ 0xE000 ≤ p ∧ p < 0x110000

theorem decodePoints_begin {b : ℕ} (hb : b < 256) {p : PendingPoint}
    (h : startByte b = ([], some p)) (rest : Bytes) :
    decodePoints none (.ofNat b :: rest) = decodePoints (some p) rest := by
  have hnat : (UInt8.ofNat b).toNat = b := by simpa using hb
  simp [decodePoints, decodeByte, hnat, h]

theorem decodePoints_continue {b needed lower upper bits : ℕ} (hlower : lower ≤ b)
    (hupper : b ≤ upper) (hb : b < 256) (rest : Bytes) :
    decodePoints (some ⟨needed + 2, lower, upper, bits⟩) (.ofNat b :: rest) =
      decodePoints (some ⟨needed + 1, 0x80, 0xBF, bits * 64 + (b - 0x80)⟩) rest := by
  have hnat : (UInt8.ofNat b).toNat = b := by simpa using hb
  simp [decodePoints, decodeByte, hnat, hlower, hupper]

theorem decodePoints_last {b lower upper bits : ℕ} (hlower : lower ≤ b) (hupper : b ≤ upper)
    (hb : b < 256) (rest : Bytes) :
    decodePoints (some ⟨1, lower, upper, bits⟩) (.ofNat b :: rest) =
      (bits * 64 + (b - 0x80)) :: decodePoints none rest := by
  have hnat : (UInt8.ofNat b).toNat = b := by simpa using hb
  simp [decodePoints, decodeByte, hnat, hlower, hupper]

theorem decodePoints_encodePoint {p : ℕ} (hp : IsScalar p) (rest : Bytes) :
    decodePoints none (encodePoint p ++ rest) = p :: decodePoints none rest := by
  unfold IsScalar at hp
  unfold encodePoint
  split_ifs with h1 h2 h3
  · have hnat : (UInt8.ofNat p).toNat = p := by
      rw [UInt8.toNat_ofNat']
      omega
    simp [decodePoints, decodeByte, startByte, hnat, h1]
  · have hstart : startByte (0xC0 + p / 64) = ([], some ⟨1, 0x80, 0xBF, p / 64⟩) := by
      rw [startByte, if_neg (by omega), if_pos (by omega), Nat.add_sub_cancel_left]
    have hp : p / 64 * 64 + (0x80 + p % 64 - 0x80) = p := by omega
    simp only [List.cons_append, List.nil_append]
    rw [decodePoints_begin (by omega) hstart, decodePoints_last (by omega) (by omega) (by omega),
      hp]
  · have hstart : startByte (0xE0 + p / 4096) =
        ([], some ⟨2, if 0xE0 + p / 4096 = 0xE0 then 0xA0 else 0x80,
          if 0xE0 + p / 4096 = 0xED then 0x9F else 0xBF, p / 4096⟩) := by
      rw [startByte, if_neg (by omega), if_neg (by omega), if_pos (by omega),
        Nat.add_sub_cancel_left]
    have hp : (p / 4096 * 64 + (0x80 + p / 64 % 64 - 0x80)) * 64 + (0x80 + p % 64 - 0x80) = p := by
      omega
    simp only [List.cons_append, List.nil_append]
    rw [decodePoints_begin (by omega) hstart,
      decodePoints_continue (by split_ifs <;> omega) (by split_ifs <;> omega) (by omega),
      decodePoints_last (by omega) (by omega) (by omega), hp]
  · have hstart : startByte (0xF0 + p / 262144) =
        ([], some ⟨3, if 0xF0 + p / 262144 = 0xF0 then 0x90 else 0x80,
          if 0xF0 + p / 262144 = 0xF4 then 0x8F else 0xBF, p / 262144⟩) := by
      rw [startByte, if_neg (by omega), if_neg (by omega), if_neg (by omega), if_pos (by omega),
        Nat.add_sub_cancel_left]
    have hp : ((p / 262144 * 64 + (0x80 + p / 4096 % 64 - 0x80)) * 64 +
        (0x80 + p / 64 % 64 - 0x80)) * 64 + (0x80 + p % 64 - 0x80) = p := by omega
    simp only [List.cons_append, List.nil_append]
    rw [decodePoints_begin (by omega) hstart,
      decodePoints_continue (by split_ifs <;> omega) (by split_ifs <;> omega) (by omega),
      decodePoints_continue (by omega) (by omega) (by omega),
      decodePoints_last (by omega) (by omega) (by omega), hp]

theorem decodePoints_flatMap {points : List ℕ} (h : ∀ p ∈ points, IsScalar p) :
    decodePoints none (points.flatMap encodePoint) = points := by
  induction points with
  | nil => rfl
  | cons p points ih =>
      rw [List.flatMap_cons, decodePoints_encodePoint (h p List.mem_cons_self),
        ih fun q hq ↦ h q (List.mem_cons_of_mem p hq)]

theorem isLeadSurrogate_iff {u : CodeUnit} :
    isLeadSurrogate u = true ↔ 0xD800 ≤ u.toNat ∧ u.toNat ≤ 0xDBFF := by
  simp [isLeadSurrogate, UInt16.le_iff_toNat_le]

theorem isTrailSurrogate_iff {u : CodeUnit} :
    isTrailSurrogate u = true ↔ 0xDC00 ≤ u.toNat ∧ u.toNat ≤ 0xDFFF := by
  simp [isTrailSurrogate, UInt16.le_iff_toNat_le]

theorem isSurrogate_iff {u : CodeUnit} :
    isSurrogate u = true ↔ 0xD800 ≤ u.toNat ∧ u.toNat ≤ 0xDFFF := by
  rw [isSurrogate, Bool.or_eq_true, isLeadSurrogate_iff, isTrailSurrogate_iff]
  omega

theorem isScalar_unitPoint (u : CodeUnit) : IsScalar (unitPoint u) := by
  have hu : u.toNat < 65536 := u.toNat_lt_size
  unfold unitPoint
  split_ifs with hsurrogate
  · exact .inr (by decide)
  · rw [isSurrogate_iff] at hsurrogate
    unfold IsScalar
    omega

theorem isScalar_pairPoint {u v : CodeUnit} (hu : isLeadSurrogate u = true)
    (hv : isTrailSurrogate v = true) : IsScalar (pairPoint u v) := by
  rw [isLeadSurrogate_iff] at hu
  rw [isTrailSurrogate_iff] at hv
  unfold IsScalar pairPoint
  omega

theorem isScalar_of_mem_codePoints {s : JsString} {p : ℕ} (hp : p ∈ codePoints s) :
    IsScalar p := by
  fun_induction codePoints s with
  | case1 => cases hp
  | case2 u =>
      obtain rfl := List.mem_singleton.mp hp
      exact isScalar_unitPoint u
  | case3 u v rest hpair ih =>
      rw [Bool.and_eq_true] at hpair
      obtain ⟨hlead, htrail⟩ := hpair
      rcases List.mem_cons.mp hp with hp | hp
      · rw [hp]
        exact isScalar_pairPoint hlead htrail
      · exact ih hp
  | case4 u v rest hpair ih =>
      rcases List.mem_cons.mp hp with rfl | hp
      · exact isScalar_unitPoint u
      · exact ih hp

theorem pointUnits_unitPoint {u : CodeUnit} (hu : isSurrogate u = false) :
    pointUnits (unitPoint u) = [u] := by
  have hlt : u.toNat < 65536 := u.toNat_lt_size
  rw [unitPoint, hu, if_neg Bool.false_ne_true, pointUnits, if_pos hlt]
  simp

theorem pointUnits_pairPoint {u v : CodeUnit} (hu : isLeadSurrogate u = true)
    (hv : isTrailSurrogate v = true) : pointUnits (pairPoint u v) = [u, v] := by
  rw [isLeadSurrogate_iff] at hu
  rw [isTrailSurrogate_iff] at hv
  have hlead : 0xD800 + (pairPoint u v - 0x10000) / 0x400 = u.toNat := by
    unfold pairPoint
    omega
  have htrail : 0xDC00 + (pairPoint u v - 0x10000) % 0x400 = v.toNat := by
    unfold pairPoint
    omega
  rw [pointUnits, if_neg (by unfold pairPoint; omega), hlead, htrail]
  simp

theorem flatMap_pointUnits_codePoints {s : JsString} (h : isWellFormed s = true) :
    (codePoints s).flatMap pointUnits = s := by
  fun_induction codePoints s with
  | case1 => rfl
  | case2 u =>
      rw [isWellFormed, Bool.not_eq_true'] at h
      rw [List.flatMap_singleton, pointUnits_unitPoint h]
  | case3 u v rest hpair ih =>
      rw [isWellFormed, if_pos hpair] at h
      rw [Bool.and_eq_true] at hpair
      rw [List.flatMap_cons, pointUnits_pairPoint hpair.1 hpair.2, ih h]
      rfl
  | case4 u v rest hpair ih =>
      rw [isWellFormed, if_neg hpair, Bool.and_eq_true, Bool.not_eq_true'] at h
      rw [List.flatMap_cons, pointUnits_unitPoint h.1, ih h.2]
      rfl

theorem utf8Decode_utf8Encode {s : JsString} (h : isWellFormed s = true) :
    utf8Decode (utf8Encode s) = s := by
  rw [utf8Decode, utf8Encode, decodePoints_flatMap fun p ↦ isScalar_of_mem_codePoints,
    flatMap_pointUnits_codePoints h]

theorem utf8Encode_inj {s t : JsString} (hs : isWellFormed s = true) (ht : isWellFormed t = true) :
    utf8Encode s = utf8Encode t ↔ s = t := by
  constructor
  · intro h
    rw [← utf8Decode_utf8Encode hs, h, utf8Decode_utf8Encode ht]
  · exact congrArg utf8Encode

/-! ## Well-formed strings -/

theorem isWellFormed_cons {u : CodeUnit} (hu : isSurrogate u = false) (s : JsString) :
    isWellFormed (u :: s) = isWellFormed s := by
  have hlead : isLeadSurrogate u = false := by
    rw [isSurrogate, Bool.or_eq_false_iff] at hu
    exact hu.1
  cases s with
  | nil => simp [isWellFormed, hu]
  | cons v rest => simp [isWellFormed, hu, hlead]

theorem isWellFormed_append {s t : JsString} (hs : isWellFormed s = true)
    (ht : isWellFormed t = true) : isWellFormed (s ++ t) = true := by
  fun_induction isWellFormed s with
  | case1 => exact ht
  | case2 u =>
      rw [Bool.not_eq_true'] at hs
      exact (isWellFormed_cons hs t).trans ht
  | case3 u v rest hpair ih =>
      rw [List.cons_append, List.cons_append, isWellFormed, if_pos hpair]
      exact ih hs
  | case4 u v rest hpair ih =>
      rw [Bool.and_eq_true, Bool.not_eq_true'] at hs
      exact (isWellFormed_cons hs.1 _).trans (ih hs.2)

theorem isWellFormed_of_no_surrogate {s : JsString} (h : ∀ u ∈ s, isSurrogate u = false) :
    isWellFormed s = true := by
  induction s with
  | nil => rfl
  | cons u s ih =>
      rw [isWellFormed_cons (h u List.mem_cons_self)]
      exact ih fun v hv ↦ h v (List.mem_cons_of_mem u hv)

end TestIntelligence.Js
