import TestIntelligence.Js.Json

/-!
# `JSON.parse`

The parser follows the JSON grammar and creates the members of an object with
`CreateDataProperty`, so that a repeated key overwrites and `__proto__` is an
ordinary key.  Printing a value and parsing the text gives the value back,
provided its numbers are finite and not negative zero.
-/

namespace TestIntelligence.Js

/-! ## Properties of all parts of a value -/

mutual

/-- `P` holds of the value and of every value inside it. -/
def Json.All (P : Json → Prop) : Json → Prop
  | .arr items => P (.arr items) ∧ Json.AllItems P items
  | .obj members => P (.obj members) ∧ Json.AllMembers P members
  | .null => P .null
  | .bool b => P (.bool b)
  | .num x => P (.num x)
  | .str s => P (.str s)

def Json.AllItems (P : Json → Prop) : List Json → Prop
  | [] => True
  | v :: rest => Json.All P v ∧ Json.AllItems P rest

def Json.AllMembers (P : Json → Prop) : List (JsString × Json) → Prop
  | [] => True
  | (_, v) :: rest => Json.All P v ∧ Json.AllMembers P rest

end

namespace Json

variable {P : Json → Prop}

theorem allItems_iff {items : List Json} : AllItems P items ↔ ∀ v ∈ items, All P v := by
  induction items with
  | nil => simp [AllItems]
  | cons v items ih => simp [AllItems, ih]

theorem allMembers_iff {members : List (JsString × Json)} :
    AllMembers P members ↔ ∀ p ∈ members, All P p.2 := by
  induction members with
  | nil => simp [AllMembers]
  | cons p members ih => simp [AllMembers, ih]

@[simp] theorem all_arr {items : List Json} :
    All P (.arr items) ↔ P (.arr items) ∧ ∀ v ∈ items, All P v := by
  rw [All, allItems_iff]

@[simp] theorem all_obj {members : List (JsString × Json)} :
    All P (.obj members) ↔ P (.obj members) ∧ ∀ p ∈ members, All P p.2 := by
  rw [All, allMembers_iff]

/-- Every object lists distinct keys in enumeration order. -/
def Ordered : Json → Prop :=
  All fun
    | .obj members => Enumerated members
    | _ => True

/-- Every number is finite and not negative zero. -/
def PlainNumbers : Json → Prop :=
  All fun
    | .num x => ∃ d, x = .finite d
    | _ => True

@[simp] theorem ordered_null : Json.null.Ordered := trivial

@[simp] theorem ordered_bool (b : Bool) : (Json.bool b).Ordered := trivial

@[simp] theorem ordered_num (x : JsNumber) : (Json.num x).Ordered := trivial

@[simp] theorem ordered_str (s : JsString) : (Json.str s).Ordered := trivial

@[simp] theorem ordered_arr {items : List Json} :
    Ordered (.arr items) ↔ ∀ v ∈ items, Ordered v := by simp [Ordered]

@[simp] theorem ordered_obj {members : List (JsString × Json)} :
    Ordered (.obj members) ↔ Enumerated members ∧ ∀ p ∈ members, Ordered p.2 := by
  simp [Ordered]

@[simp] theorem plainNumbers_arr {items : List Json} :
    PlainNumbers (.arr items) ↔ ∀ v ∈ items, PlainNumbers v := by simp [PlainNumbers]

@[simp] theorem plainNumbers_obj {members : List (JsString × Json)} :
    PlainNumbers (.obj members) ↔ ∀ p ∈ members, PlainNumbers p.2 := by simp [PlainNumbers]

end Json

/-! ## The parser -/

def isJsonSpace (u : CodeUnit) : Bool := u == 0x20 || u == 0x09 || u == 0x0A || u == 0x0D

def skipSpace (s : JsString) : JsString := s.dropWhile isJsonSpace

/-- The unit named by a one-letter escape. -/
def simpleEscape (u : CodeUnit) : Option CodeUnit :=
  if u = 0x22 then some 0x22
  else if u = 0x5C then some 0x5C
  else if u = 0x2F then some 0x2F
  else if u = 0x62 then some 0x08
  else if u = 0x66 then some 0x0C
  else if u = 0x6E then some 0x0A
  else if u = 0x72 then some 0x0D
  else if u = 0x74 then some 0x09
  else none

def hexQuad (a b c d : CodeUnit) : Option CodeUnit := do
  let a ← hexValue a
  let b ← hexValue b
  let c ← hexValue c
  let d ← hexValue d
  some (4096 * a + 256 * b + 16 * c + d).toUInt16

def consUnit (u : CodeUnit) (r : Option (JsString × JsString)) : Option (JsString × JsString) :=
  r.map fun p ↦ (u :: p.1, p.2)

/-- The rest of a string literal after its opening quote. -/
def parseStringBody : JsString → Option (JsString × JsString)
  | [] => none
  | u :: rest =>
      if u = 0x22 then some ([], rest)
      else if u = 0x5C then
        match rest with
        | [] => none
        | e :: rest' =>
            match simpleEscape e with
            | some v => consUnit v (parseStringBody rest')
            | none =>
                if e = 0x75 then
                  match rest' with
                  | a :: b :: c :: d :: rest'' =>
                      match hexQuad a b c d with
                      | some v => consUnit v (parseStringBody rest'')
                      | none => none
                  | _ => none
                else none
      else if u < 0x20 then none
      else consUnit u (parseStringBody rest)

/-- `null`, `true`, `false` or a number. -/
def parseScalar (s : JsString) : Option (Json × JsString) :=
  match stripPrefix (js "null") s with
  | some rest => some (.null, rest)
  | none =>
      match stripPrefix (js "true") s with
      | some rest => some (.bool true, rest)
      | none =>
          match stripPrefix (js "false") s with
          | some rest => some (.bool false, rest)
          | none => (parseJsonNumber s).map fun p ↦ (.num p.1, p.2)

mutual

def parseValue : ℕ → JsString → Option (Json × JsString)
  | 0, _ => none
  | fuel + 1, s =>
      match skipSpace s with
      | [] => none
      | u :: rest =>
          if u = 0x7B then
            if (skipSpace rest).head? = some 0x7D then some (.obj [], (skipSpace rest).tail)
            else (parseMembers fuel rest []).map fun p ↦ (.obj p.1, p.2)
          else if u = 0x5B then
            if (skipSpace rest).head? = some 0x5D then some (.arr [], (skipSpace rest).tail)
            else (parseItems fuel rest).map fun p ↦ (.arr p.1, p.2)
          else if u = 0x22 then (parseStringBody rest).map fun p ↦ (.str p.1, p.2)
          else parseScalar (u :: rest)

def parseItems : ℕ → JsString → Option (List Json × JsString)
  | 0, _ => none
  | fuel + 1, s =>
      match parseValue fuel s with
      | none => none
      | some (v, rest) =>
          match skipSpace rest with
          | [] => none
          | u :: rest' =>
              if u = 0x2C then (parseItems fuel rest').map fun p ↦ (v :: p.1, p.2)
              else if u = 0x5D then some ([v], rest')
              else none

def parseMembers : ℕ → JsString → List (JsString × Json) →
    Option (List (JsString × Json) × JsString)
  | 0, _, _ => none
  | fuel + 1, s, acc =>
      match skipSpace s with
      | [] => none
      | quote :: body =>
          if quote = 0x22 then
            match parseStringBody body with
            | none => none
            | some (k, afterKey) =>
                match skipSpace afterKey with
                | [] => none
                | colon :: afterColon =>
                    if colon = 0x3A then
                      match parseValue fuel afterColon with
                      | none => none
                      | some (v, rest) =>
                          match skipSpace rest with
                          | [] => none
                          | u :: rest' =>
                              if u = 0x2C then parseMembers fuel rest' (defineProperty acc k v)
                              else if u = 0x7D then some (defineProperty acc k v, rest')
                              else none
                    else none
          else none

end

/-- `JSON.parse(text)`; `none` is a syntax error. -/
def Json.parse (text : JsString) : Option Json :=
  match parseValue (2 * text.length + 2) text with
  | some (v, rest) => if skipSpace rest = [] then some v else none
  | none => none

/-! ## Strings read back -/

theorem hexValue_hexUnit : ∀ d < 16, hexValue (hexUnit d) = some d := by
  decide

theorem hexQuad_unicodeEscape (u : CodeUnit) :
    hexQuad (hexUnit (u.toNat / 4096)) (hexUnit (u.toNat / 256 % 16))
      (hexUnit (u.toNat / 16 % 16)) (hexUnit (u.toNat % 16)) = some u := by
  have hu := u.toNat_lt
  have hsum : 4096 * (u.toNat / 4096) + 256 * (u.toNat / 256 % 16) +
      16 * (u.toNat / 16 % 16) + u.toNat % 16 = u.toNat := by omega
  simp only [hexQuad, hexValue_hexUnit _ (show u.toNat / 4096 < 16 by omega),
    hexValue_hexUnit _ (Nat.mod_lt _ (by norm_num : 0 < 16)), Option.bind_eq_bind,
    Option.bind_some, hsum]
  simp

theorem parseStringBody_unicodeEscape (u : CodeUnit) (tail : JsString) :
    parseStringBody (unicodeEscape u ++ tail) = consUnit u (parseStringBody tail) := by
  simp only [unicodeEscape, List.cons_append, List.nil_append, parseStringBody, simpleEscape]
  simp [hexQuad_unicodeEscape]

theorem parseStringBody_plain {u : CodeUnit} (hquote : u ≠ 0x22) (hslash : u ≠ 0x5C)
    (hctl : ¬ u < 0x20) (tail : JsString) :
    parseStringBody (u :: tail) = consUnit u (parseStringBody tail) := by
  rw [parseStringBody.eq_def]
  simp only [if_neg hquote, if_neg hslash, if_neg hctl]

theorem parseStringBody_simple {e u : CodeUnit} (h : simpleEscape e = some u) (tail : JsString) :
    parseStringBody (0x5C :: e :: tail) = consUnit u (parseStringBody tail) := by
  rw [parseStringBody.eq_def]
  simp [h]

theorem parseStringBody_escapeUnit (u : CodeUnit) (tail : JsString) :
    parseStringBody (escapeUnit u ++ tail) = consUnit u (parseStringBody tail) := by
  unfold escapeUnit
  split_ifs with h₁ h₂ h₃ h₄ h₅ h₆ h₇ h₈
  · subst h₁
    exact parseStringBody_simple (by decide) tail
  · subst h₂
    exact parseStringBody_simple (by decide) tail
  · subst h₃
    exact parseStringBody_simple (by decide) tail
  · subst h₄
    exact parseStringBody_simple (by decide) tail
  · subst h₅
    exact parseStringBody_simple (by decide) tail
  · subst h₆
    exact parseStringBody_simple (by decide) tail
  · subst h₇
    exact parseStringBody_simple (by decide) tail
  · exact parseStringBody_unicodeEscape u tail
  · exact parseStringBody_plain h₆ h₇ h₈ tail

theorem parseStringBody_surrogate {u : CodeUnit}
    (h : isLeadSurrogate u = true ∨ isTrailSurrogate u = true) (tail : JsString) :
    parseStringBody (u :: tail) = consUnit u (parseStringBody tail) := by
  have hlow : 0xD800 ≤ u.toNat := by
    simp only [isLeadSurrogate, isTrailSurrogate, Bool.and_eq_true, decide_eq_true_eq,
      UInt16.le_iff_toNat_le] at h
    rcases h with h | h
    · exact h.1
    · exact le_trans (by decide) h.1
  apply parseStringBody_plain
  · rintro rfl
    exact absurd hlow (by decide)
  · rintro rfl
    exact absurd hlow (by decide)
  · rw [UInt16.lt_iff_toNat_lt]
    exact not_lt.mpr (le_trans (by decide) hlow)

/-- A quoted string is read back, whatever units it consists of. -/
theorem parseStringBody_escapeUnits (s rest : JsString) (afterLead : Bool) :
    parseStringBody (escapeUnits afterLead s ++ 0x22 :: rest) = some (s, rest) := by
  induction s generalizing afterLead with
  | nil =>
      rw [parseStringBody.eq_def]
      simp [escapeUnits]
  | cons u s ih =>
      have htail : consUnit u (parseStringBody
          (escapeUnits (isLeadSurrogate u) s ++ 0x22 :: rest)) = some (u :: s, rest) := by
        rw [ih]
        rfl
      rw [escapeUnits, List.append_assoc, ← htail]
      split_ifs with hlead hpair htrail hafter
      · exact parseStringBody_surrogate (Or.inl hlead) _
      · exact parseStringBody_unicodeEscape u _
      · exact parseStringBody_surrogate (Or.inr htrail) _
      · exact parseStringBody_unicodeEscape u _
      · exact parseStringBody_escapeUnit u _

/-! ## Values read back -/

theorem skipSpace_cons {u : CodeUnit} (hu : isJsonSpace u = false) (rest : JsString) :
    skipSpace (u :: rest) = u :: rest := by
  simp [skipSpace, hu]

theorem endsDecimal_cons {u : CodeUnit} {rest : JsString}
    (h : isDigit u = false ∧ u ≠ 0x2E ∧ u ≠ 0x65 ∧ u ≠ 0x45) : EndsDecimal (u :: rest) := by
  intro v hv
  obtain rfl : u = v := by simpa using hv
  exact h

/-- The text of a number starts with a digit or a minus sign. -/
theorem exists_numberText_eq_cons (x : Double) :
    ∃ u us, numberText (.finite x) = u :: us ∧ (isDigit u = true ∨ u = 0x2D) := by
  by_cases hx : x.val = 0
  · refine ⟨0x30, [], ?_, Or.inl (by decide)⟩
    simp only [numberText, if_pos hx]
    decide
  · obtain ⟨d, hd, htext, -⟩ := exists_parts_numberText hx
    obtain ⟨u, us, hus, hu⟩ := exists_render_eq_cons hd
    by_cases hneg : x.val < 0
    · exact ⟨0x2D, d.parts.render, by simp [htext, hneg], Or.inr rfl⟩
    · exact ⟨u, us, by simp [htext, hneg, hus], Or.inl hu⟩

/-- What can stand at the start of a number. -/
theorem number_start_spec {u : CodeUnit} (h : isDigit u = true ∨ u = 0x2D) :
    isJsonSpace u = false ∧ u ≠ 0x7B ∧ u ≠ 0x5B ∧ u ≠ 0x5D ∧ u ≠ 0x22 ∧ u ≠ 0x6E ∧
      u ≠ 0x74 ∧ u ≠ 0x66 := by
  have hrange : u.toNat ∈ List.range 128 := by
    rw [List.mem_range]
    rcases h with h | rfl
    · simp only [isDigit, Bool.and_eq_true, decide_eq_true_eq, UInt16.le_iff_toNat_le] at h
      exact h.2.trans_lt (by decide)
    · decide
  have hall : ∀ n ∈ List.range 128, (isDigit n.toUInt16 = true ∨ n.toUInt16 = 0x2D) →
      isJsonSpace n.toUInt16 = false ∧ n.toUInt16 ≠ 0x7B ∧ n.toUInt16 ≠ 0x5B ∧
        n.toUInt16 ≠ 0x5D ∧ n.toUInt16 ≠ 0x22 ∧ n.toUInt16 ≠ 0x6E ∧ n.toUInt16 ≠ 0x74 ∧
        n.toUInt16 ≠ 0x66 := by
    decide +kernel
  have hfinal := hall u.toNat hrange
  rw [show u.toNat.toUInt16 = u by simp] at hfinal
  exact hfinal h

theorem js_null : js "null" = [0x6E, 0x75, 0x6C, 0x6C] := by decide

theorem js_true : js "true" = [0x74, 0x72, 0x75, 0x65] := by decide

theorem js_false : js "false" = [0x66, 0x61, 0x6C, 0x73, 0x65] := by decide

theorem parseScalar_null (rest : JsString) : parseScalar (js "null" ++ rest) = some (.null, rest) := by
  simp [parseScalar, stripPrefix, js_null]

theorem parseScalar_bool (b : Bool) (rest : JsString) :
    parseScalar (Json.stringify (.bool b) ++ rest) = some (.bool b, rest) := by
  cases b <;> simp [Json.stringify, parseScalar, stripPrefix, js_null, js_true, js_false]

theorem parseScalar_number (x : Double) {rest : JsString} (hrest : EndsDecimal rest) :
    parseScalar (numberText (.finite x) ++ rest) = some (.num (.finite x), rest) := by
  have hparse := parseJsonNumber_numberText x hrest
  obtain ⟨u, us, hus, hu⟩ := exists_numberText_eq_cons x
  obtain ⟨-, -, -, -, -, hn, ht, hf⟩ := number_start_spec hu
  rw [hus, List.cons_append] at hparse ⊢
  simp [parseScalar, stripPrefix, js_null, js_true, js_false, hn.symm, ht.symm, hf.symm, hparse]

/-- A value that is not a container or a string goes to the scalar parser. -/
theorem parseValue_scalar {fuel : ℕ} {u : CodeUnit} {us : JsString} (hfuel : 0 < fuel)
    (hspace : isJsonSpace u = false) (hbrace : u ≠ 0x7B) (hbracket : u ≠ 0x5B)
    (hquote : u ≠ 0x22) : parseValue fuel (u :: us) = parseScalar (u :: us) := by
  obtain ⟨fuel, rfl⟩ := Nat.exists_eq_succ_of_ne_zero hfuel.ne'
  rw [parseValue, skipSpace_cons hspace]
  simp only [if_neg hbrace, if_neg hbracket, if_neg hquote]

/-- The text of a value starts with a unit that is neither white space nor a
closing bracket. -/
theorem exists_stringify_eq_cons {v : Json} (hv : v.PlainNumbers) :
    ∃ u us, v.stringify = u :: us ∧ isJsonSpace u = false ∧ u ≠ 0x5D := by
  cases v with
  | null => exact ⟨0x6E, [0x75, 0x6C, 0x6C], js_null, by decide, by decide⟩
  | bool b =>
      cases b with
      | false => exact ⟨0x66, [0x61, 0x6C, 0x73, 0x65], js_false, by decide, by decide⟩
      | true => exact ⟨0x74, [0x72, 0x75, 0x65], js_true, by decide, by decide⟩
  | num x =>
      obtain ⟨d, rfl⟩ : ∃ d, x = .finite d := hv
      obtain ⟨u, us, hus, hu⟩ := exists_numberText_eq_cons d
      have hspec := number_start_spec hu
      refine ⟨u, us, ?_, hspec.1, hspec.2.2.2.1⟩
      simp [Json.stringify, JsNumber.isFinite, hus]
  | str s => exact ⟨0x22, _, rfl, by decide, by decide⟩
  | arr items => exact ⟨0x5B, _, rfl, by decide, by decide⟩
  | obj members => exact ⟨0x7B, _, rfl, by decide, by decide⟩

/-- The text of the value, followed by anything that ends a number, parses to
the value. -/
def Json.ReadsBack (v : Json) : Prop :=
  ∀ fuel rest, 2 * v.stringify.length ≤ fuel → EndsDecimal rest →
    parseValue fuel (v.stringify ++ rest) = some (v, rest)

theorem readsBack_of_scalar {v : Json} {u : CodeUnit} {us : JsString}
    (htext : v.stringify = u :: us) (hspace : isJsonSpace u = false) (hbrace : u ≠ 0x7B)
    (hbracket : u ≠ 0x5B) (hquote : u ≠ 0x22)
    (hscalar : ∀ rest, EndsDecimal rest → parseScalar (v.stringify ++ rest) = some (v, rest)) :
    v.ReadsBack := by
  intro fuel rest hfuel hrest
  have hpos : 0 < fuel := by
    rw [htext, List.length_cons] at hfuel
    omega
  rw [← hscalar rest hrest, htext, List.cons_append]
  exact parseValue_scalar hpos hspace hbrace hbracket hquote

theorem readsBack_null : Json.null.ReadsBack :=
  readsBack_of_scalar js_null (by decide) (by decide) (by decide) (by decide)
    fun rest _ ↦ parseScalar_null rest

theorem readsBack_bool (b : Bool) : (Json.bool b).ReadsBack := by
  cases b with
  | false =>
      exact readsBack_of_scalar js_false (by decide) (by decide) (by decide) (by decide)
        fun rest _ ↦ parseScalar_bool false rest
  | true =>
      exact readsBack_of_scalar js_true (by decide) (by decide) (by decide) (by decide)
        fun rest _ ↦ parseScalar_bool true rest

theorem stringify_finite (x : Double) :
    (Json.num (.finite x)).stringify = numberText (.finite x) := by
  simp [Json.stringify, JsNumber.isFinite]

theorem readsBack_number (x : Double) : (Json.num (.finite x)).ReadsBack := by
  obtain ⟨u, us, hus, hu⟩ := exists_numberText_eq_cons x
  obtain ⟨hspace, hbrace, hbracket, -, hquote, -⟩ := number_start_spec hu
  refine readsBack_of_scalar ((stringify_finite x).trans hus) hspace hbrace hbracket hquote
    fun rest hrest ↦ ?_
  rw [stringify_finite]
  exact parseScalar_number x hrest

theorem readsBack_str (s : JsString) : (Json.str s).ReadsBack := by
  intro fuel rest hfuel _
  have hpos : fuel ≠ 0 := by
    rintro rfl
    simp [Json.stringify, quoteJson] at hfuel
  obtain ⟨fuel, rfl⟩ := Nat.exists_eq_succ_of_ne_zero hpos
  have htext : (Json.str s).stringify ++ rest = 0x22 :: (escapeUnits false s ++ 0x22 :: rest) := by
    simp [Json.stringify, quoteJson]
  rw [htext, parseValue, skipSpace_cons (by decide)]
  simp [parseStringBody_escapeUnits]

/-- Closing brackets and separators end a number. -/
theorem endsDecimal_bracket (rest : JsString) : EndsDecimal (0x5D :: rest) :=
  endsDecimal_cons (by decide)

theorem endsDecimal_brace (rest : JsString) : EndsDecimal (0x7D :: rest) :=
  endsDecimal_cons (by decide)

theorem endsDecimal_comma (rest : JsString) : EndsDecimal (0x2C :: rest) :=
  endsDecimal_cons (by decide)

theorem parseItems_join {v : Json} {items : List Json} (hv : v.ReadsBack)
    (hitems : ∀ w ∈ items, w.ReadsBack) {fuel : ℕ} {rest : JsString}
    (hfuel : 2 * (join [0x2C] (Json.itemTexts (v :: items))).length + 1 ≤ fuel) :
    parseItems fuel (join [0x2C] (Json.itemTexts (v :: items)) ++ 0x5D :: rest) =
      some (v :: items, rest) := by
  obtain ⟨fuel, rfl⟩ := Nat.exists_eq_succ_of_ne_zero (show fuel ≠ 0 by omega)
  induction items generalizing v fuel with
  | nil =>
      simp only [Json.itemTexts, join] at hfuel ⊢
      rw [parseItems, hv fuel _ (by omega) (endsDecimal_bracket rest)]
      simp only [skipSpace_cons (show isJsonSpace 0x5D = false by decide)]
      rfl
  | cons w items ih =>
      obtain ⟨hw, hitems⟩ := List.forall_mem_cons.mp hitems
      have htext : join [0x2C] (Json.itemTexts (v :: w :: items)) =
          v.stringify ++ 0x2C :: join [0x2C] (Json.itemTexts (w :: items)) := by
        simp [Json.itemTexts, join]
      rw [htext, List.length_append, List.length_cons] at hfuel
      obtain ⟨fuel, rfl⟩ := Nat.exists_eq_succ_of_ne_zero (show fuel ≠ 0 by omega)
      rw [htext, List.append_assoc, List.cons_append, parseItems,
        hv _ _ (by omega) (endsDecimal_comma _)]
      simp only [skipSpace_cons (show isJsonSpace 0x2C = false by decide), if_true,
        ih hw hitems fuel (by omega), Option.map_some]

theorem readsBack_arr {items : List Json} (hplain : (Json.arr items).PlainNumbers)
    (hitems : ∀ v ∈ items, v.ReadsBack) : (Json.arr items).ReadsBack := by
  intro fuel rest hfuel _
  have htext : (Json.arr items).stringify ++ rest =
      0x5B :: (join [0x2C] (Json.itemTexts items) ++ 0x5D :: rest) := by
    simp [Json.stringify]
  have hlen : (Json.arr items).stringify.length =
      (join [0x2C] (Json.itemTexts items)).length + 2 := by
    simp [Json.stringify]
  obtain ⟨fuel, rfl⟩ := Nat.exists_eq_succ_of_ne_zero (show fuel ≠ 0 by omega)
  rw [htext, parseValue, skipSpace_cons (by decide)]
  cases items with
  | nil =>
      simp only [Json.itemTexts, join, List.nil_append,
        skipSpace_cons (show isJsonSpace 0x5D = false by decide)]
      rfl
  | cons v items =>
      obtain ⟨hv, hitems⟩ := List.forall_mem_cons.mp hitems
      rw [Json.plainNumbers_arr] at hplain
      obtain ⟨u, us, hus, hspace, hclose⟩ := exists_stringify_eq_cons (hplain v (by simp))
      obtain ⟨ws, hws⟩ : ∃ ws, join [0x2C] (Json.itemTexts (v :: items)) ++ 0x5D :: rest =
          u :: ws := by
        cases items <;> simp [Json.itemTexts, join, hus]
      have hparse : parseItems fuel (join [0x2C] (Json.itemTexts (v :: items)) ++ 0x5D :: rest) =
          some (v :: items, rest) := parseItems_join hv hitems (by omega)
      rw [hws] at hparse ⊢
      have hhead : (skipSpace (u :: ws)).head? ≠ some 0x5D := by
        rw [skipSpace_cons hspace]
        simpa using hclose
      simp only [if_neg hhead, hparse, Option.map_some]
      rfl

/-- One member of an object: its key, a colon and its value. -/
theorem parseMembers_member {k : JsString} {v : Json} (hv : v.ReadsBack) {fuel : ℕ}
    {acc : List (JsString × Json)} {u : CodeUnit} {rest : JsString}
    (hfuel : 2 * v.stringify.length ≤ fuel) (hends : EndsDecimal (u :: rest))
    (hspace : isJsonSpace u = false) :
    parseMembers (fuel + 1) (quoteJson k ++ 0x3A :: v.stringify ++ u :: rest) acc =
      if u = 0x2C then parseMembers fuel rest (defineProperty acc k v)
      else if u = 0x7D then some (defineProperty acc k v, rest)
      else none := by
  have htext : quoteJson k ++ 0x3A :: v.stringify ++ u :: rest =
      0x22 :: (escapeUnits false k ++ 0x22 :: 0x3A :: (v.stringify ++ u :: rest)) := by
    simp [quoteJson]
  rw [htext, parseMembers, skipSpace_cons (by decide)]
  simp only [if_true, parseStringBody_escapeUnits,
    skipSpace_cons (show isJsonSpace 0x3A = false by decide), hv fuel _ hfuel hends,
    skipSpace_cons hspace]

/-- Members that are already enumerated are created in the order they stand. -/
theorem parseMembers_join {p : JsString × Json} {members acc : List (JsString × Json)}
    (hp : p.2.ReadsBack) (hmembers : ∀ q ∈ members, q.2.ReadsBack)
    (hacc : Enumerated (acc ++ p :: members)) {fuel : ℕ} {rest : JsString}
    (hfuel : 2 * (join [0x2C] (Json.memberTexts (p :: members))).length + 1 ≤ fuel) :
    parseMembers fuel (join [0x2C] (Json.memberTexts (p :: members)) ++ 0x7D :: rest) acc =
      some (acc ++ p :: members, rest) := by
  induction members generalizing p acc fuel with
  | nil =>
      obtain ⟨k, v⟩ := p
      have hv : v.ReadsBack := hp
      simp only [Json.memberTexts, join, List.length_append, List.length_cons] at hfuel ⊢
      obtain ⟨fuel, rfl⟩ := Nat.exists_eq_succ_of_ne_zero (show fuel ≠ 0 by omega)
      rw [parseMembers_member hv (by omega) (endsDecimal_brace rest) (by decide),
        defineProperty_eq_append hacc]
      rfl
  | cons q members ih =>
      obtain ⟨k, v⟩ := p
      have hv : v.ReadsBack := hp
      obtain ⟨hq, hmembers⟩ := List.forall_mem_cons.mp hmembers
      have htext : join [0x2C] (Json.memberTexts ((k, v) :: q :: members)) =
          quoteJson k ++ 0x3A :: v.stringify ++
            0x2C :: join [0x2C] (Json.memberTexts (q :: members)) := by
        simp [Json.memberTexts, join]
      rw [htext] at hfuel ⊢
      simp only [List.length_append, List.length_cons] at hfuel
      obtain ⟨fuel, rfl⟩ := Nat.exists_eq_succ_of_ne_zero (show fuel ≠ 0 by omega)
      have hacc' : Enumerated ((acc ++ [(k, v)]) ++ q :: members) := by simpa using hacc
      rw [List.append_assoc, List.cons_append,
        parseMembers_member hv (by omega) (endsDecimal_comma _) (by decide), if_pos rfl,
        defineProperty_eq_append hacc, ih hq hmembers hacc' (by omega)]
      simp

theorem readsBack_obj {members : List (JsString × Json)} (henum : Enumerated members)
    (hmembers : ∀ p ∈ members, p.2.ReadsBack) : (Json.obj members).ReadsBack := by
  intro fuel rest hfuel _
  have htext : (Json.obj members).stringify ++ rest =
      0x7B :: (join [0x2C] (Json.memberTexts members) ++ 0x7D :: rest) := by
    simp [Json.stringify]
  have hlen : (Json.obj members).stringify.length =
      (join [0x2C] (Json.memberTexts members)).length + 2 := by
    simp [Json.stringify]
  obtain ⟨fuel, rfl⟩ := Nat.exists_eq_succ_of_ne_zero (show fuel ≠ 0 by omega)
  rw [htext, parseValue, skipSpace_cons (by decide)]
  cases members with
  | nil =>
      simp only [Json.memberTexts, join, List.nil_append,
        skipSpace_cons (show isJsonSpace 0x7D = false by decide)]
      rfl
  | cons p members =>
      obtain ⟨hp, hmembers⟩ := List.forall_mem_cons.mp hmembers
      obtain ⟨ws, hws⟩ : ∃ ws, join [0x2C] (Json.memberTexts (p :: members)) ++ 0x7D :: rest =
          0x22 :: ws := by
        cases members <;> simp [Json.memberTexts, join, quoteJson]
      have hparse : parseMembers fuel
          (join [0x2C] (Json.memberTexts (p :: members)) ++ 0x7D :: rest) [] =
          some (p :: members, rest) :=
        parseMembers_join hp hmembers (by simpa using henum) (by omega)
      rw [hws] at hparse ⊢
      have hhead : (skipSpace (0x22 :: ws)).head? ≠ some 0x7D := by
        rw [skipSpace_cons (by decide)]
        simp
      simp only [if_true, if_neg hhead, hparse, Option.map_some]

/-- Every printable value reads back. -/
theorem Json.readsBack {v : Json} (hordered : v.Ordered) (hplain : v.PlainNumbers) :
    v.ReadsBack := by
  induction v using Json.induction with
  | null => exact readsBack_null
  | bool b => exact readsBack_bool b
  | num x =>
      obtain ⟨d, rfl⟩ : ∃ d, x = .finite d := hplain
      exact readsBack_number d
  | str s => exact readsBack_str s
  | arr items ih =>
      refine readsBack_arr hplain fun v hv ↦ ih v hv ?_ ?_
      · exact Json.ordered_arr.mp hordered v hv
      · exact Json.plainNumbers_arr.mp hplain v hv
  | obj members ih =>
      obtain ⟨henum, hordered⟩ := Json.ordered_obj.mp hordered
      refine readsBack_obj henum fun p hp ↦ ih p hp (hordered p hp) ?_
      exact Json.plainNumbers_obj.mp hplain p hp

/-- `JSON.parse(JSON.stringify(v))` is `v`. -/
theorem Json.parse_stringify {v : Json} (hordered : v.Ordered) (hplain : v.PlainNumbers) :
    Json.parse v.stringify = some v := by
  have hread := Json.readsBack hordered hplain (2 * v.stringify.length + 2) [] (by omega)
    (by simp [EndsDecimal])
  rw [List.append_nil] at hread
  simp [Json.parse, hread, skipSpace]

/-- The text determines the value. -/
theorem Json.stringify_injective {v w : Json} (hv : v.Ordered) (hv' : v.PlainNumbers)
    (hw : w.Ordered) (hw' : w.PlainNumbers) (h : v.stringify = w.stringify) : v = w := by
  have hparse := Json.parse_stringify hv hv'
  rw [h, Json.parse_stringify hw hw'] at hparse
  exact (Option.some.inj hparse).symm

/-! ## Parsed objects are enumerated -/

theorem mem_defineProperty {β : Type*} {members : List (JsString × β)} {k : JsString} {v : β}
    {p : JsString × β} (h : p ∈ defineProperty members k v) : p = (k, v) ∨ p ∈ members := by
  unfold defineProperty at h
  split at h
  · exact mem_mapSet h
  · exact mem_insertProperty.mp h

theorem parseScalar_ordered {s rest : JsString} {v : Json} (h : parseScalar s = some (v, rest)) :
    v.Ordered := by
  unfold parseScalar at h
  split at h
  · obtain ⟨rfl, -⟩ := Prod.mk.inj (Option.some.inj h)
    trivial
  · split at h
    · obtain ⟨rfl, -⟩ := Prod.mk.inj (Option.some.inj h)
      trivial
    · split at h
      · obtain ⟨rfl, -⟩ := Prod.mk.inj (Option.some.inj h)
        trivial
      · obtain ⟨p, -, hp⟩ := Option.map_eq_some_iff.mp h
        obtain ⟨rfl, -⟩ := Prod.mk.inj hp
        trivial

/-- The three parsers at one amount of fuel only build enumerated objects. -/
structure ParsesOrdered (fuel : ℕ) : Prop where
  value : ∀ {s rest v}, parseValue fuel s = some (v, rest) → v.Ordered
  items : ∀ {s rest vs}, parseItems fuel s = some (vs, rest) → ∀ v ∈ vs, v.Ordered
  members : ∀ {s rest acc ms}, (Json.obj acc).Ordered →
    parseMembers fuel s acc = some (ms, rest) → (Json.obj ms).Ordered

theorem parsesOrdered (fuel : ℕ) : ParsesOrdered fuel := by
  induction fuel with
  | zero =>
      constructor
      · intro s rest v h
        simp [parseValue] at h
      · intro s rest vs h
        simp [parseItems] at h
      · intro s rest acc ms _ h
        simp [parseMembers] at h
  | succ fuel ih =>
      constructor
      · intro s rest v h
        rw [parseValue] at h
        split at h
        · simp at h
        · split_ifs at h
          · obtain ⟨rfl, -⟩ := Prod.mk.inj (Option.some.inj h)
            simp [Enumerated]
          · obtain ⟨p, hp, heq⟩ := Option.map_eq_some_iff.mp h
            obtain ⟨rfl, -⟩ := Prod.mk.inj heq
            exact ih.members (by simp [Enumerated]) hp
          · obtain ⟨rfl, -⟩ := Prod.mk.inj (Option.some.inj h)
            simp
          · obtain ⟨p, hp, heq⟩ := Option.map_eq_some_iff.mp h
            obtain ⟨rfl, -⟩ := Prod.mk.inj heq
            exact Json.ordered_arr.mpr (ih.items hp)
          · obtain ⟨p, -, heq⟩ := Option.map_eq_some_iff.mp h
            obtain ⟨rfl, -⟩ := Prod.mk.inj heq
            trivial
          · exact parseScalar_ordered h
      · intro s rest vs h
        rw [parseItems] at h
        split at h
        · simp at h
        · next v rest' hv =>
            split at h
            · simp at h
            · split_ifs at h
              · obtain ⟨p, hp, heq⟩ := Option.map_eq_some_iff.mp h
                obtain ⟨rfl, -⟩ := Prod.mk.inj heq
                exact List.forall_mem_cons.mpr ⟨ih.value hv, ih.items hp⟩
              · obtain ⟨rfl, -⟩ := Prod.mk.inj (Option.some.inj h)
                simpa using ih.value hv
      · intro s rest acc ms hacc h
        rw [parseMembers] at h
        split at h
        · simp at h
        · split_ifs at h
          split at h
          · simp at h
          · next k afterKey hk =>
              split at h
              · simp at h
              · split_ifs at h
                split at h
                · simp at h
                · next v rest' hv =>
                    have hacc' : (Json.obj (defineProperty acc k v)).Ordered := by
                      obtain ⟨henum, hvalues⟩ := Json.ordered_obj.mp hacc
                      refine Json.ordered_obj.mpr ⟨henum.defineProperty k v, fun p hp ↦ ?_⟩
                      rcases mem_defineProperty hp with rfl | hp
                      · exact ih.value hv
                      · exact hvalues p hp
                    split at h
                    · simp at h
                    · split_ifs at h
                      · exact ih.members hacc' h
                      · obtain ⟨rfl, -⟩ := Prod.mk.inj (Option.some.inj h)
                        exact hacc'

/-- What `JSON.parse` returns lists its members in enumeration order. -/
theorem Json.ordered_of_parse {text : JsString} {v : Json} (h : Json.parse text = some v) :
    v.Ordered := by
  unfold Json.parse at h
  split at h
  · next w rest hw =>
      split_ifs at h
      obtain rfl := Option.some.inj h
      exact (parsesOrdered _).value hw
  · simp at h

end TestIntelligence.Js
