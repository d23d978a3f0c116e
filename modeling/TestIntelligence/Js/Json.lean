import TestIntelligence.Js.Collections
import TestIntelligence.Js.NumberText

/-!
# JSON values and `JSON.stringify`

An object is the list of its own properties in enumeration order: array
indices first, in ascending order, then the other keys in the order of their
creation.
-/

namespace TestIntelligence.Js

inductive Json where
  | null
  | bool (b : Bool)
  | num (x : JsNumber)
  | str (s : JsString)
  | arr (items : List Json)
  | obj (members : List (JsString × Json))

namespace Json

/-- Induction over values, with the hypothesis for every item and member. -/
@[elab_as_elim]
theorem induction {P : Json → Prop} (null : P .null) (bool : ∀ b, P (.bool b))
    (num : ∀ x, P (.num x)) (str : ∀ s, P (.str s))
    (arr : ∀ items, (∀ v ∈ items, P v) → P (.arr items))
    (obj : ∀ members, (∀ p ∈ members, P p.2) → P (.obj members)) (v : Json) : P v :=
  @Json.rec P (fun items ↦ ∀ v ∈ items, P v) (fun members ↦ ∀ p ∈ members, P p.2)
    (fun p ↦ P p.2) null bool num str arr obj (by simp)
    (fun _ _ hhead htail ↦ List.forall_mem_cons.mpr ⟨hhead, htail⟩) (by simp)
    (fun _ _ hhead htail ↦ List.forall_mem_cons.mpr ⟨hhead, htail⟩) (fun _ _ h ↦ h) v

end Json

/-! ## Property order -/

/-- The number a key denotes when it is an array index. -/
def arrayIndex (k : JsString) : Option ℕ :=
  if k = [0x30] ∨ (k.all isDigit ∧ k.head? ≠ none ∧ k.head? ≠ some 0x30) then
    if readDigits k < 2 ^ 32 - 1 then some (readDigits k) else none
  else none

/-- A key created before `k'` is also enumerated before it. -/
def keyBefore (k k' : JsString) : Bool :=
  match arrayIndex k, arrayIndex k' with
  | some i, some j => i ≤ j
  | some _, none => true
  | none, some _ => false
  | none, none => true

section Members

variable {β : Type*}

/-- Create a new own property at its place in the enumeration. -/
def insertProperty : List (JsString × β) → JsString → β → List (JsString × β)
  | [], k, v => [(k, v)]
  | (k', v') :: rest, k, v =>
      if keyBefore k' k then (k', v') :: insertProperty rest k v else (k, v) :: (k', v') :: rest

/-- `CreateDataProperty` on an ordinary object. -/
def defineProperty (members : List (JsString × β)) (k : JsString) (v : β) :
    List (JsString × β) :=
  if k ∈ members.map Prod.fst then mapSet members k v else insertProperty members k v

/-- Distinct keys, listed in enumeration order. -/
def Enumerated (members : List (JsString × β)) : Prop :=
  (members.map Prod.fst).Nodup ∧ (members.map Prod.fst).Pairwise fun k k' ↦ keyBefore k k' = true

theorem insertProperty_perm (members : List (JsString × β)) (k : JsString) (v : β) :
    (insertProperty members k v).Perm ((k, v) :: members) := by
  induction members with
  | nil => exact List.Perm.refl _
  | cons p members ih =>
      obtain ⟨k', v'⟩ := p
      unfold insertProperty
      split
      · exact (ih.cons (k', v')).trans (List.Perm.swap _ _ _)
      · exact List.Perm.refl _

theorem keyBefore_of_not {k k' k'' : JsString} (hnot : keyBefore k' k = false)
    (h : keyBefore k' k'' = true) : keyBefore k k'' = true := by
  unfold keyBefore at *
  cases hk : arrayIndex k <;> cases hk' : arrayIndex k' <;> cases hk'' : arrayIndex k'' <;>
    simp_all
  omega

theorem keyBefore_symm_of_not {k k' : JsString} (hnot : keyBefore k' k = false) :
    keyBefore k k' = true := by
  unfold keyBefore at *
  cases hk : arrayIndex k <;> cases hk' : arrayIndex k' <;> simp_all
  omega

theorem pairwise_insertProperty {members : List (JsString × β)}
    (h : (members.map Prod.fst).Pairwise fun k k' ↦ keyBefore k k' = true)
    (k : JsString) (v : β) :
    ((insertProperty members k v).map Prod.fst).Pairwise fun k k' ↦ keyBefore k k' = true := by
  induction members with
  | nil => simp [insertProperty]
  | cons p members ih =>
      obtain ⟨k', v'⟩ := p
      rw [List.map_cons, List.pairwise_cons] at h
      unfold insertProperty
      split
      · next hbefore =>
          rw [List.map_cons, List.pairwise_cons]
          refine ⟨fun x hx ↦ ?_, ih h.2⟩
          have hx' := ((insertProperty_perm members k v).map Prod.fst).mem_iff.mp hx
          rcases List.mem_cons.mp hx' with rfl | hx'
          · exact hbefore
          · exact h.1 x hx'
      · next hnot =>
          have hnot' : keyBefore k' k = false := by simpa using hnot
          simp only [List.map_cons, List.pairwise_cons, List.mem_cons]
          refine ⟨?_, h.1, h.2⟩
          rintro x (rfl | hx)
          · exact keyBefore_symm_of_not hnot'
          · exact keyBefore_of_not hnot' (h.1 x hx)

/-- Creating properties keeps the enumeration order. -/
theorem Enumerated.defineProperty {members : List (JsString × β)} (h : Enumerated members)
    (k : JsString) (v : β) : Enumerated (defineProperty members k v) := by
  unfold Js.defineProperty
  split
  · next hk =>
      have hkeys : (mapSet members k v).map Prod.fst = members.map Prod.fst := by
        simp [setAdd, hk]
      exact ⟨hkeys ▸ h.1, hkeys ▸ h.2⟩
  · next hk =>
      refine ⟨?_, pairwise_insertProperty h.2 k v⟩
      have hperm := (insertProperty_perm members k v).map Prod.fst
      exact hperm.nodup_iff.mpr (List.nodup_cons.mpr ⟨hk, h.1⟩)

theorem insertProperty_eq_append {members : List (JsString × β)} {k : JsString}
    (h : ∀ k' ∈ members.map Prod.fst, keyBefore k' k = true) (v : β) :
    insertProperty members k v = members ++ [(k, v)] := by
  induction members with
  | nil => rfl
  | cons p members ih =>
      obtain ⟨k', v'⟩ := p
      rw [List.map_cons, List.forall_mem_cons] at h
      simp only [insertProperty, h.1, if_true, ih h.2, List.cons_append]

/-- A key that follows all present ones is created at the end. -/
theorem defineProperty_eq_append {members : List (JsString × β)} {k : JsString} {v : β}
    {rest : List (JsString × β)} (h : Enumerated (members ++ (k, v) :: rest)) :
    defineProperty members k v = members ++ [(k, v)] := by
  obtain ⟨hnodup, hpair⟩ := h
  simp only [List.map_append, List.map_cons] at hnodup hpair
  have hk : k ∉ members.map Prod.fst := by
    intro hk
    exact (List.disjoint_of_nodup_append hnodup) hk List.mem_cons_self
  rw [defineProperty, if_neg hk]
  apply insertProperty_eq_append
  intro k' hk'
  exact (List.pairwise_append.mp hpair).2.2 k' hk' k List.mem_cons_self

theorem mem_insertProperty {members : List (JsString × β)} {k : JsString} {v : β}
    {p : JsString × β} : p ∈ insertProperty members k v ↔ p = (k, v) ∨ p ∈ members := by
  rw [(insertProperty_perm members k v).mem_iff, List.mem_cons]

theorem mapGet_insertProperty {members : List (JsString × β)} {k : JsString}
    (hk : k ∉ members.map Prod.fst) (v : β) (k' : JsString) :
    mapGet (insertProperty members k v) k' = if k' = k then some v else mapGet members k' := by
  induction members with
  | nil => rw [insertProperty, mapGet_cons]
  | cons p members ih =>
      obtain ⟨k₀, v₀⟩ := p
      rw [List.map_cons, List.mem_cons, not_or] at hk
      unfold insertProperty
      split
      · rw [mapGet_cons, mapGet_cons, ih hk.2]
        by_cases hk' : k' = k₀
        · rw [if_pos hk', if_neg (hk' ▸ Ne.symm hk.1), if_pos hk']
        · rw [if_neg hk', if_neg hk']
      · rw [mapGet_cons]

theorem mapGet_defineProperty (members : List (JsString × β)) (k : JsString) (v : β)
    (k' : JsString) :
    mapGet (defineProperty members k v) k' = if k' = k then some v else mapGet members k' := by
  unfold defineProperty
  split
  · exact mapGet_mapSet members k v k'
  · next hk => exact mapGet_insertProperty hk v k'

end Members

/-! ## Equality up to the order of members -/

mutual

/-- The two values differ at most in the order of object members, at any depth. -/
def Json.Same : Json → Json → Prop
  | .null, .null => True
  | .bool a, .bool b => a = b
  | .num x, .num y => x = y
  | .str s, .str t => s = t
  | .arr xs, .arr ys => Json.SameItems xs ys
  | .obj ms, .obj ns => ms.length = ns.length ∧ Json.SameMembers ms ns
  | _, _ => False

def Json.SameItems : List Json → List Json → Prop
  | [], [] => True
  | x :: xs, y :: ys => Json.Same x y ∧ Json.SameItems xs ys
  | _, _ => False

def Json.SameMembers : List (JsString × Json) → List (JsString × Json) → Prop
  | [], _ => True
  | (k, v) :: ms, ns => (∃ w, mapGet ns k = some w ∧ Json.Same v w) ∧ Json.SameMembers ms ns

end

namespace Json

theorem sameItems_iff {xs ys : List Json} : SameItems xs ys ↔ List.Forall₂ Same xs ys := by
  induction xs generalizing ys with
  | nil => cases ys <;> simp [SameItems]
  | cons x xs ih => cases ys <;> simp [SameItems, ih]

theorem sameMembers_iff {ms ns : List (JsString × Json)} :
    SameMembers ms ns ↔ ∀ p ∈ ms, ∃ w, mapGet ns p.1 = some w ∧ Same p.2 w := by
  induction ms with
  | nil => simp [SameMembers]
  | cons p ms ih => simp [SameMembers, ih]

@[simp] theorem same_arr {xs ys : List Json} :
    Same (.arr xs) (.arr ys) ↔ List.Forall₂ Same xs ys := by
  rw [Same, sameItems_iff]

@[simp] theorem same_obj {ms ns : List (JsString × Json)} :
    Same (.obj ms) (.obj ns) ↔
      ms.length = ns.length ∧ ∀ p ∈ ms, ∃ w, mapGet ns p.1 = some w ∧ Same p.2 w := by
  rw [Same, sameMembers_iff]

/-- Objects with the same members have the same keys. -/
theorem keys_perm_of_same {ms ns : List (JsString × Json)} (hms : (ms.map Prod.fst).Nodup)
    (h : Same (.obj ms) (.obj ns)) : (ms.map Prod.fst).Perm (ns.map Prod.fst) := by
  obtain ⟨hlen, hmem⟩ := same_obj.mp h
  apply List.Subperm.perm_of_length_le
  · apply List.subperm_of_subset hms
    intro k hk
    obtain ⟨p, hp, rfl⟩ := List.mem_map.mp hk
    obtain ⟨w, hw, -⟩ := hmem p hp
    exact List.mem_map.mpr ⟨(p.1, w), mem_of_mapGet hw, rfl⟩
  · simp [hlen]

end Json

/-! ## `JSON.stringify` -/

def isLeadSurrogate (u : CodeUnit) : Bool := 0xD800 ≤ u && u ≤ 0xDBFF

def isTrailSurrogate (u : CodeUnit) : Bool := 0xDC00 ≤ u && u ≤ 0xDFFF

def hexUnit (d : ℕ) : CodeUnit := (if d < 10 then 0x30 + d else 0x61 + (d - 10)).toUInt16

/-- `\uXXXX` with lower-case digits. -/
def unicodeEscape (u : CodeUnit) : JsString :=
  [0x5C, 0x75, hexUnit (u.toNat / 4096), hexUnit (u.toNat / 256 % 16),
    hexUnit (u.toNat / 16 % 16), hexUnit (u.toNat % 16)]

/-- How a unit that is not a surrogate is written inside quotes. -/
def escapeUnit (u : CodeUnit) : JsString :=
  if u = 0x08 then [0x5C, 0x62]
  else if u = 0x09 then [0x5C, 0x74]
  else if u = 0x0A then [0x5C, 0x6E]
  else if u = 0x0C then [0x5C, 0x66]
  else if u = 0x0D then [0x5C, 0x72]
  else if u = 0x22 then [0x5C, 0x22]
  else if u = 0x5C then [0x5C, 0x5C]
  else if u < 0x20 then unicodeEscape u
  else [u]

/-- The escaped units; a surrogate stands for itself only within a pair. -/
def escapeUnits (afterLead : Bool) : JsString → JsString
  | [] => []
  | u :: rest =>
      (if isLeadSurrogate u then
        if (rest.head?.map isTrailSurrogate).getD false then [u] else unicodeEscape u
      else if isTrailSurrogate u then
        if afterLead then [u] else unicodeEscape u
      else escapeUnit u) ++ escapeUnits (isLeadSurrogate u) rest

/-- `QuoteJSONString`. -/
def quoteJson (s : JsString) : JsString := 0x22 :: escapeUnits false s ++ [0x22]

mutual

/-- `JSON.stringify(value)` without indentation. -/
def Json.stringify : Json → JsString
  | .null => js "null"
  | .bool b => if b then js "true" else js "false"
  | .num x => if x.isFinite then numberText x else js "null"
  | .str s => quoteJson s
  | .arr items => 0x5B :: join [0x2C] (Json.itemTexts items) ++ [0x5D]
  | .obj members => 0x7B :: join [0x2C] (Json.memberTexts members) ++ [0x7D]

def Json.itemTexts : List Json → List JsString
  | [] => []
  | v :: rest => Json.stringify v :: Json.itemTexts rest

def Json.memberTexts : List (JsString × Json) → List JsString
  | [] => []
  | (k, v) :: rest => (quoteJson k ++ 0x3A :: Json.stringify v) :: Json.memberTexts rest

end

/-! ## Checks on members -/

/-- `typeof value === "string"`, with a further check. -/
def isTextWith (check : JsString → Bool) : Option Json → Bool
  | some (.str s) => check s
  | _ => false

def isNumberWith (check : JsNumber → Bool) : Option Json → Bool
  | some (.num x) => check x
  | _ => false

theorem isTextWith_eq_true {check : JsString → Bool} {value : Option Json}
    (h : isTextWith check value = true) : ∃ s, value = some (.str s) ∧ check s = true := by
  unfold isTextWith at h
  split at h
  · next s => exact ⟨s, rfl, h⟩
  · cases h

theorem isNumberWith_eq_true {check : JsNumber → Bool} {value : Option Json}
    (h : isNumberWith check value = true) : ∃ x, value = some (.num x) ∧ check x = true := by
  unfold isNumberWith at h
  split at h
  · next x => exact ⟨x, rfl, h⟩
  · cases h

end TestIntelligence.Js
