import TestIntelligence.Js.JsonParse
import TestIntelligence.Js.Utf8

/-!
# The text of a JSON value

`JSON.stringify` writes a surrogate outside a pair as an escape, so its text is well
formed and its UTF-8 bytes determine it.
-/

namespace TestIntelligence.Js

theorem isSurrogate_of_lt {u : CodeUnit} (h : u.toNat < 0xD800) : isSurrogate u = false := by
  by_contra hsurrogate
  rw [Bool.not_eq_false, isSurrogate_iff] at hsurrogate
  omega

theorem isWellFormed_append_left {s : JsString} (hs : ∀ u ∈ s, isSurrogate u = false)
    (t : JsString) : isWellFormed (s ++ t) = isWellFormed t := by
  induction s with
  | nil => rfl
  | cons u s ih =>
      rw [List.cons_append, isWellFormed_cons (hs u List.mem_cons_self)]
      exact ih fun v hv ↦ hs v (List.mem_cons_of_mem u hv)

/-! ## Strings -/

theorem toNat_hexUnit : ∀ d < 16, (hexUnit d).toNat < 0x80 := by
  decide

theorem isSurrogate_of_mem_unicodeEscape {u v : CodeUnit} (h : v ∈ unicodeEscape u) :
    isSurrogate v = false := by
  have hu : u.toNat < 65536 := u.toNat_lt_size
  have hhex : ∀ d < 16, isSurrogate (hexUnit d) = false := fun d hd ↦
    isSurrogate_of_lt ((toNat_hexUnit d hd).trans (by decide))
  simp only [unicodeEscape, List.mem_cons, List.not_mem_nil, or_false] at h
  rcases h with rfl | rfl | rfl | rfl | rfl | rfl
  · decide
  · decide
  · exact hhex _ (by omega)
  · exact hhex _ (by omega)
  · exact hhex _ (by omega)
  · exact hhex _ (by omega)

theorem isSurrogate_of_mem_escapeUnit {u v : CodeUnit} (hu : isSurrogate u = false)
    (h : v ∈ escapeUnit u) : isSurrogate v = false := by
  unfold escapeUnit at h
  split_ifs at h
  all_goals first
    | exact isSurrogate_of_mem_unicodeEscape h
    | simp only [List.mem_cons, List.not_mem_nil, or_false] at h
  all_goals first
    | (rcases h with rfl | rfl <;> decide)
    | (rw [h]; exact hu)

def startsWithTrail (s : JsString) : Bool := (s.head?.map isTrailSurrogate).getD false

/-- After a lead surrogate that was kept, a trail surrogate completes the pair. -/
theorem isWellFormed_escapeUnits (s : JsString) :
    isWellFormed (escapeUnits false s) = true ∧
      (startsWithTrail s = false → isWellFormed (escapeUnits true s) = true) ∧
      ∀ lead, isLeadSurrogate lead = true → startsWithTrail s = true →
        isWellFormed (lead :: escapeUnits true s) = true := by
  induction s with
  | nil => exact ⟨rfl, fun _ ↦ rfl, nofun⟩
  | cons u s ih =>
      obtain ⟨hplain, hnoTrail, htrail⟩ := ih
      have hstart : startsWithTrail (u :: s) = isTrailSurrogate u := rfl
      rw [hstart]
      by_cases hlead : isLeadSurrogate u = true
      · have hunit : isTrailSurrogate u = false := by
          by_contra hunit
          rw [Bool.not_eq_false, isTrailSurrogate_iff] at hunit
          rw [isLeadSurrogate_iff] at hlead
          omega
        have hboth : ∀ afterLead, isWellFormed (escapeUnits afterLead (u :: s)) = true := by
          intro afterLead
          rw [escapeUnits, if_pos hlead, hlead, ← startsWithTrail]
          by_cases hs : startsWithTrail s = true
          · rw [if_pos hs]
            exact htrail u hlead hs
          · rw [if_neg hs, isWellFormed_append_left fun v hv ↦ isSurrogate_of_mem_unicodeEscape hv]
            exact hnoTrail (by simpa using hs)
        exact ⟨hboth false, fun _ ↦ hboth true, fun _ _ h ↦ by simp [hunit] at h⟩
      · rw [Bool.not_eq_true] at hlead
        by_cases hunit : isTrailSurrogate u = true
        · refine ⟨?_, fun h ↦ by simp [hunit] at h, fun lead hlead' _ ↦ ?_⟩
          · rw [escapeUnits, hlead, if_neg Bool.false_ne_true, if_pos hunit,
              if_neg Bool.false_ne_true,
              isWellFormed_append_left fun v hv ↦ isSurrogate_of_mem_unicodeEscape hv]
            exact hplain
          · rw [escapeUnits, hlead, if_neg Bool.false_ne_true, if_pos hunit, if_pos rfl,
              List.singleton_append, isWellFormed, hlead', hunit, Bool.and_self, if_pos rfl]
            exact hplain
        · rw [Bool.not_eq_true] at hunit
          have hsurrogate : isSurrogate u = false := by simp [isSurrogate, hlead, hunit]
          have hboth : ∀ afterLead, isWellFormed (escapeUnits afterLead (u :: s)) = true := by
            intro afterLead
            rw [escapeUnits, hlead, hunit, if_neg Bool.false_ne_true, if_neg Bool.false_ne_true,
              isWellFormed_append_left fun v hv ↦ isSurrogate_of_mem_escapeUnit hsurrogate hv]
            exact hplain
          exact ⟨hboth false, fun _ ↦ hboth true, fun _ _ h ↦ by simp [hunit] at h⟩

theorem isWellFormed_quoteJson (s : JsString) : isWellFormed (quoteJson s) = true := by
  rw [quoteJson, List.cons_append, isWellFormed_cons (by decide)]
  exact isWellFormed_append (isWellFormed_escapeUnits s).1 (by decide)

/-! ## Numbers -/

theorem isSurrogate_of_isNumberUnit {u : CodeUnit} (h : isNumberUnit u = true) :
    isSurrogate u = false := by
  simp only [isNumberUnit, isDigit, Bool.or_eq_true, Bool.and_eq_true, decide_eq_true_eq,
    beq_iff_eq, UInt16.le_iff_toNat_le] at h
  rcases h with (((hdigit | rfl) | rfl) | rfl) | rfl
  · exact isSurrogate_of_lt (hdigit.2.trans_lt (by decide))
  all_goals decide

theorem isWellFormed_numberText (x : JsNumber) : isWellFormed (numberText x) = true := by
  cases x with
  | nan => decide
  | infinity negative => cases negative <;> decide
  | negZero => decide
  | finite x =>
      by_cases hx : x.val = 0
      · rw [numberText, if_pos hx]
        decide
      · obtain ⟨d, hd, htext, -⟩ := exists_parts_numberText hx
        rw [htext]
        apply isWellFormed_append
        · split <;> decide
        · exact isWellFormed_of_no_surrogate fun u hu ↦
            isSurrogate_of_isNumberUnit (isNumberUnit_of_mem_render hd hu)

/-! ## Values -/

theorem isWellFormed_join {sep : JsString} (hsep : isWellFormed sep = true) {texts : List JsString}
    (h : ∀ text ∈ texts, isWellFormed text = true) : isWellFormed (join sep texts) = true := by
  fun_induction join sep texts with
  | case1 => rfl
  | case2 s => exact h s (List.mem_singleton_self s)
  | case3 s t rest ih =>
      exact isWellFormed_append (isWellFormed_append (h s List.mem_cons_self) hsep)
        (ih fun text htext ↦ h text (List.mem_cons_of_mem s htext))

theorem itemTexts_eq_map (items : List Json) : Json.itemTexts items = items.map Json.stringify := by
  induction items with
  | nil => rfl
  | cons v items ih => rw [Json.itemTexts, ih, List.map_cons]

theorem memberTexts_eq_map (members : List (JsString × Json)) :
    Json.memberTexts members = members.map fun p ↦ quoteJson p.1 ++ 0x3A :: p.2.stringify := by
  induction members with
  | nil => rfl
  | cons p members ih => rw [Json.memberTexts, ih, List.map_cons]

theorem isWellFormed_stringify (v : Json) : isWellFormed v.stringify = true := by
  induction v using Json.induction with
  | null => decide
  | bool b => cases b <;> decide
  | num x =>
      rw [Json.stringify]
      split
      · exact isWellFormed_numberText x
      · decide
  | str s => exact isWellFormed_quoteJson s
  | arr items ih =>
      rw [Json.stringify, itemTexts_eq_map, List.cons_append, isWellFormed_cons (by decide)]
      refine isWellFormed_append (isWellFormed_join (by decide) fun text htext ↦ ?_) (by decide)
      obtain ⟨v, hv, rfl⟩ := List.mem_map.mp htext
      exact ih v hv
  | obj members ih =>
      rw [Json.stringify, memberTexts_eq_map, List.cons_append, isWellFormed_cons (by decide)]
      refine isWellFormed_append (isWellFormed_join (by decide) fun text htext ↦ ?_) (by decide)
      obtain ⟨p, hp, rfl⟩ := List.mem_map.mp htext
      refine isWellFormed_append (isWellFormed_quoteJson p.1) ?_
      exact (isWellFormed_cons (by decide) _).trans (ih p hp)

end TestIntelligence.Js
