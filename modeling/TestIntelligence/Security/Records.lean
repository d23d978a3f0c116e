import TestIntelligence.Security.ContentHash

/-!
# Records in canonical JSON

A text says less than the value it was printed from: `JSON.stringify` prints both
zeros as `0` and a number that is not finite as `null`.  The printed form of a
value is what its text stands for, and it is what reading the text gives back.
-/

namespace TestIntelligence.Js

mutual

/-- What is left of a value after printing it. -/
def Json.printed : Json → Json
  | .arr items => .arr (Json.printedItems items)
  | .obj members => .obj (Json.printedMembers members)
  | .num x => if x.isFinite then .num x.unsigned else .null
  | .null => .null
  | .bool b => .bool b
  | .str s => .str s

def Json.printedItems : List Json → List Json
  | [] => []
  | v :: rest => v.printed :: Json.printedItems rest

def Json.printedMembers : List (JsString × Json) → List (JsString × Json)
  | [] => []
  | (key, v) :: rest => (key, v.printed) :: Json.printedMembers rest

end

namespace Json

@[simp] theorem printed_arr (items : List Json) :
    (Json.arr items).printed = .arr (items.map printed) := by
  rw [printed]
  congr 1
  induction items with
  | nil => rfl
  | cons v items ih => simp [printedItems, ih]

@[simp] theorem printed_obj (members : List (JsString × Json)) :
    (Json.obj members).printed = .obj (members.map fun p ↦ (p.1, p.2.printed)) := by
  rw [printed]
  congr 1
  induction members with
  | nil => rfl
  | cons p members ih => simp [printedMembers, ih]

theorem plainNumbers_printed (v : Json) : v.printed.PlainNumbers := by
  induction v using Json.induction with
  | null => trivial
  | bool b => trivial
  | str s => trivial
  | num x =>
      rw [printed]
      split
      · next hx => exact JsNumber.exists_unsigned_eq_finite hx
      · trivial
  | arr items ih => simpa using ih
  | obj members ih =>
      rw [printed_obj, plainNumbers_obj]
      intro p hp
      obtain ⟨q, hq, rfl⟩ := List.mem_map.mp hp
      exact ih q hq

theorem printed_num_unsigned (x : JsNumber) :
    (Json.num x.unsigned).printed = (Json.num x).printed := by
  simp [printed]

theorem keys_map_values {β γ : Type*} (f : β → γ) (members : List (JsString × β)) :
    (members.map fun p ↦ (p.1, f p.2)).map Prod.fst = members.map Prod.fst := by
  rw [List.map_map]
  rfl

theorem ordered_printed {v : Json} (hv : v.Ordered) : v.printed.Ordered := by
  induction v using Json.induction with
  | null => trivial
  | bool b => trivial
  | str s => trivial
  | num x =>
      rw [printed]
      split <;> trivial
  | arr items ih =>
      rw [printed_arr, ordered_arr]
      intro w hw
      obtain ⟨v, hv', rfl⟩ := List.mem_map.mp hw
      exact ih v hv' (ordered_arr.mp hv v hv')
  | obj members ih =>
      obtain ⟨henum, hvalues⟩ := ordered_obj.mp hv
      rw [printed_obj, ordered_obj]
      constructor
      · simpa only [Enumerated, keys_map_values] using henum
      · intro p hp
        obtain ⟨q, hq, rfl⟩ := List.mem_map.mp hp
        exact ih q hq (hvalues q hq)

theorem itemTexts_eq_map (items : List Json) : itemTexts items = items.map stringify := by
  induction items with
  | nil => rfl
  | cons v items ih => simp [itemTexts, ih]

theorem memberTexts_eq_map (members : List (JsString × Json)) :
    memberTexts members = members.map fun p ↦ quoteJson p.1 ++ 0x3A :: p.2.stringify := by
  induction members with
  | nil => rfl
  | cons p members ih => simp [memberTexts, ih]

theorem stringify_printed (v : Json) : v.printed.stringify = v.stringify := by
  induction v using Json.induction with
  | null => rfl
  | bool b => rfl
  | str s => rfl
  | num x =>
      cases x with
      | nan => rfl
      | infinity negative => rfl
      | negZero => decide
      | finite d => rfl
  | arr items ih =>
      rw [printed_arr, stringify, stringify, itemTexts_eq_map, itemTexts_eq_map, List.map_map]
      congr 3
      exact List.map_congr_left ih
  | obj members ih =>
      rw [printed_obj, stringify, stringify, memberTexts_eq_map, memberTexts_eq_map, List.map_map]
      congr 3
      apply List.map_congr_left
      intro p hp
      simp [ih p hp]

end Json

end TestIntelligence.Js

namespace TestIntelligence.Security

open Js

theorem mapGet_map_values {β γ : Type*} (f : β → γ) (members : List (JsString × β))
    (key : JsString) :
    mapGet (members.map fun p ↦ (p.1, f p.2)) key = (mapGet members key).map f := by
  induction members with
  | nil => rfl
  | cons p members ih =>
      rw [List.map_cons, mapGet_cons, mapGet_cons, ih]
      split <;> rfl

theorem insertProperty_map_values (f : Json → Json) (members : List (JsString × Json))
    (key : JsString) (v : Json) :
    insertProperty (members.map fun p ↦ (p.1, f p.2)) key (f v) =
      (insertProperty members key v).map fun p ↦ (p.1, f p.2) := by
  induction members with
  | nil => rfl
  | cons p members ih =>
      simp only [List.map_cons, insertProperty, ih]
      split <;> rfl

theorem mapSet_map_values {β γ : Type*} (f : β → γ) (members : List (JsString × β))
    (key : JsString) (v : β) : mapSet (members.map fun p ↦ (p.1, f p.2)) key (f v) =
      (mapSet members key v).map fun p ↦ (p.1, f p.2) := by
  induction members with
  | nil => rfl
  | cons p members ih =>
      simp only [List.map_cons, mapSet, ih]
      split <;> rfl

theorem rebuild_map_values (f : Json → Json) (members : List (JsString × Json)) :
    rebuild (members.map fun p ↦ (p.1, f p.2)) =
      (rebuild members).map fun p ↦ (p.1, f p.2) := by
  unfold rebuild
  rw [Json.keys_map_values]
  generalize sortStrings (members.map Prod.fst) = keys
  suffices h : ∀ sorted : List (JsString × Json),
      keys.foldl (assignFrom (members.map fun p ↦ (p.1, f p.2)))
          (sorted.map fun p ↦ (p.1, f p.2)) =
        (keys.foldl (assignFrom members) sorted).map fun p ↦ (p.1, f p.2) from h []
  induction keys with
  | nil => exact fun sorted ↦ rfl
  | cons key keys ih =>
      intro sorted
      have hassign : assignFrom (members.map fun p ↦ (p.1, f p.2))
          (sorted.map fun p ↦ (p.1, f p.2)) key =
            (assignFrom members sorted key).map fun p ↦ (p.1, f p.2) := by
        unfold assignFrom assignProperty defineProperty
        rw [mapGet_map_values, Json.keys_map_values]
        cases mapGet members key with
        | none => rfl
        | some v =>
            simp only [Option.map_some, mapSet_map_values, insertProperty_map_values]
            split
            · rfl
            · split <;> rfl
      rw [List.foldl_cons, List.foldl_cons, hassign, ih]

theorem sortValue_printed (v : Json) : sortValue v.printed = (sortValue v).printed := by
  induction v using Json.induction with
  | null => rfl
  | bool b => rfl
  | str s => rfl
  | num x =>
      rw [sortValue, Json.printed]
      split <;> rfl
  | arr items ih =>
      rw [Json.printed_arr, sortValue_arr, sortValue_arr, Json.printed_arr, List.map_map,
        List.map_map]
      congr 1
      exact List.map_congr_left ih
  | obj members ih =>
      rw [Json.printed_obj, sortValue_obj, sortValue_obj, Json.printed_obj, ← rebuild_map_values,
        List.map_map, List.map_map]
      congr 2
      apply List.map_congr_left
      intro p hp
      simp [ih p hp]

theorem canonicalJson_printed (v : Json) : canonicalJson v.printed = canonicalJson v := by
  rw [canonicalJson, canonicalJson, sortValue_printed, Json.stringify_printed]

/-- Reading a canonical text, with or without a final line feed. -/
theorem parse_canonicalJson_append {v : Json} (hv : v.Ordered) {rest : JsString}
    (hspace : skipSpace rest = []) (hends : EndsDecimal rest) :
    Json.parse (canonicalJson v ++ rest) = some (sortValue v.printed) := by
  have hordered := ordered_sortValue (Json.ordered_printed hv)
  have hplain := plainNumbers_sortValue (Json.ordered_printed hv) (Json.plainNumbers_printed v)
  have hread := Json.readsBack hordered hplain
    (2 * (canonicalJson v ++ rest).length + 2) rest (by
      rw [← canonicalJson, canonicalJson_printed, List.length_append]
      omega) hends
  rw [← canonicalJson, canonicalJson_printed] at hread
  rw [Json.parse, hread]
  exact if_pos hspace

theorem parse_canonicalJson_line {v : Json} (hv : v.Ordered) :
    Json.parse (canonicalJson v ++ [0x0A]) = some (sortValue v.printed) :=
  parse_canonicalJson_append hv (by decide) (endsDecimal_cons (by decide))

theorem parse_canonicalJson_of_ordered {v : Json} (hv : v.Ordered) :
    Json.parse (canonicalJson v) = some (sortValue v.printed) := by
  have hends : EndsDecimal [] := by simp [EndsDecimal]
  have hread := parse_canonicalJson_append hv rfl hends
  rwa [List.append_nil] at hread

/-! ## Reading the fields of a record -/

@[simp] theorem sortValue_printed_str (s : JsString) : sortValue (Json.str s).printed = .str s := rfl

theorem sortValue_printed_num {x : JsNumber} (hx : x.isFinite = true) :
    sortValue (Json.num x).printed = .num x.unsigned := by
  rw [Json.printed, if_pos hx]
  rfl

@[simp] theorem sortValue_printed_texts (items : List JsString) :
    sortValue (Json.arr (items.map .str)).printed = .arr (items.map .str) := by
  rw [Json.printed_arr, sortValue_arr, List.map_map, List.map_map]
  rfl

@[simp] theorem sortValue_printed_nullable (s : Option JsString) :
    sortValue (s.elim Json.null Json.str).printed = s.elim Json.null Json.str := by
  cases s <;> rfl

theorem printed_presentMembers (fields : List (JsString × Option Json)) :
    (Json.obj (presentMembers fields)).printed =
      .obj (presentMembers (fields.map fun field ↦ (field.1, field.2.map Json.printed))) := by
  rw [Json.printed_obj]
  congr 1
  induction fields with
  | nil => rfl
  | cons field fields ih =>
      obtain ⟨key, value⟩ := field
      cases value with
      | none => exact ih
      | some v => exact congrArg ((key, v.printed) :: ·) ih

/-- Two records over the same keys with one canonical text agree in every field,
up to printing and member order. -/
theorem fields_eq_of_canonicalJson_eq {fields fields' : List (JsString × Option Json)}
    (hkeys : fields.map Prod.fst = fields'.map Prod.fst) (hfields : Enumerated fields)
    (hproto : protoKey ∉ fields.map Prod.fst)
    (hvalues : ∀ field ∈ fields, ∀ v ∈ field.2, v.Ordered)
    (hvalues' : ∀ field ∈ fields', ∀ v ∈ field.2, v.Ordered)
    (h : canonicalJson (.obj (presentMembers fields)) =
      canonicalJson (.obj (presentMembers fields'))) :
    fields.map (·.2.map fun v ↦ sortValue v.printed) =
      fields'.map (·.2.map fun v ↦ sortValue v.printed) := by
  have hfields' : Enumerated fields' := by
    rw [Enumerated, ← hkeys]
    exact hfields
  have hparse := parse_canonicalJson_of_ordered (ordered_presentMembers hfields hvalues)
  rw [h, parse_canonicalJson_of_ordered (ordered_presentMembers hfields' hvalues'),
    printed_presentMembers, printed_presentMembers] at hparse
  have hsorted := fields_eq_of_sortValue_eq (by simpa only [Json.keys_map_values] using hkeys)
    (by simpa only [Enumerated, Json.keys_map_values] using hfields)
    (by simpa only [Json.keys_map_values] using hproto) (Option.some.inj hparse).symm
  simpa [List.map_map, Function.comp_def, Option.map_map] using hsorted

/-- A record reads back field by field. -/
theorem parse_record {fields : List (JsString × Option Json)} (hfields : Enumerated fields)
    (hvalues : ∀ field ∈ fields, ∀ v ∈ field.2, v.Ordered) {rest : JsString}
    (hspace : skipSpace rest = []) (hends : EndsDecimal rest) :
    ∃ members, Json.parse (canonicalJson (.obj (presentMembers fields)) ++ rest) =
        some (.obj members) ∧ protoKey ∉ members.map Prod.fst ∧
      ∀ key, key ≠ protoKey →
        mapGet members key = (mapGet fields key).join.map fun v ↦ sortValue v.printed := by
  have hparse := parse_canonicalJson_append (ordered_presentMembers hfields hvalues) hspace hends
  rw [sortValue_printed, sortValue_obj, Json.printed_obj] at hparse
  refine ⟨_, hparse, ?_, fun key hkey ↦ ?_⟩
  · rw [Json.keys_map_values]
    intro hmem
    obtain ⟨p, hp, hkey⟩ := List.mem_map.mp hmem
    have hpresent : ((presentMembers fields).map Prod.fst).Nodup :=
      hfields.1.sublist (keys_presentMembers_sublist fields)
    exact ((mem_rebuild (by rwa [keys_map_sortValue])).mp hp).2 hkey
  · rw [mapGet_map_values, mapGet_sortValue_record hfields.1 hkey, Option.map_map]
    simp only [sortValue_printed]
    rfl

/-- The sorted form of a record holds each field under its key. -/
theorem exists_members_of_record (fields : List (JsString × Option Json))
    (hfields : (fields.map Prod.fst).Nodup) (hproto : protoKey ∉ fields.map Prod.fst) :
    ∃ members, sortValue (Json.obj (presentMembers fields)).printed = .obj members ∧
      ∀ field ∈ fields, mapGet members field.1 = field.2.map fun v ↦ sortValue v.printed := by
  rw [sortValue_printed, sortValue_obj, Json.printed_obj]
  refine ⟨_, rfl, fun field hfield ↦ ?_⟩
  have hkey : field.1 ≠ protoKey := by
    rintro heq
    exact hproto (heq ▸ List.mem_map_of_mem hfield)
  rw [mapGet_map_values, mapGet_sortValue_record hfields hkey, mapGet_eq_some_of_mem hfields hfield,
    Option.join_some, Option.map_map]
  simp only [sortValue_printed]
  rfl

/-- Reading the fields of a record from its text. -/
theorem parse_fields {fields : List (JsString × Option Json)} (hfields : Enumerated fields)
    (hproto : protoKey ∉ fields.map Prod.fst)
    (hvalues : ∀ field ∈ fields, ∀ v ∈ field.2, v.Ordered) {rest : JsString}
    (hspace : skipSpace rest = []) (hends : EndsDecimal rest) :
    ∃ members, Json.parse (canonicalJson (.obj (presentMembers fields)) ++ rest) =
        some (.obj members) ∧
      ∀ field ∈ fields, mapGet members field.1 = field.2.map fun v ↦ sortValue v.printed := by
  obtain ⟨members, hsorted, hget⟩ := exists_members_of_record fields hfields.1 hproto
  refine ⟨members, ?_, hget⟩
  rw [parse_canonicalJson_append (ordered_presentMembers hfields hvalues) hspace hends, hsorted]

/-! ## Objects written to a file -/

/-- The value that is read back from the canonical text of a value. -/
def stored (v : Json) : Json := sortValue v.printed

def storedMembers (members : List (JsString × Json)) : List (JsString × Json) :=
  rebuild ((members.map fun p ↦ (p.1, p.2.printed)).map fun p ↦ (p.1, sortValue p.2))

@[simp] theorem stored_obj (members : List (JsString × Json)) :
    stored (.obj members) = .obj (storedMembers members) := by
  rw [stored, Json.printed_obj, sortValue_obj]
  rfl

@[simp] theorem stored_arr (items : List Json) : stored (.arr items) = .arr (items.map stored) := by
  rw [stored, Json.printed_arr, sortValue_arr, List.map_map]
  rfl

@[simp] theorem stored_str (s : JsString) : stored (.str s) = .str s := rfl

theorem parse_canonicalJson_stored {v : Json} (hv : v.Ordered) :
    Json.parse (canonicalJson v) = some (stored v) := parse_canonicalJson_of_ordered hv

theorem ordered_stored {v : Json} (hv : v.Ordered) : (stored v).Ordered :=
  ordered_sortValue (Json.ordered_printed hv)

theorem mapGet_storedMembers {members : List (JsString × Json)} (h : (members.map Prod.fst).Nodup)
    {key : JsString} (hkey : key ≠ protoKey) :
    mapGet (storedMembers members) key = (mapGet members key).map stored := by
  have hprinted : ((members.map fun p ↦ (p.1, p.2.printed)).map Prod.fst).Nodup := by
    rwa [Json.keys_map_values]
  rw [storedMembers, mapGet_rebuild (by rwa [keys_map_sortValue]) hkey, mapGet_map_sortValue,
    mapGet_map_values, Option.map_map]
  rfl

/-- `value[key]`, for the own properties of an object. -/
def property (value : Json) (key : JsString) : Option Json :=
  match value with
  | .obj members => mapGet members key
  | _ => none

theorem property_stored_obj {members : List (JsString × Json)} (h : (members.map Prod.fst).Nodup)
    {key : JsString} (hkey : key ≠ protoKey) :
    property (stored (.obj members)) key = (property (.obj members) key).map stored := by
  rw [stored_obj]
  exact mapGet_storedMembers h hkey

/-! ## Values that survive printing -/

theorem printed_of_plainNumbers {v : Json} (h : v.PlainNumbers) : v.printed = v := by
  induction v using Json.induction with
  | num x =>
      obtain ⟨d, rfl⟩ := h
      rfl
  | arr items ih =>
      rw [Json.plainNumbers_arr] at h
      rw [Json.printed_arr, List.map_congr_left fun v hv ↦ ih v hv (h v hv), List.map_id'']
      exact fun _ ↦ rfl
  | obj members ih =>
      rw [Json.plainNumbers_obj] at h
      have hvalues : members.map (fun p ↦ (p.1, p.2.printed)) = members.map id := by
        apply List.map_congr_left
        intro p hp
        rw [ih p hp (h p hp)]
        rfl
      rw [Json.printed_obj, hvalues, List.map_id]
  | _ => rfl

theorem stored_same {v : Json} (hordered : v.Ordered) (hplain : v.PlainNumbers)
    (hfree : ProtoFree v) : (stored v).Same v := by
  rw [stored, printed_of_plainNumbers hplain]
  exact sortValue_same hordered hfree

theorem same_refl {v : Json} (hv : v.Ordered) : v.Same v := by
  induction v using Json.induction with
  | null => trivial
  | bool b => rfl
  | num x => rfl
  | str s => rfl
  | arr items ih =>
      rw [Json.ordered_arr] at hv
      rw [Json.same_arr, List.forall₂_same]
      exact fun v hmem ↦ ih v hmem (hv v hmem)
  | obj members ih =>
      obtain ⟨henum, hvalues⟩ := Json.ordered_obj.mp hv
      rw [Json.same_obj]
      refine ⟨rfl, fun p hp ↦ ⟨p.2, mapGet_eq_some_of_mem henum.1 hp, ih p hp (hvalues p hp)⟩⟩

theorem forall₂_trans {α β γ : Type*} {R : α → β → Prop} {S : β → γ → Prop} {T : α → γ → Prop}
    {xs : List α} {ys : List β} {zs : List γ} (h : ∀ x ∈ xs, ∀ y z, R x y → S y z → T x z)
    (hxy : List.Forall₂ R xs ys) (hyz : List.Forall₂ S ys zs) : List.Forall₂ T xs zs := by
  induction hxy generalizing zs with
  | nil =>
      cases hyz
      exact .nil
  | cons hhead _ ih =>
      cases hyz with
      | cons hhead' htail' =>
          obtain ⟨h, hrest⟩ := List.forall_mem_cons.mp h
          exact .cons (h _ _ hhead hhead') (ih hrest htail')

theorem same_trans {u v w : Json} (huv : u.Same v) (hvw : v.Same w) : u.Same w := by
  induction u using Json.induction generalizing v w with
  | null =>
      cases v with
      | null => exact hvw
      | _ => exact huv.elim
  | bool b =>
      cases v with
      | bool b' =>
          obtain rfl : b = b' := huv
          exact hvw
      | _ => exact huv.elim
  | num x =>
      cases v with
      | num x' =>
          obtain rfl : x = x' := huv
          exact hvw
      | _ => exact huv.elim
  | str s =>
      cases v with
      | str s' =>
          obtain rfl : s = s' := huv
          exact hvw
      | _ => exact huv.elim
  | arr items ih =>
      cases v with
      | arr items' =>
          cases w with
          | arr items'' =>
              rw [Json.same_arr] at huv hvw ⊢
              have hitems : ∀ x ∈ items, ∀ y z : Json, x.Same y → y.Same z → x.Same z :=
                fun x hx _ _ hxy hyz ↦ ih x hx hxy hyz
              exact forall₂_trans hitems huv hvw
          | _ => exact hvw.elim
      | _ => exact huv.elim
  | obj members ih =>
      cases v with
      | obj members' =>
          cases w with
          | obj members'' =>
              rw [Json.same_obj] at huv hvw ⊢
              refine ⟨huv.1.trans hvw.1, fun p hp ↦ ?_⟩
              obtain ⟨v, hv, hpv⟩ := huv.2 p hp
              obtain ⟨w, hw, hvw⟩ := hvw.2 _ (mem_of_mapGet hv)
              exact ⟨w, hw, ih p hp hpv hvw⟩
          | _ => exact hvw.elim
      | _ => exact huv.elim

theorem protoFree_sortValue {v : Json} (hv : v.Ordered) : ProtoFree (sortValue v) := by
  induction v using Json.induction with
  | arr items ih =>
      rw [sortValue_arr, protoFree_arr]
      intro w hw
      obtain ⟨v, hv', rfl⟩ := List.mem_map.mp hw
      exact ih v hv' (Json.ordered_arr.mp hv v hv')
  | obj members ih =>
      obtain ⟨henum, hvalues⟩ := Json.ordered_obj.mp hv
      have hnodup := henum.1
      rw [← keys_map_sortValue] at hnodup
      rw [sortValue_obj, protoFree_obj]
      refine ⟨fun hmem ↦ ?_, fun p hp ↦ ?_⟩
      · obtain ⟨p, hp, hkey⟩ := List.mem_map.mp hmem
        exact ((mem_rebuild hnodup).mp hp).2 hkey
      · obtain ⟨q, hq, rfl⟩ := List.mem_map.mp ((mem_rebuild hnodup).mp hp).1
        exact ih q hq (hvalues q hq)
  | _ => trivial

theorem protoFree_stored {v : Json} (hv : v.Ordered) : ProtoFree (stored v) :=
  protoFree_sortValue (Json.ordered_printed hv)

theorem plainNumbers_stored {v : Json} (hv : v.Ordered) : (stored v).PlainNumbers :=
  plainNumbers_sortValue (Json.ordered_printed hv) (Json.plainNumbers_printed v)

/-! ## Canonical texts -/

theorem sortStrings_filter (p : JsString → Bool) (xs : List JsString) :
    sortStrings (xs.filter p) = (sortStrings xs).filter p := by
  apply ((sortStrings_perm _).trans ((sortStrings_perm xs).symm.filter p)).eq_of_pairwise
  · exact fun a b _ _ hab hba ↦ Std.le_antisymm hab hba
  · exact sortStrings_pairwise _
  · exact (sortStrings_pairwise xs).filter p

/-- The loop of `sortValue` passes over a `__proto__` key. -/
theorem rebuild_mapDelete_proto (members : List (JsString × Json)) :
    rebuild (mapDelete members protoKey) = rebuild members := by
  have hskip : ∀ (keys : List JsString) (sorted : List (JsString × Json)),
      (keys.filter (· ≠ protoKey)).foldl (assignFrom (mapDelete members protoKey)) sorted =
        keys.foldl (assignFrom members) sorted := by
    intro keys
    induction keys with
    | nil => exact fun _ ↦ rfl
    | cons key keys ih =>
        intro sorted
        by_cases hkey : key = protoKey
        · have hsame : assignFrom members sorted key = sorted := by
            unfold assignFrom assignProperty
            rw [hkey]
            split <;> simp
          rw [List.filter_cons_of_neg (by simpa using hkey), List.foldl_cons, hsame, ih]
        · have hsame : assignFrom (mapDelete members protoKey) sorted key =
              assignFrom members sorted key := by
            unfold assignFrom
            rw [mapGet_mapDelete, if_neg hkey]
          rw [List.filter_cons_of_pos (by simpa using hkey), List.foldl_cons, List.foldl_cons,
            hsame, ih]
  rw [rebuild, rebuild, ← hskip, ← sortStrings_filter, List.filter_map]
  rfl

theorem rebuild_rebuild {members : List (JsString × Json)}
    (hmembers : (members.map Prod.fst).Nodup) : rebuild (rebuild members) = rebuild members := by
  have hperm : (rebuild members).Perm (mapDelete members protoKey) := rebuild_perm hmembers
  have hget : ∀ key, mapGet (rebuild members) key = mapGet (mapDelete members protoKey) key := by
    intro key
    rw [mapGet_mapDelete]
    split
    · next hkey =>
        rw [mapGet_eq_none_iff, hkey]
        intro hmem
        obtain ⟨p, hp, heq⟩ := List.mem_map.mp hmem
        exact ((mem_rebuild hmembers).mp hp).2 heq
    · next hkey => exact mapGet_rebuild hmembers hkey
  rw [rebuild_congr (hperm.map Prod.fst) hget, rebuild_mapDelete_proto]

/-- Sorting a sorted value changes nothing. -/
theorem sortValue_sortValue {v : Json} (hv : v.Ordered) : sortValue (sortValue v) = sortValue v := by
  induction v using Json.induction with
  | null => rfl
  | bool b => rfl
  | num x => rfl
  | str s => rfl
  | arr items ih =>
      rw [sortValue_arr, sortValue_arr, List.map_map]
      congr 1
      exact List.map_congr_left fun v hv' ↦ ih v hv' (Json.ordered_arr.mp hv v hv')
  | obj members ih =>
      obtain ⟨henum, hvalues⟩ := Json.ordered_obj.mp hv
      have hkeys : ((members.map fun p ↦ (p.1, sortValue p.2)).map Prod.fst).Nodup := by
        rw [keys_map_sortValue]
        exact henum.1
      rw [sortValue_obj, sortValue_obj, ← rebuild_map_values, List.map_map]
      have hvalues' : (members.map ((fun p ↦ (p.1, sortValue p.2)) ∘ fun p ↦ (p.1, sortValue p.2))) =
          members.map fun p ↦ (p.1, sortValue p.2) := by
        apply List.map_congr_left
        intro p hp
        simp [ih p hp (hvalues p hp)]
      rw [hvalues', rebuild_rebuild hkeys]

/-- Reading a canonical text and printing it again gives the same text. -/
theorem canonicalJson_of_parse {v w : Json} (hv : v.Ordered)
    (h : Json.parse (canonicalJson v) = some w) : canonicalJson w = canonicalJson v := by
  rw [parse_canonicalJson_of_ordered hv] at h
  rw [← Option.some.inj h, canonicalJson, sortValue_sortValue (Json.ordered_printed hv),
    ← canonicalJson, canonicalJson_printed]

/-- What a text was read as has the same canonical text when that is read again. -/
theorem canonicalJson_reread (text : JsString) :
    ((Json.parse text).bind fun v ↦ (Json.parse (canonicalJson v)).map canonicalJson) =
      (Json.parse text).map canonicalJson := by
  cases h : Json.parse text with
  | none => rfl
  | some v =>
      have hread := parse_canonicalJson_stored (Json.ordered_of_parse h)
      simp [hread, canonicalJson_of_parse (Json.ordered_of_parse h) hread]

/-! ## Keys of fixed records -/

theorem enumerated_of_keys {β γ : Type*} {members : List (JsString × β)}
    {sample : List (JsString × γ)} (h : Enumerated sample)
    (hkeys : members.map Prod.fst = sample.map Prod.fst) : Enumerated members := by
  rwa [Enumerated, hkeys]

theorem arrayIndex_of_head {k : JsString} (h : k.head?.any isDigit = false) :
    arrayIndex k = none := by
  unfold arrayIndex
  apply if_neg
  rintro (rfl | ⟨hdigits, hhead, -⟩)
  · cases h
  · cases k with
    | nil => exact hhead rfl
    | cons u k =>
        rw [List.all_cons, Bool.and_eq_true] at hdigits
        rw [List.head?_cons, Option.any_some, hdigits.1] at h
        cases h

/-- Distinct names that do not start with a digit are enumerated as they are listed. -/
theorem enumerated_of_names {β : Type*} {members : List (JsString × β)} {names : List String}
    (hkeys : members.map Prod.fst = names.map js) (hnames : names.Nodup)
    (hheads : ∀ name ∈ names, (js name).head?.any isDigit = false) : Enumerated members := by
  rw [Enumerated, hkeys]
  refine ⟨nodup_map_js.mpr hnames, ?_⟩
  apply List.pairwise_of_forall_mem_list
  intro k hk k' hk'
  obtain ⟨name, hname, rfl⟩ := List.mem_map.mp hk
  obtain ⟨name', hname', rfl⟩ := List.mem_map.mp hk'
  rw [keyBefore, arrayIndex_of_head (hheads name hname), arrayIndex_of_head (hheads name' hname')]

/-! ## Taking members out of a stored record -/

theorem stored_stored {v : Json} (hv : v.Ordered) : stored (stored v) = stored v := by
  have hprinted := Json.ordered_printed hv
  rw [stored, printed_of_plainNumbers (plainNumbers_stored hv), stored,
    sortValue_sortValue hprinted]

/-- The canonical text of an object depends on what its members are stored as. -/
theorem canonicalJson_obj_congr {ms ns : List (JsString × Json)} (hms : (ms.map Prod.fst).Nodup)
    (hns : (ns.map Prod.fst).Nodup)
    (h : ∀ key, (mapGet ms key).map stored = (mapGet ns key).map stored) :
    canonicalJson (.obj ms) = canonicalJson (.obj ns) := by
  have hkeys : (ms.map Prod.fst).Perm (ns.map Prod.fst) := by
    rw [List.perm_ext_iff_of_nodup hms hns]
    intro key
    rw [← not_iff_not, ← mapGet_eq_none_iff, ← mapGet_eq_none_iff, ← Option.map_eq_none_iff, h,
      Option.map_eq_none_iff]
  have htext : ∀ members : List (JsString × Json), canonicalJson (.obj members) =
      (Json.obj (rebuild (members.map fun p ↦ (p.1, stored p.2)))).stringify := by
    intro members
    rw [← canonicalJson_printed, canonicalJson, Json.printed_obj, sortValue_obj, List.map_map]
    rfl
  rw [htext, htext]
  congr 2
  apply rebuild_congr
  · rwa [Json.keys_map_values, Json.keys_map_values]
  · intro key
    rw [mapGet_map_values, mapGet_map_values, h]

theorem nodup_keys_storedMembers {members : List (JsString × Json)} :
    ((storedMembers members).map Prod.fst).Nodup := (enumerated_rebuild _).1

theorem mapGet_storedMembers_proto {members : List (JsString × Json)}
    (h : (members.map Prod.fst).Nodup) : mapGet (storedMembers members) protoKey = none := by
  rw [mapGet_eq_none_iff]
  intro hmem
  obtain ⟨p, hp, hkey⟩ := List.mem_map.mp hmem
  rw [storedMembers, mem_rebuild (by rwa [keys_map_sortValue, Json.keys_map_values])] at hp
  exact hp.2 hkey

/-- What is stored of the members that remain when one is taken out of a stored object. -/
theorem map_stored_mapGet_mapDelete {members : List (JsString × Json)}
    (h : (Json.obj members).Ordered) (hproto : protoKey ∉ members.map Prod.fst)
    (key key' : JsString) :
    (mapGet (mapDelete (storedMembers members) key) key').map stored =
      (mapGet (mapDelete members key) key').map stored := by
  obtain ⟨henum, hvalues⟩ := Json.ordered_obj.mp h
  rw [mapGet_mapDelete, mapGet_mapDelete]
  split
  · rfl
  · by_cases hkey : key' = protoKey
    · rw [hkey, mapGet_storedMembers_proto henum.1, mapGet_eq_none_iff.mpr hproto]
    · rw [mapGet_storedMembers henum.1 hkey, Option.map_map]
      cases hget : mapGet members key' with
      | none => rfl
      | some v =>
          have hv := hvalues (key', v) (mem_of_mapGet hget)
          simp only [Option.map_some, Function.comp_apply, stored_stored hv]

end TestIntelligence.Security
