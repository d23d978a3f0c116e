import TestIntelligence.Js.JsonParse

/-!
# Canonical JSON

`canonicalJson` rebuilds a value with sorted object keys and prints it.  The
rebuild assigns to a fresh object, property by property, and an assignment to
`__proto__` reaches the accessor inherited from `Object.prototype`: it may
replace the prototype of the new object, but creates no own property.
-/

namespace TestIntelligence.Security

open Js

def protoKey : JsString := js "__proto__"

/-- `sorted[key] = value` on an object whose own keys are data properties. -/
def assignProperty (sorted : List (JsString × Json)) (key : JsString) (value : Json) :
    List (JsString × Json) :=
  if key = protoKey then sorted else defineProperty sorted key value

/-- One turn of the loop of `sortValue`; the members hold the values that were
already sorted. -/
def assignFrom (members sorted : List (JsString × Json)) (key : JsString) :
    List (JsString × Json) :=
  match mapGet members key with
  | some value => assignProperty sorted key value
  | none => sorted

/-- The loop of `sortValue` over `Object.keys(value).sort()`. -/
def rebuild (members : List (JsString × Json)) : List (JsString × Json) :=
  (sortStrings (members.map Prod.fst)).foldl (assignFrom members) []

mutual

def sortValue : Json → Json
  | .arr items => .arr (sortItems items)
  | .obj members => .obj (rebuild (sortMembers members))
  | .null => .null
  | .bool b => .bool b
  | .num x => .num x
  | .str s => .str s

def sortItems : List Json → List Json
  | [] => []
  | v :: rest => sortValue v :: sortItems rest

def sortMembers : List (JsString × Json) → List (JsString × Json)
  | [] => []
  | (key, v) :: rest => (key, sortValue v) :: sortMembers rest

end

def canonicalJson (value : Json) : JsString := (sortValue value).stringify

@[simp] theorem sortItems_eq_map (items : List Json) : sortItems items = items.map sortValue := by
  induction items with
  | nil => rfl
  | cons v items ih => simp [sortItems, ih]

@[simp] theorem sortMembers_eq_map (members : List (JsString × Json)) :
    sortMembers members = members.map fun p ↦ (p.1, sortValue p.2) := by
  induction members with
  | nil => rfl
  | cons p members ih => simp [sortMembers, ih]

/-! ## The rebuilt object -/

/-- The own property that the loop creates for a key. -/
def ownMember (members : List (JsString × Json)) (key : JsString) : Option (JsString × Json) :=
  if key = protoKey then none else (mapGet members key).map (key, ·)

theorem foldl_assignFrom_perm (members : List (JsString × Json)) {keys : List JsString}
    {sorted : List (JsString × Json)} (hkeys : keys.Nodup)
    (hnew : ∀ key ∈ keys, key ∉ sorted.map Prod.fst) :
    (keys.foldl (assignFrom members) sorted).Perm
      (sorted ++ keys.filterMap (ownMember members)) := by
  induction keys generalizing sorted with
  | nil => simp
  | cons key keys ih =>
      obtain ⟨hkey, hkeys⟩ := List.nodup_cons.mp hkeys
      obtain ⟨hnewKey, hnew⟩ := List.forall_mem_cons.mp hnew
      rw [List.foldl_cons, assignFrom]
      cases hget : mapGet members key with
      | none =>
          have hown : ownMember members key = none := by simp [ownMember, hget]
          rw [List.filterMap_cons_none hown]
          exact ih hkeys hnew
      | some value =>
          by_cases hproto : key = protoKey
          · have hown : ownMember members key = none := by simp [ownMember, hproto]
            rw [List.filterMap_cons_none hown]
            simp only [assignProperty, if_pos hproto]
            exact ih hkeys hnew
          · have hown : ownMember members key = some (key, value) := by
              simp [ownMember, hproto, hget]
            have hinsert : (assignProperty sorted key value).Perm ((key, value) :: sorted) := by
              rw [assignProperty, if_neg hproto, defineProperty, if_neg hnewKey]
              exact insertProperty_perm sorted key value
            have hnew' : ∀ k ∈ keys, k ∉ (assignProperty sorted key value).map Prod.fst := by
              intro k hk hmem
              rcases List.mem_cons.mp ((hinsert.map Prod.fst).mem_iff.mp hmem) with rfl | hmem
              · exact hkey hk
              · exact hnew k hk hmem
            rw [List.filterMap_cons_some hown]
            refine (ih hkeys hnew').trans ((hinsert.append_right _).trans ?_)
            rw [List.cons_append]
            exact List.perm_middle.symm

theorem filterMap_ownMember {members : List (JsString × Json)}
    (hmembers : (members.map Prod.fst).Nodup) :
    (members.map Prod.fst).filterMap (ownMember members) =
      members.filter fun p ↦ p.1 ≠ protoKey := by
  rw [List.filterMap_map, ← List.filterMap_eq_filter]
  apply List.filterMap_congr
  intro p hp
  by_cases hproto : p.1 = protoKey
  · simp [ownMember, hproto, Option.guard]
  · simp [ownMember, hproto, Option.guard, mapGet_eq_some_of_mem hmembers (show (p.1, p.2) ∈ members from hp)]

/-- The rebuilt object has all the members but `__proto__`. -/
theorem rebuild_perm {members : List (JsString × Json)}
    (hmembers : (members.map Prod.fst).Nodup) :
    (rebuild members).Perm (members.filter fun p ↦ p.1 ≠ protoKey) := by
  have hsorted := sortStrings_perm (members.map Prod.fst)
  have hfold : (rebuild members).Perm ([] ++ _) :=
    foldl_assignFrom_perm members (hsorted.nodup_iff.mpr hmembers) (by simp)
  rw [List.nil_append] at hfold
  rw [← filterMap_ownMember hmembers]
  exact hfold.trans (hsorted.filterMap _)

theorem enumerated_rebuild (members : List (JsString × Json)) :
    Enumerated (rebuild members) := by
  unfold rebuild
  generalize sortStrings (members.map Prod.fst) = keys
  suffices h : ∀ sorted : List (JsString × Json), Enumerated sorted →
      Enumerated (keys.foldl (assignFrom members) sorted) from h [] (by simp [Enumerated])
  induction keys with
  | nil => exact fun sorted hsorted ↦ hsorted
  | cons key keys ih =>
      intro sorted hsorted
      rw [List.foldl_cons]
      apply ih
      unfold assignFrom assignProperty
      split
      · split
        · exact hsorted
        · exact hsorted.defineProperty key _
      · exact hsorted

theorem mem_rebuild {members : List (JsString × Json)} (hmembers : (members.map Prod.fst).Nodup)
    {p : JsString × Json} : p ∈ rebuild members ↔ p ∈ members ∧ p.1 ≠ protoKey := by
  rw [(rebuild_perm hmembers).mem_iff, List.mem_filter]
  simp

/-- The rebuilt object depends only on the keys and the value under each key. -/
theorem rebuild_congr {ms ns : List (JsString × Json)}
    (hkeys : (ms.map Prod.fst).Perm (ns.map Prod.fst))
    (hget : ∀ key, mapGet ms key = mapGet ns key) : rebuild ms = rebuild ns := by
  have hstep : assignFrom ms = assignFrom ns := by
    funext sorted key
    simp only [assignFrom, hget]
  rw [rebuild, rebuild, sortStrings_eq_of_perm hkeys, hstep]

/-! ## Sorted values -/

/-- No object of the value has an own key `__proto__`. -/
def ProtoFree : Json → Prop :=
  Json.All fun
    | .obj members => protoKey ∉ members.map Prod.fst
    | _ => True

@[simp] theorem protoFree_arr {items : List Json} :
    ProtoFree (.arr items) ↔ ∀ v ∈ items, ProtoFree v := by simp [ProtoFree]

@[simp] theorem protoFree_obj {members : List (JsString × Json)} :
    ProtoFree (.obj members) ↔
      protoKey ∉ members.map Prod.fst ∧ ∀ p ∈ members, ProtoFree p.2 := by
  simp only [ProtoFree, Json.all_obj]

@[simp] theorem sortValue_arr (items : List Json) :
    sortValue (.arr items) = .arr (items.map sortValue) := by
  rw [sortValue, sortItems_eq_map]

@[simp] theorem sortValue_obj (members : List (JsString × Json)) :
    sortValue (.obj members) = .obj (rebuild (members.map fun p ↦ (p.1, sortValue p.2))) := by
  rw [sortValue, sortMembers_eq_map]

theorem keys_map_sortValue (members : List (JsString × Json)) :
    (members.map fun p ↦ (p.1, sortValue p.2)).map Prod.fst = members.map Prod.fst := by
  rw [List.map_map]
  rfl

theorem mapGet_map_sortValue (members : List (JsString × Json)) (key : JsString) :
    mapGet (members.map fun p ↦ (p.1, sortValue p.2)) key =
      (mapGet members key).map sortValue := by
  induction members with
  | nil => rfl
  | cons p members ih =>
      rw [List.map_cons, mapGet_cons, mapGet_cons, ih]
      split <;> rfl

/-- The members of a sorted object are sorted members of the original. -/
theorem exists_of_mem_sortValue {members : List (JsString × Json)}
    (hmembers : (members.map Prod.fst).Nodup) {p : JsString × Json}
    (hp : p ∈ rebuild (members.map fun p ↦ (p.1, sortValue p.2))) :
    ∃ q ∈ members, p = (q.1, sortValue q.2) := by
  rw [← keys_map_sortValue] at hmembers
  obtain ⟨q, hq, hqp⟩ := List.mem_map.mp ((mem_rebuild hmembers).mp hp).1
  exact ⟨q, hq, hqp.symm⟩

theorem ordered_sortValue {v : Json} (hv : v.Ordered) : (sortValue v).Ordered := by
  induction v using Json.induction with
  | null => trivial
  | bool b => trivial
  | num x => trivial
  | str s => trivial
  | arr items ih =>
      rw [sortValue_arr, Json.ordered_arr]
      intro w hw
      obtain ⟨v, hv', rfl⟩ := List.mem_map.mp hw
      exact ih v hv' (Json.ordered_arr.mp hv v hv')
  | obj members ih =>
      obtain ⟨henum, hvalues⟩ := Json.ordered_obj.mp hv
      rw [sortValue_obj, Json.ordered_obj]
      refine ⟨enumerated_rebuild _, fun p hp ↦ ?_⟩
      obtain ⟨q, hq, rfl⟩ := exists_of_mem_sortValue henum.1 hp
      exact ih q hq (hvalues q hq)

theorem plainNumbers_sortValue {v : Json} (hv : v.Ordered) (hplain : v.PlainNumbers) :
    (sortValue v).PlainNumbers := by
  induction v using Json.induction with
  | null => trivial
  | bool b => trivial
  | num x => exact hplain
  | str s => trivial
  | arr items ih =>
      rw [sortValue_arr, Json.plainNumbers_arr]
      intro w hw
      obtain ⟨v, hv', rfl⟩ := List.mem_map.mp hw
      exact ih v hv' (Json.ordered_arr.mp hv v hv') (Json.plainNumbers_arr.mp hplain v hv')
  | obj members ih =>
      obtain ⟨henum, hvalues⟩ := Json.ordered_obj.mp hv
      rw [sortValue_obj, Json.plainNumbers_obj]
      intro p hp
      obtain ⟨q, hq, rfl⟩ := exists_of_mem_sortValue henum.1 hp
      exact ih q hq (hvalues q hq) (Json.plainNumbers_obj.mp hplain q hq)

theorem map_eq_of_forall₂ {xs ys : List Json} (h : List.Forall₂ Json.Same xs ys)
    (heq : ∀ x ∈ xs, ∀ y, x.Same y → sortValue x = sortValue y) :
    xs.map sortValue = ys.map sortValue := by
  induction h with
  | nil => rfl
  | cons hhead htail ih =>
      obtain ⟨hx, hxs⟩ := List.forall_mem_cons.mp heq
      rw [List.map_cons, List.map_cons, hx _ hhead, ih hxs]

/-- Values that differ only in member order are sorted to the same value. -/
theorem sortValue_eq_of_same {v w : Json} (hv : v.Ordered) (h : v.Same w) :
    sortValue v = sortValue w := by
  induction v using Json.induction generalizing w with
  | null => cases w <;> simp_all [Json.Same]
  | bool b => cases w <;> simp_all [Json.Same]
  | num x => cases w <;> simp_all [Json.Same]
  | str s => cases w <;> simp_all [Json.Same]
  | arr items ih =>
      cases w with
      | arr items' =>
          rw [sortValue_arr, sortValue_arr,
            map_eq_of_forall₂ (Json.same_arr.mp h) fun x hx y hxy ↦
              ih x hx (Json.ordered_arr.mp hv x hx) hxy]
      | _ => simp [Json.Same] at h
  | obj members ih =>
      cases w with
      | obj members' =>
          obtain ⟨henum, hvalues⟩ := Json.ordered_obj.mp hv
          have hperm := Json.keys_perm_of_same henum.1 h
          rw [sortValue_obj, sortValue_obj]
          congr 1
          apply rebuild_congr
          · rw [keys_map_sortValue, keys_map_sortValue]
            exact hperm
          · intro key
            rw [mapGet_map_sortValue, mapGet_map_sortValue]
            cases hget : mapGet members key with
            | none =>
                have hnone : mapGet members' key = none := by
                  rw [mapGet_eq_none_iff] at hget ⊢
                  exact fun hmem ↦ hget (hperm.mem_iff.mpr hmem)
                rw [hnone]
            | some x =>
                have hx := mem_of_mapGet hget
                obtain ⟨y, hy, hxy⟩ := (Json.same_obj.mp h).2 _ hx
                rw [hy, Option.map_some, Option.map_some, ih _ hx (hvalues _ hx) hxy]
      | _ => simp [Json.Same] at h

theorem length_rebuild {members : List (JsString × Json)}
    (hmembers : (members.map Prod.fst).Nodup) (hproto : protoKey ∉ members.map Prod.fst) :
    (rebuild members).length = members.length := by
  rw [(rebuild_perm hmembers).length_eq, List.filter_eq_self.mpr]
  intro p hp
  simp only [ne_eq, decide_eq_true_eq]
  intro hkey
  exact hproto (List.mem_map.mpr ⟨p, hp, hkey⟩)

theorem mapGet_rebuild {members : List (JsString × Json)}
    (hmembers : (members.map Prod.fst).Nodup) {key : JsString} (hkey : key ≠ protoKey) :
    mapGet (rebuild members) key = mapGet members key := by
  cases hget : mapGet members key with
  | none =>
      rw [mapGet_eq_none_iff] at hget ⊢
      intro hmem
      obtain ⟨p, hp, rfl⟩ := List.mem_map.mp hmem
      exact hget (List.mem_map.mpr ⟨p, ((mem_rebuild hmembers).mp hp).1, rfl⟩)
  | some v =>
      exact mapGet_eq_some_of_mem (enumerated_rebuild members).1
        ((mem_rebuild hmembers).mpr ⟨mem_of_mapGet hget, hkey⟩)

theorem forall₂_of_map_eq {xs ys : List Json}
    (hsame : ∀ x ∈ xs, ∀ y ∈ ys, sortValue x = sortValue y → x.Same y)
    (h : xs.map sortValue = ys.map sortValue) : List.Forall₂ Json.Same xs ys := by
  induction xs generalizing ys with
  | nil =>
      cases ys with
      | nil => exact List.Forall₂.nil
      | cons y ys => simp at h
  | cons x xs ih =>
      cases ys with
      | nil => simp at h
      | cons y ys =>
          simp only [List.map_cons, List.cons.injEq] at h
          refine List.Forall₂.cons (hsame x (by simp) y (by simp) h.1) (ih ?_ h.2)
          intro a ha b hb
          exact hsame a (List.mem_cons_of_mem _ ha) b (List.mem_cons_of_mem _ hb)

/-- Sorting is faithful on values without `__proto__` keys. -/
theorem same_of_sortValue_eq {v w : Json} (hv : v.Ordered) (hw : w.Ordered)
    (hvFree : ProtoFree v) (hwFree : ProtoFree w) (h : sortValue v = sortValue w) :
    v.Same w := by
  induction v using Json.induction generalizing w with
  | null => cases w <;> simp_all [Json.Same, sortValue]
  | bool b => cases w <;> simp_all [Json.Same, sortValue]
  | num x => cases w <;> simp_all [Json.Same, sortValue]
  | str s => cases w <;> simp_all [Json.Same, sortValue]
  | arr items ih =>
      cases w with
      | arr items' =>
          rw [sortValue_arr, sortValue_arr, Json.arr.injEq] at h
          rw [Json.ordered_arr] at hv hw
          rw [protoFree_arr] at hvFree hwFree
          rw [Json.same_arr]
          refine forall₂_of_map_eq (fun x hx y hy hxy ↦ ?_) h
          exact ih x hx (hv x hx) (hw y hy) (hvFree x hx) (hwFree y hy) hxy
      | _ => simp [sortValue] at h
  | obj members ih =>
      cases w with
      | obj members' =>
          rw [sortValue_obj, sortValue_obj, Json.obj.injEq] at h
          rw [Json.ordered_obj] at hv hw
          rw [protoFree_obj] at hvFree hwFree
          have hnodup := hv.1.1
          have hnodup' := hw.1.1
          have hproto := hvFree.1
          have hproto' := hwFree.1
          rw [← keys_map_sortValue] at hnodup hnodup' hproto hproto'
          rw [Json.same_obj]
          constructor
          · have hlen := length_rebuild hnodup hproto
            rw [h, length_rebuild hnodup' hproto'] at hlen
            simpa using hlen.symm
          · intro p hp
            have hkey : p.1 ≠ protoKey := by
              intro hkey
              exact hvFree.1 (List.mem_map.mpr ⟨p, hp, hkey⟩)
            have hget : mapGet members p.1 = some p.2 := mapGet_eq_some_of_mem hv.1.1 hp
            have hget' := mapGet_rebuild hnodup hkey
            rw [h, mapGet_rebuild hnodup' hkey, mapGet_map_sortValue, mapGet_map_sortValue, hget,
              Option.map_some] at hget'
            obtain ⟨w, hw', hsort⟩ := Option.map_eq_some_iff.mp hget'
            have hmem := mem_of_mapGet hw'
            exact ⟨w, hw', ih p hp (hv.2 p hp) (hw.2 _ hmem) (hvFree.2 p hp) (hwFree.2 _ hmem)
              hsort.symm⟩
      | _ => simp [sortValue] at h

/-- A value that its sorted form equals up to member order has no `__proto__`
key. -/
theorem protoFree_of_same_sortValue {v : Json} (hv : v.Ordered) (h : (sortValue v).Same v) :
    ProtoFree v := by
  induction v using Json.induction with
  | null => trivial
  | bool b => trivial
  | num x => trivial
  | str s => trivial
  | arr items ih =>
      rw [sortValue_arr, Json.same_arr, List.forall₂_map_left_iff, List.forall₂_same] at h
      rw [protoFree_arr]
      exact fun v hv' ↦ ih v hv' (Json.ordered_arr.mp hv v hv') (h v hv')
  | obj members ih =>
      obtain ⟨henum, hvalues⟩ := Json.ordered_obj.mp hv
      rw [sortValue_obj, Json.same_obj] at h
      have hnodup := henum.1
      rw [← keys_map_sortValue] at hnodup
      have hfree : ∀ p ∈ members, p.1 ≠ protoKey := by
        have hlen : ((members.map fun p ↦ (p.1, sortValue p.2)).filter
            fun p ↦ p.1 ≠ protoKey).length = (members.map fun p ↦ (p.1, sortValue p.2)).length := by
          rw [← (rebuild_perm hnodup).length_eq, h.1, List.length_map]
        rw [List.length_filter_eq_length_iff] at hlen
        intro p hp
        simpa using hlen _ (List.mem_map.mpr ⟨p, hp, rfl⟩)
      rw [protoFree_obj]
      refine ⟨?_, fun p hp ↦ ?_⟩
      · intro hmem
        obtain ⟨p, hp, hkey⟩ := List.mem_map.mp hmem
        exact hfree p hp hkey
      · have hsorted : (p.1, sortValue p.2) ∈
            rebuild (members.map fun p ↦ (p.1, sortValue p.2)) :=
          (mem_rebuild hnodup).mpr ⟨List.mem_map.mpr ⟨p, hp, rfl⟩, hfree p hp⟩
        obtain ⟨w, hw, hsame⟩ := h.2 _ hsorted
        rw [mapGet_eq_some_of_mem henum.1 hp, Option.some.injEq] at hw
        exact ih p hp (hvalues p hp) (hw ▸ hsame)

/-! ## Canonical texts -/

/-- A value that `JSON.parse` returns for some text. -/
def Parsed (v : Json) : Prop := ∃ text, Json.parse text = some v

theorem Parsed.ordered {v : Json} (h : Parsed v) : v.Ordered := by
  obtain ⟨text, htext⟩ := h
  exact Json.ordered_of_parse htext

/-- Every ordered value with plain numbers is the value of its own text. -/
theorem parsed_of_ordered {v : Json} (hv : v.Ordered) (hplain : v.PlainNumbers) : Parsed v :=
  ⟨v.stringify, Json.parse_stringify hv hplain⟩

theorem parse_canonicalJson {v : Json} (hv : v.Ordered) (hplain : v.PlainNumbers) :
    Json.parse (canonicalJson v) = some (sortValue v) :=
  Json.parse_stringify (ordered_sortValue hv) (plainNumbers_sortValue hv hplain)

theorem canonicalJson_eq_iff {v w : Json} (hv : v.Ordered) (hv' : v.PlainNumbers)
    (hw : w.Ordered) (hw' : w.PlainNumbers) :
    canonicalJson v = canonicalJson w ↔ sortValue v = sortValue w := by
  constructor
  · exact Json.stringify_injective (ordered_sortValue hv) (plainNumbers_sortValue hv hv')
      (ordered_sortValue hw) (plainNumbers_sortValue hw hw')
  · intro h
    rw [canonicalJson, canonicalJson, h]

/-- A value without `__proto__` keys equals its sorted form up to member order. -/
theorem sortValue_same {v : Json} (hv : v.Ordered) (hfree : ProtoFree v) :
    (sortValue v).Same v := by
  induction v using Json.induction with
  | null => trivial
  | bool b => rfl
  | num x => rfl
  | str s => rfl
  | arr items ih =>
      rw [sortValue_arr, Json.same_arr, List.forall₂_map_left_iff, List.forall₂_same]
      exact fun v hv' ↦ ih v hv' (Json.ordered_arr.mp hv v hv') (protoFree_arr.mp hfree v hv')
  | obj members ih =>
      obtain ⟨henum, hvalues⟩ := Json.ordered_obj.mp hv
      obtain ⟨hproto, hfree⟩ := protoFree_obj.mp hfree
      rw [sortValue_obj, Json.same_obj]
      constructor
      · rw [← keys_map_sortValue] at hproto
        rw [length_rebuild (by rw [keys_map_sortValue]; exact henum.1) hproto, List.length_map]
      · intro p hp
        obtain ⟨q, hq, rfl⟩ := exists_of_mem_sortValue henum.1 hp
        exact ⟨q.2, mapGet_eq_some_of_mem henum.1 hq, ih q hq (hvalues q hq) (hfree q hq)⟩

/-- `canonicalJson` identifies two parsed values exactly up to member order,
and both read back from their canonical texts, if and only if neither of them
has an own key `__proto__` at any depth. -/
theorem canonicalJson_exact_iff_protoFree {v w : Json} (hv : Parsed v) (hw : Parsed w)
    (hvPlain : v.PlainNumbers) (hwPlain : w.PlainNumbers) :
    ((canonicalJson v = canonicalJson w ↔ v.Same w) ∧
      (∃ u, Json.parse (canonicalJson v) = some u ∧ u.Same v) ∧
      (∃ u, Json.parse (canonicalJson w) = some u ∧ u.Same w)) ↔
    ProtoFree v ∧ ProtoFree w := by
  have hparse := parse_canonicalJson hv.ordered hvPlain
  have hparse' := parse_canonicalJson hw.ordered hwPlain
  constructor
  · rintro ⟨-, ⟨u, hu, hsame⟩, ⟨u', hu', hsame'⟩⟩
    obtain rfl := Option.some.inj (hparse.symm.trans hu)
    obtain rfl := Option.some.inj (hparse'.symm.trans hu')
    exact ⟨protoFree_of_same_sortValue hv.ordered hsame,
      protoFree_of_same_sortValue hw.ordered hsame'⟩
  · rintro ⟨hvFree, hwFree⟩
    refine ⟨?_, ⟨_, hparse, sortValue_same hv.ordered hvFree⟩,
      ⟨_, hparse', sortValue_same hw.ordered hwFree⟩⟩
    rw [canonicalJson_eq_iff hv.ordered hvPlain hw.ordered hwPlain]
    exact ⟨same_of_sortValue_eq hv.ordered hw.ordered hvFree hwFree,
      sortValue_eq_of_same hv.ordered⟩

theorem canonicalJson_exact_swapped :
    let v : Json := .obj [(js "b", .null), (js "a", .bool true)]
    let w : Json := .obj [(js "a", .bool true), (js "b", .null)]
    Parsed v ∧ Parsed w ∧ (canonicalJson v = canonicalJson w ↔ v.Same w) ∧
      (∃ u, Json.parse (canonicalJson v) = some u ∧ u.Same v) ∧
      (∃ u, Json.parse (canonicalJson w) = some u ∧ u.Same w) := by
  intro v w
  have hv : v.Ordered := by
    rw [Json.ordered_obj]
    refine ⟨by unfold Enumerated; decide, ?_⟩
    simp [Json.Ordered, Json.All]
  have hw : w.Ordered := by
    rw [Json.ordered_obj]
    refine ⟨by unfold Enumerated; decide, ?_⟩
    simp [Json.Ordered, Json.All]
  have hvPlain : v.PlainNumbers := by
    rw [Json.plainNumbers_obj]
    simp [Json.PlainNumbers, Json.All]
  have hwPlain : w.PlainNumbers := by
    rw [Json.plainNumbers_obj]
    simp [Json.PlainNumbers, Json.All]
  have hvFree : ProtoFree v := by
    rw [protoFree_obj]
    exact ⟨by decide, by simp [ProtoFree, Json.All]⟩
  have hwFree : ProtoFree w := by
    rw [protoFree_obj]
    exact ⟨by decide, by simp [ProtoFree, Json.All]⟩
  have hvParsed := parsed_of_ordered hv hvPlain
  have hwParsed := parsed_of_ordered hw hwPlain
  exact ⟨hvParsed, hwParsed, (canonicalJson_exact_iff_protoFree hvParsed hwParsed hvPlain
    hwPlain).mpr ⟨hvFree, hwFree⟩⟩

/-- `JSON.parse` gives the object its own key `__proto__`; the canonical text
is that of the empty object. -/
theorem canonicalJson_forgets_proto :
    let v : Json := .obj [(js "__proto__", .bool true)]
    Json.parse (js "\x7b\"__proto__\":true\x7d") = some v ∧
      Json.parse (js "\x7b\x7d") = some (.obj []) ∧
      canonicalJson v = canonicalJson (.obj []) ∧ ¬ v.Same (.obj []) ∧
      ¬ ∃ u, Json.parse (canonicalJson v) = some u ∧ u.Same v := by
  intro v
  have hv : v.Ordered := by
    rw [Json.ordered_obj]
    refine ⟨by unfold Enumerated; decide, ?_⟩
    simp [Json.Ordered, Json.All]
  have hvPlain : v.PlainNumbers := by
    rw [Json.plainNumbers_obj]
    simp [Json.PlainNumbers, Json.All]
  have hempty : (Json.obj []).Ordered := by simp [Enumerated]
  have hemptyPlain : (Json.obj []).PlainNumbers := by simp
  have htext : js "\x7b\"__proto__\":true\x7d" = v.stringify := by decide
  have hemptyText : js "\x7b\x7d" = (Json.obj []).stringify := by decide
  have hsort : sortValue v = .obj [] := by
    rw [sortValue_obj]
    rfl
  refine ⟨htext ▸ Json.parse_stringify hv hvPlain,
    hemptyText ▸ Json.parse_stringify hempty hemptyPlain, ?_, ?_, ?_⟩
  · rw [canonicalJson, hsort]
    rfl
  · simp [v]
  · rintro ⟨u, hu, hsame⟩
    rw [parse_canonicalJson hv hvPlain, hsort] at hu
    obtain rfl := Option.some.inj hu
    simp [v] at hsame

/-! ## Records with optional members -/

/-- The members that are present. -/
def presentMembers (fields : List (JsString × Option Json)) : List (JsString × Json) :=
  fields.filterMap fun field ↦ field.2.map (field.1, ·)

theorem keys_presentMembers_sublist (fields : List (JsString × Option Json)) :
    ((presentMembers fields).map Prod.fst).Sublist (fields.map Prod.fst) := by
  induction fields with
  | nil => simp [presentMembers]
  | cons field fields ih =>
      obtain ⟨key, value⟩ := field
      cases value with
      | none => exact ih.cons key
      | some v => exact ih.cons_cons key

theorem mapGet_presentMembers {fields : List (JsString × Option Json)}
    (hfields : (fields.map Prod.fst).Nodup) (key : JsString) :
    mapGet (presentMembers fields) key = (mapGet fields key).join := by
  induction fields with
  | nil => rfl
  | cons field fields ih =>
      obtain ⟨key', value⟩ := field
      obtain ⟨hkey', hfields⟩ := List.nodup_cons.mp hfields
      have htail := ih hfields
      cases value with
      | none =>
          rw [mapGet_cons]
          split
          · next heq =>
              have hnone : mapGet fields key = none :=
                mapGet_eq_none_iff.mpr (by simpa [heq] using hkey')
              rw [hnone] at htail
              exact htail
          · exact htail
      | some v =>
          change mapGet ((key', v) :: presentMembers fields) key = _
          rw [mapGet_cons, mapGet_cons, htail]
          split <;> rfl

theorem ordered_presentMembers {fields : List (JsString × Option Json)} (hfields : Enumerated fields)
    (hvalues : ∀ field ∈ fields, ∀ v ∈ field.2, v.Ordered) :
    (Json.obj (presentMembers fields)).Ordered := by
  have hsub := keys_presentMembers_sublist fields
  rw [Json.ordered_obj]
  refine ⟨⟨hfields.1.sublist hsub, hfields.2.sublist hsub⟩, ?_⟩
  intro p hp
  obtain ⟨field, hfield, hp⟩ := List.mem_filterMap.mp hp
  obtain ⟨v, hv, rfl⟩ := Option.map_eq_some_iff.mp hp
  exact hvalues field hfield v hv

theorem plainNumbers_presentMembers {fields : List (JsString × Option Json)}
    (hvalues : ∀ field ∈ fields, ∀ v ∈ field.2, v.PlainNumbers) :
    (Json.obj (presentMembers fields)).PlainNumbers := by
  rw [Json.plainNumbers_obj]
  intro p hp
  obtain ⟨field, hfield, hp⟩ := List.mem_filterMap.mp hp
  obtain ⟨v, hv, rfl⟩ := Option.map_eq_some_iff.mp hp
  exact hvalues field hfield v hv

/-- The members of the sorted record, key by key. -/
theorem mapGet_sortValue_record {fields : List (JsString × Option Json)}
    (hfields : (fields.map Prod.fst).Nodup) {key : JsString} (hkey : key ≠ protoKey) :
    mapGet (rebuild ((presentMembers fields).map fun p ↦ (p.1, sortValue p.2))) key =
      (mapGet fields key).join.map sortValue := by
  have hpresent : ((presentMembers fields).map Prod.fst).Nodup :=
    hfields.sublist (keys_presentMembers_sublist fields)
  rw [mapGet_rebuild (by rwa [keys_map_sortValue]) hkey, mapGet_map_sortValue,
    mapGet_presentMembers hfields]

/-- Two records over the same keys have the same canonical text only when they
agree, up to member order, in every field. -/
theorem fields_eq_of_sortValue_eq {fields fields' : List (JsString × Option Json)}
    (hkeys : fields.map Prod.fst = fields'.map Prod.fst) (hfields : Enumerated fields)
    (hproto : protoKey ∉ fields.map Prod.fst)
    (h : sortValue (.obj (presentMembers fields)) = sortValue (.obj (presentMembers fields'))) :
    fields.map (·.2.map sortValue) = fields'.map (·.2.map sortValue) := by
  have hnodup' : (fields'.map Prod.fst).Nodup := hkeys ▸ hfields.1
  have hread : ∀ fields : List (JsString × Option Json), (fields.map Prod.fst).Nodup →
      fields.map (·.2.map sortValue) =
        (fields.map Prod.fst).map fun key ↦ (mapGet fields key).join.map sortValue := by
    intro fields hnodup
    rw [List.map_map]
    refine List.map_congr_left fun field hfield ↦ ?_
    simp only [Function.comp_apply]
    rw [mapGet_eq_some_of_mem hnodup (k := field.1) (v := field.2) hfield]
    rfl
  rw [hread fields hfields.1, hread fields' hnodup', ← hkeys]
  refine List.map_congr_left fun key hmem ↦ ?_
  have hkey : key ≠ protoKey := fun heq ↦ hproto (heq ▸ hmem)
  rw [sortValue_obj, sortValue_obj] at h
  rw [← mapGet_sortValue_record hfields.1 hkey, ← mapGet_sortValue_record hnodup' hkey,
    Json.obj.inj h]

end TestIntelligence.Security
