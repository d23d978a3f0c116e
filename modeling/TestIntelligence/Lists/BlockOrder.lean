import TestIntelligence.Lists.FirstOccurrences
import TestIntelligence.Lists.StableSorting

/-!
# Blocks of items, kept once by their key and sorted

The items of the blocks are put together, the first one of each key is kept, and the kept
items are sorted.  The order of the blocks does not matter exactly if no two blocks begin
with different items among those of one key or of two keys that tie.
-/

namespace TestIntelligence.Lists

section

variable {α κ : Type*} [DecidableEq κ] (r : α → α → Prop) (key : α → κ)

def collected [DecidableRel r] (blocks : List (List α)) : List α :=
  (firstsBy key blocks.flatten).insertionSort r

/-- Of the items with the key of one of two items, the first one of a block is the first. -/
def Leads (block : List α) (a b : α) : Prop :=
  block.find? (fun x ↦ key x = key a ∨ key x = key b) = some a

/-- Where two blocks lead with two items of one key, or with two that tie, these are the same. -/
def BlockFree (blocks : List (List α)) : Prop :=
  ∀ block ∈ blocks, ∀ block' ∈ blocks, ∀ a b, (key a = key b ∨ r a b ∧ r b a) →
    Leads key block a b → Leads key block' b a → a = b

variable {r key}

/-- What leads two keys is the first item of its own. -/
theorem Leads.find?_self {block : List α} {a b : α} (h : Leads key block a b) :
    block.find? (fun x ↦ key x = key a) = some a := by
  induction block with
  | nil => cases h
  | cons x block ih =>
      rw [Leads] at h
      by_cases hx : key x = key a ∨ key x = key b
      · rw [List.find?_cons_of_pos (by simpa using hx)] at h
        obtain rfl := Option.some.inj h
        exact List.find?_cons_of_pos (by simp)
      · rw [List.find?_cons_of_neg (by simpa using hx)] at h
        rw [List.find?_cons_of_neg (by simpa using fun heq ↦ hx (Or.inl heq))]
        exact ih h

theorem leads_self {block : List α} {a : α} (h : block.find? (fun x ↦ key x = key a) = some a) :
    Leads key block a a := by
  simpa only [Leads, or_self] using h

theorem leads_of_key_eq {block : List α} {a b : α} (hkey : key a = key b) :
    Leads key block a b ↔ Leads key block a a := by
  rw [Leads, Leads, hkey]

/-- What leads a block leads every list that begins with it. -/
theorem Leads.append {block : List α} {a b : α} (h : Leads key block a b) (rest : List α) :
    Leads key (block ++ rest) a b := by
  rw [Leads, List.find?_append, show block.find? _ = some a from h]
  rfl

/-- What leads a list made of blocks leads one of the blocks. -/
theorem Leads.exists_block {blocks : List (List α)} {a b : α}
    (h : Leads key blocks.flatten a b) : ∃ block ∈ blocks, Leads key block a b := by
  rw [Leads, List.find?_flatten] at h
  exact List.exists_of_findSome?_eq_some h

/-- The first occurrences of two keys stand in the order in which they are found. -/
theorem pair_sublist_firstsBy {xs : List α} {a b : α} (hab : Leads key xs a b)
    (hb : xs.find? (fun x ↦ key x = key b) = some b) (hne : key a ≠ key b) :
    [a, b].Sublist (firstsBy key xs) := by
  induction xs with
  | nil => cases hb
  | cons x xs ih =>
      rw [Leads] at hab
      by_cases hxb : key x = key b
      · rw [List.find?_cons_of_pos (by simp [hxb])] at hab
        exact absurd (Option.some.inj hab ▸ hxb) hne
      rw [List.find?_cons_of_neg (by simpa using hxb)] at hb
      by_cases hxa : key x = key a
      · rw [List.find?_cons_of_pos (by simp [hxa])] at hab
        obtain rfl := Option.some.inj hab
        refine List.Sublist.cons_cons x (List.singleton_sublist.mpr (List.mem_filter.mpr ?_))
        exact ⟨mem_firstsBy_of_find? hb, by simpa using fun h ↦ hne h.symm⟩
      · rw [List.find?_cons_of_neg (by simp [hxa, hxb])] at hab
        have hrest := (ih hab hb).filter fun y ↦ decide (key y ≠ key x)
        rw [List.filter_cons_of_pos (by simpa using fun h ↦ hxa h.symm),
          List.filter_cons_of_pos (by simpa using fun h ↦ hxb h.symm), List.filter_nil] at hrest
        exact hrest.cons x

/-- Every item that is kept leads those kept behind it. -/
theorem pairwise_leads_firstsBy (xs : List α) :
    (firstsBy key xs).Pairwise fun a b ↦ Leads key xs a b := by
  induction xs with
  | nil => exact List.Pairwise.nil
  | cons x xs ih =>
      refine List.pairwise_cons.mpr ⟨fun b _ ↦ List.find?_cons_of_pos (by simp), ?_⟩
      refine (ih.filter _).imp_of_mem fun ha hb h ↦ ?_
      have hxa := of_decide_eq_true (List.mem_filter.mp ha).2
      have hxb := of_decide_eq_true (List.mem_filter.mp hb).2
      rw [Leads, List.find?_cons_of_neg (by simp [Ne.symm hxa, Ne.symm hxb])]
      exact h

theorem nodup_firstsBy (xs : List α) : (firstsBy key xs).Nodup :=
  (nodup_keys_firstsBy key xs).of_map key

theorem eq_of_mem_firstsBy {xs : List α} {a b : α} (ha : a ∈ firstsBy key xs)
    (hb : b ∈ firstsBy key xs) (hkey : key a = key b) : a = b :=
  List.inj_on_of_nodup_map (nodup_keys_firstsBy key xs) ha hb hkey

/-- Without a conflict between the blocks their order has no say in what is kept. -/
theorem BlockFree.mem_firstsBy {blocks blocks' : List (List α)} (h : BlockFree r key blocks)
    (hperm : blocks.Perm blocks') {a : α} (ha : a ∈ firstsBy key blocks.flatten) :
    a ∈ firstsBy key blocks'.flatten := by
  have hmem : a ∈ blocks'.flatten :=
    hperm.flatten.mem_iff.mp ((firstsBy_sublist key _).subset ha)
  obtain ⟨b, hb, hkey⟩ : ∃ b ∈ firstsBy key blocks'.flatten, key b = key a :=
    exists_mem_firstsBy hmem
  obtain ⟨block, hblock, hleads⟩ := (leads_self (find?_of_mem_firstsBy ha)).exists_block
  obtain ⟨block', hblock', hleads'⟩ := (leads_self (find?_of_mem_firstsBy hb)).exists_block
  have heq := h block hblock block' (hperm.mem_iff.mpr hblock') a b (Or.inl hkey.symm)
    ((leads_of_key_eq hkey.symm).mpr hleads) ((leads_of_key_eq hkey).mpr hleads')
  exact heq ▸ hb

variable [DecidableRel r] [Std.Total r] [IsTrans α r]

theorem BlockFree.collected_eq {blocks blocks' : List (List α)} (h : BlockFree r key blocks)
    (hperm : blocks.Perm blocks') : collected r key blocks' = collected r key blocks := by
  have h' : BlockFree r key blocks' := fun block hblock block' hblock' ↦
    h block (hperm.mem_iff.mpr hblock) block' (hperm.mem_iff.mpr hblock')
  have hkept : (firstsBy key blocks'.flatten).Perm (firstsBy key blocks.flatten) := by
    rw [List.perm_ext_iff_of_nodup (nodup_firstsBy _) (nodup_firstsBy _)]
    exact fun a ↦ ⟨h'.mem_firstsBy hperm.symm, h.mem_firstsBy hperm⟩
  have hstable : ∀ list : List (List α), (∀ block ∈ list, block ∈ blocks) →
      Stable r (fun a b ↦ ∃ block ∈ blocks, Leads key block a b) (collected r key list) := by
    intro list hlist
    apply stable_insertionSort
    refine (pairwise_leads_firstsBy _).imp fun hleads ↦ ?_
    obtain ⟨block, hblock, hleads⟩ := hleads.exists_block
    exact ⟨block, hlist block hblock, hleads⟩
  refine (hstable blocks' fun block ↦ hperm.mem_iff.mpr).eq_of_perm
    (hstable blocks fun _ hblock ↦ hblock) ?_ ?_
  · rintro a - b - hab hba ⟨block, hblock, hleads⟩ ⟨block', hblock', hleads'⟩
    exact h block hblock block' hblock' a b (Or.inr ⟨hab, hba⟩) hleads hleads'
  · exact (List.perm_insertionSort r _).trans (hkept.trans (List.perm_insertionSort r _).symm)

/-- The order of the blocks does not matter exactly if they are free of conflicts. -/
theorem blockFree_iff {blocks : List (List α)} : BlockFree r key blocks ↔
    ∀ blocks', blocks.Perm blocks' → collected r key blocks' = collected r key blocks := by
  refine ⟨fun h blocks' hperm ↦ h.collected_eq hperm, fun h ↦ ?_⟩
  intro block hblock block' hblock' a b htie hleads hleads'
  by_contra hne
  have hblocks : block ≠ block' := by
    rintro rfl
    rw [Leads] at hleads hleads'
    simp only [or_comm (a := key _ = key b)] at hleads'
    exact hne (Option.some.inj (hleads.symm.trans hleads'))
  obtain ⟨rest, hrest⟩ := exists_perm_cons_cons hblock hblock' hblocks
  have hswap : (block' :: block :: rest).Perm blocks :=
    (List.Perm.swap block block' rest).trans hrest
  have heq := (h _ hrest.symm).trans (h _ hswap.symm).symm
  have hfirst : Leads key (block :: block' :: rest).flatten a b := hleads.append _
  have hsecond : Leads key (block' :: block :: rest).flatten b a := hleads'.append _
  have hkept := (List.perm_insertionSort r _).symm.trans
    ((List.Perm.of_eq heq).trans (List.perm_insertionSort r _))
  have ha := mem_firstsBy_of_find? hfirst.find?_self
  have hb := mem_firstsBy_of_find? hsecond.find?_self
  by_cases hkey : key a = key b
  · exact hne (eq_of_mem_firstsBy ha (hkept.mem_iff.mpr hb) hkey)
  · obtain ⟨hle, hge⟩ := htie.resolve_left hkey
    have hab := pair_sublist_firstsBy hfirst (find?_of_mem_firstsBy (hkept.mem_iff.mpr hb)) hkey
    have hba := pair_sublist_firstsBy hsecond (find?_of_mem_firstsBy (hkept.mem_iff.mp ha))
      (Ne.symm hkey)
    exact insertionSort_ne_of_swapped (nodup_firstsBy _) (nodup_firstsBy _) hab hba hne hle hge heq

end

end TestIntelligence.Lists
