import Mathlib.Data.List.Nodup
import Mathlib.Logic.Relation
import Mathlib.Tactic.Common

/-!
# Merkle trees

The digests of a level are combined in pairs to those of the next one, a last digest
without a partner with itself, until one is left.  Where `combine` is injective, two levels
with one root are equal or lie in one tree, the one above the other.
-/

namespace TestIntelligence.Trees

variable {δ : Type*} (combine : δ → δ → δ)

def pairUp : List δ → List δ
  | [] => []
  | [d] => [combine d d]
  | d :: e :: rest => combine d e :: pairUp rest

theorem length_pairUp (level : List δ) :
    (pairUp combine level).length = (level.length + 1) / 2 := by
  fun_induction pairUp combine level with
  | case1 => simp
  | case2 d => simp
  | case3 d e rest ih =>
      simp only [List.length_cons, ih]
      omega

def root : List δ → Option δ
  | [] => none
  | [d] => some d
  | d :: e :: rest => root (pairUp combine (d :: e :: rest))
termination_by level => level.length
decreasing_by
  rw [length_pairUp]
  simp only [List.length_cons]
  omega

/-- One level lies directly above another. -/
def Next (level next : List δ) : Prop := 2 ≤ level.length ∧ next = pairUp combine level

def Above : List δ → List δ → Prop := Relation.TransGen (Next combine)

variable {combine}

theorem root_pairUp {level : List δ} (h : 2 ≤ level.length) :
    root combine (pairUp combine level) = root combine level := by
  match level, h with
  | d :: e :: rest, _ => exact (root.eq_3 combine d e rest).symm

theorem root_eq_of_above {level upper : List δ} (h : Above combine level upper) :
    root combine upper = root combine level := by
  induction h with
  | single hnext =>
      obtain ⟨hlength, rfl⟩ := hnext
      exact root_pairUp hlength
  | tail _ hnext ih =>
      obtain ⟨hlength, rfl⟩ := hnext
      exact (root_pairUp hlength).trans ih

theorem mem_pairUp {level : List δ} {d : δ} (h : d ∈ pairUp combine level) :
    ∃ a ∈ level, ∃ b ∈ level, d = combine a b := by
  fun_induction pairUp combine level with
  | case1 => cases h
  | case2 e =>
      obtain rfl := List.mem_singleton.mp h
      exact ⟨e, List.mem_singleton_self e, e, List.mem_singleton_self e, rfl⟩
  | case3 e f rest ih =>
      rcases List.mem_cons.mp h with rfl | h
      · exact ⟨e, by simp, f, by simp, rfl⟩
      · obtain ⟨a, ha, b, hb, rfl⟩ := ih h
        exact ⟨a, by simp [ha], b, by simp [hb], rfl⟩

theorem Next.length_lt {level next : List δ} (h : Next combine level next) :
    next.length < level.length := by
  obtain ⟨hlength, rfl⟩ := h
  rw [length_pairUp]
  omega

theorem length_lt_of_above {level upper : List δ} (h : Above combine level upper) :
    upper.length < level.length := by
  induction h with
  | single hnext => exact hnext.length_lt
  | tail _ hnext ih => exact Nat.lt_trans hnext.length_lt ih

/-- What holds of the digests of a level and is kept by `combine` holds of the root. -/
theorem exists_root {P : δ → Prop} (hcombine : ∀ d e, P d → P e → P (combine d e))
    {level : List δ}
    (hlevel : ∀ d ∈ level, P d) (hne : level ≠ []) : ∃ d, root combine level = some d ∧ P d := by
  fun_induction root combine level with
  | case1 => exact absurd rfl hne
  | case2 d => exact ⟨d, rfl, hlevel d (List.mem_singleton_self d)⟩
  | case3 d e rest ih =>
      apply ih
      · intro a ha
        obtain ⟨b, hb, c, hc, rfl⟩ := mem_pairUp ha
        exact hcombine b c (hlevel b hb) (hlevel c hc)
      · simp [pairUp]

theorem root_eq_none_iff {level : List δ} : root combine level = none ↔ level = [] := by
  constructor
  · intro h
    by_contra hne
    have htrivial : ∀ d e : δ, True → True → (fun _ : δ ↦ True) (combine d e) :=
      fun _ _ _ _ ↦ trivial
    obtain ⟨d, hroot, -⟩ := exists_root htrivial (fun _ _ ↦ trivial) hne
    exact Option.some_ne_none d (hroot.symm.trans h)
  · rintro rfl
    exact root.eq_1 combine

/-! ## Levels without repeated digests -/

/-- On `D` the operation is injective, and it leads back to `D`. -/
structure Binding (combine : δ → δ → δ) (D : Set δ) : Prop where
  closed : ∀ d ∈ D, ∀ e ∈ D, combine d e ∈ D
  inj : ∀ d ∈ D, ∀ e ∈ D, ∀ d' ∈ D, ∀ e' ∈ D, combine d e = combine d' e' → d = d' ∧ e = e'

structure Level (D : Set δ) (level : List δ) : Prop where
  nodup : level.Nodup
  mem : ∀ d ∈ level, d ∈ D

variable {D : Set δ}

theorem Level.of_cons_cons {d e : δ} {rest : List δ} (h : Level D (d :: e :: rest)) :
    Level D rest :=
  ⟨(List.nodup_cons.mp (List.nodup_cons.mp h.nodup).2).2, fun a ha ↦ h.mem a (by simp [ha])⟩

theorem Level.pairUp {level : List δ} (h : Level D level) (hD : Binding combine D) :
    Level D (pairUp combine level) := by
  refine ⟨?_, fun d hd ↦ ?_⟩
  · fun_induction Trees.pairUp combine level with
    | case1 => exact List.nodup_nil
    | case2 d => exact List.nodup_singleton _
    | case3 d e rest ih =>
        refine List.nodup_cons.mpr ⟨fun hmem ↦ ?_, ih h.of_cons_cons⟩
        obtain ⟨a, ha, b, hb, heq⟩ := mem_pairUp hmem
        obtain ⟨rfl, -⟩ := hD.inj d (h.mem d (by simp)) e (h.mem e (by simp)) a
          (h.mem a (by simp [ha])) b (h.mem b (by simp [hb])) heq
        exact (List.nodup_cons.mp h.nodup).1 (List.mem_cons_of_mem e ha)
  · obtain ⟨a, ha, b, hb, rfl⟩ := mem_pairUp hd
    exact hD.closed a (h.mem a ha) b (h.mem b hb)

theorem Level.above {level upper : List δ} (h : Level D level) (hD : Binding combine D)
    (habove : Relation.ReflTransGen (Next combine) level upper) : Level D upper := by
  induction habove with
  | refl => exact h
  | tail _ hnext ih =>
      obtain ⟨-, rfl⟩ := hnext
      exact ih.pairUp hD

/-- A level is given by the next one: the last digest has a partner or not. -/
theorem pairUp_inj (hD : Binding combine D) {level level' : List δ} (h : Level D level)
    (h' : Level D level') (heq : pairUp combine level = pairUp combine level') :
    level = level' := by
  fun_induction pairUp combine level generalizing level' with
  | case1 =>
      match level' with
      | [] => rfl
      | [_] => cases heq
      | _ :: _ :: _ => cases heq
  | case2 d =>
      match level' with
      | [] => cases heq
      | [d'] =>
          obtain ⟨rfl, -⟩ := hD.inj d (h.mem d (by simp)) d (h.mem d (by simp)) d'
            (h'.mem d' (by simp)) d' (h'.mem d' (by simp)) (List.cons.inj heq).1
          rfl
      | d' :: e' :: rest' =>
          obtain ⟨rfl, rfl⟩ := hD.inj d (h.mem d (by simp)) d (h.mem d (by simp)) d'
            (h'.mem d' (by simp)) e' (h'.mem e' (by simp)) (List.cons.inj heq).1
          exact absurd h'.nodup (by simp)
  | case3 d e rest ih =>
      match level' with
      | [] => cases heq
      | [d'] =>
          obtain ⟨rfl, rfl⟩ := hD.inj d (h.mem d (by simp)) e (h.mem e (by simp)) d'
            (h'.mem d' (by simp)) d' (h'.mem d' (by simp)) (List.cons.inj heq).1
          exact absurd h.nodup (by simp)
      | d' :: e' :: rest' =>
          obtain ⟨hhead, htail⟩ := List.cons.inj heq
          obtain ⟨rfl, rfl⟩ := hD.inj d (h.mem d (by simp)) e (h.mem e (by simp)) d'
            (h'.mem d' (by simp)) e' (h'.mem e' (by simp)) hhead
          rw [ih h.of_cons_cons h'.of_cons_cons htail]

/-! ## Levels with one root -/

theorem eq_or_above_of_root_eq_some {level : List δ} {d : δ} (h : root combine level = some d) :
    level = [d] ∨ Above combine level [d] := by
  fun_induction root combine level with
  | case1 => cases h
  | case2 e => exact .inl (congrArg ([·]) (Option.some.inj h))
  | case3 e f rest ih =>
      have hnext : Next combine (e :: f :: rest) (pairUp combine (e :: f :: rest)) :=
        ⟨by simp, rfl⟩
      rcases ih h with heq | habove
      · exact .inr (heq ▸ .single hnext)
      · exact .inr (habove.head hnext)

theorem above_of_above_pairUp (hD : Binding combine D) {level level' : List δ}
    (h : Level D level) (h' : Level D level') (hlength : 2 ≤ level.length)
    (habove : Above combine (pairUp combine level) (pairUp combine level')) :
    Above combine level level' := by
  obtain ⟨mid, hmid, -, heq⟩ := Relation.TransGen.tail'_iff.mp habove
  obtain rfl : level' = mid := pairUp_inj hD h' ((h.pairUp hD).above hD hmid) heq
  exact .head' ⟨hlength, rfl⟩ hmid

theorem root_eq_iff (hD : Binding combine D) {level level' : List δ} (h : Level D level)
    (h' : Level D level') :
    root combine level = root combine level' ↔
      level = level' ∨ Above combine level level' ∨ Above combine level' level := by
  constructor
  · intro hroot
    fun_induction root combine level generalizing level' with
    | case1 => exact .inl (root_eq_none_iff.mp hroot.symm).symm
    | case2 d =>
        rcases eq_or_above_of_root_eq_some hroot.symm with rfl | habove
        · exact .inl rfl
        · exact .inr (.inr habove)
    | case3 d e rest ih =>
        match level' with
        | [] =>
            rw [← root.eq_3] at hroot
            exact absurd (root_eq_none_iff.mp (hroot.trans (root.eq_1 combine))) (by simp)
        | [d'] =>
            rw [← root.eq_3] at hroot
            rcases eq_or_above_of_root_eq_some (hroot.trans (root.eq_2 combine d')) with
              heq | habove
            · exact .inl heq
            · exact .inr (.inl habove)
        | d' :: e' :: rest' =>
            rw [root.eq_3] at hroot
            rcases ih (h.pairUp hD) (h'.pairUp hD) hroot with
              heq | habove | habove
            · exact .inl (pairUp_inj hD h h' heq)
            · exact .inr (.inl (above_of_above_pairUp hD h h' (by simp) habove))
            · exact .inr (.inr (above_of_above_pairUp hD h' h (by simp) habove))
  · rintro (rfl | habove | habove)
    · rfl
    · exact (root_eq_of_above habove).symm
    · exact root_eq_of_above habove

/-! ## The leaves below a root -/

theorem pairUp_mem (hD : Binding combine D) {level : List δ} (h : ∀ d ∈ level, d ∈ D) :
    ∀ d ∈ pairUp combine level, d ∈ D := by
  intro d hd
  obtain ⟨a, ha, b, hb, rfl⟩ := mem_pairUp hd
  exact hD.closed a (h a ha) b (h b hb)

/-- `d` is the second digest or one of those it is combined from, in any number of steps. -/
inductive Below (combine : δ → δ → δ) (D : Set δ) : δ → δ → Prop
  | refl (d : δ) : Below combine D d d
  | left {d a b : δ} (ha : a ∈ D) (hb : b ∈ D) (h : Below combine D d a) :
      Below combine D d (combine a b)
  | right {d a b : δ} (ha : a ∈ D) (hb : b ∈ D) (h : Below combine D d b) :
      Below combine D d (combine a b)

/-- A digest that is not combined from others. -/
structure IsLeaf (combine : δ → δ → δ) (D : Set δ) (d : δ) : Prop where
  mem : d ∈ D
  ne : ∀ a ∈ D, ∀ b ∈ D, d ≠ combine a b

theorem IsLeaf.below_iff {d e : δ} (he : IsLeaf combine D e) : Below combine D d e ↔ d = e := by
  constructor
  · intro h
    cases h with
    | refl => rfl
    | left ha hb => exact absurd rfl (he.ne _ ha _ hb)
    | right ha hb => exact absurd rfl (he.ne _ ha _ hb)
  · rintro rfl
    exact .refl d

theorem IsLeaf.below_combine_iff {d a b : δ} (hd : IsLeaf combine D d) (hD : Binding combine D)
    (ha : a ∈ D) (hb : b ∈ D) :
    Below combine D d (combine a b) ↔ Below combine D d a ∨ Below combine D d b := by
  constructor
  · intro h
    generalize hcombine : combine a b = e at h
    cases h with
    | refl => exact absurd hcombine.symm (hd.ne a ha b hb)
    | left ha' hb' h =>
        obtain ⟨rfl, -⟩ := hD.inj _ ha _ hb _ ha' _ hb' hcombine
        exact .inl h
    | right ha' hb' h =>
        obtain ⟨-, rfl⟩ := hD.inj _ ha _ hb _ ha' _ hb' hcombine
        exact .inr h
  · rintro (h | h)
    · exact .left ha hb h
    · exact .right ha hb h

theorem IsLeaf.exists_below_pairUp {d : δ} (hd : IsLeaf combine D d) (hD : Binding combine D)
    {level : List δ} (h : ∀ e ∈ level, e ∈ D) :
    (∃ e ∈ pairUp combine level, Below combine D d e) ↔ ∃ e ∈ level, Below combine D d e := by
  fun_induction pairUp combine level with
  | case1 => rfl
  | case2 a =>
      have ha := h a List.mem_cons_self
      simp [hd.below_combine_iff hD ha ha]
  | case3 a b rest ih =>
      have ha := h a (by simp)
      have hb := h b (by simp)
      have hrest := ih fun e he ↦ h e (by simp [he])
      simp [hd.below_combine_iff hD ha hb, hrest, or_assoc]

theorem IsLeaf.below_root {d r : δ} (hd : IsLeaf combine D d) (hD : Binding combine D)
    {level : List δ} (h : ∀ e ∈ level, e ∈ D) (hroot : root combine level = some r) :
    Below combine D d r ↔ ∃ e ∈ level, Below combine D d e := by
  fun_induction root combine level with
  | case1 => cases hroot
  | case2 a =>
      obtain rfl := Option.some.inj hroot
      simp
  | case3 a b rest ih => rw [ih (pairUp_mem hD h) hroot, hd.exists_below_pairUp hD h]

/-- The root determines the leaves, though not how often each of them occurs. -/
theorem mem_iff_of_root_eq (hD : Binding combine D) {level level' : List δ}
    (h : ∀ d ∈ level, IsLeaf combine D d) (h' : ∀ d ∈ level', IsLeaf combine D d)
    (hroot : root combine level = root combine level') (d : δ) : d ∈ level ↔ d ∈ level' := by
  cases hr : root combine level with
  | none =>
      have hlevel := root_eq_none_iff.mp hr
      have hlevel' := root_eq_none_iff.mp (hroot ▸ hr)
      rw [hlevel, hlevel']
  | some r =>
      have hmem : ∀ {level : List δ}, (∀ d ∈ level, IsLeaf combine D d) →
          root combine level = some r → IsLeaf combine D d → (d ∈ level ↔ Below combine D d r) := by
        intro level hleaves hr hd
        rw [hd.below_root hD (fun e he ↦ (hleaves e he).mem) hr]
        constructor
        · exact fun hmem ↦ ⟨d, hmem, .refl d⟩
        · rintro ⟨e, he, hbelow⟩
          exact (hleaves e he).below_iff.mp hbelow ▸ he
      constructor
      · exact fun hd ↦ (hmem h' (hroot ▸ hr) (h d hd)).mpr ((hmem h hr (h d hd)).mp hd)
      · exact fun hd ↦ (hmem h hr (h' d hd)).mpr ((hmem h' (hroot ▸ hr) (h' d hd)).mp hd)

end TestIntelligence.Trees
