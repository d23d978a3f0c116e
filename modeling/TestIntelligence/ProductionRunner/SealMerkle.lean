import TestIntelligence.Js.Sorting
import TestIntelligence.Security.Digests
import TestIntelligence.Trees.MerkleTree

/-!
# The Merkle root of a seal

`computeMerkleRoot` hashes `reference:sha256` for a leaf and `left:right` for a pair of
nodes.  A leaf whose reference is a digest can thus stand for a pair of nodes; apart from
that the root determines the leaves.
-/

namespace TestIntelligence.ProductionRunner.Seal

open Js Security Trees

structure SealLeaf where
  reference : JsString
  sha256 : JsString
  deriving DecidableEq

section

variable (sha256 : Bytes → JsString) (localeCompare : JsString → JsString → ℤ)

def sha256Text (text : JsString) : JsString := sha256 (utf8Encode text)

def buildLeaves (pairs : List SealLeaf) : List SealLeaf :=
  sortBy (fun left right ↦ localeCompare left.reference right.reference) pairs

def colonText (left right : JsString) : JsString := left ++ 0x3A :: right

def leafDigest (leaf : SealLeaf) : JsString :=
  sha256Text sha256 (colonText leaf.reference leaf.sha256)

def pairDigest (left right : JsString) : JsString := sha256Text sha256 (colonText left right)

def computeMerkleRoot (leaves : List SealLeaf) : JsString :=
  (root (pairDigest sha256) (leaves.map (leafDigest sha256))).getD
    (sha256Text sha256 (js "ti-seal-empty"))

/-- The leaves of `upper` have the digests of a level above the leaves of `lower`. -/
def Respells (upper lower : List SealLeaf) : Prop :=
  Above (pairDigest sha256) (lower.map (leafDigest sha256)) (upper.map (leafDigest sha256))

end

/-! ## The texts that are hashed -/

theorem not_surrogate_of_isLowerHex {u : CodeUnit} (h : isLowerHex u = true) :
    isSurrogate u = false := by
  by_contra hsurrogate
  rw [Bool.not_eq_false, isSurrogate_iff] at hsurrogate
  simp only [isLowerHex, isDigit, Bool.or_eq_true, Bool.and_eq_true, decide_eq_true_eq,
    UInt16.le_iff_toNat_le] at h
  have h39 : (0x39 : CodeUnit).toNat = 0x39 := rfl
  have h66 : (0x66 : CodeUnit).toNat = 0x66 := rfl
  omega

theorem isWellFormed_of_hex {s : JsString} (h : s.all isLowerHex = true) :
    isWellFormed s = true :=
  isWellFormed_of_no_surrogate fun u hu ↦
    not_surrogate_of_isLowerHex (List.all_eq_true.mp h u hu)

theorem isWellFormed_colonText {left right : JsString} (hleft : isWellFormed left = true)
    (hright : right.all isLowerHex = true) : isWellFormed (colonText left right) = true :=
  isWellFormed_append hleft
    ((isWellFormed_cons (by decide) right).trans (isWellFormed_of_hex hright))

theorem colon_not_mem_of_hex {s : JsString} (h : s.all isLowerHex = true) : 0x3A ∉ s :=
  fun hmem ↦ absurd (List.all_eq_true.mp h _ hmem) (by decide)

theorem colonText_inj_of_hex {left right left' right' : JsString}
    (hleft : left.all isLowerHex = true) (hright : right.all isLowerHex = true) :
    colonText left right = colonText left' right' ↔ left = left' ∧ right = right' := by
  rw [colonText, colonText, List.append_cons_inj_of_notMem (colon_not_mem_of_hex hleft)
    (colon_not_mem_of_hex hright)]
  simp

theorem colonText_inj_of_length {left right left' right' : JsString}
    (hlength : right.length = right'.length) (h : colonText left right = colonText left' right') :
    left = left' ∧ right = right' := by
  obtain ⟨hleft, hright⟩ := List.append_inj' h (by simp [hlength])
  exact ⟨hleft, (List.cons.inj hright).2⟩

variable {sha256 : Bytes → JsString}

theorem sha256Text_inj (hinj : Function.Injective sha256) {s t : JsString}
    (hs : isWellFormed s = true) (ht : isWellFormed t = true)
    (h : sha256Text sha256 s = sha256Text sha256 t) : s = t :=
  (utf8Encode_inj hs ht).mp (hinj h)

/-- A pair is determined by its digest. -/
theorem binding_pairDigest (hinj : Function.Injective sha256)
    (hhex : ∀ bytes, (sha256 bytes).all isLowerHex = true) :
    Binding (pairDigest sha256) {d | d.all isLowerHex = true} where
  closed := fun d _ e _ ↦ hhex _
  inj := by
    intro d hd e he d' hd' e' he' h
    have htext := sha256Text_inj hinj (isWellFormed_colonText (isWellFormed_of_hex hd) he)
      (isWellFormed_colonText (isWellFormed_of_hex hd') he') h
    exact (colonText_inj_of_hex hd he).mp htext

/-! ## Leaves -/

structure Leaves (leaves : List SealLeaf) : Prop where
  distinct : (leaves.map (·.reference)).Nodup
  hashes : ∀ leaf ∈ leaves, isHexOfLength 64 leaf.sha256 = true

/-- No reference has a surrogate outside a pair. -/
def WellFormedReferences (leaves : List SealLeaf) : Prop :=
  ∀ leaf ∈ leaves, isWellFormed leaf.reference = true

variable {localeCompare : JsString → JsString → ℤ} {leaves leaves' : List SealLeaf}

theorem buildLeaves_perm (pairs : List SealLeaf) : (buildLeaves localeCompare pairs).Perm pairs :=
  sortBy_perm _ pairs

theorem Leaves.buildLeaves {pairs : List SealLeaf} (h : Leaves pairs) :
    Leaves (buildLeaves localeCompare pairs) where
  distinct := ((buildLeaves_perm pairs).map _).nodup_iff.mpr h.distinct
  hashes := fun leaf hleaf ↦ h.hashes leaf ((buildLeaves_perm pairs).mem_iff.mp hleaf)

theorem WellFormedReferences.buildLeaves {pairs : List SealLeaf} (h : WellFormedReferences pairs) :
    WellFormedReferences (buildLeaves localeCompare pairs) :=
  fun leaf hleaf ↦ h leaf ((buildLeaves_perm pairs).mem_iff.mp hleaf)

/-- What makes a leaf readable from its text. -/
def SealLeaf.Readable (leaf : SealLeaf) : Prop :=
  isWellFormed leaf.reference = true ∧ isHexOfLength 64 leaf.sha256 = true

theorem Leaves.readable (h : Leaves leaves) (hwf : WellFormedReferences leaves) :
    ∀ leaf ∈ leaves, leaf.Readable := fun leaf hleaf ↦ ⟨hwf leaf hleaf, h.hashes leaf hleaf⟩

theorem leafDigest_inj (hinj : Function.Injective sha256) {leaf leaf' : SealLeaf}
    (hleaf : leaf.Readable) (hleaf' : leaf'.Readable)
    (h : leafDigest sha256 leaf = leafDigest sha256 leaf') : leaf = leaf' := by
  obtain ⟨hwf, hhash⟩ := hleaf
  obtain ⟨hwf', hhash'⟩ := hleaf'
  rw [isHexOfLength, Bool.and_eq_true, beq_iff_eq] at hhash hhash'
  have htext := sha256Text_inj hinj (isWellFormed_colonText hwf hhash.2)
    (isWellFormed_colonText hwf' hhash'.2) h
  obtain ⟨href, hsha⟩ := colonText_inj_of_length (hhash.1.trans hhash'.1.symm) htext
  exact congrArg₂ SealLeaf.mk href hsha

theorem map_leafDigest_inj (hinj : Function.Injective sha256)
    (h : ∀ leaf ∈ leaves, leaf.Readable) (h' : ∀ leaf ∈ leaves', leaf.Readable)
    (heq : leaves.map (leafDigest sha256) = leaves'.map (leafDigest sha256)) :
    leaves = leaves' := by
  induction leaves generalizing leaves' with
  | nil => exact (List.map_eq_nil_iff.mp heq.symm).symm
  | cons leaf leaves ih =>
      cases leaves' with
      | nil => cases heq
      | cons leaf' leaves' =>
          obtain ⟨hhead, htail⟩ := List.cons.inj heq
          have hhead := leafDigest_inj hinj (h leaf List.mem_cons_self)
            (h' leaf' List.mem_cons_self) hhead
          rw [hhead, ih (fun l hl ↦ h l (List.mem_cons_of_mem leaf hl))
            (fun l hl ↦ h' l (List.mem_cons_of_mem leaf' hl)) htail]

theorem Leaves.level (hinj : Function.Injective sha256)
    (hhex : ∀ bytes, (sha256 bytes).all isLowerHex = true) (h : Leaves leaves)
    (hwf : WellFormedReferences leaves) :
    Level {d | d.all isLowerHex = true} (leaves.map (leafDigest sha256)) := by
  refine ⟨List.Nodup.map_on ?_ (List.Nodup.of_map _ h.distinct), fun d hd ↦ ?_⟩
  · intro leaf hleaf leaf' hleaf' heq
    exact leafDigest_inj hinj (h.readable hwf leaf hleaf) (h.readable hwf leaf' hleaf') heq
  · obtain ⟨leaf, -, rfl⟩ := List.mem_map.mp hd
    exact hhex _

/-! ## The root -/

/-- The digest of the empty list is that of no leaf and of no pair. -/
theorem sha256Text_colonText_ne_empty (hinj : Function.Injective sha256) {left right : JsString}
    (h : isWellFormed (colonText left right) = true) :
    sha256Text sha256 (colonText left right) ≠ sha256Text sha256 (js "ti-seal-empty") := by
  intro heq
  have htext := sha256Text_inj hinj h (by decide) heq
  have hcolon : (0x3A : CodeUnit) ∈ js "ti-seal-empty" := by
    rw [← htext]
    simp [colonText]
  exact absurd hcolon (by decide)

theorem root_ne_empty (hinj : Function.Injective sha256)
    (hhex : ∀ bytes, (sha256 bytes).all isLowerHex = true) (h : Leaves leaves)
    (hwf : WellFormedReferences leaves) :
    root (pairDigest sha256) (leaves.map (leafDigest sha256)) ≠
      some (sha256Text sha256 (js "ti-seal-empty")) := by
  by_cases hne : leaves = []
  · subst hne
    rw [List.map_nil, root_eq_none_iff.mpr rfl]
    exact (Option.some_ne_none _).symm
  · have hleaves : ∀ d ∈ leaves.map (leafDigest sha256),
        d.all isLowerHex = true ∧ d ≠ sha256Text sha256 (js "ti-seal-empty") := by
      intro d hd
      obtain ⟨leaf, hleaf, rfl⟩ := List.mem_map.mp hd
      have hhash := h.hashes leaf hleaf
      rw [isHexOfLength, Bool.and_eq_true] at hhash
      exact ⟨hhex _, sha256Text_colonText_ne_empty hinj
        (isWellFormed_colonText (hwf leaf hleaf) hhash.2)⟩
    have hpairs : ∀ d e : JsString,
        d.all isLowerHex = true ∧ d ≠ sha256Text sha256 (js "ti-seal-empty") →
        e.all isLowerHex = true ∧ e ≠ sha256Text sha256 (js "ti-seal-empty") →
        (pairDigest sha256 d e).all isLowerHex = true ∧
          pairDigest sha256 d e ≠ sha256Text sha256 (js "ti-seal-empty") :=
      fun d e hd he ↦ ⟨hhex _, sha256Text_colonText_ne_empty hinj
        (isWellFormed_colonText (isWellFormed_of_hex hd.1) he.1)⟩
    obtain ⟨d, hroot, -, hd⟩ := exists_root hpairs hleaves (by simpa using hne)
    rw [hroot]
    exact fun heq ↦ hd (Option.some.inj heq)

theorem getD_inj {α : Type*} {x y : Option α} {a : α} (hx : x ≠ some a) (hy : y ≠ some a) :
    x.getD a = y.getD a ↔ x = y := by
  cases x <;> cases y <;> simp_all [eq_comm]

theorem computeMerkleRoot_eq_iff (hinj : Function.Injective sha256)
    (hhex : ∀ bytes, (sha256 bytes).all isLowerHex = true) (h : Leaves leaves)
    (h' : Leaves leaves') (hwf : WellFormedReferences leaves)
    (hwf' : WellFormedReferences leaves') :
    computeMerkleRoot sha256 leaves = computeMerkleRoot sha256 leaves' ↔
      leaves = leaves' ∨ Respells sha256 leaves' leaves ∨ Respells sha256 leaves leaves' := by
  have hmap : leaves.map (leafDigest sha256) = leaves'.map (leafDigest sha256) ↔
      leaves = leaves' :=
    ⟨map_leafDigest_inj hinj (h.readable hwf) (h'.readable hwf'), congrArg _⟩
  rw [computeMerkleRoot, computeMerkleRoot,
    getD_inj (root_ne_empty hinj hhex h hwf) (root_ne_empty hinj hhex h' hwf'),
    root_eq_iff (binding_pairDigest hinj hhex) (h.level hinj hhex hwf) (h'.level hinj hhex hwf'),
    hmap]
  rfl

/-- Two lists in one tree have different lengths. -/
theorem Respells.ne (h : Respells sha256 leaves leaves') : leaves ≠ leaves' := by
  rintro rfl
  exact lt_irrefl _ (length_lt_of_above h)

theorem computeMerkleRoot_binds_iff (hinj : Function.Injective sha256)
    (hhex : ∀ bytes, (sha256 bytes).all isLowerHex = true) {pairs pairs' : List SealLeaf}
    (h : Leaves pairs) (h' : Leaves pairs') (hwf : WellFormedReferences pairs)
    (hwf' : WellFormedReferences pairs') :
    (computeMerkleRoot sha256 (buildLeaves localeCompare pairs) =
        computeMerkleRoot sha256 (buildLeaves localeCompare pairs') →
      buildLeaves localeCompare pairs = buildLeaves localeCompare pairs') ↔
    ¬ (Respells sha256 (buildLeaves localeCompare pairs') (buildLeaves localeCompare pairs) ∨
      Respells sha256 (buildLeaves localeCompare pairs) (buildLeaves localeCompare pairs')) := by
  rw [computeMerkleRoot_eq_iff hinj hhex h.buildLeaves h'.buildLeaves hwf.buildLeaves
    hwf'.buildLeaves]
  constructor
  · rintro hbinds (hrespells | hrespells)
    · exact hrespells.ne (hbinds (.inr (.inl hrespells))).symm
    · exact hrespells.ne (hbinds (.inr (.inr hrespells)))
  · rintro hnot (heq | hrespells)
    · exact heq
    · exact absurd hrespells hnot

/-! ## References that are no digests -/

/-- A list that names a file by anything but hexadecimal digits respells no tree. -/
theorem not_respells_of_name (hinj : Function.Injective sha256)
    (hhex : ∀ bytes, (sha256 bytes).all isLowerHex = true) (h : Leaves leaves)
    (hwf : WellFormedReferences leaves) {leaf : SealLeaf} (hleaf : leaf ∈ leaves)
    (hname : leaf.reference.all isLowerHex = false) : ¬ Respells sha256 leaves leaves' := by
  intro hrespells
  obtain ⟨mid, hmid, -, heq⟩ := Relation.TransGen.tail'_iff.mp hrespells
  have hmid : ∀ d ∈ mid, d.all isLowerHex = true := by
    induction hmid with
    | refl =>
        intro d hd
        obtain ⟨lower, -, rfl⟩ := List.mem_map.mp hd
        exact hhex _
    | tail _ hnext _ =>
        obtain ⟨-, rfl⟩ := hnext
        intro d hd
        obtain ⟨a, -, b, -, rfl⟩ := mem_pairUp hd
        exact hhex _
  have hdigest : leafDigest sha256 leaf ∈ pairUp (pairDigest sha256) mid := by
    rw [← heq]
    exact List.mem_map_of_mem hleaf
  obtain ⟨a, ha, b, hb, hpair⟩ := mem_pairUp hdigest
  have hhash := h.hashes leaf hleaf
  rw [isHexOfLength, Bool.and_eq_true] at hhash
  have htext := sha256Text_inj hinj
    (isWellFormed_colonText (isWellFormed_of_hex (hmid a ha)) (hmid b hb))
    (isWellFormed_colonText (hwf leaf hleaf) hhash.2) hpair.symm
  obtain ⟨hname', -⟩ := (colonText_inj_of_hex (hmid a ha) (hmid b hb)).mp htext
  exact absurd ((congrArg (List.all · isLowerHex) hname').symm.trans (hmid a ha)) (by simp [hname])

/-- Two leaves have the root of the one leaf that is made of their digests. -/
theorem computeMerkleRoot_pair (left right : SealLeaf) :
    computeMerkleRoot sha256 [left, right] =
      computeMerkleRoot sha256 [⟨leafDigest sha256 left, leafDigest sha256 right⟩] := by
  simp only [computeMerkleRoot, List.map_cons, List.map_nil, root, pairUp]
  rfl

/-! ## Two artifacts -/

def leafA : SealLeaf :=
  ⟨js "a.json", hexText 64 0x44136fa355b3678a1146ad16f7e8649e94fb4fc21fe77e8310c060f61caaff8a⟩

def leafB : SealLeaf :=
  ⟨js "b.json", hexText 64 0x4f53cda18c2baa0c0354bb5f9a3ecbe5ed12ab4d8e11ba873c2f11161202b945⟩

def digestA : JsString :=
  hexText 64 0x6d41f74a09d0605356b142c0d77f845f56ebcc81782bcb297bac60b04978909e

def digestB : JsString :=
  hexText 64 0xac2f7ebc21c9a973178913bca4e322ea07ef8bf88f7a6c8f055b6b2e79c354eb

def digestTable : List (Bytes × JsString) :=
  [(utf8Encode (colonText leafA.reference leafA.sha256), digestA),
    (utf8Encode (colonText leafB.reference leafB.sha256), digestB),
    (utf8Encode (colonText digestA digestB),
      hexText 64 0x73ba493e247b018a92af78d05b207039719ebbaad1dcb409c080574772d5b2fd)]

theorem isDigestTable_digestTable : IsDigestTable digestTable :=
  ⟨by decide, by decide⟩

theorem leaves_two : Leaves [leafA, leafB] := ⟨by decide, by decide⟩

theorem leaves_digests : Leaves [⟨digestA, digestB⟩] := ⟨by decide, by decide⟩

theorem computeMerkleRoot_binds_named :
    computeMerkleRoot (tabledSha256 digestTable) (buildLeaves codeUnitCompare [leafA, leafB]) ≠
      computeMerkleRoot (tabledSha256 digestTable) (buildLeaves codeUnitCompare [leafA]) := by
  have hone : Leaves [leafA] := ⟨by decide, by decide⟩
  have hwf : WellFormedReferences [leafA, leafB] := by
    unfold WellFormedReferences
    decide
  have hwf' : WellFormedReferences [leafA] := fun leaf hleaf ↦ hwf leaf (by simp_all)
  have hinj := tabledSha256_injective isDigestTable_digestTable
  have hhex := all_tabledSha256 isDigestTable_digestTable
  have hname : leafA.reference.all isLowerHex = false := by decide
  intro heq
  have hlists := (computeMerkleRoot_binds_iff hinj hhex leaves_two hone hwf hwf').mpr ?_ heq
  · exact absurd (congrArg List.length hlists) (by decide)
  · rintro (hrespells | hrespells)
    · exact not_respells_of_name hinj hhex hone.buildLeaves hwf'.buildLeaves
        ((buildLeaves_perm _).mem_iff.mpr (by simp)) hname hrespells
    · exact not_respells_of_name hinj hhex leaves_two.buildLeaves hwf.buildLeaves
        ((buildLeaves_perm _).mem_iff.mpr (by simp)) hname hrespells

/-- The root of `a.json` and `b.json` is also that of a file named by a digest. -/
theorem computeMerkleRoot_respelled :
    ¬ ∀ pairs pairs', Leaves pairs → Leaves pairs' →
      computeMerkleRoot (tabledSha256 digestTable) (buildLeaves codeUnitCompare pairs) =
        computeMerkleRoot (tabledSha256 digestTable) (buildLeaves codeUnitCompare pairs') →
      buildLeaves codeUnitCompare pairs = buildLeaves codeUnitCompare pairs' := by
  intro hbinds
  have htwo : buildLeaves codeUnitCompare [leafA, leafB] = [leafA, leafB] := by decide
  have hA : leafDigest (tabledSha256 digestTable) leafA = digestA := by decide
  have hB : leafDigest (tabledSha256 digestTable) leafB = digestB := by decide
  have hlists := hbinds [leafA, leafB] [⟨digestA, digestB⟩] leaves_two leaves_digests (by
    rw [htwo, computeMerkleRoot_pair, hA, hB]
    rfl)
  exact absurd (congrArg List.length hlists) (by decide)

end TestIntelligence.ProductionRunner.Seal
