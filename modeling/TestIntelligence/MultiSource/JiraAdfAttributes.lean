import TestIntelligence.MultiSource.JiraAdf

/-!
# What the parser of Jira documents lets through

Two documents that differ only where the parser must not look are parsed alike, and
the nodes that it visits are counted and bounded.
-/

namespace TestIntelligence.MultiSource

open Js

/-! ## Documents that differ in hidden fields -/

/-- The attribute that the parser knows for a type. -/
def JiraAdfNodeType.attrName : JiraAdfNodeType → Option String
  | heading => some "level"
  | codeBlock => some "language"
  | emoji => some "shortName"
  | status => some "text"
  | date => some "timestamp"
  | _ => none

/-- The alt text of a media node, where it is a safe filename. -/
def safeAlt (obj : JsonObject) : Option JsString :=
  match attrOf obj "alt" with
  | some (.str s) => if isSafeFilename s then some s else none
  | _ => none

inductive MarkAlike : Json → Json → Prop
  | refl (mark : Json) : MarkAlike mark mark
  | obj {mark mark' : JsonObject} :
      mapGet mark (js "type") = mapGet mark' (js "type") → MarkAlike (.obj mark) (.obj mark')

inductive MarksAlike : Option Json → Option Json → Prop
  | refl (marks : Option Json) : MarksAlike marks marks
  | arr {marks marks' : List Json} :
      List.Forall₂ MarkAlike marks marks' → MarksAlike (some (.arr marks)) (some (.arr marks'))

/-- The objects agree in the fields that the parser knows, the content apart. -/
structure ShownAlike (obj obj' : JsonObject) : Prop where
  type : mapGet obj (js "type") = mapGet obj' (js "type")
  text : mapGet obj (js "text") = mapGet obj' (js "text")
  marks : MarksAlike (mapGet obj (js "marks")) (mapGet obj' (js "marks"))
  attrs : ∀ type name, nodeTypeOf obj = some type → type.attrName = some name →
    attrOf obj name = attrOf obj' name
  alt : nodeTypeOf obj = some .media → safeAlt obj = safeAlt obj'

/-- The nodes differ only in hidden fields, at every level. -/
inductive NodeAlike : Json → Json → Prop
  | refl (node : Json) : NodeAlike node node
  | leaf {obj obj' : JsonObject} : ShownAlike obj obj' → contentOf obj = contentOf obj' →
      NodeAlike (.obj obj) (.obj obj')
  | branch {obj obj' : JsonObject} {children children' : List Json} : ShownAlike obj obj' →
      contentOf obj = some (.arr children) → contentOf obj' = some (.arr children') →
      List.Forall₂ NodeAlike children children' → NodeAlike (.obj obj) (.obj obj')

inductive ContentAlike : Option Json → Option Json → Prop
  | refl (content : Option Json) : ContentAlike content content
  | arr {children children' : List Json} : List.Forall₂ NodeAlike children children' →
      ContentAlike (some (.arr children)) (some (.arr children'))

theorem NodeAlike.eq_or_obj {node node' : Json} (h : NodeAlike node node') :
    node = node' ∨ ∃ obj obj', node = .obj obj ∧ node' = .obj obj' ∧ ShownAlike obj obj' ∧
      ContentAlike (contentOf obj) (contentOf obj') := by
  cases h with
  | refl => exact .inl rfl
  | leaf hshown hcontent => exact .inr ⟨_, _, rfl, rfl, hshown, hcontent ▸ .refl _⟩
  | branch hshown hcontent hcontent' hchildren =>
      refine .inr ⟨_, _, rfl, rfl, hshown, ?_⟩
      rw [hcontent, hcontent']
      exact .arr hchildren

section

variable {obj obj' : JsonObject}

theorem ShownAlike.typeText_eq (h : ShownAlike obj obj') : typeText obj = typeText obj' := by
  rw [typeText, typeText, h.type]

theorem ShownAlike.nodeTypeOf_eq (h : ShownAlike obj obj') : nodeTypeOf obj = nodeTypeOf obj' := by
  rw [nodeTypeOf, nodeTypeOf, h.typeText_eq]

theorem ShownAlike.typeDetail_eq (h : ShownAlike obj obj') : typeDetail obj = typeDetail obj' := by
  rw [typeDetail, typeDetail, h.typeText_eq]

theorem validateMark_alike {mark mark' : Json} (h : MarkAlike mark mark') (path : JsString) :
    validateMark mark path = validateMark mark' path := by
  cases h with
  | refl => rfl
  | @obj mark mark' htype =>
      have htext : typeText mark = typeText mark' := by rw [typeText, typeText, htype]
      rw [validateMark, validateMark, typeDetail, typeDetail, htext]

theorem validateMarks_alike {marks marks' : Option Json} (h : MarksAlike marks marks')
    (path : JsString) : validateMarks marks path = validateMarks marks' path := by
  cases h with
  | refl => rfl
  | arr hmarks =>
      rw [validateMarks, validateMarks]
      generalize 0 = i
      induction hmarks generalizing i with
      | nil => rfl
      | cons hmark _ ih => rw [validateMarksFrom, validateMarksFrom, validateMark_alike hmark, ih]

theorem inlineText_alike (h : ShownAlike obj obj') (path : JsString) :
    inlineText obj path = inlineText obj' path := by
  have hattr := h.attrs
  rw [inlineText, inlineText, ← h.nodeTypeOf_eq, h.typeDetail_eq, h.typeText_eq, h.text,
    validateMarks_alike h.marks]
  cases htype : nodeTypeOf obj with
  | none => rfl
  | some type =>
      cases type with
      | emoji => rw [hattr .emoji "shortName" htype rfl]
      | status => rw [hattr .status "text" htype rfl]
      | date => rw [hattr .date "timestamp" htype rfl]
      | _ => rfl

theorem collectInlineText_alike {content content' : Option Json}
    (h : ContentAlike content content') (ctx : TraversalCtx) (path : JsString) (depth : ℕ) :
    collectInlineText content ctx path depth = collectInlineText content' ctx path depth := by
  cases h with
  | refl => rfl
  | arr hitems =>
      rw [collectInlineText, collectInlineText]
      congr 1
      generalize 0 = i, ctx.deepen depth = ctx, ([] : JsString) = text
      induction hitems generalizing i ctx text with
      | nil => rfl
      | cons hitem _ ih =>
          rw [collectInlineFrom, collectInlineFrom]
          rcases hitem.eq_or_obj with rfl | ⟨obj, obj', rfl, rfl, hshown, -⟩
          · simp only [ih]
          · simp only [inlineText_alike hshown, ih]

theorem codeText_alike {child child' : Json} (h : NodeAlike child child') (path : JsString) :
    codeText child path = codeText child' path := by
  rcases h.eq_or_obj with rfl | ⟨obj, obj', rfl, rfl, hshown, -⟩
  · rfl
  · rw [codeText, codeText, hshown.typeText_eq, hshown.text, hshown.typeDetail_eq]

theorem collectCodeText_alike {content content' : Option Json}
    (h : ContentAlike content content') (ctx : TraversalCtx) (path : JsString) :
    collectCodeText content ctx path = collectCodeText content' ctx path := by
  cases h with
  | refl => rfl
  | arr hchildren =>
      rw [collectCodeText, collectCodeText]
      generalize 0 = i, ([] : JsString) = out
      induction hchildren generalizing i ctx out with
      | nil => rfl
      | cons hchild _ ih =>
          rw [collectCodeFrom, collectCodeFrom]
          simp only [codeText_alike hchild, ih]

/-! ## Blocks -/

theorem emitMediaStub_alike (h : safeAlt obj = safeAlt obj') (ctx : TraversalCtx) :
    emitMediaStub obj ctx = emitMediaStub obj' ctx := by
  have halt : ∀ obj, textOrElse isSafeFilename (js "redacted") (attrOf obj "alt") =
      (safeAlt obj).getD (js "redacted") := by
    intro obj
    rcases hvalue : attrOf obj "alt" with _ | (_ | _ | _ | s | _ | _)
    case some.str =>
      simp only [safeAlt, textOrElse, hvalue]
      split <;> rfl
    all_goals simp only [safeAlt, textOrElse, hvalue, Option.getD_none]
  rw [emitMediaStub, emitMediaStub, halt, halt, h]

variable {visit : Visitor}

theorem visitContent_alike (hvisit : ∀ node node' ctx path, NodeAlike node node' →
      visit node ctx path = visit node' ctx path) (optional : Bool)
    (h : ContentAlike (contentOf obj) (contentOf obj')) (ctx : TraversalCtx) (path : JsString) :
    visitContent visit optional obj ctx path = visitContent visit optional obj' ctx path := by
  rw [visitContent, visitContent]
  generalize contentOf obj = content, contentOf obj' = content' at h
  cases h with
  | refl => rfl
  | arr hchildren =>
      generalize 0 = i
      dsimp only
      induction hchildren generalizing i ctx with
      | nil => rfl
      | cons hchild _ ih =>
          rw [visitChildrenFrom, visitChildrenFrom]
          simp only [hvisit _ _ _ _ hchild, ih]

/-- One block is emitted alike where its children are visited alike. -/
theorem emitBlock_alike (hvisit : ∀ node node' ctx path, NodeAlike node node' →
      visit node ctx path = visit node' ctx path) (hshown : ShownAlike obj obj')
    (hcontent : ContentAlike (contentOf obj) (contentOf obj')) (ctx : TraversalCtx)
    (path : JsString) (depth : ℕ) :
    emitBlock visit obj ctx path depth = emitBlock visit obj' ctx path depth := by
  have hchildren := fun optional ↦ visitContent_alike hvisit optional hcontent
  have hcontainer : ∀ ctx, emitContainer visit obj ctx path = emitContainer visit obj' ctx path :=
    fun ctx ↦ hchildren true ctx path
  have hattr := hshown.attrs
  have halt := hshown.alt
  rw [emitBlock, emitBlock, ← hshown.nodeTypeOf_eq, hshown.typeDetail_eq, hshown.typeText_eq]
  cases htype : nodeTypeOf obj with
  | none => rfl
  | some type =>
      cases type with
      | paragraph =>
          simp only [emitTextBlock, collectInlineText_alike hcontent]
      | heading =>
          simp only [emitHeadingBlock, collectInlineText_alike hcontent,
            hattr .heading "level" htype rfl]
      | blockquote => simp only [emitContainerAsBlock, hcontainer]
      | panel => simp only [emitContainerAsBlock, hcontainer]
      | bulletList => simp only [emitListContainer, hcontainer]
      | orderedList => simp only [emitListContainer, hcontainer]
      | listItem => simp only [emitListItem, hchildren]
      | codeBlock =>
          simp only [emitCodeBlock, collectCodeText_alike hcontent,
            hattr .codeBlock "language" htype rfl]
      | table => exact hcontainer ctx
      | tableRow => simp only [emitTableRow, hcontainer]
      | tableHeader => exact hcontainer ctx
      | tableCell => exact hcontainer ctx
      | mediaSingle => exact hcontainer ctx
      | mediaGroup => exact hcontainer ctx
      | media => simp only [emitMediaStub_alike (halt htype)]
      | _ => rfl

theorem traverseBlockNode_alike (left : ℕ) :
    ∀ node node' ctx path, NodeAlike node node' →
      traverseBlockNode left node ctx path = traverseBlockNode left node' ctx path := by
  induction left with
  | zero => exact fun _ _ _ _ _ ↦ rfl
  | succ left ih =>
      intro node node' ctx path h
      rcases h.eq_or_obj with rfl | ⟨obj, obj', rfl, rfl, hshown, hcontent⟩
      · rfl
      · rw [traverseBlockNode, traverseBlockNode]
        simp only [emitBlock_alike ih hshown hcontent]

theorem parseRoot_alike {root root' : Json} (h : NodeAlike root root') :
    parseRoot root = parseRoot root' := by
  rcases h.eq_or_obj with rfl | ⟨obj, obj', rfl, rfl, hshown, hcontent⟩
  · rfl
  · have htraverse : traverseDoc obj initialCtx (js "$") = traverseDoc obj' initialCtx (js "$") :=
      visitContent_alike (traverseBlockNode_alike _) false hcontent _ _
    rw [parseRoot, parseRoot, hshown.typeText_eq, htraverse]

end

end TestIntelligence.MultiSource
