import TestIntelligence.MultiSource.JiraAdfAttributes
import TestIntelligence.Js.Outcome

/-!
# The bounds on a Jira document

The nodes that the parser visits are those below the content of the nodes whose types
have content.  An accepted document has at most 5000 of them, and none that stands
deeper than 32 levels, except for the text of a code block on the last level.
-/

namespace TestIntelligence.MultiSource

open Js

def JiraAdfNodeType.hasContent : JiraAdfNodeType → Bool
  | doc | rule | media | text | hardBreak | mention | emoji | inlineCard | status | date => false
  | _ => true

def itemsOfContent : Option Json → List Json
  | some (.arr items) => items
  | _ => []

/-- The children that the parser visits. -/
def childrenOf : Json → List Json
  | .obj obj => if (nodeTypeOf obj).any (·.hasContent) then itemsOfContent (contentOf obj) else []
  | _ => []

theorem sizeOf_lt_of_mapGet {obj : JsonObject} {key : JsString} {value : Json}
    (h : mapGet obj key = some value) : sizeOf value < sizeOf obj := by
  induction obj with
  | nil => cases h
  | cons member obj ih =>
      obtain ⟨key', value'⟩ := member
      rw [mapGet_cons] at h
      split at h
      · obtain rfl := Option.some.inj h
        simp
        omega
      · have hlt := ih h
        simp
        omega

theorem sizeOf_lt_of_mem_childrenOf {node child : Json} (h : child ∈ childrenOf node) :
    sizeOf child < sizeOf node := by
  cases node with
  | obj obj =>
      rw [childrenOf] at h
      split at h
      · rcases hcontent : contentOf obj with _ | (_ | _ | _ | _ | items | _)
        case some.arr =>
          rw [hcontent] at h
          have hitem : sizeOf child < sizeOf items := List.sizeOf_lt_of_mem h
          have hitems := sizeOf_lt_of_mapGet hcontent
          simp at hitems ⊢
          omega
        all_goals
          rw [hcontent] at h
          cases h
      · cases h
  | _ => cases h

/-- The visited nodes from a node at a depth on, each with its depth. -/
def visited (depth : ℕ) (node : Json) : List (ℕ × Json) :=
  (depth, node) :: (childrenOf node).attach.flatMap fun child ↦ visited (depth + 1) child.val
termination_by sizeOf node
decreasing_by exact sizeOf_lt_of_mem_childrenOf child.property

theorem visited_eq (depth : ℕ) (node : Json) :
    visited depth node = (depth, node) :: (childrenOf node).flatMap (visited (depth + 1)) := by
  rw [visited]
  congr 1
  conv_rhs => rw [← List.attach_map_subtype_val (childrenOf node), List.flatMap_map]

/-- The nodes of a document, its root excluded. -/
def visitedNodes : Json → List (ℕ × Json)
  | .obj root => (itemsOfContent (contentOf root)).flatMap (visited 1)
  | _ => []

/-- A code block with children on the last level. -/
def IsCodeBlockAtLimit (p : ℕ × Json) : Prop :=
  p.1 = maxJiraAdfDepth ∧ childrenOf p.2 ≠ [] ∧
    ∃ obj, p.2 = .obj obj ∧ nodeTypeOf obj = some .codeBlock

/-- Nodes below the depth limit only under a code block on the last level. -/
def Shallow (nodes : List (ℕ × Json)) : Prop :=
  ∀ p ∈ nodes, p.1 ≤ maxJiraAdfDepth ∨ ∃ parent ∈ nodes, IsCodeBlockAtLimit parent

/-- The context after `n` more nodes. -/
structure Counted (n : ℕ) (ctx ctx' : TraversalCtx) : Prop where
  nodes : ctx'.nodeCount = ctx.nodeCount + n
  limit : ctx.nodeCount ≤ maxJiraAdfNodeCount → ctx'.nodeCount ≤ maxJiraAdfNodeCount
  depth : ctx.maxDepth ≤ maxJiraAdfDepth → ctx'.maxDepth ≤ maxJiraAdfDepth

/-! ## Counting -/

theorem Counted.refl (ctx : TraversalCtx) : Counted 0 ctx ctx := ⟨rfl, id, id⟩

theorem Counted.trans {n n' : ℕ} {ctx ctx' ctx'' : TraversalCtx} (h : Counted n ctx ctx')
    (h' : Counted n' ctx' ctx'') : Counted (n + n') ctx ctx'' where
  nodes := by rw [h'.nodes, h.nodes, Nat.add_assoc]
  limit := h'.limit ∘ h.limit
  depth := h'.depth ∘ h.depth

theorem counted_of_countNode {ctx ctx' : TraversalCtx} {path : JsString}
    (h : countNode ctx path = .ok ctx') : Counted 1 ctx ctx' := by
  rw [countNode] at h
  split at h
  · cases h
  · next hlimit =>
      obtain rfl := Except.ok.inj h
      exact ⟨rfl, fun _ ↦ not_lt.mp hlimit, id⟩

theorem counted_deepen (ctx : TraversalCtx) {depth : ℕ} (h : depth ≤ maxJiraAdfDepth) :
    Counted 0 ctx (ctx.deepen depth) := ⟨rfl, id, fun hctx ↦ max_le hctx h⟩

theorem Counted.emit {n : ℕ} {ctx ctx' : TraversalCtx} (h : Counted n ctx ctx')
    (block : JiraAdfBlock) (text : JsString) : Counted n ctx (ctx'.emit block text) :=
  ⟨h.nodes, h.limit, h.depth⟩

theorem shallow_nil : Shallow [] := by
  intro node hnode
  cases hnode

theorem Shallow.append {nodes nodes' : List (ℕ × Json)} (h : Shallow nodes)
    (h' : Shallow nodes') : Shallow (nodes ++ nodes') := by
  intro p hp
  rcases List.mem_append.mp hp with hp | hp
  · exact (h p hp).imp_right fun ⟨parent, hparent, hlimit⟩ ↦
      ⟨parent, List.mem_append_left _ hparent, hlimit⟩
  · exact (h' p hp).imp_right fun ⟨parent, hparent, hlimit⟩ ↦
      ⟨parent, List.mem_append_right _ hparent, hlimit⟩

theorem shallow_singleton {depth : ℕ} (h : depth ≤ maxJiraAdfDepth) (node : Json) :
    Shallow [(depth, node)] := by
  intro p hp
  obtain rfl := List.mem_singleton.mp hp
  exact .inl h

theorem childrenOf_of_type {obj : JsonObject} {type : JiraAdfNodeType}
    (h : nodeTypeOf obj = some type) :
    childrenOf (.obj obj) = if type.hasContent then itemsOfContent (contentOf obj) else [] := by
  rw [childrenOf, h, Option.any_some]

theorem childrenOf_of_inlineText {obj : JsonObject} {path text : JsString}
    (h : inlineText obj path = .ok text) : childrenOf (.obj obj) = [] := by
  rw [inlineText] at h
  cases htype : nodeTypeOf obj with
  | none =>
      rw [htype] at h
      cases h
  | some type =>
      rw [htype] at h
      rw [childrenOf_of_type htype]
      cases type
      all_goals first | rfl | cases h

theorem childrenOf_of_codeText {child : Json} {path text : JsString}
    (h : codeText child path = .ok text) : childrenOf child = [] := by
  cases child with
  | obj obj =>
      rw [codeText] at h
      split at h
      · next htext =>
          have htype : nodeTypeOf obj = some .text := by
            rw [nodeTypeOf, htext]
            decide
          exact (childrenOf_of_type htype).trans rfl
      · cases h
  | _ => rfl

theorem visited_of_childless {node : Json} (h : childrenOf node = []) (depth : ℕ) :
    visited depth node = [(depth, node)] := by
  rw [visited_eq, h, List.flatMap_nil]

theorem collectInlineFrom_spec {path : JsString} {items : List Json} :
    ∀ {i : ℕ} {ctx ctx' : TraversalCtx} {text text' : JsString},
      collectInlineFrom path i items ctx text = .ok (ctx', text') →
      Counted items.length ctx ctx' ∧ ∀ item ∈ items, childrenOf item = [] := by
  induction items with
  | nil =>
      intro i ctx ctx' text text' h
      obtain ⟨rfl, -⟩ := Prod.mk.inj (Except.ok.inj h)
      exact ⟨.refl ctx, nofun⟩
  | cons item items ih =>
      intro i ctx ctx' text text' h
      rw [collectInlineFrom] at h
      obtain ⟨counted, hcounted, h⟩ := bind_eq_ok h
      cases item with
      | obj obj =>
          obtain ⟨added, hadded, h⟩ := bind_eq_ok h
          obtain ⟨hrest, hchildless⟩ := ih h
          refine ⟨?_, List.forall_mem_cons.mpr ⟨childrenOf_of_inlineText hadded, hchildless⟩⟩
          rw [List.length_cons, Nat.add_comm]
          exact (counted_of_countNode hcounted).trans hrest
      | _ => cases h

theorem collectCodeFrom_spec {path : JsString} {children : List Json} :
    ∀ {i : ℕ} {ctx ctx' : TraversalCtx} {out out' : JsString},
      collectCodeFrom path i children ctx out = .ok (ctx', out') →
      Counted children.length ctx ctx' ∧ ∀ child ∈ children, childrenOf child = [] := by
  induction children with
  | nil =>
      intro i ctx ctx' out out' h
      obtain ⟨rfl, -⟩ := Prod.mk.inj (Except.ok.inj h)
      exact ⟨.refl ctx, nofun⟩
  | cons child children ih =>
      intro i ctx ctx' out out' h
      rw [collectCodeFrom] at h
      obtain ⟨counted, hcounted, h⟩ := bind_eq_ok h
      obtain ⟨added, hadded, h⟩ := bind_eq_ok h
      obtain ⟨hrest, hchildless⟩ := ih h
      refine ⟨?_, List.forall_mem_cons.mpr ⟨childrenOf_of_codeText hadded, hchildless⟩⟩
      rw [List.length_cons, Nat.add_comm]
      exact (counted_of_countNode hcounted).trans hrest

/-- The nodes below childless items are the items. -/
theorem flatMap_visited_of_childless {items : List Json} (h : ∀ item ∈ items, childrenOf item = [])
    (depth : ℕ) : items.flatMap (visited depth) = items.map (depth, ·) := by
  rw [← List.flatMap_pure_eq_map]
  exact List.flatMap_congr fun item hitem ↦ visited_of_childless (h item hitem) depth

theorem collectInlineText_spec {content : Option Json} {ctx ctx' : TraversalCtx}
    {path text : JsString} {depth : ℕ}
    (h : collectInlineText content ctx path depth = .ok (ctx', text)) :
    Counted ((itemsOfContent content).flatMap (visited depth)).length ctx ctx' ∧
      Shallow ((itemsOfContent content).flatMap (visited depth)) := by
  rcases content with _ | (_ | _ | _ | _ | items | _)
  case none =>
    obtain ⟨rfl, -⟩ := Prod.mk.inj (Except.ok.inj h)
    exact ⟨.refl ctx, nofun⟩
  case some.arr =>
    rw [collectInlineText] at h
    split at h
    · cases h
    · next hdepth =>
        obtain ⟨hcounted, hchildless⟩ := collectInlineFrom_spec h
        rw [itemsOfContent, flatMap_visited_of_childless hchildless, List.length_map]
        refine ⟨?_, fun p hp ↦ ?_⟩
        · have := (counted_deepen ctx (not_lt.mp hdepth)).trans hcounted
          rwa [Nat.zero_add] at this
        · obtain ⟨item, -, rfl⟩ := List.mem_map.mp hp
          exact .inl (not_lt.mp hdepth)
  all_goals cases h

theorem collectCodeText_spec {content : Option Json} {ctx ctx' : TraversalCtx}
    {path text : JsString} (h : collectCodeText content ctx path = .ok (ctx', text)) (depth : ℕ) :
    Counted ((itemsOfContent content).flatMap (visited depth)).length ctx ctx' ∧
      (itemsOfContent content).flatMap (visited depth) =
        (itemsOfContent content).map (depth, ·) := by
  rcases content with _ | (_ | _ | _ | _ | items | _)
  case none =>
    obtain ⟨rfl, -⟩ := Prod.mk.inj (Except.ok.inj h)
    exact ⟨.refl ctx, rfl⟩
  case some.arr =>
    obtain ⟨hcounted, hchildless⟩ := collectCodeFrom_spec h
    rw [itemsOfContent, flatMap_visited_of_childless hchildless, List.length_map]
    exact ⟨hcounted, rfl⟩
  all_goals cases h

/-! ## Traversal -/

/-- An accepted visit counts the nodes from its node on. -/
def Counts (visit : Visitor) (depth : ℕ) : Prop :=
  ∀ node ctx path ctx', visit node ctx path = .ok ctx' →
    Counted (visited depth node).length ctx ctx' ∧ Shallow (visited depth node)

section

variable {visit : Visitor} {obj : JsonObject} {ctx ctx' : TraversalCtx} {path : JsString}
  {depth : ℕ}

theorem visitContent_spec (hvisit : Counts visit depth) {optional : Bool}
    (h : visitContent visit optional obj ctx path = .ok ctx') :
    Counted ((itemsOfContent (contentOf obj)).flatMap (visited depth)).length ctx ctx' ∧
      Shallow ((itemsOfContent (contentOf obj)).flatMap (visited depth)) := by
  rw [visitContent] at h
  generalize contentOf obj = content at h ⊢
  rcases content with _ | (_ | _ | _ | _ | children | _)
  case none =>
    cases optional with
    | true =>
        obtain rfl := Except.ok.inj h
        exact ⟨.refl ctx, shallow_nil⟩
    | false => cases h
  case some.arr =>
    dsimp only at h
    rw [itemsOfContent]
    generalize 0 = i at h
    induction children generalizing i ctx with
    | nil =>
        obtain rfl := Except.ok.inj h
        exact ⟨.refl ctx, shallow_nil⟩
    | cons child children ih =>
        rw [visitChildrenFrom] at h
        obtain ⟨mid, hmid, h⟩ := bind_eq_ok h
        obtain ⟨hchild, hshallow⟩ := hvisit child ctx _ mid hmid
        obtain ⟨hrest, hshallow'⟩ := ih _ h
        rw [List.flatMap_cons, List.length_append]
        exact ⟨hchild.trans hrest, hshallow.append hshallow'⟩
  all_goals cases h

/-- The block of an accepted node counts the nodes below it. -/
theorem emitBlock_spec (hvisit : Counts visit (depth + 1)) (hdepth : depth ≤ maxJiraAdfDepth)
    (h : emitBlock visit obj ctx path depth = .ok ctx') :
    Counted ((childrenOf (.obj obj)).flatMap (visited (depth + 1))).length ctx ctx' ∧
      Shallow (visited depth (.obj obj)) := by
  have hself := shallow_singleton hdepth (.obj obj)
  rw [emitBlock] at h
  rw [visited_eq]
  cases htype : nodeTypeOf obj with
  | none =>
      rw [htype] at h
      cases h
  | some type =>
      rw [htype] at h
      rw [childrenOf_of_type htype]
      have hcontainer : ∀ {optional ctx ctx'}, visitContent visit optional obj ctx path = .ok ctx' →
          Counted ((itemsOfContent (contentOf obj)).flatMap (visited (depth + 1))).length ctx ctx' ∧
            Shallow ((depth, .obj obj) ::
              (itemsOfContent (contentOf obj)).flatMap (visited (depth + 1))) := by
        intro optional ctx ctx' h
        obtain ⟨hcounted, hshallow⟩ := visitContent_spec hvisit h
        exact ⟨hcounted, hself.append hshallow⟩
      cases type with
      | paragraph =>
          obtain ⟨⟨mid, text⟩, hmid, h⟩ := bind_eq_ok h
          obtain rfl := Except.ok.inj h
          obtain ⟨hcounted, hshallow⟩ := collectInlineText_spec hmid
          exact ⟨hcounted.emit _ _, hself.append hshallow⟩
      | heading =>
          obtain ⟨⟨mid, text⟩, hmid, h⟩ := bind_eq_ok h
          obtain rfl := Except.ok.inj h
          obtain ⟨hcounted, hshallow⟩ := collectInlineText_spec hmid
          exact ⟨hcounted.emit _ _, hself.append hshallow⟩
      | codeBlock =>
          obtain ⟨⟨mid, text⟩, hmid, h⟩ := bind_eq_ok h
          obtain rfl := Except.ok.inj h
          obtain ⟨hcounted, hchildren⟩ := collectCodeText_spec hmid (depth + 1)
          refine ⟨hcounted.emit _ _, ?_⟩
          have hcontent : JiraAdfNodeType.codeBlock.hasContent = true := rfl
          rw [if_pos hcontent, hchildren]
          intro p hp
          rcases List.mem_cons.mp hp with rfl | hp
          · exact .inl hdepth
          · obtain ⟨child, hchild, rfl⟩ := List.mem_map.mp hp
            rcases Nat.lt_or_eq_of_le hdepth with hlt | rfl
            · exact .inl hlt
            · refine .inr ⟨_, List.mem_cons_self, rfl, ?_, obj, rfl, htype⟩
              rw [childrenOf_of_type htype]
              exact List.ne_nil_of_mem hchild
      | rule =>
          obtain rfl := Except.ok.inj h
          exact ⟨(Counted.refl ctx).emit _ _, hself⟩
      | media =>
          obtain rfl := Except.ok.inj h
          exact ⟨⟨rfl, id, id⟩, hself⟩
      | blockquote | panel | bulletList | orderedList | listItem | tableRow =>
          obtain ⟨inner, hinner, h⟩ := bind_eq_ok h
          obtain rfl := Except.ok.inj h
          obtain ⟨hcounted, hshallow⟩ := hcontainer hinner
          exact ⟨⟨hcounted.nodes, hcounted.limit, hcounted.depth⟩, hshallow⟩
      | table | tableHeader | tableCell | mediaSingle | mediaGroup => exact hcontainer h
      | _ => cases h

end

theorem counts_traverseBlockNode (left : ℕ) (hleft : left ≤ maxJiraAdfDepth) :
    Counts (traverseBlockNode left) (maxJiraAdfDepth + 1 - left) := by
  induction left with
  | zero => exact fun _ _ _ _ h ↦ by cases h
  | succ left ih =>
      intro node ctx path ctx' h
      have hdepth : maxJiraAdfDepth + 1 - (left + 1) = maxJiraAdfDepth - left := by omega
      have hnext : maxJiraAdfDepth + 1 - left = maxJiraAdfDepth - left + 1 := by omega
      have ih := ih (by omega)
      rw [hnext] at ih
      rw [traverseBlockNode] at h
      obtain ⟨mid, hmid, h⟩ := bind_eq_ok h
      cases node with
      | obj obj =>
          obtain ⟨hcounted, hshallow⟩ := emitBlock_spec ih (Nat.sub_le _ _) h
          rw [hdepth]
          refine ⟨?_, hshallow⟩
          have hdeepen := counted_deepen mid (Nat.sub_le maxJiraAdfDepth left)
          have := (counted_of_countNode hmid).trans (hdeepen.trans hcounted)
          rwa [Nat.zero_add, Nat.add_comm, ← List.length_cons, ← visited_eq] at this
      | _ => cases h

theorem parseRoot_spec {root : Json} {document : JiraAdfNormalizedDocument}
    (h : parseRoot root = .ok document) :
    document.nodeCount = (visitedNodes root).length ∧
      document.nodeCount ≤ maxJiraAdfNodeCount ∧ document.maxDepth ≤ maxJiraAdfDepth ∧
        Shallow (visitedNodes root) := by
  cases root with
  | obj root =>
      rw [parseRoot] at h
      split at h
      · obtain ⟨ctx, hctx, h⟩ := bind_eq_ok h
        obtain rfl := Except.ok.inj h
        obtain ⟨hcounted, hshallow⟩ :=
          visitContent_spec (counts_traverseBlockNode maxJiraAdfDepth le_rfl) hctx
        refine ⟨?_, hcounted.limit (Nat.zero_le _), hcounted.depth (Nat.zero_le _), hshallow⟩
        rw [hcounted.nodes]
        exact Nat.zero_add _
      · cases h
  | _ => cases h

theorem mem_visited_child {depth below : ℕ} {node parent child : Json}
    (h : (below, parent) ∈ visited depth node) (hchild : child ∈ childrenOf parent) :
    (below + 1, child) ∈ visited depth node := by
  induction hsize : sizeOf node using Nat.strong_induction_on generalizing depth node with
  | _ size ih =>
      rw [visited_eq] at h ⊢
      rcases List.mem_cons.mp h with heq | h
      · obtain ⟨rfl, rfl⟩ := Prod.mk.inj heq
        have hself : (below + 1, child) ∈ visited (below + 1) child := by
          rw [visited_eq]
          exact List.mem_cons_self
        exact List.mem_cons_of_mem _ (List.mem_flatMap.mpr ⟨child, hchild, hself⟩)
      · obtain ⟨next, hnext, h⟩ := List.mem_flatMap.mp h
        have hlt := sizeOf_lt_of_mem_childrenOf hnext
        have hmem := ih (sizeOf next) (hsize ▸ hlt) h rfl
        exact List.mem_cons_of_mem _ (List.mem_flatMap.mpr ⟨next, hnext, hmem⟩)

theorem mem_visitedNodes_child {below : ℕ} {root parent child : Json}
    (h : (below, parent) ∈ visitedNodes root) (hchild : child ∈ childrenOf parent) :
    (below + 1, child) ∈ visitedNodes root := by
  cases root with
  | obj root =>
      obtain ⟨next, hnext, h⟩ := List.mem_flatMap.mp h
      exact List.mem_flatMap.mpr ⟨next, hnext, mem_visited_child h hchild⟩
  | _ => cases h

/-! ## The parser on texts -/

def WithinCap (text : JsString) : Prop := (utf8Encode text).length ≤ maxJiraAdfInputBytes

def TextsAlike (text text' : JsString) : Prop :=
  ∃ root root', Json.parse text = some root ∧ Json.parse text' = some root' ∧ NodeAlike root root'

/-- Hidden fields do not show, and an accepted document is small and flat. -/
def HidesAndBounds (text : JsString) : Prop :=
  (∀ text', WithinCap text → WithinCap text' → TextsAlike text text' →
    parseJiraAdfDocument (some text) = parseJiraAdfDocument (some text')) ∧
  ∀ root document, Json.parse text = some root →
    parseJiraAdfDocument (some text) = .ok document →
    (visitedNodes root).length ≤ maxJiraAdfNodeCount ∧
      ∀ p ∈ visitedNodes root, p.1 ≤ maxJiraAdfDepth

theorem parseJiraAdfDocument_of_parse {text : JsString} (hcap : WithinCap text) {root : Json}
    (hroot : Json.parse text = some root) : parseJiraAdfDocument (some text) = parseRoot root := by
  rw [parseJiraAdfDocument]
  simp only [if_neg (not_lt.mpr hcap), hroot]

theorem withinCap_of_ok {text : JsString} {document : JiraAdfNormalizedDocument}
    (h : parseJiraAdfDocument (some text) = .ok document) : WithinCap text := by
  rw [parseJiraAdfDocument] at h
  split at h
  · cases h
  · next hcap => exact not_lt.mp hcap

theorem hidesAndBounds_iff (text : JsString) :
    HidesAndBounds text ↔ ∀ root document, Json.parse text = some root →
      parseJiraAdfDocument (some text) = .ok document →
      ∀ p ∈ visitedNodes root, ¬ IsCodeBlockAtLimit p := by
  constructor
  · rintro ⟨-, hbounded⟩ root document hroot haccepted p hp ⟨hdepth, hchildren, -⟩
    obtain ⟨child, hchild⟩ := List.exists_mem_of_ne_nil _ hchildren
    have hdeep := (hbounded root document hroot haccepted).2 _ (mem_visitedNodes_child hp hchild)
    omega
  · intro h
    refine ⟨?_, fun root document hroot haccepted ↦ ?_⟩
    · rintro text' hcap hcap' ⟨root, root', hroot, hroot', halike⟩
      rw [parseJiraAdfDocument_of_parse hcap hroot, parseJiraAdfDocument_of_parse hcap' hroot',
        parseRoot_alike halike]
    · have hparsed := haccepted
      rw [parseJiraAdfDocument_of_parse (withinCap_of_ok haccepted) hroot] at hparsed
      obtain ⟨hcount, hlimit, -, hshallow⟩ := parseRoot_spec hparsed
      refine ⟨hcount ▸ hlimit, fun p hp ↦ ?_⟩
      apply (hshallow p hp).resolve_right
      rintro ⟨parent, hparent, hatLimit⟩
      exact h root document hroot haccepted parent hparent hatLimit

/-! ## A code block on the last level -/

def blockJson (type : JsString) (children : List Json) : Json :=
  .obj [(js "type", .str type), (js "content", .arr children)]

def quoted : ℕ → Json → Json
  | 0, node => node
  | n + 1, node => blockJson (js "blockquote") [quoted n node]

def codeJson : Json :=
  blockJson (js "codeBlock") [.obj [(js "type", .str (js "text")), (js "text", .str (js "x"))]]

def deepDocument : Json := blockJson (js "doc") [quoted 31 codeJson]

theorem blockJson_plain {type : JsString} {children : List Json}
    (h : ∀ child ∈ children, child.Ordered ∧ child.PlainNumbers) :
    (blockJson type children).Ordered ∧ (blockJson type children).PlainNumbers := by
  have htype : (Json.str type).PlainNumbers := trivial
  constructor
  · rw [blockJson, Json.ordered_obj]
    refine ⟨?_, by simpa using fun child hchild ↦ (h child hchild).1⟩
    let names := ["type", "content"]
    change (names.map js).Nodup ∧ (names.map js).Pairwise fun k k' ↦ keyBefore k k' = true
    decide
  · simpa [blockJson, htype] using fun child hchild ↦ (h child hchild).2

theorem childrenOf_blockJson {type : JsString} {nodeType : JiraAdfNodeType}
    (htype : mapGet nodeTypes type = some nodeType) (hcontent : nodeType.hasContent = true)
    (children : List Json) : childrenOf (blockJson type children) = children := by
  have hkey : js "content" ≠ js "type" := by decide
  have hnode : nodeTypeOf [(js "type", .str type), (js "content", .arr children)] =
      some nodeType := by
    rw [nodeTypeOf, typeText, mapGet_cons, if_pos rfl]
    exact htype
  rw [blockJson, childrenOf_of_type hnode, if_pos hcontent, contentOf, mapGet_cons, if_neg hkey,
    mapGet_cons, if_pos rfl, itemsOfContent]

theorem length_stringify_blockJson (type : JsString) (child : Json) :
    (blockJson type [child]).stringify.length =
      (quoteJson type).length + child.stringify.length + 22 := by
  have htype : (quoteJson (js "type")).length = 6 := by decide
  have hcontent : (quoteJson (js "content")).length = 9 := by decide
  simp only [blockJson, Json.stringify, Json.memberTexts, Json.itemTexts, join, List.append_assoc,
    List.cons_append, List.nil_append, List.length_cons, List.length_append, List.length_nil,
    htype, hcontent]
  omega

theorem length_stringify_quoted (n : ℕ) (node : Json) :
    (quoted n node).stringify.length = node.stringify.length + 34 * n := by
  have hquote : (quoteJson (js "blockquote")).length = 12 := by decide
  induction n with
  | zero => rfl
  | succ n ih =>
      rw [quoted, length_stringify_blockJson, ih, hquote]
      omega

theorem mem_visited_quoted (n depth : ℕ) (node : Json) :
    (depth + n, node) ∈ visited depth (quoted n node) := by
  induction n generalizing depth with
  | zero =>
      rw [visited_eq]
      exact List.mem_cons_self
  | succ n ih =>
      have htype : mapGet nodeTypes (js "blockquote") = some .blockquote := by decide
      rw [visited_eq, quoted, childrenOf_blockJson htype rfl]
      refine List.mem_cons_of_mem _ (List.mem_flatMap.mpr ⟨_, List.mem_singleton_self _, ?_⟩)
      have hnext := ih (depth + 1)
      rwa [Nat.add_assoc, Nat.add_comm 1] at hnext

theorem parse_deepDocument : Json.parse deepDocument.stringify = some deepDocument := by
  have htext : ∀ s : JsString, (Json.str s).PlainNumbers := fun _ ↦ trivial
  have hleaf : ∀ child ∈ [Json.obj [(js "type", .str (js "text")), (js "text", .str (js "x"))]],
      child.Ordered ∧ child.PlainNumbers := by
    intro child hchild
    obtain rfl := List.mem_singleton.mp hchild
    refine ⟨?_, by simp [htext]⟩
    rw [Json.ordered_obj]
    refine ⟨?_, by simp⟩
    let names := ["type", "text"]
    change (names.map js).Nodup ∧ (names.map js).Pairwise fun k k' ↦ keyBefore k k' = true
    decide
  have hquoted : ∀ n, (quoted n codeJson).Ordered ∧ (quoted n codeJson).PlainNumbers := by
    intro n
    induction n with
    | zero => exact blockJson_plain hleaf
    | succ n ih => exact blockJson_plain (List.forall_mem_singleton.mpr ih)
  obtain ⟨hordered, hplain⟩ := @blockJson_plain (js "doc") _
    (List.forall_mem_singleton.mpr (hquoted 31))
  exact Json.parse_stringify hordered hplain

/-- The document is accepted, and the text of its code block stands on level 33. -/
theorem deepDocument_not_bounded : ¬ ∀ text, HidesAndBounds text := by
  intro h
  have hcap : WithinCap deepDocument.stringify := by
    have hdoc : (quoteJson (js "doc")).length = 5 := by decide
    have hcode : codeJson.stringify.length = 59 := by decide
    refine (length_utf8Encode_le _).trans ?_
    rw [deepDocument, length_stringify_blockJson, length_stringify_quoted, hdoc, hcode]
    decide
  have haccepted : ∃ document, parseRoot deepDocument = .ok document := by
    have hok : (parseRoot deepDocument).isOk = true := by decide +kernel
    cases hparse : parseRoot deepDocument with
    | ok document => exact ⟨document, rfl⟩
    | error rejection =>
        rw [hparse] at hok
        cases hok
  obtain ⟨document, hdocument⟩ := haccepted
  rw [← parseJiraAdfDocument_of_parse hcap parse_deepDocument] at hdocument
  have hcode : mapGet nodeTypes (js "codeBlock") = some .codeBlock := by decide
  have hmem : (maxJiraAdfDepth, codeJson) ∈ visitedNodes deepDocument :=
    List.mem_flatMap.mpr ⟨quoted 31 codeJson, List.mem_singleton_self _, mem_visited_quoted 31 1 _⟩
  refine (hidesAndBounds_iff _).mp (h _) _ document parse_deepDocument hdocument _ hmem ?_
  refine ⟨rfl, ?_, _, rfl, ?_⟩
  · rw [codeJson, childrenOf_blockJson hcode rfl]
    exact List.cons_ne_nil _ _
  · decide

end TestIntelligence.MultiSource
