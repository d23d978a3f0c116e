import TestIntelligence.Js.JsonParse
import TestIntelligence.Js.Patterns
import TestIntelligence.Js.Utf8

/-!
# Atlassian Document Format

The parser of Jira documents.  Block nodes recurse up to the depth limit, which
is what the traversal decreases on; every visited node is counted before
anything else is looked at.
-/

namespace TestIntelligence.MultiSource

open Js

def maxJiraAdfInputBytes : ℕ := 1048576

def maxJiraAdfDepth : ℕ := 32

def maxJiraAdfNodeCount : ℕ := 5000

inductive JiraAdfNodeType
  | doc
  | paragraph
  | heading
  | blockquote
  | bulletList
  | orderedList
  | listItem
  | codeBlock
  | rule
  | panel
  | table
  | tableRow
  | tableHeader
  | tableCell
  | mediaSingle
  | mediaGroup
  | media
  | text
  | hardBreak
  | mention
  | emoji
  | inlineCard
  | status
  | date
  deriving DecidableEq

def nodeTypes : List (JsString × JiraAdfNodeType) :=
  [(js "doc", .doc), (js "paragraph", .paragraph), (js "heading", .heading),
    (js "blockquote", .blockquote), (js "bulletList", .bulletList),
    (js "orderedList", .orderedList), (js "listItem", .listItem), (js "codeBlock", .codeBlock),
    (js "rule", .rule), (js "panel", .panel), (js "table", .table), (js "tableRow", .tableRow),
    (js "tableHeader", .tableHeader), (js "tableCell", .tableCell),
    (js "mediaSingle", .mediaSingle), (js "mediaGroup", .mediaGroup), (js "media", .media),
    (js "text", .text), (js "hardBreak", .hardBreak), (js "mention", .mention),
    (js "emoji", .emoji), (js "inlineCard", .inlineCard), (js "status", .status),
    (js "date", .date)]

def markTypes : List JsString :=
  [js "strong", js "em", js "code", js "strike", js "underline", js "link", js "subsup",
    js "textColor"]

inductive JiraAdfRejectionCode
  | payloadTooLarge
  | inputNotString
  | inputNotJson
  | rootNotObject
  | rootTypeInvalid
  | unknownNodeType
  | unknownMarkType
  | nodeShapeInvalid
  | textNodeInvalid
  | maxDepthExceeded
  | maxNodeCountExceeded
  deriving DecidableEq

structure JiraAdfRejection where
  code : JiraAdfRejectionCode
  path : Option JsString
  detail : Option JsString
  deriving DecidableEq

inductive JiraAdfBlockKind
  | paragraph
  | heading
  | codeBlock
  | listItem
  | blockquote
  | panel
  | tableRow
  | rule
  deriving DecidableEq

structure JiraAdfBlock where
  kind : JiraAdfBlockKind
  level : Option ℕ
  language : Option JsString
  text : JsString
  deriving DecidableEq

structure JiraAdfNormalizedDocument where
  plainText : JsString
  blocks : List JiraAdfBlock
  nodeCount : ℕ
  maxDepth : ℕ
  deriving DecidableEq

structure TraversalCtx where
  plainText : JsString
  blocks : List JiraAdfBlock
  nodeCount : ℕ
  maxDepth : ℕ
  listDepth : ℕ

/-- What a visitor of a node at some path makes of the context. -/
abbrev Visitor := Json → TraversalCtx → JsString → Except JiraAdfRejection TraversalCtx

/-! ## Fields -/

abbrev JsonObject := List (JsString × Json)

def typeText (obj : JsonObject) : Option JsString :=
  match mapGet obj (js "type") with
  | some (.str s) => some s
  | _ => none

def nodeTypeOf (obj : JsonObject) : Option JiraAdfNodeType := (typeText obj).bind (mapGet nodeTypes)

/-- `typeof type === "string" ? type.slice(0, 64) : "<missing>"` -/
def typeDetail (obj : JsonObject) : JsString :=
  match typeText obj with
  | some s => s.take 64
  | none => js "<missing>"

def contentOf (obj : JsonObject) : Option Json := mapGet obj (js "content")

/-- A field of the attributes, which are empty where they are no object. -/
def attrOf (obj : JsonObject) (name : String) : Option Json :=
  match mapGet obj (js "attrs") with
  | some (.obj attrs) => mapGet attrs (js name)
  | _ => none

/-- The value of a text that passes the check, and a stand-in for anything else. -/
def textOrElse (check : JsString → Bool) (fallback : JsString) : Option Json → JsString
  | some (.str s) => if check s then s else fallback
  | _ => fallback

/-- `/^[class]{low,high}$/` -/
def isWordOf (allowed : CodeUnit → Bool) (low high : ℕ) (s : JsString) : Bool :=
  low ≤ s.length && s.length ≤ high && s.all allowed

def isSafeFilename : JsString → Bool :=
  isWordOf (fun u ↦ isAlphanumeric u || u == 0x2E || u == 0x5F || u == 0x2D) 1 128

def isCodeLanguage : JsString → Bool :=
  isWordOf (fun u ↦ isAlphanumeric u || u == 0x2B || u == 0x23 || u == 0x2E || u == 0x5F ||
    u == 0x2D) 1 32

/-- `/^:[A-Za-z0-9._+-]{1,32}:$/` -/
def isEmojiShortName : JsString → Bool
  | 0x3A :: rest =>
      rest.getLast? == some 0x3A &&
        isWordOf (fun u ↦ isAlphanumeric u || u == 0x2E || u == 0x5F || u == 0x2B || u == 0x2D)
          1 32 rest.dropLast
  | _ => false

def isStatusText : JsString → Bool :=
  isWordOf (fun u ↦ isAlphanumeric u || u == 0x20 || u == 0x5F || u == 0x2D) 1 40

def isTimestampText : JsString → Bool := isWordOf isDigit 4 15

/-- `toLowerCase`, on texts of ASCII letters, digits and punctuation. -/
def toLowerAscii (s : JsString) : JsString :=
  s.map fun u ↦ if 0x41 ≤ u && u ≤ 0x5A then u + 0x20 else u

/-- `text.replace(/\n+$/u, "")` -/
def trimNewlines (s : JsString) : JsString := (s.reverse.dropWhile (· == 0x0A)).reverse

def indexPath (path : JsString) (index : ℕ) : JsString :=
  path ++ js "[" ++ numberText (.ofRat index) ++ js "]"

def contentPath (path : JsString) : JsString := path ++ js ".content"

def rejected {α : Type} (code : JiraAdfRejectionCode) (path : JsString)
    (detail : Option JsString) : Except JiraAdfRejection α :=
  .error ⟨code, some path, detail⟩

/-! ## Counting -/

def countNode (ctx : TraversalCtx) (path : JsString) : Except JiraAdfRejection TraversalCtx :=
  if ctx.nodeCount + 1 > maxJiraAdfNodeCount then rejected .maxNodeCountExceeded path none
  else .ok { ctx with nodeCount := ctx.nodeCount + 1 }

def TraversalCtx.deepen (ctx : TraversalCtx) (depth : ℕ) : TraversalCtx :=
  { ctx with maxDepth := max ctx.maxDepth depth }

/-! ## Inline content -/

def validateMark (mark : Json) (path : JsString) : Except JiraAdfRejection Unit :=
  match mark with
  | .obj mark =>
      if (typeText mark).any (· ∈ markTypes) then .ok ()
      else rejected .unknownMarkType path (some (typeDetail mark))
  | _ => rejected .nodeShapeInvalid path none

def validateMarksFrom (path : JsString) : ℕ → List Json → Except JiraAdfRejection Unit
  | _, [] => .ok ()
  | i, mark :: marks => do
      validateMark mark (indexPath path i)
      validateMarksFrom path (i + 1) marks

def validateMarks (marks : Option Json) (path : JsString) : Except JiraAdfRejection Unit :=
  match marks with
  | none => .ok ()
  | some (.arr marks) => validateMarksFrom path 0 marks
  | some _ => rejected .nodeShapeInvalid path none

/-- The text that one inline node adds. -/
def inlineText (obj : JsonObject) (path : JsString) : Except JiraAdfRejection JsString :=
  match nodeTypeOf obj with
  | none => rejected .unknownNodeType path (some (typeDetail obj))
  | some .text =>
      match mapGet obj (js "text") with
      | some (.str t) => do
          validateMarks (mapGet obj (js "marks")) (path ++ js ".marks")
          return t
      | _ => rejected .textNodeInvalid (path ++ js ".text") none
  | some .hardBreak => .ok (js "\n")
  | some .mention => .ok (js "@user")
  | some .emoji => .ok (textOrElse isEmojiShortName (js ":emoji:") (attrOf obj "shortName"))
  | some .inlineCard => .ok (js "[link]")
  | some .status =>
      .ok (js "[" ++ textOrElse isStatusText (js "status") (attrOf obj "text") ++ js "]")
  | some .date =>
      .ok (js "[date:" ++ textOrElse isTimestampText (js "date") (attrOf obj "timestamp") ++
        js "]")
  | some _ =>
      rejected .nodeShapeInvalid path
        (some (js "block node " ++ (typeText obj).getD [] ++ js " inside inline content"))

def collectInlineFrom (path : JsString) :
    ℕ → List Json → TraversalCtx → JsString → Except JiraAdfRejection (TraversalCtx × JsString)
  | _, [], ctx, text => .ok (ctx, text)
  | i, item :: items, ctx, text => do
      let ctx ← countNode ctx (indexPath path i)
      match item with
      | .obj obj =>
          let added ← inlineText obj (indexPath path i)
          collectInlineFrom path (i + 1) items ctx (text ++ added)
      | _ => rejected .nodeShapeInvalid (indexPath path i) none

def collectInlineText (content : Option Json) (ctx : TraversalCtx) (path : JsString)
    (depth : ℕ) : Except JiraAdfRejection (TraversalCtx × JsString) :=
  match content with
  | none => .ok (ctx, [])
  | some (.arr items) =>
      if depth > maxJiraAdfDepth then rejected .maxDepthExceeded path none
      else collectInlineFrom path 0 items (ctx.deepen depth) []
  | some _ => rejected .nodeShapeInvalid path none

/-- The text of one child of a code block. -/
def codeText (child : Json) (path : JsString) : Except JiraAdfRejection JsString :=
  match child with
  | .obj obj =>
      if typeText obj = some (js "text") then
        match mapGet obj (js "text") with
        | some (.str t) => .ok t
        | _ => rejected .textNodeInvalid (path ++ js ".text") none
      else rejected .unknownNodeType path (some (typeDetail obj))
  | _ => rejected .nodeShapeInvalid path none

def collectCodeFrom (path : JsString) :
    ℕ → List Json → TraversalCtx → JsString → Except JiraAdfRejection (TraversalCtx × JsString)
  | _, [], ctx, out => .ok (ctx, out)
  | i, child :: children, ctx, out => do
      let ctx ← countNode ctx (indexPath (contentPath path) i)
      let added ← codeText child (indexPath (contentPath path) i)
      collectCodeFrom path (i + 1) children ctx (out ++ added)

def collectCodeText (content : Option Json) (ctx : TraversalCtx) (path : JsString) :
    Except JiraAdfRejection (TraversalCtx × JsString) :=
  match content with
  | none => .ok (ctx, [])
  | some (.arr children) => collectCodeFrom path 0 children ctx []
  | some _ => rejected .nodeShapeInvalid (contentPath path) none

/-! ## Blocks -/

def TraversalCtx.emit (ctx : TraversalCtx) (block : JiraAdfBlock) (text : JsString) :
    TraversalCtx :=
  { ctx with blocks := ctx.blocks ++ [block], plainText := ctx.plainText ++ text }

def emitTextBlock (obj : JsonObject) (ctx : TraversalCtx) (path : JsString) (depth : ℕ)
    (kind : JiraAdfBlockKind) : Except JiraAdfRejection TraversalCtx := do
  let (ctx, text) ← collectInlineText (contentOf obj) ctx (contentPath path) (depth + 1)
  return ctx.emit ⟨kind, none, none, text⟩ (text ++ js "\n")

def headingLevel : Option Json → ℕ
  | some (.num x) => if JsNumber.le 1 x && x.le 6 then ⌊x.toRat⌋.toNat else 1
  | _ => 1

def emitHeadingBlock (obj : JsonObject) (ctx : TraversalCtx) (path : JsString) (depth : ℕ) :
    Except JiraAdfRejection TraversalCtx := do
  let level := headingLevel (attrOf obj "level")
  let (ctx, text) ← collectInlineText (contentOf obj) ctx (contentPath path) (depth + 1)
  return ctx.emit ⟨.heading, some level, none, text⟩
    (List.replicate level 0x23 ++ js " " ++ text ++ js "\n")

def codeLanguage : Option Json → Option JsString
  | some (.str s) => if isCodeLanguage s then some (toLowerAscii s) else none
  | _ => none

def emitCodeBlock (obj : JsonObject) (ctx : TraversalCtx) (path : JsString) :
    Except JiraAdfRejection TraversalCtx := do
  let language := codeLanguage (attrOf obj "language")
  let (ctx, text) ← collectCodeText (contentOf obj) ctx path
  return ctx.emit ⟨.codeBlock, none, language, text⟩
    (js "```" ++ language.getD [] ++ js "\n" ++ text ++ js "\n```\n")

def emitMediaStub (obj : JsonObject) (ctx : TraversalCtx) : TraversalCtx :=
  let alt := textOrElse isSafeFilename (js "redacted") (attrOf obj "alt")
  { ctx with plainText := ctx.plainText ++ js "[attachment:" ++ alt ++ js "]\n" }

def visitChildrenFrom (visit : Visitor) (path : JsString) :
    ℕ → List Json → TraversalCtx → Except JiraAdfRejection TraversalCtx
  | _, [], ctx => .ok ctx
  | i, child :: children, ctx => do
      let ctx ← visit child ctx (indexPath (contentPath path) i)
      visitChildrenFrom visit path (i + 1) children ctx

/-- The loop over an array of children, which `optional` allows to be missing. -/
def visitContent (visit : Visitor) (optional : Bool) (obj : JsonObject) (ctx : TraversalCtx)
    (path : JsString) : Except JiraAdfRejection TraversalCtx :=
  match contentOf obj with
  | some (.arr children) => visitChildrenFrom visit path 0 children ctx
  | none => if optional then .ok ctx else rejected .nodeShapeInvalid (contentPath path) none
  | some _ => rejected .nodeShapeInvalid (contentPath path) none

section

variable (visit : Visitor) (obj : JsonObject) (ctx : TraversalCtx) (path : JsString)

def emitContainer : Except JiraAdfRejection TraversalCtx := visitContent visit true obj ctx path

/-- The summary of a container stands before the blocks inside it. -/
def emitContainerAsBlock (kind : JiraAdfBlockKind) : Except JiraAdfRejection TraversalCtx := do
  let inner ← emitContainer visit obj ctx path
  let innerText := trimNewlines (inner.plainText.drop ctx.plainText.length)
  return { inner with
    blocks := inner.blocks.take ctx.blocks.length ++ ⟨kind, none, none, innerText⟩ ::
      inner.blocks.drop ctx.blocks.length
    plainText := inner.plainText.take ctx.plainText.length ++ innerText ++ js "\n" }

def emitListContainer : Except JiraAdfRejection TraversalCtx := do
  let inner ← emitContainer visit obj { ctx with listDepth := ctx.listDepth + 1 } path
  return { inner with listDepth := inner.listDepth - 1 }

/-- The block of a list item or a table row replaces the blocks inside it. -/
def TraversalCtx.replaceFrom (inner before : TraversalCtx) (block : JiraAdfBlock)
    (text : JsString) : TraversalCtx :=
  { inner with
    blocks := inner.blocks.take before.blocks.length ++ [block]
    plainText := inner.plainText.take before.plainText.length ++ text }

def emitListItem : Except JiraAdfRejection TraversalCtx := do
  let inner ← visitContent visit false obj ctx path
  let innerText := trimNewlines (inner.plainText.drop ctx.plainText.length)
  let indent := (List.replicate (inner.listDepth - 1) (js "  ")).flatten
  return inner.replaceFrom ctx ⟨.listItem, some inner.listDepth, none, innerText⟩
    (indent ++ js "- " ++ innerText ++ js "\n")

def emitTableRow : Except JiraAdfRejection TraversalCtx := do
  let inner ← emitContainer visit obj ctx path
  let innerText := (trimNewlines (inner.plainText.drop ctx.plainText.length)).flatMap
    fun u ↦ if u = 0x0A then js " | " else [u]
  return inner.replaceFrom ctx ⟨.tableRow, none, none, innerText⟩ (innerText ++ js "\n")

def emitTableCell : Except JiraAdfRejection TraversalCtx := emitContainer visit obj ctx path

end

/-- The branch that the type of a node selects, with the visitor of its children. -/
def emitBlock (visit : Visitor) (obj : JsonObject) (ctx : TraversalCtx) (path : JsString)
    (depth : ℕ) : Except JiraAdfRejection TraversalCtx :=
  match nodeTypeOf obj with
  | none => rejected .unknownNodeType path (some (typeDetail obj))
  | some .paragraph => emitTextBlock obj ctx path depth .paragraph
  | some .heading => emitHeadingBlock obj ctx path depth
  | some .blockquote => emitContainerAsBlock visit obj ctx path .blockquote
  | some .panel => emitContainerAsBlock visit obj ctx path .panel
  | some .bulletList => emitListContainer visit obj ctx path
  | some .orderedList => emitListContainer visit obj ctx path
  | some .listItem => emitListItem visit obj ctx path
  | some .codeBlock => emitCodeBlock obj ctx path
  | some .rule => .ok (ctx.emit ⟨.rule, none, none, []⟩ (js "---\n"))
  | some .table => emitContainer visit obj ctx path
  | some .tableRow => emitTableRow visit obj ctx path
  | some .tableHeader => emitTableCell visit obj ctx path
  | some .tableCell => emitTableCell visit obj ctx path
  | some .mediaSingle => emitContainer visit obj ctx path
  | some .mediaGroup => emitContainer visit obj ctx path
  | some .media => .ok (emitMediaStub obj ctx)
  | some .doc => rejected .nodeShapeInvalid path (some (js "nested doc"))
  | some _ =>
      rejected .nodeShapeInvalid path
        (some (js "inline node " ++ (typeText obj).getD [] ++ js " at block level"))

/-- The node stands `left` levels above the first one that is too deep. -/
def traverseBlockNode : ℕ → Visitor
  | 0, _, _, path => rejected .maxDepthExceeded path none
  | left + 1, node, ctx, path => do
      let depth := maxJiraAdfDepth - left
      let ctx ← countNode ctx path
      match node with
      | .obj obj => emitBlock (traverseBlockNode left) obj (ctx.deepen depth) path depth
      | _ => rejected .nodeShapeInvalid path none

def traverseDoc (doc : JsonObject) (ctx : TraversalCtx) (path : JsString) :
    Except JiraAdfRejection TraversalCtx :=
  visitContent (traverseBlockNode maxJiraAdfDepth) false doc ctx path

def initialCtx : TraversalCtx := ⟨[], [], 0, 0, 0⟩

/-- The document that a root value stands for. -/
def parseRoot : Json → Except JiraAdfRejection JiraAdfNormalizedDocument
  | .obj root =>
      if typeText root = some (js "doc") then do
        let ctx ← traverseDoc root initialCtx (js "$")
        return ⟨trimNewlines ctx.plainText, ctx.blocks, ctx.nodeCount, ctx.maxDepth⟩
      else
        rejected .rootTypeInvalid (js "$")
          (some (js "root.type=" ++ ((typeText root).map (·.take 32)).getD (js "<missing>")))
  | _ => .error ⟨.rootNotObject, none, none⟩

/-- The input is nothing where it is not a string. -/
def parseJiraAdfDocument (input : Option JsString) :
    Except JiraAdfRejection JiraAdfNormalizedDocument :=
  match input with
  | none => .error ⟨.inputNotString, none, none⟩
  | some text =>
      if (utf8Encode text).length > maxJiraAdfInputBytes then .error ⟨.payloadTooLarge, none, none⟩
      else
        match Json.parse text with
        | none => .error ⟨.inputNotJson, none, none⟩
        | some root => parseRoot root

end TestIntelligence.MultiSource
