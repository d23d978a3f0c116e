import TestIntelligence.AgenticHarness.FormalVerification.Syntax

/-!
# Tokens of a specification

`tokenize` of `formal-verification.ts`, with line and column of each token.
Comments run from `--` to the end of the line.  The longest operator wins.
-/

namespace TestIntelligence.AgenticHarness.FormalVerification

open Js

inductive TokenKind
  | ident
  | int
  | punct
  | keyword
  | operator
  | eof
  deriving DecidableEq, Repr

def TokenKind.text : TokenKind → JsString
  | .ident => js "ident"
  | .int => js "int"
  | .punct => js "punct"
  | .keyword => js "keyword"
  | .operator => js "operator"
  | .eof => js "eof"

structure Token where
  kind : TokenKind
  value : JsString
  line : ℕ
  column : ℕ
  deriving DecidableEq

/-- `KEYWORDS`. -/
def keywords : List JsString :=
  ["MODULE", "VAR", "ASSIGN", "DEFINE", "init", "next", "case", "esac", "TRUE", "FALSE", "LTLSPEC",
    "CTLSPEC", "in", "boolean", "main", "G", "F", "X", "U", "EX", "AX", "EF", "AF", "EG", "AG", "E",
    "A"].map js

/-- `MULTI_OP_TWO` and `..`. -/
def multiOpTwo : List JsString := ["!=", "<=", ">=", "->", ":=", ".."].map js

/-- `MULTI_OP_THREE`. -/
def multiOpThree : List JsString := ["<->"].map js

/-- `SINGLE_PUNCT`. -/
def singlePunct : JsString := js "()\x7b\x7d[],;:+-*/=<>&|!."

/-- `[A-Za-z_]`. -/
def isWordStart (u : CodeUnit) : Bool :=
  (0x41 ≤ u && u ≤ 0x5A) || (0x61 ≤ u && u ≤ 0x7A) || u == 0x5F

/-- `[A-Za-z0-9_]`. -/
def isWordUnit (u : CodeUnit) : Bool := isWordStart u || isDigit u

def isBlank (u : CodeUnit) : Bool := u == 0x20 || u == 0x09 || u == 0x0D || u == 0x0A

/-- The position after `advance` over the text. -/
def advance : JsString → ℕ → ℕ → ℕ × ℕ
  | [], line, column => (line, column)
  | u :: rest, line, column =>
      if u = 0x0A then advance rest (line + 1) 1 else advance rest line (column + 1)

/-- The first token of the text: its kind and its value. -/
def scanToken (source : JsString) : Option (TokenKind × JsString) :=
  match source with
  | [] => none
  | u :: _ =>
      if isWordStart u then
        let word := source.takeWhile isWordUnit
        some (if word ∈ keywords then .keyword else .ident, word)
      else if isDigit u then some (.int, source.takeWhile isDigit)
      else if source.take 3 ∈ multiOpThree then some (.operator, source.take 3)
      else if source.take 2 ∈ multiOpTwo then some (.operator, source.take 2)
      else if u ∈ singlePunct then some (.punct, [u])
      else none

/-- The loop over the source; each turn takes a blank, a comment or a token. -/
def tokenizeFrom : ℕ → JsString → ℕ → ℕ → Except VerificationError (List Token)
  | 0, _, _, _ => .error .diverges
  | _ + 1, [], line, column => .ok [⟨.eof, [], line, column⟩]
  | fuel + 1, u :: rest, line, column =>
      if isBlank u then
        let (line', column') := advance [u] line column
        tokenizeFrom fuel rest line' column'
      else if u = 0x2D ∧ rest.head? = some 0x2D then
        let comment := (u :: rest).takeWhile (· ≠ 0x0A)
        let (line', column') := advance comment line column
        tokenizeFrom fuel ((u :: rest).drop comment.length) line' column'
      else
        match scanToken (u :: rest) with
        | none =>
            .error (.parse line column (js "unexpected character " ++ quoteJson [u]))
        | some (kind, value) =>
            let (line', column') := advance value line column
            match tokenizeFrom fuel ((u :: rest).drop value.length) line' column' with
            | .error error => .error error
            | .ok tokens => .ok (⟨kind, value, line, column⟩ :: tokens)

def tokenize (source : JsString) : Except VerificationError (List Token) :=
  tokenizeFrom (source.length + 1) source 1 1

end TestIntelligence.AgenticHarness.FormalVerification

/-!
## Parsing specifications

The recursive-descent parser of `formal-verification.ts`.  The cursor is the list
of tokens that are left; the end-of-file token stays in place when it is consumed.
The source recurses without a bound, the parser here takes one more than the number
of tokens as its bound, which every nested call lowers.
-/

namespace TestIntelligence.AgenticHarness.FormalVerification

open Js

abbrev Parser := StateT (List Token) (Except VerificationError)

/-! ## The cursor -/

def peekIn (tokens : List Token) : Token := tokens.headD ⟨.eof, [], 1, 1⟩

def peek : Parser Token := do return peekIn (← get)

def consume : Parser Token := do
  let tok ← peek
  modify fun tokens ↦ if tokens.length ≤ 1 then tokens else tokens.drop 1
  return tok

def raise {α : Type} (error : VerificationError) : Parser α := throw error

def describe (tok : Token) : JsString :=
  if tok.kind = .eof then js "end-of-file"
  else tok.kind.text ++ 0x28 :: quoteJson tok.value ++ [0x29]

/-- A `FormalSpecParseError` at the token. -/
def errorAt {α : Type} (tok : Token) (message : JsString) : Parser α :=
  raise (.parse tok.line tok.column message)

/-- `cursor.error`. -/
def cursorError {α : Type} (message : JsString) : Parser α := do
  errorAt (← peek) message

def Token.isKeyword (tok : Token) (keyword : JsString) : Bool :=
  tok.kind = .keyword && tok.value = keyword

def Token.isPunct (tok : Token) (punct : JsString) : Bool :=
  tok.kind = .punct && tok.value = punct

def Token.isOperator (tok : Token) (op : JsString) : Bool :=
  tok.kind = .operator && tok.value = op

def matchKeyword (keyword : JsString) : Parser Bool := do return (← peek).isKeyword keyword

def matchPunct (punct : JsString) : Parser Bool := do return (← peek).isPunct punct

def matchOperator (op : JsString) : Parser Bool := do return (← peek).isOperator op

def expectKeyword (keyword : JsString) : Parser Token := do
  let tok ← peek
  if tok.isKeyword keyword then consume
  else cursorError (js "expected keyword " ++ keyword ++ js ", got " ++ describe tok)

def expectPunct (punct : JsString) : Parser Token := do
  let tok ← peek
  if tok.isPunct punct then consume
  else cursorError (js "expected " ++ quoteJson punct ++ js ", got " ++ describe tok)

/-! ## Expressions -/

/-- The members of `{ ... }` up to the closing brace. -/
def parseMembers (problem : JsString) : ℕ → List PrimitiveValue → Parser (List PrimitiveValue)
  | 0, _ => raise .diverges
  | fuel + 1, values => do
      if ← matchPunct (js "\x7d") then return values
      let tok ← consume
      let value ←
        if tok.kind = .ident then pure (.text tok.value)
        else if tok.kind = .int then pure (.number (stringToNumber tok.value))
        else if tok.isKeyword (js "TRUE") then pure (.bool true)
        else if tok.isKeyword (js "FALSE") then pure (.bool false)
        else errorAt tok (problem ++ js ", got " ++ describe tok)
      if ← matchPunct (js ",") then
        let _ ← consume
        parseMembers problem fuel (values ++ [value])
      else return values ++ [value]

/-- A set literal after its opening brace. -/
def parseSet (problem : JsString) (fuel : ℕ) : Parser (List PrimitiveValue) := do
  let values ← parseMembers problem fuel []
  let _ ← expectPunct (js "\x7d")
  return values

/-- A loop over left-associative operators: `operator` names the operation of a
token, `build` makes the node. -/
def parseChain {α β : Type} (operator : Token → Option β) (build : β → α → α → α)
    (operand : Parser α) : ℕ → α → Parser α
  | 0, _ => raise .diverges
  | fuel + 1, left => do
      match operator (← peek) with
      | none => return left
      | some op =>
          let _ ← consume
          let right ← operand
          parseChain operator build operand fuel (build op left right)

def additiveOperator (tok : Token) : Option ExprBinOp :=
  if tok.isPunct (js "+") then some .add
  else if tok.isPunct (js "-") then some .sub
  else none

def parseAdditive (fuel : ℕ) (primary : Parser ExprAst) : Parser ExprAst := do
  let left ← primary
  parseChain additiveOperator .binop primary fuel left

/-- `REL_OPS`. -/
def relationOps : List ExprBinOp := [.eq, .ne, .lt, .le, .gt, .ge]

def relationOperator (tok : Token) : Option ExprBinOp :=
  relationOps.find? fun op ↦ tok.isPunct op.text || tok.isOperator op.text

def parseRelation (fuel : ℕ) (primary : Parser ExprAst) : Parser ExprAst := do
  let left ← parseAdditive fuel primary
  match relationOperator (← peek) with
  | some op =>
      let _ ← consume
      let right ← parseAdditive fuel primary
      return .binop op left right
  | none =>
      if ← matchKeyword (js "in") then
        let _ ← consume
        let _ ← expectPunct (js "\x7b")
        let values ← parseSet (js "expected set member") fuel
        return .binop .mem left (.set values)
      else return left

def parseNot (relation : Parser ExprAst) : ℕ → Parser ExprAst
  | 0 => raise .diverges
  | fuel + 1 => do
      if ← matchPunct (js "!") then
        let _ ← consume
        let operand ← parseNot relation fuel
        return .unop operand
      else relation

def andOperator (tok : Token) : Option ExprBinOp :=
  if tok.isPunct (js "&") then some .and else none

def parseAnd (fuel : ℕ) (primary : Parser ExprAst) : Parser ExprAst := do
  let operand := parseNot (parseRelation fuel primary) fuel
  let left ← operand
  parseChain andOperator .binop operand fuel left

def orOperator (tok : Token) : Option ExprBinOp :=
  if tok.isPunct (js "|") then some .or else none

def parseOr (fuel : ℕ) (primary : Parser ExprAst) : Parser ExprAst := do
  let left ← parseAnd fuel primary
  parseChain orOperator .binop (parseAnd fuel primary) fuel left

def parseImplies (disjunction : Parser ExprAst) : ℕ → Parser ExprAst
  | 0 => raise .diverges
  | fuel + 1 => do
      let left ← disjunction
      if ← matchOperator (js "->") then
        let _ ← consume
        let right ← parseImplies disjunction fuel
        return .binop .implies left right
      else return left

def iffOperator (tok : Token) : Option ExprBinOp :=
  if tok.isOperator (js "<->") then some .iff else none

def parseIff (fuel : ℕ) (primary : Parser ExprAst) : Parser ExprAst := do
  let operand := parseImplies (parseOr fuel primary) fuel
  let left ← operand
  parseChain iffOperator .binop operand fuel left

/-- The branches of a `case` up to `esac`. -/
def parseCases (expr : Parser ExprAst) : ℕ → List (ExprAst × ExprAst) →
    Parser (List (ExprAst × ExprAst))
  | 0, _ => raise .diverges
  | fuel + 1, cases => do
      if ← matchKeyword (js "esac") then return cases
      let guard ← expr
      let _ ← expectPunct (js ":")
      let value ← expr
      let _ ← expectPunct (js ";")
      parseCases expr fuel (cases ++ [(guard, value)])

def parsePrimary : ℕ → Parser ExprAst
  | 0 => raise .diverges
  | fuel + 1 => do
      let tok ← peek
      if tok.isKeyword (js "TRUE") then
        let _ ← consume
        return .bool true
      else if tok.isKeyword (js "FALSE") then
        let _ ← consume
        return .bool false
      else if tok.isKeyword (js "case") then
        let _ ← consume
        let cases ← parseCases (parseIff fuel (parsePrimary fuel)) fuel []
        let _ ← expectKeyword (js "esac")
        return .case cases
      else if tok.isPunct (js "(") then
        let _ ← consume
        let inner ← parseIff fuel (parsePrimary fuel)
        let _ ← expectPunct (js ")")
        return inner
      else if tok.isPunct (js "\x7b") then
        let _ ← consume
        return .set (← parseSet (js "expected literal in set") fuel)
      else if tok.kind = .ident then
        let _ ← consume
        return .ident tok.value
      else if tok.kind = .int then
        let _ ← consume
        return .int (stringToNumber tok.value)
      else errorAt tok (js "unexpected token in expression: " ++ describe tok)

def parseExpr (fuel : ℕ) : Parser ExprAst := parseIff fuel (parsePrimary fuel)

/-! ## Temporal formulae -/

/-- The unary operators of a logic. -/
def unaryOperators : FormalVerificationLogic → List (JsString × (TemporalAst → TemporalAst))
  | .LTL => [(js "G", .G), (js "F", .F), (js "X", .X)]
  | .CTL => [(js "EX", .EX), (js "AX", .AX), (js "EF", .EF), (js "AF", .AF), (js "EG", .EG),
      (js "AG", .AG)]

def parseTemporalUntil (logic : FormalVerificationLogic) (unary : Parser TemporalAst) :
    Parser TemporalAst := do
  let left ← unary
  if logic = .LTL ∧ (← matchKeyword (js "U")) then
    let _ ← consume
    let right ← unary
    return .U left right
  else return left

def parseTemporalAnd (fuel : ℕ) (logic : FormalVerificationLogic) (unary : Parser TemporalAst) :
    Parser TemporalAst := do
  let left ← parseTemporalUntil logic unary
  parseChain andOperator (fun _ ↦ .and) (parseTemporalUntil logic unary) fuel left

def parseTemporalOr (fuel : ℕ) (logic : FormalVerificationLogic) (unary : Parser TemporalAst) :
    Parser TemporalAst := do
  let left ← parseTemporalAnd fuel logic unary
  parseChain orOperator (fun _ ↦ .or) (parseTemporalAnd fuel logic unary) fuel left

def parseTemporalImplies (disjunction : Parser TemporalAst) : ℕ → Parser TemporalAst
  | 0 => raise .diverges
  | fuel + 1 => do
      let left ← disjunction
      if ← matchOperator (js "->") then
        let _ ← consume
        let right ← parseTemporalImplies disjunction fuel
        return .implies left right
      else return left

def parseTemporalIff (fuel : ℕ) (logic : FormalVerificationLogic) (unary : Parser TemporalAst) :
    Parser TemporalAst := do
  let operand := parseTemporalImplies (parseTemporalOr fuel logic unary) fuel
  let left ← operand
  parseChain iffOperator (fun _ ↦ .iff) operand fuel left

/-- `A[ ... U ... ]` and `E[ ... U ... ]` after the quantifier. -/
def parseQuantified (temporal : Parser TemporalAst) (quant : JsString) :
    Parser (TemporalAst × TemporalAst) := do
  let _ ← expectPunct (js "[")
  let left ← temporal
  if !(← matchKeyword (js "U")) then
    cursorError (js "expected 'U' inside " ++ quant ++ js "[ ... U ... ]")
  else
    let _ ← consume
    let right ← temporal
    let _ ← expectPunct (js "]")
    return (left, right)

def parseTemporalAtom (fuel : ℕ) (temporal : Parser TemporalAst) : Parser TemporalAst := do
  if ← matchPunct (js "(") then
    let _ ← consume
    let inner ← temporal
    let _ ← expectPunct (js ")")
    return inner
  else return .atom (← parseRelation fuel (parsePrimary fuel))

def parseTemporalUnary (logic : FormalVerificationLogic) : ℕ → Parser TemporalAst
  | 0 => raise .diverges
  | fuel + 1 => do
      let temporal := parseTemporalIff fuel logic (parseTemporalUnary logic fuel)
      let tok ← peek
      if tok.isPunct (js "!") then
        let _ ← consume
        return .not (← parseTemporalUnary logic fuel)
      else
        match (unaryOperators logic).find? (fun operator ↦ tok.isKeyword operator.1) with
        | some (_, build) =>
            let _ ← consume
            return build (← parseTemporalUnary logic fuel)
        | none =>
            if logic = .CTL ∧ tok.isKeyword (js "A") then
              let _ ← consume
              let (left, right) ← parseQuantified temporal (js "A")
              return .AU left right
            else if logic = .CTL ∧ tok.isKeyword (js "E") then
              let _ ← consume
              let (left, right) ← parseQuantified temporal (js "E")
              return .EU left right
            else parseTemporalAtom fuel temporal

def parseTemporal (fuel : ℕ) (logic : FormalVerificationLogic) : Parser TemporalAst :=
  parseTemporalIff fuel logic (parseTemporalUnary logic fuel)

/-! ## Sections -/

/-- The values of an enumeration up to the closing brace. -/
def parseEnumValues : ℕ → List JsString → Parser (List JsString)
  | 0, _ => raise .diverges
  | fuel + 1, values => do
      if ← matchPunct (js "\x7d") then return values
      let tok ← consume
      if tok.kind = .ident ∨ tok.kind = .int ∨ tok.isKeyword (js "TRUE") ∨
          tok.isKeyword (js "FALSE") then
        if ← matchPunct (js ",") then
          let _ ← consume
          parseEnumValues fuel (values ++ [tok.value])
        else return values ++ [tok.value]
      else errorAt tok (js "expected enum value, got " ++ describe tok)

/-- The domain of a range with the given lower bound. -/
def parseRange (name : JsString) : Parser SpecVariable := do
  let minTok ← consume
  let min := stringToNumber minTok.value
  if !(← matchOperator (js "..")) then cursorError (js "expected '..' in range domain")
  let _ ← consume
  let maxTok ← peek
  if maxTok.kind ≠ .int then cursorError (js "expected upper bound integer in range domain")
  let _ ← consume
  let max := stringToNumber maxTok.value
  let _ ← expectPunct (js ";")
  let bounds := numberText min ++ js ".." ++ numberText max
  if max.lt min then
    raise (.model (js "range domain of " ++ name ++ js " is empty (" ++ bounds ++ js ")"))
  if JsNumber.lt 256 (max.sub min) then
    raise (.model (js "range domain of " ++ name ++ js " too wide: " ++ bounds))
  return .range name min max

/-- One declaration after its name. -/
def parseDomain (fuel : ℕ) (name : JsString) : Parser SpecVariable := do
  let _ ← expectPunct (js ":")
  if ← matchPunct (js "\x7b") then
    let _ ← consume
    let values ← parseEnumValues fuel []
    let _ ← expectPunct (js "\x7d")
    let _ ← expectPunct (js ";")
    if values = [] then raise (.model (js "enum domain of " ++ name ++ js " is empty"))
    return .enum name values
  else if (← peek).kind = .int then parseRange name
  else if ← matchKeyword (js "boolean") then
    let _ ← consume
    let _ ← expectPunct (js ";")
    return .enum name [js "FALSE", js "TRUE"]
  else cursorError (js "unsupported variable type for " ++ name)

def parseVarSection : ℕ → List SpecVariable → Parser (List SpecVariable)
  | 0, _ => raise .diverges
  | fuel + 1, out => do
      let tok ← peek
      if tok.kind = .ident ∨ tok.isKeyword (js "main") then
        let nameTok ← consume
        let declared ← parseDomain fuel nameTok.value
        parseVarSection fuel (out ++ [declared])
      else return out

def parseAssignSection : ℕ → List SpecAssignment × List SpecAssignment →
    Parser (List SpecAssignment × List SpecAssignment)
  | 0, _ => raise .diverges
  | fuel + 1, (inits, nexts) => do
      let which ← peek
      if which.isKeyword (js "init") ∨ which.isKeyword (js "next") then
        let _ ← consume
        let _ ← expectPunct (js "(")
        let nameTok ← consume
        if nameTok.kind ≠ .ident then errorAt nameTok (js "expected variable name in init/next")
        let _ ← expectPunct (js ")")
        if !(← matchOperator (js ":=")) then cursorError (js "expected ':=' after init/next(...)")
        let _ ← consume
        let expr ← parseExpr fuel
        let _ ← expectPunct (js ";")
        let assignment : SpecAssignment := ⟨nameTok.value, expr⟩
        if which.isKeyword (js "init") then
          parseAssignSection fuel (inits ++ [assignment], nexts)
        else parseAssignSection fuel (inits, nexts ++ [assignment])
      else return (inits, nexts)

/-- A formula after its keyword. -/
def parseFormula (fuel : ℕ) (logic : FormalVerificationLogic) : Parser SpecFormula := do
  let ast ← parseTemporal fuel logic
  return ⟨logic, stringifyTemporal ast, ast⟩

/-- The loop over the sections of a module. -/
def parseSections : ℕ → ParsedSpec → Parser ParsedSpec
  | 0, _ => raise .diverges
  | fuel + 1, spec => do
      let tok ← peek
      if tok.kind = .eof then return spec
      else if tok.isKeyword (js "VAR") then
        let _ ← consume
        let declared ← parseVarSection fuel spec.specVariables
        parseSections fuel { spec with specVariables := declared }
      else if tok.isKeyword (js "ASSIGN") then
        let _ ← consume
        let (inits, nexts) ← parseAssignSection fuel (spec.inits, spec.nexts)
        parseSections fuel { spec with inits := inits, nexts := nexts }
      else if tok.isKeyword (js "LTLSPEC") then
        let _ ← consume
        let formula ← parseFormula fuel .LTL
        parseSections fuel { spec with formulae := spec.formulae ++ [formula] }
      else if tok.isKeyword (js "CTLSPEC") then
        let _ ← consume
        let formula ← parseFormula fuel .CTL
        parseSections fuel { spec with formulae := spec.formulae ++ [formula] }
      else if tok.isKeyword (js "DEFINE") then
        cursorError
          (js "DEFINE sections are not supported; inline the predicate in the formula")
      else errorAt tok (js "unexpected token at top level: " ++ describe tok)

def parseModule (fuel : ℕ) : Parser ParsedSpec := do
  let _ ← expectKeyword (js "MODULE")
  let nameTok ← consume
  if nameTok.kind ≠ .keyword ∧ nameTok.kind ≠ .ident then
    errorAt nameTok (js "expected module name after MODULE")
  let spec ← parseSections fuel ⟨nameTok.value, [], [], [], []⟩
  if spec.specVariables = [] then raise (.model (js "spec declares no variables"))
  if spec.inits.isEmpty then raise (.model (js "spec declares no init() rules"))
  if spec.formulae.isEmpty then
    raise (.model (js "spec declares no LTLSPEC / CTLSPEC formulae"))
  return spec

/-- `Buffer.byteLength(source, "utf8")`; a lone surrogate takes the three bytes of
the replacement character. -/
def utf8Length : JsString → ℕ
  | [] => 0
  | [u] => if u < 0x80 then 1 else if u < 0x800 then 2 else 3
  | u :: v :: rest =>
      if isLeadSurrogate u ∧ isTrailSurrogate v then 4 + utf8Length rest
      else (if u < 0x80 then 1 else if u < 0x800 then 2 else 3) + utf8Length (v :: rest)

def parseSpec (source : JsString) : Except VerificationError ParsedSpec :=
  if maxSpecBytes < utf8Length source then
    .error (.parse 1 1 (js "spec exceeds max size 65536 bytes"))
  else
    match tokenize source with
    | .error error => .error error
    | .ok tokens => (parseModule (tokens.length + 1)).run' tokens

end TestIntelligence.AgenticHarness.FormalVerification
