import TestIntelligence.AgenticHarness.FormalVerification.Evaluator
import TestIntelligence.Search.Saturation
import TestIntelligence.Temporal.Paths

/-!
# Building the Kripke structure

`buildKripke` of `formal-verification.ts`: a breadth-first search over valuations,
identified by their sorted texts.  A state without successors gets itself as its
successor, and the search is refused once the number of states passes the limit.
-/

namespace TestIntelligence.AgenticHarness.FormalVerification

open Js

structure FormalVerificationState where
  id : JsString
  valuation : Valuation
  deriving DecidableEq

structure KripkeStructure where
  states : List (JsString × FormalVerificationState)
  initial : List JsString
  transitions : List (JsString × List JsString)
  deriving DecidableEq

def stateId (valuation : Valuation) : JsString :=
  let keys := sortStrings (valuation.map Prod.fst)
  join (js "|") (keys.map fun key ↦
    key ++ 0x3D :: ((mapGet valuation key).map jsonText).getD (js "undefined"))

/-- The states found so far and the valuations still to expand. -/
structure Frontier where
  states : List (JsString × FormalVerificationState)
  queue : List Valuation

/-- Registers a valuation, and queues it when it is new. -/
def Frontier.visit (frontier : Frontier) (valuation : Valuation) : Frontier :=
  let id := stateId valuation
  if (mapGet frontier.states id).isSome then frontier
  else ⟨mapSet frontier.states id ⟨id, valuation⟩, frontier.queue ++ [valuation]⟩

/-- The loop over a list of valuations: the states and the distinct ids, in order. -/
def visitAll : List Valuation → Frontier → List JsString → Frontier × List JsString
  | [], frontier, ids => (frontier, ids)
  | valuation :: rest, frontier, ids =>
      visitAll rest (frontier.visit valuation) (setAdd ids (stateId valuation))

/-- The message of a refused build. -/
def limitMessage : JsString := js "reachable state count exceeds limit 4096"

/-- The `while` loop of `buildKripke`. -/
def explore (limit : ℕ) (spec : ParsedSpec) (enumLiterals : List JsString) :
    ℕ → Frontier → List (JsString × List JsString) →
      Eval (List (JsString × FormalVerificationState) × List (JsString × List JsString))
  | 0, _, _ => .error .diverges
  | fuel + 1, frontier, transitions =>
      match frontier.queue with
      | [] => .ok (frontier.states, transitions)
      | current :: rest =>
          if limit < frontier.states.length then .error (.model limitMessage)
          else do
            let successors ← nextValuations current spec.specVariables spec.nexts enumLiterals
            let (frontier', nextIds) := visitAll successors ⟨frontier.states, rest⟩ []
            explore limit spec enumLiterals fuel frontier'
              (mapSet transitions (stateId current)
                (if nextIds = [] then [stateId current] else nextIds))

/-- The build with an arbitrary state limit.  A state is queued once, so one turn
more than the limit allows is never taken. -/
def buildKripkeWithin (limit : ℕ) (spec : ParsedSpec) : Eval KripkeStructure := do
  let enumLiterals := collectEnumLiterals spec
  let valuations ← initialValuations spec.specVariables spec.inits enumLiterals
  let (frontier, initialStates) := visitAll valuations ⟨[], []⟩ []
  let (states, transitions) ← explore limit spec enumLiterals (limit + 2) frontier []
  return ⟨states, initialStates, transitions⟩

def buildKripke (spec : ParsedSpec) : Eval KripkeStructure := buildKripkeWithin stateLimit spec

end TestIntelligence.AgenticHarness.FormalVerification

/-!
## The CTL model checker

`predecessors` and `checkCtl` of `formal-verification.ts`, and their exactness:
on a total structure the checker ends and returns the states that satisfy the
formula over infinite paths.
-/

namespace TestIntelligence.AgenticHarness.FormalVerification

open Js Search Temporal

/-- `Array.from(kripke.states.keys())`. -/
def allStateIds (kripke : KripkeStructure) : List JsString := kripke.states.map Prod.fst

/-- `kripke.transitions.get(id) ?? []`. -/
def successorsOf (kripke : KripkeStructure) (id : JsString) : List JsString :=
  (mapGet kripke.transitions id).getD []

/-- Records a source in the bucket of one of its targets, when there is one. -/
def addPredecessor (preds : List (JsString × List JsString)) (source target : JsString) :
    List (JsString × List JsString) :=
  match mapGet preds target with
  | none => preds
  | some bucket => mapSet preds target (setAdd bucket source)

def predecessors (kripke : KripkeStructure) : List (JsString × List JsString) :=
  let preds := (allStateIds kripke).foldl (fun preds id ↦ mapSet preds id []) []
  kripke.transitions.foldl
    (fun preds p ↦ p.2.foldl (fun preds target ↦ addPredecessor preds p.1 target) preds) preds

structure CtlContext where
  kripke : KripkeStructure
  preds : List (JsString × List JsString)
  enumLiterals : List JsString

/-- The context in which `verifyFormalVerificationSpec` checks its formulae. -/
def KripkeStructure.context (kripke : KripkeStructure) (enumLiterals : List JsString) :
    CtlContext := ⟨kripke, predecessors kripke, enumLiterals⟩

/-- `state && atomSatisfies(...)` for the state of an id. -/
def stateSatisfies (context : CtlContext) (expr : ExprAst) (id : JsString) : Eval Bool :=
  match mapGet context.kripke.states id with
  | none => .ok false
  | some state => atomSatisfies expr state.valuation context.enumLiterals

/-- The loop of the `atom` case. -/
def checkAtom (context : CtlContext) (expr : ExprAst) : List JsString → Eval (List JsString)
  | [] => .ok []
  | id :: rest => do
      let holds ← stateSatisfies context expr id
      let out ← checkAtom context expr rest
      return if holds then id :: out else out

/-- The states outside a set. -/
def checkNot (context : CtlContext) (inner : List JsString) : List JsString :=
  (allStateIds context.kripke).filter (· ∉ inner)

def checkAnd (left right : List JsString) : List JsString := left.filter (· ∈ right)

/-- The result of a loop that must end. -/
def orDiverges {α : Type} : Option α → Eval α
  | none => .error .diverges
  | some out => .ok out

/-- The backward search of the `EF` and `EU` cases.  A state is queued once. -/
def searchBackward (context : CtlContext) (admits : JsString → Bool) (target : List JsString) :
    Eval (List JsString) :=
  orDiverges (grow (fun s ↦ (mapGet context.preds s).getD []) admits
    (context.kripke.states.length + 1) target target)

def checkEF (context : CtlContext) (target : List JsString) : Eval (List JsString) :=
  searchBackward context (fun _ ↦ true) target

def checkEU (context : CtlContext) (left right : List JsString) : Eval (List JsString) :=
  searchBackward context (· ∈ left) right

/-- The loop of the `EG` case.  Every turn but the last removes a state. -/
def checkEG (context : CtlContext) (phi : List JsString) : Eval (List JsString) :=
  orDiverges (shrink (fun current id ↦ (successorsOf context.kripke id).any (· ∈ current))
    (phi.length + 1) phi)

/-- `checkCtl`.  The cases `AF`, `AG` and `AU` check formulae built from their
operands; what these checks compute is written out. -/
def checkCtl (context : CtlContext) : TemporalAst → Eval (List JsString)
  | .atom expr => checkAtom context expr (allStateIds context.kripke)
  | .not operand => do
      let inner ← checkCtl context operand
      return checkNot context inner
  | .and left right => do
      let a ← checkCtl context left
      let b ← checkCtl context right
      return checkAnd a b
  | .or left right => do
      let a ← checkCtl context left
      let b ← checkCtl context right
      return b.foldl setAdd a
  | .implies left right => do
      let a ← checkCtl context left
      let b ← checkCtl context right
      return (allStateIds context.kripke).filter fun id ↦ id ∉ a ∨ id ∈ b
  | .iff left right => do
      let a ← checkCtl context left
      let b ← checkCtl context right
      return (allStateIds context.kripke).filter fun id ↦ decide (id ∈ a) = decide (id ∈ b)
  | .EX operand => do
      let inner ← checkCtl context operand
      return (allStateIds context.kripke).filter fun id ↦
        (successorsOf context.kripke id).any (· ∈ inner)
  | .AX operand => do
      let inner ← checkCtl context operand
      return (allStateIds context.kripke).filter fun id ↦
        0 < (successorsOf context.kripke id).length &&
          (successorsOf context.kripke id).all (· ∈ inner)
  | .EF operand => do
      let target ← checkCtl context operand
      checkEF context target
  | .AF operand => do
      let inner ← checkCtl context operand
      let egNeg ← checkEG context (checkNot context inner)
      return checkNot context egNeg
  | .EG operand => do
      let phi ← checkCtl context operand
      checkEG context phi
  | .AG operand => do
      let inner ← checkCtl context operand
      let efNeg ← checkEF context (checkNot context inner)
      return checkNot context efNeg
  | .EU left right => do
      let a ← checkCtl context left
      let b ← checkCtl context right
      checkEU context a b
  | .AU left right => do
      let b ← checkCtl context right
      let a ← checkCtl context left
      let notQ := checkNot context b
      let euNeg ← checkEU context notQ (checkAnd (checkNot context a) notQ)
      let egNotQ ← checkEG context notQ
      return (allStateIds context.kripke).filter fun id ↦ id ∉ euNeg ∧ id ∉ egNotQ
  | .G _ => fail (js "internal: untranslated LTL operator G reached CTL checker")
  | .F _ => fail (js "internal: untranslated LTL operator F reached CTL checker")
  | .X _ => fail (js "internal: untranslated LTL operator X reached CTL checker")
  | .U _ _ => fail (js "internal: untranslated LTL operator U reached CTL checker")

end TestIntelligence.AgenticHarness.FormalVerification
