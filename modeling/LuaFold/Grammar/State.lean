import LuaFold.Grammar.Action
import LuaFold.KindSet

/-!
# States of a parse

The grammar sees kinds of tokens only, so blank space, comments and the spelling of names
cannot change the shape of a tree.  A state holds the kinds still ahead, the actions decided
on and the faults reported so far; a fault stands at the token that was current.

Every token but the last can be advanced over.  The last is the end of the text, which is
taken once, when the whole chunk has been parsed.
-/

namespace LuaFold

/-- Why a text is not a chunk. -/
inductive SyntaxFault where
  | expected (kind : Kind)
  | expectedExpression
  | expectedStatement
  | expectedParameterName
  | expectedArguments
  | expectedFunctionName
  | expectedAssignmentOrCall
  | nestingTooDeep
deriving DecidableEq, Repr

/-- The message for a fault. -/
def SyntaxFault.message : SyntaxFault → String
  | .expected kind => "expected " ++ kind.describe
  | .expectedExpression => "expected expression"
  | .expectedStatement => "expected statement"
  | .expectedParameterName => "expected parameter name"
  | .expectedArguments => "expected arguments"
  | .expectedFunctionName => "expected function name"
  | .expectedAssignmentOrCall => "expected `=` or a call"
  | .nestingTooDeep => "nesting too deep"

namespace Grammar

/-- How a round of a loop ends: another round follows, or it was the last. -/
inductive Turn (State : Type) where
  | next (state : State)
  | last (state : State)

/--
Repeat a round until it was the last, at most once for each token of a list.  In a loop that
starts before these tokens every round but the last takes one of them, and none takes the end
of the text, so the list never runs out.
-/
def iterate {State : Type} (round : State → Turn State) : List Kind → State → State
  | [], state => state
  | _ :: tokens, state =>
    match round state with
    | .next state => iterate round tokens state
    | .last state => state

/--
A state of a parse: the kinds ahead, the number of tokens behind, and, newest first, the
actions and the faults so far.
-/
structure State where
  ahead : List Kind
  position : Nat
  actions : List Action
  faults : List (SyntaxFault × Nat)

namespace State

/-- The state before the first token. -/
def initial (kinds : List Kind) : State :=
  ⟨kinds, 0, [], []⟩

/-- The kind of the current token. -/
def current (state : State) : Kind :=
  state.ahead.headD .eof

/-- The kind of the token behind the current one. -/
def following (state : State) : Kind :=
  state.ahead.tail.headD .eof

/-- Whether the current token has a kind. -/
def isAt (state : State) (kind : Kind) : Bool :=
  state.current = kind

/-- Whether the kind of the current token is in a set. -/
def isIn (state : State) (set : KindSet) : Bool :=
  set.contains state.current

/-- Decide on an action. -/
def record (state : State) (action : Action) : State :=
  ⟨state.ahead, state.position, action :: state.actions, state.faults⟩

/-- Start a node. -/
def start (state : State) : State :=
  state.record .start

/-- Complete the node started last. -/
def complete (state : State) (kind : Kind) : State :=
  state.record (.complete kind)

/-- Give up the node started last. -/
def abandon (state : State) : State :=
  state.record .abandon

/-- Start a node around the element finished last. -/
def precede (state : State) : State :=
  state.record .precede

/-- Report a fault at the current token. -/
def report (state : State) (fault : SyntaxFault) : State :=
  ⟨state.ahead, state.position, state.actions, (fault, state.position) :: state.faults⟩

/-- Take the current token, unless it is the end of the text. -/
def advance (state : State) : State :=
  if state.isAt .eof then state
  else
    ⟨state.ahead.tail, state.position + 1, .advance :: state.actions, state.faults⟩

/-- Take the end of the text. -/
def takeEnd (state : State) : State :=
  state.record .advance

/-- Take the current token if it has a kind. -/
def accept (state : State) (kind : Kind) : State :=
  if state.isAt kind then state.advance else state

/-- Take the current token if it has a kind, and report its absence otherwise. -/
def expect (state : State) (kind : Kind) : State :=
  if state.isAt kind then state.advance else state.report (.expected kind)

/-- Report a fault and put the current token into an error node. -/
def reportAndAdvance (state : State) (fault : SyntaxFault) : State :=
  if state.isAt .eof then state.report fault
  else ((state.start.report fault).advance).complete .error

/-- Report a fault and skip the current token, unless an enclosing rule can use it. -/
def recover (state : State) (fault : SyntaxFault) (usable : KindSet) : State :=
  if state.isIn usable then state.report fault else state.reportAndAdvance fault

/-- Repeat a round until it was the last. -/
def loop (state : State) (round : State → Turn State) : State :=
  iterate round state.ahead state

/-- Take further items as long as a separator stands before each. -/
def separated (state : State) (separator : Kind) (item : State → State) : State :=
  state.loop fun state =>
    if state.isAt separator then .next (item state.advance) else .last state

/-- The kinds that begin a construct with a closing token of its own. -/
def opening : KindSet :=
  .ofList [.leftParen, .leftBracket, .leftBrace, .functionKw, .ifKw, .doKw, .repeatKw]

/-- The kinds that close a construct. -/
def closing : KindSet :=
  .ofList [.rightParen, .rightBracket, .rightBrace, .endKw, .untilKw]

/-- One token of a skipped construct, below a number of constructs opened in it. -/
def skipToken (inside : Nat × State) : Turn (Nat × State) :=
  let (depth, state) := inside
  if state.isAt .eof then .last inside
  else if state.isIn opening then .next (depth + 1, state.advance)
  else if state.isIn closing then
    if depth = 0 then .last inside else .next (depth - 1, state.advance)
  else if depth = 0 && (state.isAt .elseKw || state.isAt .elseifKw) then .last inside
  else .next (depth, state.advance)

/-- Advance to the token that closes the current construct. -/
def skipBalanced (state : State) : State :=
  (iterate skipToken state.ahead (0, state)).2

/-- Put the rest of a construct that is nested too deeply into an error node. -/
def skip (state : State) : State :=
  let skipped := (state.start.report .nestingTooDeep).skipBalanced
  if skipped.position = state.position then skipped.abandon else skipped.complete .error

end State

/-- The kinds of tokens that close a nested block. -/
def blockEnd : KindSet :=
  .ofList [.endKw, .elseKw, .elseifKw, .untilKw]

/--
The rules as they run one nesting level deeper: the statements of a block up to a set of
kinds, and an expression whose operators all bind tighter than a limit.
-/
structure Deeper where
  statements : KindSet → State → State
  expression : Nat → State → State

namespace Deeper

/-- A block up to a set of kinds. -/
def block (deeper : Deeper) (terminators : KindSet) (state : State) : State :=
  (deeper.statements terminators state.start).complete .block

/-- A block inside another construct. -/
def nestedBlock (deeper : Deeper) (state : State) : State :=
  deeper.block blockEnd state

/-- An expression with any operators. -/
def anyExpression (deeper : Deeper) (state : State) : State :=
  deeper.expression 0 state

/-- One or more expressions with commas between them. -/
def expressionList (deeper : Deeper) (state : State) : State :=
  ((deeper.anyExpression state.start).separated .comma deeper.anyExpression).complete .exprList

end Deeper

end Grammar

end LuaFold
