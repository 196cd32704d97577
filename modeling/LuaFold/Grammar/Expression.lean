import LuaFold.Grammar.Function

/-!
# Expressions

An expression is an operand followed by operators that bind tighter than a limit, each with
its right operand.  An operator has a binding power on either side: for one that groups to
the left both are equal, for one that groups to the right the right one is smaller.

Every operand of an operator, and everything in parentheses, brackets or braces, is one
nesting level deeper.
-/

namespace LuaFold.Grammar

/-- The binding power of an operator that stands before its operand. -/
def unaryPower : Nat :=
  12

/-- The binding powers of an operator towards its left and its right operand. -/
def binaryPower? : Kind → Option (Nat × Nat)
  | .orKw => some (1, 1)
  | .andKw => some (2, 2)
  | .lt | .gt | .lteq | .gteq | .neq | .eq2 => some (3, 3)
  | .pipe => some (4, 4)
  | .tilde => some (5, 5)
  | .amp => some (6, 6)
  | .shl | .shr => some (7, 7)
  | .dot2 => some (9, 8)
  | .plus | .minus => some (10, 10)
  | .star | .slash | .doubleSlash | .percent => some (11, 11)
  | .caret => some (14, 13)
  | _ => none

/-- The kinds that no expression begins with and that an enclosing rule can use. -/
def afterExpression : KindSet :=
  .ofList
    [.endKw, .elseKw, .elseifKw, .untilKw, .thenKw, .doKw, .inKw, .rightParen, .rightBracket,
     .rightBrace, .semicolon, .comma, .localKw, .returnKw, .ifKw, .whileKw, .forKw, .repeatKw,
     .breakKw, .gotoKw, .doubleColon, .eof]

/-- The content of a table field. -/
def fieldContent (deeper : Deeper) (state : State) : State :=
  if state.isAt .leftBracket then
    let key := (deeper.anyExpression state.advance).expect .rightBracket
    deeper.anyExpression (key.expect .eq)
  else if state.isAt .name && state.following = .eq then
    deeper.anyExpression state.advance.advance
  else deeper.anyExpression state

/-- One table field and the separator behind it.  A field without tokens ends the table. -/
def field (deeper : Deeper) (state : State) : Turn State :=
  if state.isAt .rightBrace || state.isAt .eof then .last state
  else
    let content := fieldContent deeper state.start
    if content.position = state.position then .last content.abandon
    else
      let complete := content.complete .tableField
      if complete.isAt .comma || complete.isAt .semicolon then .next complete.advance
      else .last complete

/-- A table constructor. -/
def table (deeper : Deeper) (state : State) : State :=
  ((state.start.advance.loop (field deeper)).expect .rightBrace).complete .tableExpr

/-- The arguments of a call: a list in parentheses, a table or a string. -/
def arguments (deeper : Deeper) (state : State) : State :=
  let opened := state.start
  let filled :=
    if opened.isAt .leftParen then
      let inside := opened.advance
      (if inside.isAt .rightParen then inside else deeper.expressionList inside).expect .rightParen
    else if opened.isAt .leftBrace then table deeper opened
    else if opened.isAt .string then opened.advance
    else opened.report .expectedArguments
  filled.complete .argList

/-- A name or an expression in parentheses, with the kind of node that it is. -/
def primary (deeper : Deeper) (state : State) : Option Kind × State :=
  if state.isAt .name then (some .nameRef, state.start.advance.complete .nameRef)
  else if state.isAt .leftParen then
    let inside := deeper.anyExpression state.start.advance
    (some .parenExpr, (inside.expect .rightParen).complete .parenExpr)
  else (none, state.recover .expectedExpression afterExpression)

/-- One field access, index or call behind an expression. -/
def suffix (deeper : Deeper) (reached : Kind × State) : Turn (Kind × State) :=
  let (_, state) := reached
  if state.isAt .dot then
    .next (.fieldExpr, (state.precede.advance.expect .name).complete .fieldExpr)
  else if state.isAt .leftBracket then
    let inside := deeper.anyExpression state.precede.advance
    .next (.indexExpr, (inside.expect .rightBracket).complete .indexExpr)
  else if state.isAt .colon then
    let named := state.precede.advance.expect .name
    .next (.methodCallExpr, (arguments deeper named).complete .methodCallExpr)
  else if state.isAt .leftParen || state.isAt .string || state.isAt .leftBrace then
    .next (.callExpr, (arguments deeper state.precede).complete .callExpr)
  else .last reached

/-- A primary expression with all suffixes, and the kind of node that it is. -/
def suffixed (deeper : Deeper) (state : State) : Option Kind × State :=
  match primary deeper state with
  | (none, state) => (none, state)
  | (some kind, state) =>
    let reached := iterate (suffix deeper) state.ahead (kind, state)
    (some reached.1, reached.2)

/-- An expression without operators, and whether there is one. -/
def simpleExpression (deeper : Deeper) (state : State) : Bool × State :=
  match state.current with
  | .number | .string | .nilKw | .trueKw | .falseKw =>
    (true, state.start.advance.complete .literal)
  | .dot3 => (true, state.start.advance.complete .varargExpr)
  | .leftBrace => (true, table deeper state)
  | .functionKw => (true, (functionBody deeper state.start.advance).complete .functionExpr)
  | _ =>
    let reached := suffixed deeper state
    (reached.1.isSome, reached.2)

/-- An operand with an operator before it, if any, and whether there is one. -/
def operand (deeper : Deeper) (state : State) : Bool × State :=
  match state.current with
  | .notKw | .minus | .hash | .tilde =>
    (true, (deeper.expression unaryPower state.start.advance).complete .prefixExpr)
  | _ => simpleExpression deeper state

/-- One operator that binds tighter than a limit, and its right operand. -/
def operation (deeper : Deeper) (limit : Nat) (state : State) : Turn State :=
  match binaryPower? state.current with
  | none => .last state
  | some (left, right) =>
    if left ≤ limit then .last state
    else .next ((deeper.expression right state.precede.advance).complete .binaryExpr)

/-- An operand and the operations behind it that bind tighter than a limit. -/
def operations (deeper : Deeper) (limit : Nat) (state : State) : State :=
  let (found, state) := operand deeper state
  if found then state.loop (operation deeper limit) else state

end LuaFold.Grammar
