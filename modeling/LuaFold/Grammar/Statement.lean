import LuaFold.Grammar.Expression

/-!
# Statements

The current token decides which statement follows.  A name or a parenthesis begins an
assignment or a call, which only the text behind the first expression tells apart.
-/

namespace LuaFold.Grammar

/-- One `elseif` clause. -/
def elseIfClause (deeper : Deeper) (state : State) : Turn State :=
  if state.isAt .elseifKw then
    let condition := deeper.anyExpression state.start.advance
    .next ((deeper.nestedBlock (condition.expect .thenKw)).complete .elseIfClause)
  else .last state

/-- The `else` clause, if there is one. -/
def elseClause (deeper : Deeper) (state : State) : State :=
  if state.isAt .elseKw then (deeper.nestedBlock state.start.advance).complete .elseClause
  else state

/-- A conditional statement. -/
def ifStatement (deeper : Deeper) (state : State) : State :=
  let condition := deeper.anyExpression state.start.advance
  let body := deeper.nestedBlock (condition.expect .thenKw)
  let clauses := elseClause deeper (body.loop (elseIfClause deeper))
  (clauses.expect .endKw).complete .ifStmt

/-- Names with commas between them. -/
def nameList (state : State) : State :=
  ((state.start.expect .name).separated .comma fun state => state.expect .name).complete
    .nameList

/-- The limits and the step of a loop over numbers. -/
def numericRange (deeper : Deeper) (state : State) : State :=
  let first := deeper.anyExpression state.advance.advance
  let second := deeper.anyExpression (first.expect .comma)
  if second.isAt .comma then deeper.anyExpression second.advance else second

/-- A loop over numbers or over the values of an iterator. -/
def forStatement (deeper : Deeper) (state : State) : State :=
  let opened := state.start.advance
  let numeric := opened.following = .eq
  let headed :=
    if numeric then numericRange deeper opened
    else deeper.expressionList ((nameList opened).expect .inKw)
  ((deeper.nestedBlock (headed.expect .doKw)).expect .endKw).complete
    (if numeric then .numericForStmt else .genericForStmt)

/-- The dotted name of a function with the name of a method behind it, if any. -/
def functionName (state : State) : State :=
  if state.isAt .name then
    let dotted := state.start.advance.separated .dot fun state => state.expect .name
    (if dotted.isAt .colon then dotted.advance.expect .name else dotted).complete .funcName
  else state.report .expectedFunctionName

/-- The definition of a function under a global name, a field or a method. -/
def functionStatement (deeper : Deeper) (state : State) : State :=
  (functionBody deeper (functionName state.start.advance)).complete .functionStmt

/-- The definition of a local function. -/
def localFunctionStatement (deeper : Deeper) (state : State) : State :=
  (functionBody deeper (state.start.advance.advance.expect .name)).complete .localFunctionStmt

/-- A local name with its attribute, if any. -/
def localName (state : State) : State :=
  let named := state.start.expect .name
  let attributed :=
    if named.isAt .lt then
      ((named.start.advance.expect .name).expect .gt).complete .attrib
    else named
  attributed.complete .localName

/-- The declaration of local names. -/
def localStatement (deeper : Deeper) (state : State) : State :=
  let names := (localName state.start.advance).separated .comma localName
  (if names.isAt .eq then deeper.expressionList names.advance else names).complete .localStmt

/-- A statement that leaves a function, with the values it returns. -/
def returnStatement (deeper : Deeper) (state : State) : State :=
  let opened := state.start.advance
  let valueless := opened.isIn (blockEnd.union (.ofList [.semicolon, .eof]))
  ((if valueless then opened else deeper.expressionList opened).accept .semicolon).complete
    .returnStmt

/-- The targets and the values of an assignment whose first target has been read. -/
def assignment (deeper : Deeper) (state : State) : State :=
  let targets :=
    (state.precede.separated .comma fun state => (suffixed deeper state).2).complete .varList
  (deeper.expressionList (targets.precede.expect .eq)).complete .assignStmt

/-- An assignment or a call. -/
def expressionStatement (deeper : Deeper) (state : State) : State :=
  match suffixed deeper state with
  | (none, state) => state
  | (some kind, state) =>
    if state.isAt .eq || state.isAt .comma then assignment deeper state
    else if kind = .callExpr || kind = .methodCallExpr then state.precede.complete .callStmt
    else (state.report .expectedAssignmentOrCall).precede.complete .error

/-- One statement. -/
def statement (deeper : Deeper) (state : State) : State :=
  match state.current with
  | .semicolon => state.start.advance.complete .emptyStmt
  | .doubleColon =>
    ((state.start.advance.expect .name).expect .doubleColon).complete .labelStmt
  | .breakKw => state.start.advance.complete .breakStmt
  | .gotoKw => (state.start.advance.expect .name).complete .gotoStmt
  | .doKw => ((deeper.nestedBlock state.start.advance).expect .endKw).complete .doStmt
  | .whileKw =>
    let condition := deeper.anyExpression state.start.advance
    ((deeper.nestedBlock (condition.expect .doKw)).expect .endKw).complete .whileStmt
  | .repeatKw =>
    let body := deeper.nestedBlock state.start.advance
    (deeper.anyExpression (body.expect .untilKw)).complete .repeatStmt
  | .ifKw => ifStatement deeper state
  | .forKw => forStatement deeper state
  | .functionKw => functionStatement deeper state
  | .localKw =>
    if state.following = .functionKw then localFunctionStatement deeper state
    else localStatement deeper state
  | .returnKw => returnStatement deeper state
  | .name | .leftParen => expressionStatement deeper state
  | _ => state.reportAndAdvance .expectedStatement

/-- Statements up to the end of the text or one of a set of kinds. -/
def statements (deeper : Deeper) (terminators : KindSet) (state : State) : State :=
  state.loop fun state =>
    if state.isAt .eof || state.isIn terminators then .last state
    else .next (statement deeper state)

end LuaFold.Grammar
