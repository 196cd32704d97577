import LuaFold.Grammar.Chunk

/-!
# Code of the rules

A parser runs its rules one call inside another, in loops that nothing bounds.  The rules are
written down here as code, which can be taken step by step: code changes the state of the parse
by a single operation, looks at the state, calls a rule, goes into a construct that is one
nesting level deeper, or repeats a round.  A rule is called directly or, where it reads the inside
of a construct, through the nesting level; nothing else leads from a rule into another one.
-/

namespace LuaFold.Grammar.Machine

/-- The change that a piece of code makes to a state by itself. -/
inductive Operation where
  | record (action : Action)
  | report (fault : SyntaxFault)
  | advance

/-- Perform an operation. -/
def Operation.perform : Operation → State → State
  | .record action, state => state.record action
  | .report fault, state => state.report fault
  | .advance, state => state.advance

/-- What is read one nesting level deeper. -/
inductive Construct where
  | statements (terminators : KindSet)
  | operations (limit : Nat)

/-- The rules that call each other. -/
inductive Rule where
  | chunk
  | block (terminators : KindSet)
  | nestedBlock
  | functionBody
  | parameters
  | nameList
  | expressionList
  | anyExpression
  | expression (limit : Nat)
  | simpleExpression
  | suffixed
  | primary
  | arguments
  | table
  | field
  | statement
  | ifStatement
  | forStatement
  | functionStatement
  | localFunctionStatement
  | localStatement
  | returnStatement
  | expressionStatement
  | skip
  | inside (construct : Construct)

/-- What a rule tells its caller: the kind of the node it read, whether it read one, or nothing. -/
@[reducible]
def Rule.Result : Rule → Type
  | .suffixed | .primary => Option Kind
  | .simpleExpression | .field => Bool
  | _ => Unit

/-- Code that ends with a value. -/
inductive Code : Type → Type 1 where
  | give {Value : Type} (value : Value) : Code Value
  | perform {Value : Type} (operation : Operation) (rest : Code Value) : Code Value
  | look {Value : Type} (rest : State → Code Value) : Code Value
  | call {Value : Type} (rule : Rule) (rest : rule.Result → Code Value) : Code Value
  | deeper {Value : Type} (construct : Construct) (rest : Code Value) : Code Value
  | loop
      {Value Carried : Type}
      (round : Carried → Code (Turn Carried))
      (start : Carried)
      (rest : Carried → Code Value) :
      Code Value

namespace Code

variable {Value Next Carried : Type}

/-- One piece of code after another. -/
def andThen : {Value : Type} → Code Value → (Value → Code Next) → Code Next
  | _, .give value, next => next value
  | _, .perform operation rest, next => .perform operation (rest.andThen next)
  | _, .look rest, next => .look fun state => (rest state).andThen next
  | _, .call rule rest, next => .call rule fun result => (rest result).andThen next
  | _, .deeper construct rest, next => .deeper construct (rest.andThen next)
  | _, .loop round start rest, next => .loop round start fun carried => (rest carried).andThen next

instance : Monad Code where
  pure := .give
  bind := .andThen

/-- The state of the parse. -/
def get : Code State :=
  .look .give

/-- A single operation. -/
def operate (operation : Operation) : Code Unit :=
  .perform operation (.give ())

abbrev start : Code Unit :=
  operate (.record .start)

abbrev complete (kind : Kind) : Code Unit :=
  operate (.record (.complete kind))

abbrev abandon : Code Unit :=
  operate (.record .abandon)

abbrev precede : Code Unit :=
  operate (.record .precede)

abbrev takeEnd : Code Unit :=
  operate (.record .advance)

abbrev report (fault : SyntaxFault) : Code Unit :=
  operate (.report fault)

abbrev advance : Code Unit :=
  operate .advance

/-- Call a rule. -/
def visit (rule : Rule) : Code Unit :=
  .call rule fun _ => .give ()

/-- Call a rule for what it tells. -/
def ask (rule : Rule) : Code rule.Result :=
  .call rule .give

/-- Read a construct that is one nesting level deeper. -/
def descend (construct : Construct) : Code Unit :=
  .deeper construct (.give ())

/-- Repeat a round until it was the last. -/
def repeated (start : Carried) (round : Carried → Code (Turn Carried)) : Code Carried :=
  .loop round start .give

/-- Take the current token if it has a kind, and report its absence otherwise. -/
def expect (kind : Kind) : Code Unit := do
  if (← get).isAt kind then advance else report (.expected kind)

/-- Take the current token if it has a kind. -/
def accept (kind : Kind) : Code Unit := do
  if (← get).isAt kind then advance else pure ()

/-- Report a fault and put the current token into an error node. -/
def reportAndAdvance (fault : SyntaxFault) : Code Unit := do
  if (← get).isAt .eof then report fault
  else
    start
    report fault
    advance
    complete .error

/-- Report a fault and skip the current token, unless an enclosing rule can use it. -/
def recover (fault : SyntaxFault) (usable : KindSet) : Code Unit := do
  if (← get).isIn usable then report fault else reportAndAdvance fault

/-- A separator and the item behind it. -/
def separatedRound (separator : Kind) (item : Code Unit) : Code (Turn Unit) := do
  if (← get).isAt separator then
    advance
    item
    pure (.next ())
  else pure (.last ())

/-- Take further items as long as a separator stands before each. -/
def separated (separator : Kind) (item : Code Unit) : Code Unit :=
  repeated () fun _ => separatedRound separator item

end Code

open Code

/-! ## Functions -/

/-- One parameter and the comma behind it. -/
def parameterRound : Code (Turn Unit) := do
  let state ← get
  if state.isAt .rightParen || state.isAt .eof then pure (.last ())
  else if state.isAt .name then
    start
    advance
    complete .param
    if (← get).isAt .comma then
      advance
      pure (.next ())
    else pure (.last ())
  else if state.isAt .dot3 then
    start
    advance
    complete .param
    pure (.last ())
  else
    report .expectedParameterName
    pure (.last ())

/-- The dotted name of a function with the name of a method behind it, if any. -/
def functionNameCode : Code Unit := do
  if (← get).isAt .name then
    start
    advance
    separated .dot (expect .name)
    if (← get).isAt .colon then
      advance
      expect .name
    complete .funcName
  else report .expectedFunctionName

/-! ## Expressions -/

/-- The content of a table field. -/
def fieldContentCode : Code Unit := do
  let state ← get
  if state.isAt .leftBracket then
    advance
    visit .anyExpression
    expect .rightBracket
    expect .eq
    visit .anyExpression
  else if state.isAt .name && state.following = .eq then
    advance
    advance
    visit .anyExpression
  else visit .anyExpression

/-- One table field and the separator behind it.  A field without tokens ends the table. -/
def fieldRound : Code (Turn Unit) := do
  let state ← get
  if state.isAt .rightBrace || state.isAt .eof then pure (.last ())
  else
    let filled ← ask .field
    if filled then
      let behind ← get
      if behind.isAt .comma || behind.isAt .semicolon then
        advance
        pure (.next ())
      else pure (.last ())
    else pure (.last ())

/-- One field access, index or call behind an expression. -/
def suffixRound (kind : Kind) : Code (Turn Kind) := do
  let state ← get
  if state.isAt .dot then
    precede
    advance
    expect .name
    complete .fieldExpr
    pure (.next .fieldExpr)
  else if state.isAt .leftBracket then
    precede
    advance
    visit .anyExpression
    expect .rightBracket
    complete .indexExpr
    pure (.next .indexExpr)
  else if state.isAt .colon then
    precede
    advance
    expect .name
    visit .arguments
    complete .methodCallExpr
    pure (.next .methodCallExpr)
  else if state.isAt .leftParen || state.isAt .string || state.isAt .leftBrace then
    precede
    visit .arguments
    complete .callExpr
    pure (.next .callExpr)
  else pure (.last kind)

/-- An operand with an operator before it, if any, and whether there is one. -/
def operandCode : Code Bool := do
  match (← get).current with
  | .notKw | .minus | .hash | .tilde =>
    start
    advance
    visit (.expression unaryPower)
    complete .prefixExpr
    pure true
  | _ => ask .simpleExpression

/-- One operator that binds tighter than a limit, and its right operand. -/
def operationRound (limit : Nat) : Code (Turn Unit) := do
  match binaryPower? (← get).current with
  | none => pure (.last ())
  | some (left, right) =>
    if left ≤ limit then pure (.last ())
    else
      precede
      advance
      visit (.expression right)
      complete .binaryExpr
      pure (.next ())

/-! ## Statements -/

/-- One `elseif` clause. -/
def elseIfRound : Code (Turn Unit) := do
  if (← get).isAt .elseifKw then
    start
    advance
    visit .anyExpression
    expect .thenKw
    visit .nestedBlock
    complete .elseIfClause
    pure (.next ())
  else pure (.last ())

/-- The `else` clause, if there is one. -/
def elseClauseCode : Code Unit := do
  if (← get).isAt .elseKw then
    start
    advance
    visit .nestedBlock
    complete .elseClause
  else pure ()

/-- The limits and the step of a loop over numbers. -/
def numericRangeCode : Code Unit := do
  advance
  advance
  visit .anyExpression
  expect .comma
  visit .anyExpression
  if (← get).isAt .comma then
    advance
    visit .anyExpression

/-- A local name with its attribute, if any. -/
def localNameCode : Code Unit := do
  start
  expect .name
  if (← get).isAt .lt then
    start
    advance
    expect .name
    expect .gt
    complete .attrib
  complete .localName

/-- A local name and the comma behind it. -/
def localNameRound : Code (Turn Unit) := do
  localNameCode
  if (← get).isAt .comma then
    advance
    pure (.next ())
  else pure (.last ())

/-- The targets and the values of an assignment whose first target has been read. -/
def assignmentCode : Code Unit := do
  precede
  separated .comma (visit .suffixed)
  complete .varList
  precede
  expect .eq
  visit .expressionList
  complete .assignStmt

/-- One statement, unless the end of the text or one of a set of kinds is next. -/
def statementRound (terminators : KindSet) : Code (Turn Unit) := do
  let state ← get
  if state.isAt .eof || state.isIn terminators then pure (.last ())
  else
    visit .statement
    pure (.next ())

/-- One token of a skipped construct, below a number of constructs opened in it. -/
def skipRound (opened : Nat) : Code (Turn Nat) := do
  let state ← get
  if state.isAt .eof then pure (.last opened)
  else if state.isIn State.opening then
    advance
    pure (.next (opened + 1))
  else if state.isIn State.closing then
    if opened = 0 then pure (.last opened)
    else
      advance
      pure (.next (opened - 1))
  else if opened = 0 && (state.isAt .elseKw || state.isAt .elseifKw) then pure (.last opened)
  else
    advance
    pure (.next opened)

/-! ## Rules -/

/-- The code of a rule. -/
def Rule.body : (rule : Rule) → Code rule.Result
  | .chunk => do
    start
    visit (.block .empty)
    takeEnd
    complete .chunk
  | .block terminators => do
    start
    descend (.statements terminators)
    complete .block
  | .nestedBlock => visit (.block blockEnd)
  | .functionBody => do
    start
    if (← get).isAt .leftParen then visit .parameters else report (.expected .leftParen)
    visit .nestedBlock
    expect .endKw
    complete .funcBody
  | .parameters => do
    start
    advance
    repeated () fun _ => parameterRound
    expect .rightParen
    complete .paramList
  | .nameList => do
    start
    expect .name
    separated .comma (expect .name)
    complete .nameList
  | .expressionList => do
    start
    visit .anyExpression
    separated .comma (visit .anyExpression)
    complete .exprList
  | .anyExpression => visit (.expression 0)
  | .expression limit => descend (.operations limit)
  | .simpleExpression => do
    match (← get).current with
    | .number | .string | .nilKw | .trueKw | .falseKw =>
      start
      advance
      complete .literal
      pure true
    | .dot3 =>
      start
      advance
      complete .varargExpr
      pure true
    | .leftBrace =>
      visit .table
      pure true
    | .functionKw =>
      start
      advance
      visit .functionBody
      complete .functionExpr
      pure true
    | _ =>
      let found ← ask .suffixed
      pure found.isSome
  | .suffixed => do
    match ← ask .primary with
    | none => pure none
    | some kind =>
      let outermost ← repeated kind suffixRound
      pure (some outermost)
  | .primary => do
    let state ← get
    if state.isAt .name then
      start
      advance
      complete .nameRef
      pure (some .nameRef)
    else if state.isAt .leftParen then
      start
      advance
      visit .anyExpression
      expect .rightParen
      complete .parenExpr
      pure (some .parenExpr)
    else
      recover .expectedExpression afterExpression
      pure none
  | .arguments => do
    start
    let state ← get
    if state.isAt .leftParen then
      advance
      if (← get).isAt .rightParen then pure () else visit .expressionList
      expect .rightParen
    else if state.isAt .leftBrace then visit .table
    else if state.isAt .string then advance
    else report .expectedArguments
    complete .argList
  | .table => do
    start
    advance
    repeated () fun _ => fieldRound
    expect .rightBrace
    complete .tableExpr
  | .field => do
    let position := (← get).position
    start
    fieldContentCode
    if (← get).position = position then
      abandon
      pure false
    else
      complete .tableField
      pure true
  | .statement => do
    let state ← get
    match state.current with
    | .semicolon =>
      start
      advance
      complete .emptyStmt
    | .doubleColon =>
      start
      advance
      expect .name
      expect .doubleColon
      complete .labelStmt
    | .breakKw =>
      start
      advance
      complete .breakStmt
    | .gotoKw =>
      start
      advance
      expect .name
      complete .gotoStmt
    | .doKw =>
      start
      advance
      visit .nestedBlock
      expect .endKw
      complete .doStmt
    | .whileKw =>
      start
      advance
      visit .anyExpression
      expect .doKw
      visit .nestedBlock
      expect .endKw
      complete .whileStmt
    | .repeatKw =>
      start
      advance
      visit .nestedBlock
      expect .untilKw
      visit .anyExpression
      complete .repeatStmt
    | .ifKw => visit .ifStatement
    | .forKw => visit .forStatement
    | .functionKw => visit .functionStatement
    | .localKw =>
      if state.following = .functionKw then visit .localFunctionStatement else visit .localStatement
    | .returnKw => visit .returnStatement
    | .name | .leftParen => visit .expressionStatement
    | _ => reportAndAdvance .expectedStatement
  | .ifStatement => do
    start
    advance
    visit .anyExpression
    expect .thenKw
    visit .nestedBlock
    repeated () fun _ => elseIfRound
    elseClauseCode
    expect .endKw
    complete .ifStmt
  | .forStatement => do
    start
    advance
    let kind ←
      if (← get).following = .eq then do
        numericRangeCode
        pure .numericForStmt
      else do
        visit .nameList
        expect .inKw
        visit .expressionList
        pure .genericForStmt
    expect .doKw
    visit .nestedBlock
    expect .endKw
    complete kind
  | .functionStatement => do
    start
    advance
    functionNameCode
    visit .functionBody
    complete .functionStmt
  | .localFunctionStatement => do
    start
    advance
    advance
    expect .name
    visit .functionBody
    complete .localFunctionStmt
  | .localStatement => do
    start
    advance
    repeated () fun _ => localNameRound
    if (← get).isAt .eq then
      advance
      visit .expressionList
    complete .localStmt
  | .returnStatement => do
    start
    advance
    if (← get).isIn (blockEnd.union (.ofList [.semicolon, .eof])) then pure ()
    else visit .expressionList
    accept .semicolon
    complete .returnStmt
  | .expressionStatement => do
    match ← ask .suffixed with
    | none => pure ()
    | some kind =>
      let state ← get
      if state.isAt .eq || state.isAt .comma then assignmentCode
      else if kind = .callExpr || kind = .methodCallExpr then
        precede
        complete .callStmt
      else
        report .expectedAssignmentOrCall
        precede
        complete .error
  | .skip => do
    let position := (← get).position
    start
    report .nestingTooDeep
    let _ ← repeated 0 skipRound
    if (← get).position = position then abandon else complete .error
  | .inside (.statements terminators) => repeated () fun _ => statementRound terminators
  | .inside (.operations limit) => do
    if ← operandCode then repeated () fun _ => operationRound limit else pure ()

/-! ## Calls -/

/-- Whether code calls a rule other than through a nesting level. -/
def Code.Calls (callee : Rule) : {Value : Type} → Code Value → Prop
  | _, .give _ => False
  | _, .perform _ rest => rest.Calls callee
  | _, .look rest => ∃ state, (rest state).Calls callee
  | _, .call rule rest => rule = callee ∨ ∃ result, (rest result).Calls callee
  | _, .deeper _ rest => rest.Calls callee
  | _, .loop round _ rest =>
    (∃ carried, (round carried).Calls callee) ∨ ∃ carried, (rest carried).Calls callee

/-- Whether a rule calls another one other than through a nesting level. -/
def Rule.Calls (caller callee : Rule) : Prop :=
  caller.body.Calls callee

/-- A rule whatever its arguments are. -/
def Rule.general : Rule → Rule
  | .block _ => .block .empty
  | .expression _ => .expression 0
  | .inside (.statements _) => .inside (.statements .empty)
  | .inside (.operations _) => .inside (.operations 0)
  | rule => rule

end LuaFold.Grammar.Machine
