import LuaFold.Kind

/-!
# Derivations of chunks

What the grammar of Lua 5.3 says a chunk is, as a relation between phrases and words of token
kinds, apart from any way to parse one.  Local names may have an attribute.

A derivation has a depth: the number of blocks and of expressions that stand inside each other
in it.  The right operand of an operator and the operand of a unary operator are expressions of
their own; a left operand is part of the expression that its operator belongs to.

Dialects of the grammar differ in three points.  A resolved derivation groups operators by their
precedence, where a plain one groups them in any way.  In a careful text a statement begins with
a parenthesis only where nothing in front can take the parenthesis for itself.  Only a strict
grammar keeps to the manual on loops over numbers, parameter lists, `return` and targets.
-/

namespace LuaFold.Grammar

/-- The points in which grammars of chunks differ. -/
structure Dialect where
  resolved : Bool
  careful : Bool
  strict : Bool

namespace Dialect

/-- The grammar of the manual, with attributes of local names. -/
def manual : Dialect :=
  ⟨false, false, true⟩

/-- The grammar of the manual, for texts that it does not leave ambiguous. -/
def carefulManual : Dialect :=
  ⟨false, true, true⟩

/-- A grammar that leaves out what only a strict one asks for. -/
def lenient : Dialect :=
  ⟨false, false, false⟩

/-- A dialect with the operators grouped by their precedence. -/
def resolve (dialect : Dialect) : Dialect :=
  ⟨true, dialect.careful, dialect.strict⟩

end Dialect

/-! ## Operators -/

/-- The precedence of an operator between two operands: the higher binds tighter. -/
def precedence? : Kind → Option Nat
  | .orKw => some 1
  | .andKw => some 2
  | .lt | .gt | .lteq | .gteq | .neq | .eq2 => some 3
  | .pipe => some 4
  | .tilde => some 5
  | .amp => some 6
  | .shl | .shr => some 7
  | .dot2 => some 8
  | .plus | .minus => some 9
  | .star | .slash | .doubleSlash | .percent => some 10
  | .caret => some 12
  | _ => none

/-- The loosest precedence. -/
def loosest : Nat :=
  1

/-- The precedence of operators that stand before their operand. -/
def unaryPrecedence : Nat :=
  11

/-- The operators that stand before their operand. -/
def isUnary : Kind → Bool
  | .notKw | .minus | .hash | .tilde => true
  | _ => false

/-- Whether the operators of a precedence group to the right: `..` and `^`. -/
def groupsRight (precedence : Nat) : Bool :=
  precedence = 8 || precedence = 12

/-- The least precedence of an operator in the left operand of another one. -/
def leftLeast (precedence : Nat) : Nat :=
  if groupsRight precedence then precedence + 1 else precedence

/--
The least precedence of an operator in the right operand of another one.  A unary operator
needs no parentheses to the right of `^`.
-/
def rightLeast (precedence : Nat) : Nat :=
  if precedence = 12 then unaryPrecedence
  else if groupsRight precedence then precedence
  else precedence + 1

/-- The constants, with `...` among them. -/
def isConstant : Kind → Bool
  | .number | .string | .nilKw | .trueKw | .falseKw | .dot3 => true
  | _ => false

/-! ## Lists of names -/

/-- Further names, each behind a separator. -/
inductive NameTail (separator : Kind) : List Kind → Prop where
  | done : NameTail separator []
  | more
      {names : List Kind}
      (others : NameTail separator names) :
      NameTail separator (separator :: .name :: names)

/-- Names of a function that may be a field, and may end in the name of a method. -/
inductive FunctionName : List Kind → Prop where
  | plain
      {fields : List Kind}
      (fieldNames : NameTail .dot fields) :
      FunctionName (.name :: fields)
  | method
      {fields : List Kind}
      (fieldNames : NameTail .dot fields) :
      FunctionName (.name :: (fields ++ [.colon, .name]))

/-- Parameters with commas between them; `...` is the last.  A loose list may end in a comma. -/
inductive Parameters (strict : Bool) : List Kind → Prop where
  | none : Parameters strict []
  | rest : Parameters strict [.dot3]
  | single : Parameters strict [.name]
  | more
      {names : List Kind}
      (others : Parameters strict names)
      (named : strict = true → names ≠ []) :
      Parameters strict (.name :: .comma :: names)

/-- A local name with an attribute, or without one. -/
inductive LocalName : List Kind → Prop where
  | plain : LocalName [.name]
  | attributed : LocalName [.name, .lt, .name, .gt]

/-- Further local names, each behind a comma. -/
inductive LocalTail : List Kind → Prop where
  | done : LocalTail []
  | more
      {name names : List Kind}
      (first : LocalName name)
      (others : LocalTail names) :
      LocalTail (.comma :: (name ++ names))

/-! ## Chunks -/

/-- What an expression without operators is good for. -/
inductive Role where
  | place
  | call
  | group
deriving DecidableEq

/--
What a word of token kinds can be.  Statements are fresh at the beginning of a block and behind
a semicolon.  The operators of an expression outside of its parts have a least precedence.
-/
inductive Phrase where
  | block
  | statements (fresh : Bool)
  | statement
  | leave
  | clauses
  | range
  | targets
  | targetTail
  | expressions
  | expressionTail
  | expression (least : Nat)
  | operations (least : Nat)
  | reference (role : Role)
  | arguments
  | table
  | fields
  | field
  | functionBody

/-- A word is derived from a phrase with blocks and expressions nested to a depth. -/
inductive Derives (dialect : Dialect) : Phrase → Nat → List Kind → Prop where
  | block
      {depth : Nat}
      {word : List Kind}
      (inside : Derives dialect (.statements true) depth word) :
      Derives dialect .block (depth + 1) word
  -- statements
  | nothing (fresh : Bool) : Derives dialect (.statements fresh) 0 []
  | semicolon
      {fresh : Bool}
      {depth : Nat}
      {word : List Kind}
      (others : Derives dialect (.statements true) depth word) :
      Derives dialect (.statements fresh) depth (.semicolon :: word)
  | next
      {fresh : Bool}
      {firstDepth depth : Nat}
      {first word : List Kind}
      (statement : Derives dialect .statement firstDepth first)
      (others : Derives dialect (.statements false) depth word)
      (apart : dialect.careful = true → fresh = false → first.head? ≠ some .leftParen) :
      Derives dialect (.statements fresh) (max firstDepth depth) (first ++ word)
  | last
      {fresh : Bool}
      {depth : Nat}
      {word : List Kind}
      (leave : Derives dialect .leave depth word) :
      Derives dialect (.statements fresh) depth word
  | early
      {fresh : Bool}
      {firstDepth depth : Nat}
      {first word : List Kind}
      (loose : dialect.strict = false)
      (leave : Derives dialect .leave firstDepth first)
      (others : Derives dialect (.statements false) depth word) :
      Derives dialect (.statements fresh) (max firstDepth depth) (first ++ word)
  | leaveNothing
      {stop : List Kind}
      (stops : stop = [] ∨ stop = [.semicolon]) :
      Derives dialect .leave 0 (.returnKw :: stop)
  | leaveValues
      {depth : Nat}
      {values stop : List Kind}
      (valued : Derives dialect .expressions depth values)
      (stops : stop = [] ∨ stop = [.semicolon]) :
      Derives dialect .leave depth (.returnKw :: (values ++ stop))
  | label : Derives dialect .statement 0 [.doubleColon, .name, .doubleColon]
  | leaveLoop : Derives dialect .statement 0 [.breakKw]
  | jump : Derives dialect .statement 0 [.gotoKw, .name]
  | doBlock
      {depth : Nat}
      {body : List Kind}
      (inside : Derives dialect .block depth body) :
      Derives dialect .statement depth (.doKw :: (body ++ [.endKw]))
  | whileLoop
      {testDepth depth : Nat}
      {test body : List Kind}
      (condition : Derives dialect (.expression loosest) testDepth test)
      (inside : Derives dialect .block depth body) :
      Derives dialect .statement (max testDepth depth)
        (.whileKw :: (test ++ .doKw :: (body ++ [.endKw])))
  | repeatLoop
      {depth testDepth : Nat}
      {body test : List Kind}
      (inside : Derives dialect .block depth body)
      (condition : Derives dialect (.expression loosest) testDepth test) :
      Derives dialect .statement (max depth testDepth)
        (.repeatKw :: (body ++ .untilKw :: test))
  | conditional
      {testDepth depth otherDepth : Nat}
      {test body others : List Kind}
      (condition : Derives dialect (.expression loosest) testDepth test)
      (inside : Derives dialect .block depth body)
      (clauses : Derives dialect .clauses otherDepth others) :
      Derives dialect .statement (max testDepth (max depth otherDepth))
        (.ifKw :: (test ++ .thenKw :: (body ++ others)))
  | numericLoop
      {rangeDepth depth : Nat}
      {counter : Kind}
      {range body : List Kind}
      (binds : counter = .name ∨ dialect.strict = false ∧ counter ≠ .eof)
      (limits : Derives dialect .range rangeDepth range)
      (inside : Derives dialect .block depth body) :
      Derives dialect .statement (max rangeDepth depth)
        (.forKw :: counter :: .eq :: (range ++ .doKw :: (body ++ [.endKw])))
  | genericLoop
      {valueDepth depth : Nat}
      {names values body : List Kind}
      (others : NameTail .comma names)
      (valued : Derives dialect .expressions valueDepth values)
      (inside : Derives dialect .block depth body) :
      Derives dialect .statement (max valueDepth depth)
        (.forKw :: .name :: (names ++ .inKw :: (values ++ .doKw :: (body ++ [.endKw]))))
  | function
      {depth : Nat}
      {name body : List Kind}
      (named : FunctionName name)
      (inside : Derives dialect .functionBody depth body) :
      Derives dialect .statement depth (.functionKw :: (name ++ body))
  | localFunction
      {depth : Nat}
      {body : List Kind}
      (inside : Derives dialect .functionBody depth body) :
      Derives dialect .statement depth (.localKw :: .functionKw :: .name :: body)
  | localNames
      {name names : List Kind}
      (first : LocalName name)
      (others : LocalTail names) :
      Derives dialect .statement 0 (.localKw :: (name ++ names))
  | localValues
      {depth : Nat}
      {name names values : List Kind}
      (first : LocalName name)
      (others : LocalTail names)
      (valued : Derives dialect .expressions depth values) :
      Derives dialect .statement depth (.localKw :: (name ++ (names ++ .eq :: values)))
  | assignment
      {targetDepth depth : Nat}
      {targets values : List Kind}
      (assigned : Derives dialect .targets targetDepth targets)
      (valued : Derives dialect .expressions depth values) :
      Derives dialect .statement (max targetDepth depth) (targets ++ .eq :: values)
  | callStatement
      {depth : Nat}
      {word : List Kind}
      (called : Derives dialect (.reference .call) depth word) :
      Derives dialect .statement depth word
  -- parts of statements
  | closed : Derives dialect .clauses 0 [.endKw]
  | otherwise
      {depth : Nat}
      {body : List Kind}
      (inside : Derives dialect .block depth body) :
      Derives dialect .clauses depth (.elseKw :: (body ++ [.endKw]))
  | elseIf
      {testDepth depth otherDepth : Nat}
      {test body others : List Kind}
      (condition : Derives dialect (.expression loosest) testDepth test)
      (inside : Derives dialect .block depth body)
      (clauses : Derives dialect .clauses otherDepth others) :
      Derives dialect .clauses (max testDepth (max depth otherDepth))
        (.elseifKw :: (test ++ .thenKw :: (body ++ others)))
  | bounds
      {lowDepth highDepth : Nat}
      {low high : List Kind}
      (first : Derives dialect (.expression loosest) lowDepth low)
      (second : Derives dialect (.expression loosest) highDepth high) :
      Derives dialect .range (max lowDepth highDepth) (low ++ .comma :: high)
  | stepped
      {lowDepth highDepth stepDepth : Nat}
      {low high step : List Kind}
      (first : Derives dialect (.expression loosest) lowDepth low)
      (second : Derives dialect (.expression loosest) highDepth high)
      (third : Derives dialect (.expression loosest) stepDepth step) :
      Derives dialect .range (max lowDepth (max highDepth stepDepth))
        (low ++ .comma :: (high ++ .comma :: step))
  | targets
      {firstDepth depth : Nat}
      {role : Role}
      {first others : List Kind}
      (assignable : dialect.strict = true → role = .place)
      (target : Derives dialect (.reference role) firstDepth first)
      (tail : Derives dialect .targetTail depth others) :
      Derives dialect .targets (max firstDepth depth) (first ++ others)
  | noTarget : Derives dialect .targetTail 0 []
  | moreTargets
      {firstDepth depth : Nat}
      {role : Role}
      {first others : List Kind}
      (assignable : dialect.strict = true → role = .place)
      (target : Derives dialect (.reference role) firstDepth first)
      (tail : Derives dialect .targetTail depth others) :
      Derives dialect .targetTail (max firstDepth depth) (.comma :: (first ++ others))
  | functionBody
      {depth : Nat}
      {names body : List Kind}
      (parameters : Parameters dialect.strict names)
      (inside : Derives dialect .block depth body) :
      Derives dialect .functionBody depth
        (.leftParen :: (names ++ .rightParen :: (body ++ [.endKw])))
  -- expressions
  | expressions
      {firstDepth depth : Nat}
      {first others : List Kind}
      (value : Derives dialect (.expression loosest) firstDepth first)
      (tail : Derives dialect .expressionTail depth others) :
      Derives dialect .expressions (max firstDepth depth) (first ++ others)
  | noExpression : Derives dialect .expressionTail 0 []
  | moreExpressions
      {firstDepth depth : Nat}
      {first others : List Kind}
      (value : Derives dialect (.expression loosest) firstDepth first)
      (tail : Derives dialect .expressionTail depth others) :
      Derives dialect .expressionTail (max firstDepth depth) (.comma :: (first ++ others))
  | expression
      {least depth : Nat}
      {word : List Kind}
      (inside : Derives dialect (.operations least) depth word) :
      Derives dialect (.expression least) (depth + 1) word
  | constant
      {least : Nat}
      {kind : Kind}
      (isConstant : isConstant kind = true) :
      Derives dialect (.operations least) 0 [kind]
  | tableValue
      {least depth : Nat}
      {word : List Kind}
      (constructed : Derives dialect .table depth word) :
      Derives dialect (.operations least) depth word
  | functionValue
      {least depth : Nat}
      {body : List Kind}
      (inside : Derives dialect .functionBody depth body) :
      Derives dialect (.operations least) depth (.functionKw :: body)
  | referenceValue
      {least depth : Nat}
      {role : Role}
      {word : List Kind}
      (referred : Derives dialect (.reference role) depth word) :
      Derives dialect (.operations least) depth word
  | unary
      {least inner depth : Nat}
      {sign : Kind}
      {word : List Kind}
      (isSign : isUnary sign = true)
      (operand : Derives dialect (.expression inner) depth word)
      (binds : dialect.resolved = true → least ≤ unaryPrecedence ∧ unaryPrecedence ≤ inner) :
      Derives dialect (.operations least) depth (sign :: word)
  | binary
      {least leftInner rightInner precedence leftDepth rightDepth : Nat}
      {sign : Kind}
      {left right : List Kind}
      (isSign : precedence? sign = some precedence)
      (leftOperand : Derives dialect (.operations leftInner) leftDepth left)
      (rightOperand : Derives dialect (.expression rightInner) rightDepth right)
      (binds : dialect.resolved = true → least ≤ precedence ∧
        leftLeast precedence ≤ leftInner ∧ rightLeast precedence ≤ rightInner) :
      Derives dialect (.operations least) (max leftDepth rightDepth) (left ++ sign :: right)
  -- parts of expressions
  | name : Derives dialect (.reference .place) 0 [.name]
  | group
      {depth : Nat}
      {word : List Kind}
      (inside : Derives dialect (.expression loosest) depth word) :
      Derives dialect (.reference .group) depth (.leftParen :: (word ++ [.rightParen]))
  | member
      {role : Role}
      {depth : Nat}
      {word : List Kind}
      (owner : Derives dialect (.reference role) depth word) :
      Derives dialect (.reference .place) depth (word ++ [.dot, .name])
  | index
      {role : Role}
      {ownerDepth depth : Nat}
      {word key : List Kind}
      (owner : Derives dialect (.reference role) ownerDepth word)
      (inside : Derives dialect (.expression loosest) depth key) :
      Derives dialect (.reference .place) (max ownerDepth depth)
        (word ++ .leftBracket :: (key ++ [.rightBracket]))
  | call
      {role : Role}
      {calleeDepth depth : Nat}
      {word arguments : List Kind}
      (callee : Derives dialect (.reference role) calleeDepth word)
      (given : Derives dialect .arguments depth arguments) :
      Derives dialect (.reference .call) (max calleeDepth depth) (word ++ arguments)
  | methodCall
      {role : Role}
      {ownerDepth depth : Nat}
      {word arguments : List Kind}
      (owner : Derives dialect (.reference role) ownerDepth word)
      (given : Derives dialect .arguments depth arguments) :
      Derives dialect (.reference .call) (max ownerDepth depth)
        (word ++ .colon :: .name :: arguments)
  | noArguments : Derives dialect .arguments 0 [.leftParen, .rightParen]
  | listed
      {depth : Nat}
      {values : List Kind}
      (valued : Derives dialect .expressions depth values) :
      Derives dialect .arguments depth (.leftParen :: (values ++ [.rightParen]))
  | text : Derives dialect .arguments 0 [.string]
  | record
      {depth : Nat}
      {word : List Kind}
      (constructed : Derives dialect .table depth word) :
      Derives dialect .arguments depth word
  | table
      {depth : Nat}
      {word : List Kind}
      (content : Derives dialect .fields depth word) :
      Derives dialect .table depth (.leftBrace :: (word ++ [.rightBrace]))
  | noField : Derives dialect .fields 0 []
  | lastField
      {depth : Nat}
      {word : List Kind}
      (first : Derives dialect .field depth word) :
      Derives dialect .fields depth word
  | moreFields
      {firstDepth depth : Nat}
      {separator : Kind}
      {first others : List Kind}
      (content : Derives dialect .field firstDepth first)
      (separates : separator = .comma ∨ separator = .semicolon)
      (tail : Derives dialect .fields depth others) :
      Derives dialect .fields (max firstDepth depth) (first ++ separator :: others)
  | keyed
      {keyDepth depth : Nat}
      {key word : List Kind}
      (inside : Derives dialect (.expression loosest) keyDepth key)
      (value : Derives dialect (.expression loosest) depth word) :
      Derives dialect .field (max keyDepth depth)
        (.leftBracket :: (key ++ .rightBracket :: .eq :: word))
  | named
      {depth : Nat}
      {word : List Kind}
      (value : Derives dialect (.expression loosest) depth word) :
      Derives dialect .field depth (.name :: .eq :: word)
  | positional
      {depth : Nat}
      {word : List Kind}
      (value : Derives dialect (.expression loosest) depth word) :
      Derives dialect .field depth word

/-! ## Names of loops -/

/-- Whether behind every `for` stands a name. -/
def namesLoops : List Kind → Bool
  | [] => true
  | kind :: kinds => (kind ≠ .forKw || kinds.head? = some .name) && namesLoops kinds

@[simp]
theorem namesLoops_cons
    {kind : Kind}
    (other : kind ≠ .forKw)
    (kinds : List Kind) :
    namesLoops (kind :: kinds) = namesLoops kinds := by
  simp [namesLoops, other]

/-- No word ends in `for`, so words are put together without one standing before another. -/
@[simp]
theorem namesLoops_append
    {first : List Kind}
    (named : namesLoops first = true)
    (kinds : List Kind) :
    namesLoops (first ++ kinds) = namesLoops kinds := by
  induction first with
  | nil => rfl
  | cons kind first ih =>
      simp only [namesLoops, Bool.and_eq_true, Bool.or_eq_true, decide_eq_true_eq] at named
      obtain ⟨other | name, behind⟩ := named
      · rw [List.cons_append, namesLoops_cons other, ih behind]
      · have front : (first ++ kinds).head? = some .name := by simp [name]
        simp [namesLoops, front, ih behind]

section Lists

variable {names : List Kind}

theorem NameTail.namesLoops
    {separator : Kind}
    (apart : separator ≠ .forKw)
    (tail : NameTail separator names) :
    namesLoops names = true := by
  induction tail with
  | done => rfl
  | more _ ih => simp [apart, ih]

theorem FunctionName.namesLoops (named : FunctionName names) : namesLoops names = true := by
  cases named with
  | plain fields | method fields => simp [Grammar.namesLoops, fields.namesLoops]

theorem Parameters.namesLoops
    {strict : Bool}
    (parameters : Parameters strict names) :
    namesLoops names = true := by
  induction parameters with
  | more _ _ ih => simp [ih]
  | _ => rfl

theorem LocalName.namesLoops (name : LocalName names) : namesLoops names = true := by
  cases name <;> rfl

theorem LocalTail.namesLoops (tail : LocalTail names) : namesLoops names = true := by
  induction tail with
  | done => rfl
  | more first _ ih => simp [first.namesLoops, ih]

end Lists

/-- In a strict text a name stands behind every `for`. -/
theorem Derives.namesLoops
    {dialect : Dialect}
    (strict : dialect.strict = true)
    {phrase : Phrase}
    {depth : Nat}
    {word : List Kind}
    (derives : Derives dialect phrase depth word) :
    namesLoops word = true := by
  induction derives with
  | leaveNothing stops => rcases stops with rfl | rfl <;> rfl
  | leaveValues _ stops ihValued =>
      rcases stops with rfl | rfl <;> simp [Grammar.namesLoops, ihValued]
  | numericLoop binds _ _ ihLimits ihInside =>
      obtain rfl : _ = Kind.name := by simpa [strict] using binds
      simp [Grammar.namesLoops, ihLimits, ihInside]
  | genericLoop others _ _ ihValued ihInside =>
      simp [Grammar.namesLoops, others.namesLoops, ihValued, ihInside]
  | function named _ ihInside => simp [named.namesLoops, ihInside]
  | localNames first others => simp [first.namesLoops, others.namesLoops]
  | localValues first others _ ihValued =>
      simp [first.namesLoops, others.namesLoops, ihValued]
  | functionBody parameters _ ihInside =>
      simp [Grammar.namesLoops, parameters.namesLoops, ihInside]
  | constant isConstant =>
      rw [namesLoops_cons]
      · rfl
      · rintro rfl
        cases isConstant
  | unary isSign _ _ ihOperand =>
      rwa [namesLoops_cons]
      rintro rfl
      cases isSign
  | binary isSign _ _ _ ihLeft ihRight =>
      rwa [namesLoops_append ihLeft, namesLoops_cons]
      rintro rfl
      cases isSign
  | moreFields _ separates _ ihContent ihTail =>
      rcases separates with rfl | rfl <;> simp [ihContent, ihTail]
  | _ => simp [Grammar.namesLoops, *]

end LuaFold.Grammar
