import LuaFold.Tree.Walk

/-!
# Function definitions in a tree

Three kinds of nodes define functions: the statement under a global name, the local
statement, and the expression.  A definition is closed when its body ends with `end`.
-/

namespace LuaFold

/-- How a function is defined. -/
inductive DefinitionForm where
  | statement | localStatement | expression
deriving DecidableEq, Repr

/-- The form of definition that a kind of node is, if any. -/
def DefinitionForm.ofKind? : Kind → Option DefinitionForm
  | .functionStmt => some .statement
  | .localFunctionStmt => some .localStatement
  | .functionExpr => some .expression
  | _ => none

/-- A node that defines a function. -/
structure FunctionDefinition where
  form : DefinitionForm
  node : Node

namespace FunctionDefinition

/-- The definition that a node is, if any. -/
def ofNode? (node : Node) : Option FunctionDefinition :=
  (DefinitionForm.ofKind? node.kind).map fun form => ⟨form, node⟩

/-- The node that holds the dotted name of a definition statement. -/
def nameNode? (definition : FunctionDefinition) : Option Node :=
  match definition.form with
  | .statement => definition.node.childNode? .funcName
  | _ => none

/-- The name of a function as it is written, without trivia; an expression has none. -/
def name? (definition : FunctionDefinition) : Option String :=
  match definition.form with
  | .statement =>
    definition.nameNode?.map fun node =>
      String.ofList (node.childTokens.flatMap fun (_, token) => token.text)
  | .localStatement =>
    (definition.node.childToken? .name).map fun (_, token) => String.ofList token.text
  | .expression => none

/-- The parameters, the block and the `end` of a function. -/
def body? (definition : FunctionDefinition) : Option Node :=
  definition.node.childNode? .funcBody

/-- The `end` that closes a function, with its offset. -/
def closing? (definition : FunctionDefinition) : Option (Nat × Token) :=
  definition.body?.bind fun body => body.childToken? .endKw

/-- Whether a function ends with `end`. -/
def isClosed (definition : FunctionDefinition) : Bool :=
  definition.closing?.isSome

/-- The span from the first keyword of a definition through its last significant token. -/
def span (definition : FunctionDefinition) : Span :=
  definition.node.trimmedSpan

end FunctionDefinition

namespace Node

/-- Every function definition in and below a node, outer ones first. -/
def definitions (node : Node) : List FunctionDefinition :=
  node.preorder.filterMap FunctionDefinition.ofNode?

/-- The block of a chunk. -/
def block? (node : Node) : Option Node :=
  node.childNode? .block

/-- The statements of the block of a chunk; there are none in any other node. -/
def statements? (node : Node) : Option (List Node) :=
  if node.kind = .chunk then node.block?.map childNodes else none

end Node

end LuaFold
