import LuaFold.Tree.Extent

/-!
# Syntax trees

A tree is built from elements: tokens, and nodes that have a kind and hold elements in the
order of the text.  A node remembers the extent of its children, so its spans are known
without walking below it.

Elements do not know where they stand.  A `Node` is a node element together with the offset
at which it begins; its spans, its text and its children with their offsets follow from that.
-/

namespace LuaFold

/-- A token, or a node with its children. -/
inductive Element where
  | token (token : Token)
  | node (kind : Kind) (extent : Extent) (children : List Element)

namespace Element

/-- The kind of an element. -/
def kind : Element → Kind
  | token inner => inner.kind
  | node kind _ _ => kind

/-- The bytes an element fills and where its significant tokens stand. -/
def extent : Element → Extent
  | token inner => .ofToken inner
  | node _ extent _ => extent

/-- The number of bytes an element fills. -/
def width (element : Element) : Nat :=
  element.extent.width

/-- Whether an element is a node. -/
def isNode : Element → Bool
  | token _ => false
  | node _ _ _ => true

/-- A node of a kind around elements. -/
def branch (kind : Kind) (children : List Element) : Element :=
  node kind (.total (children.map extent)) children

@[simp]
theorem kind_branch
    (kind : Kind)
    (children : List Element) :
    (branch kind children).kind = kind :=
  rfl

theorem sizeOf_append (left right : List Element) :
    sizeOf (left ++ right) + 1 = sizeOf left + sizeOf right := by
  induction left with
  | nil => simp; omega
  | cons element rest ih =>
    simp only [List.cons_append, List.cons.sizeOf_spec]
    omega

/-- The first token in or below the elements of a list. -/
def firstToken? : List Element → Option Token
  | [] => none
  | token inner :: _ => some inner
  | node _ _ children :: rest => firstToken? (children ++ rest)
termination_by elements => sizeOf elements
decreasing_by
  have size := sizeOf_append children rest
  simp only [List.cons.sizeOf_spec, node.sizeOf_spec]
  omega

end Element

/-- A node of a tree together with the offset at which it begins. -/
structure Node where
  offset : Nat
  kind : Kind
  extent : Extent
  children : List Element

namespace Node

/-- The node that an element at an offset is, unless it is a token. -/
def ofElement? (offset : Nat) : Element → Option Node
  | .token _ => none
  | .node kind extent children => some ⟨offset, kind, extent, children⟩

/-- The bytes from the first to the last token of a node, trivia included. -/
def span (node : Node) : Span :=
  ⟨node.offset, node.offset + node.extent.width⟩

/--
The bytes from the first to the last significant token of a node.  Without such a token it is
the empty span at the start of the node.
-/
def trimmedSpan (node : Node) : Span :=
  match node.extent.core? with
  | some core => core.shift node.offset
  | none => .empty node.offset

/-- The children of a node with the offsets at which they begin. -/
def elements (node : Node) : List (Nat × Element) :=
  Text.layOut Element.width node.offset node.children

/-- The children of a node that are nodes. -/
def childNodes (node : Node) : List Node :=
  node.elements.filterMap fun (offset, element) => ofElement? offset element

/-- The children of a node that are tokens, with their offsets. -/
def childTokens (node : Node) : List (Nat × Token) :=
  node.elements.filterMap fun
    | (offset, .token token) => some (offset, token)
    | _ => none

/-- The first child node of a kind. -/
def childNode? (node : Node) (kind : Kind) : Option Node :=
  node.childNodes.find? fun child => child.kind = kind

/-- The first child token of a kind, with its offset. -/
def childToken? (node : Node) (kind : Kind) : Option (Nat × Token) :=
  node.childTokens.find? fun (_, token) => token.kind = kind

/-- The first token in or below a node, trivia not counted as a token of its own. -/
def firstToken? (node : Node) : Option Token :=
  Element.firstToken? node.children

end Node

/--
A syntax tree.  It has one root; a tree put together by hand may hold further elements behind
the root, which belong to its text but to no walk of it.
-/
structure SyntaxTree where
  roots : List Element

namespace SyntaxTree

/-- The root of a tree. -/
def root? (tree : SyntaxTree) : Option Node :=
  tree.roots.head?.bind (Node.ofElement? 0)

/-- The number of bytes in the text of a tree. -/
def textSize (tree : SyntaxTree) : Nat :=
  (Extent.total (tree.roots.map Element.extent)).width

end SyntaxTree

end LuaFold
