import LuaFold.Parse
import LuaFold.Tree.Definition

/-!
# Fold regions

A fold region covers one function definition, from its first keyword through the closing
`end`.  A definition without its `end` has no region.  Regions are listed outer ones first and
otherwise in the order of the text.

The collection keeps its own stack of nodes, because long chains of operators nest as deep as
they are long.
-/

namespace LuaFold

/-- The span of a function definition with the name of the function, empty if it has none. -/
structure Region where
  name : String
  span : Span
deriving DecidableEq, Repr

namespace Region

/-- Whether the function of a region has no name. -/
def isAnonymous (region : Region) : Bool :=
  region.name.isEmpty

/-- The name shown for a function, a placeholder if it has none. -/
def displayName (name : String) : String :=
  if name.isEmpty then "<anonymous>" else name

/-- The region of a definition, if it is closed. -/
def ofDefinition? (definition : FunctionDefinition) : Option Region :=
  if definition.isClosed then some ⟨definition.name?.getD "", definition.span⟩ else none

/-- The region of a node, if it is a closed definition. -/
def ofNode? (node : Node) : Option Region :=
  (FunctionDefinition.ofNode? node).bind ofDefinition?

/-- How much is left to collect below the nodes of a list. -/
noncomputable def remaining : List Node → Nat
  | [] => 0
  | node :: rest => sizeOf node.children + remaining rest

theorem remaining_append (left right : List Node) :
    remaining (left ++ right) = remaining left + remaining right := by
  induction left with
  | nil => simp [remaining]
  | cons node rest ih => simp [remaining, ih, Nat.add_assoc]

private theorem remaining_childNodes_go
    (offset : Nat)
    (placed : List (Nat × Element))
    (children : List Element) :
    remaining ((Text.layOut.go Element.width offset placed children).filterMap
        fun (offset, element) => Node.ofElement? offset element) + 1 ≤
      remaining (placed.reverse.filterMap
        fun (offset, element) => Node.ofElement? offset element) + sizeOf children := by
  induction children generalizing offset placed with
  | nil => simp [Text.layOut.go]
  | cons child rest ih =>
    rw [Text.layOut.go]
    refine Nat.le_trans (ih _ _) ?_
    cases child with
    | token inner => simp [Node.ofElement?]
    | node kind extent children =>
      simp [Node.ofElement?, remaining_append, remaining]
      omega

theorem remaining_childNodes_lt (node : Node) :
    remaining node.childNodes < sizeOf node.children := by
  have counted := remaining_childNodes_go node.offset [] node.children
  simp only [List.reverse_nil, List.filterMap_nil, remaining, Nat.zero_add] at counted
  exact counted

/-- The regions in and below nodes, behind those already collected, newest first. -/
def collect (regions : List Region) : List Node → List Region
  | [] => regions.reverse
  | node :: rest =>
    collect ((ofNode? node).toList ++ regions) (node.childNodes ++ rest)
termination_by nodes => remaining nodes
decreasing_by
  have below := remaining_childNodes_lt node
  simp only [remaining_append, remaining]
  omega

/-- The regions of a tree. -/
def ofTree (tree : SyntaxTree) : List Region :=
  collect [] tree.root?.toList

end Region

/-- The fold regions of a text. -/
def foldRegions (text : Text) : List Region :=
  Region.ofTree (parse text).tree

end LuaFold
