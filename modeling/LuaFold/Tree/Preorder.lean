import LuaFold.Tree.Arena

/-!
# Walks over stacks

A walk through a tree does not recurse.  The walk that is advanced event by event keeps the open
nodes, each with the children that it has not been asked for yet.  The walk that collects values
keeps the nodes that are still pending, the next one last, and puts the child nodes of a node in
its place with the first of them last.

Both only read which children a node has and which of these are nodes, so they walk trees of
elements and trees in an arena alike.
-/

namespace LuaFold

/-- An event of a walk that stops at nodes only. -/
inductive WalkEvent (Item : Type) where
  | enter (node : Item)
  | leave (node : Item)
deriving DecidableEq, Repr

/-- The node that an event enters, if it enters one. -/
def WalkEvent.entered? {Item : Type} : WalkEvent Item → Option Item
  | enter node => some node
  | leave _ => none

/-- How the children of nodes are read, and which of them are nodes. -/
structure Branching (Item Child : Type) where
  children : Item → List Child
  node? : Child → Option Item

/-- The branching of nodes that know where they stand. -/
def Node.branching : Branching Node (Nat × Element) where
  children := Node.elements
  node? placed := Node.ofElement? placed.1 placed.2

/-- The branching of the nodes in an arena; a number that leads nowhere has no children. -/
def Arena.branching {Known : Type} (arena : Arena Known) : Branching Nat Child where
  children number := (arena.nodes[number]?.map arena.nodeChildren).getD []
  node?
    | .node number => some number
    | .token _ => none

namespace Branching

variable {Item Child Value : Type} (branching : Branching Item Child)

/-- The children of a node that are nodes. -/
def childNodes (node : Item) : List Item :=
  (branching.children node).filterMap branching.node?

/-- The first node among children, and the children behind it. -/
def nextNode? : List Child → Option (Item × List Child)
  | [] => none
  | child :: rest =>
    match branching.node? child with
    | some node => some (node, rest)
    | none => nextNode? rest

/-- Put the child nodes of the last pending node in its place, and collect its value. -/
def collectNext? (value? : Item → Option Value) :
    List Item × List Value → Option (List Item × List Value)
  | (pending, values) =>
    pending.getLast?.map fun node =>
      (pending.dropLast ++ (branching.childNodes node).reverse, values ++ (value? node).toList)

end Branching

/--
A walk under way: the open nodes, innermost first, with the children behind those already
entered, and the node to start from as long as it has not been entered.
-/
structure Preorder (Item Child : Type) where
  opened : List (Item × List Child)
  root? : Option Item

namespace Preorder

variable {Item Child : Type}

/-- The walk from a node, before its first event. -/
def start (root : Item) : Preorder Item Child :=
  ⟨[], some root⟩

/-- The next event of a walk and the walk behind it, unless it is over. -/
def next? (branching : Branching Item Child) :
    Preorder Item Child → Option (WalkEvent Item × Preorder Item Child)
  | ⟨[], none⟩ => none
  | ⟨[], some root⟩ => some (.enter root, ⟨[(root, branching.children root)], none⟩)
  | ⟨(node, children) :: outer, root?⟩ =>
    match branching.nextNode? children with
    | some (child, rest) =>
      some (.enter child,
        ⟨(child, branching.children child) :: (node, rest) :: outer, root?⟩)
    | none => some (.leave node, ⟨outer, root?⟩)

end Preorder

end LuaFold
