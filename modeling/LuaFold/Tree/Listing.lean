import LuaFold.Tree.Dump

/-!
# Listings of a tree

A listing shows the nodes or the tokens of a tree in the order of the text, each with its
place: the depth of a node and the kind of the node around it.  The walk tells which nodes are
open at each of its steps.
-/

namespace LuaFold

/-- A node with its depth below the node where the listing starts. -/
structure ListedNode where
  depth : Nat
  parent? : Option Kind
  node : Node

/-- A token or trivia piece with the kind of the node that holds it. -/
structure ListedToken where
  offset : Nat
  token : Token
  parent : Kind

namespace Node

/-- The kinds of the open nodes, innermost first, their number, and the listing so far. -/
structure Listed where
  depth : Nat
  opened : List Kind
  nodes : List ListedNode

/-- Extend a listing, newest first, by one visit. -/
def Listed.visit (listed : Listed) : Visit → Listed
  | .enter node =>
    ⟨listed.depth + 1, node.kind :: listed.opened,
      ⟨listed.depth, listed.opened.head?, node⟩ :: listed.nodes⟩
  | .leave _ => ⟨listed.depth - 1, listed.opened.tail, listed.nodes⟩
  | .token _ _ => listed

/-- The node and all nodes below it with their depths. -/
def listing (node : Node) : List ListedNode :=
  (node.visits.foldl Listed.visit ⟨0, [], []⟩).nodes.reverse

end Node

namespace SyntaxTree

/-- The open nodes after a visit, and the tokens listed with it, newest first. -/
def listToken (state : List Kind × List ListedToken) : Visit → List Kind × List ListedToken
  | .enter node => (node.kind :: state.1, state.2)
  | .leave _ => (state.1.tail, state.2)
  | .token offset token =>
    let parent := state.1.headD .tombstone
    (state.1, (token.leaves offset).foldl
      (fun listed (start, leaf) => ⟨start, leaf, parent⟩ :: listed)
      state.2)

/--
The tokens from the first one of the root on, trivia included.  Without a token in the root
there are none.
-/
def tokenListing (tree : SyntaxTree) : List ListedToken :=
  if (tree.root?.bind Node.firstToken?).isSome then
    (tree.visits.foldl listToken ([], [])).2.reverse
  else []

/-- The number of nodes on the longest path from the root. -/
def height (tree : SyntaxTree) : Nat :=
  match tree.root? with
  | none => 0
  | some root => root.listing.foldl (fun deepest listed => max deepest (listed.depth + 1)) 0

/-- How often the kinds occur among the nodes and tokens, without those that do not. -/
def kindCounts (tree : SyntaxTree) : List (Kind × Nat) :=
  let count := fun (counts : Array Nat) (kind : Kind) => counts.modify kind.index (· + 1)
  let nodes := (tree.root?.map Node.preorder).getD []
  let withNodes := nodes.foldl (fun counts node => count counts node.kind)
    (Array.replicate Kind.all.length 0)
  let counts := tree.tokenListing.foldl (fun counts listed => count counts listed.token.kind)
    withNodes
  Kind.all.filterMap fun kind =>
    let occurrences := counts.getD kind.index 0
    if occurrences = 0 then none else some (kind, occurrences)

end SyntaxTree

end LuaFold
