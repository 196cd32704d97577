import LuaFold.Text.Quoted
import LuaFold.Tree.Walk

/-!
# Written form of trees

A dump shows one element per line, indented by its depth.  A node shows its kind and the span
of all its tokens.  A token shows its kind, its span and its quoted text, and so does each
piece of trivia around it, on a line of its own.
-/

namespace LuaFold

/-- A trivia piece as a token without trivia of its own. -/
def Trivia.asToken (piece : Trivia) : Token :=
  ⟨[], piece.kind.kind, piece.text, [], piece.fault?⟩

namespace Token

/--
The token and the trivia around it in the order of the text, each with the offset where its
leading trivia begins.  Trivia pieces appear as tokens of their own.
-/
def leaves (token : Token) (offset : Nat) : List (Nat × Token) :=
  let bare := fun (piece : Nat × Trivia) => (piece.1, piece.2.asToken)
  (token.leadingPlaced offset).map bare
    ++ (offset, token) :: (token.trailingPlaced offset).map bare

/-- The written form of a token without its trivia. -/
def render (token : Token) (offset : Nat) : String :=
  token.kind.label ++ "@" ++ (token.span offset).render ++ " " ++ Text.quoted token.text

end Token

/-- The first token or trivia piece in or below a node. -/
def Node.firstLeaf? (node : Node) : Option Token :=
  node.firstToken?.map fun token => (token.leading.head?.map Trivia.asToken).getD token

/-- The written form of a node without its children. -/
def Node.render (node : Node) : String :=
  node.kind.label ++ "@" ++ node.span.render

namespace SyntaxTree

/-- A line of a dump at a depth. -/
def dumpLine (depth : Nat) (content : String) : String :=
  String.ofList (List.replicate (2 * depth) ' ') ++ content ++ "\n"

/-- The depth of the next visit and the dump so far, extended by one visit. -/
def dumpVisit (state : Nat × String) (visit : Visit) : Nat × String :=
  let (depth, written) := state
  match visit with
  | .enter node => (depth + 1, written ++ dumpLine depth node.render)
  | .leave _ => (depth - 1, written)
  | .token offset token =>
    (depth, (token.leaves offset).foldl
      (fun lines (start, leaf) => lines ++ dumpLine depth (leaf.render start))
      written)

/-- The written form of everything below the root of a tree. -/
def dump (tree : SyntaxTree) : String :=
  match tree.root? with
  | none => ""
  | some root => (root.visits.foldl dumpVisit (0, "")).2

/-- The written form of a tree in one line: the size of its text. -/
def summary (tree : SyntaxTree) : String :=
  "SyntaxTree \x7b text_len: " ++ toString tree.textSize ++ ", .. \x7d"

end SyntaxTree

end LuaFold
