import LuaFold.Tree.Walk

/-!
# Building a tree call by call

A tree can be put together over a given text by calls that open a node, add a token with its
trivia, and close the node opened last.  Tokens and trivia are given by their lengths and take
their text from the front of what is left.

A list of calls is accepted exactly when every token lies in an open node and ends where a
character ends, every node is closed, there is a node at all, and the tokens cover the text.
Walking the tree gives the calls back.
-/

namespace LuaFold

/-- A trivia piece given by its kind and its number of bytes. -/
structure Measured where
  kind : TriviaKind
  length : Nat
deriving DecidableEq, Repr

/-- A step in building a tree. -/
inductive Call where
  | start (kind : Kind)
  | token (leading : List Measured) (kind : Kind) (length : Nat) (trailing : List Measured)
  | finish
deriving DecidableEq, Repr

/-- Why a list of calls builds no tree. -/
inductive BuildFault where
  | nothingToFinish
  | tokenOutsideNodes
  | brokenCharacter
  | unfinishedNodes
  | noRoot
  | uncovered (pushed : Nat) (size : Nat)
deriving DecidableEq, Repr

/-- The message for calls that build no tree. -/
def BuildFault.message : BuildFault → String
  | nothingToFinish => "no open node to finish"
  | tokenOutsideNodes => "tokens need an open node"
  | brokenCharacter => "token ends outside of the text or inside a character"
  | unfinishedNodes => "unfinished nodes"
  | noRoot => "tree without a root"
  | uncovered pushed size =>
    "assertion `left == right` failed: tokens do not cover the whole text\n  left: "
      ++ toString pushed ++ "\n right: " ++ toString size

/-- A tree under construction. -/
structure Builder where
  rest : Text
  pushed : Nat
  opened : List (Kind × List Element)
  roots : List Element

namespace Builder

/-- Nothing built yet over a text. -/
def new (text : Text) : Builder :=
  ⟨text, 0, [], []⟩

/-- Take a number of bytes off the front of what is left of the text. -/
def take (builder : Builder) (length : Nat) : Except BuildFault (Text × Builder) :=
  match Text.cut? length builder.rest with
  | none => .error .brokenCharacter
  | some (taken, rest) =>
    .ok (taken, ⟨rest, builder.pushed + length, builder.opened, builder.roots⟩)

/-- Take the text of trivia pieces that follow each other. -/
def takeTrivia
    (builder : Builder)
    (pieces : List Measured) :
    Except BuildFault (List Trivia × Builder) := do
  let (taken, builder) ← pieces.foldlM
    (fun (taken, builder) piece => do
      let (text, builder) ← builder.take piece.length
      return ((⟨piece.kind, text, none⟩ : Trivia) :: taken, builder))
    (([], builder) : List Trivia × Builder)
  return (taken.reverse, builder)

/-- Add a finished element to the innermost open node, or to the roots. -/
def add (builder : Builder) (element : Element) : Builder :=
  match builder.opened with
  | [] => ⟨builder.rest, builder.pushed, [], element :: builder.roots⟩
  | (kind, children) :: outer =>
    ⟨builder.rest, builder.pushed, (kind, element :: children) :: outer, builder.roots⟩

/-- Perform one call. -/
def perform (builder : Builder) : Call → Except BuildFault Builder
  | .start kind =>
    .ok ⟨builder.rest, builder.pushed, (kind, []) :: builder.opened, builder.roots⟩
  | .finish =>
    match builder.opened with
    | [] => .error .nothingToFinish
    | (kind, children) :: outer =>
      .ok (add ⟨builder.rest, builder.pushed, outer, builder.roots⟩
        (.branch kind children.reverse))
  | .token leading kind length trailing => do
    if builder.opened.isEmpty then throw .tokenOutsideNodes
    let (before, builder) ← builder.takeTrivia leading
    let (text, builder) ← builder.take length
    let (behind, builder) ← builder.takeTrivia trailing
    return builder.add (.token ⟨before, kind, text, behind, none⟩)

/-- The finished tree. -/
def finish (builder : Builder) : Except BuildFault SyntaxTree :=
  if !builder.opened.isEmpty then .error .unfinishedNodes
  else if builder.roots.isEmpty then .error .noRoot
  else if builder.rest ≠ [] then
    .error (.uncovered builder.pushed (builder.pushed + Text.size builder.rest))
  else .ok ⟨builder.roots.reverse⟩

end Builder

/-- The tree that a list of calls builds over a text. -/
def SyntaxTree.build (text : Text) (calls : List Call) : Except BuildFault SyntaxTree := do
  let builder ← calls.foldlM Builder.perform (.new text)
  builder.finish

/-- A trivia piece reduced to its kind and its length. -/
def Trivia.measure (piece : Trivia) : Measured :=
  ⟨piece.kind, piece.width⟩

/-- The calls that a walk retraces. -/
def Visit.call : Visit → Call
  | .enter node => .start node.kind
  | .token _ inner =>
    .token (inner.leading.map Trivia.measure) inner.kind inner.innerWidth
      (inner.trailing.map Trivia.measure)
  | .leave _ => .finish

/-- The calls that build a tree over its own text. -/
def SyntaxTree.calls (tree : SyntaxTree) : List Call :=
  tree.visits.map Visit.call

end LuaFold
