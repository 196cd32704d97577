import LuaFold.Tree.Builder

/-!
# Trees in an arena

A tree can also be stored flat.  Its nodes, its tokens and the children of all nodes stand in one
list each and refer to each other by number.  Trivia pieces are stored as tokens of their own
around the token that they belong to, which knows how many there are on each side; no node has
them as children.  A token stores only where it stops, so a token without bytes comes first, and
every other one starts where the one before it stops.

While a tree is built, the children of an open node are kept with the node and move to the list
of all children when it is closed; the emptied buffer is used again.  The tokens that a node
reaches over are known from its first token on: that token fills in every open node that has
none yet, innermost first.

Numbers and offsets have no largest value here.  So a token that would stop behind the text is
refused, however long it is.
-/

namespace LuaFold

/-- The kind of trivia that an element kind stands for, if any. -/
def TriviaKind.ofKind? (kind : Kind) : Option TriviaKind :=
  [whitespace, newline, lineComment, blockComment].find? fun trivia => trivia.kind = kind

@[simp]
theorem TriviaKind.ofKind?_kind (trivia : TriviaKind) : ofKind? trivia.kind = some trivia := by
  cases trivia <;> rfl

/--
A stored token or trivia piece: where it stops, the node that it was added to, and how many
trivia pieces stand directly before and directly behind it.
-/
structure StoredToken where
  kind : Kind
  stop : Nat
  parent : Nat
  leading : Nat
  trailing : Nat
deriving DecidableEq, Repr

/-- The number of a child, which is a node or a token. -/
inductive Child where
  | node (index : Nat)
  | token (index : Nat)
deriving DecidableEq, Repr

/-- The numbers of the first and the last token of a node; without tokens the last comes first. -/
structure Reach where
  first : Nat
  last : Nat
deriving DecidableEq, Repr

/--
A stored node: the node around it, where its children stand among all children, and what is
known about the tokens that it reaches over.
-/
structure StoredNode (Known : Type) where
  parent? : Option Nat
  kind : Kind
  start : Nat
  count : Nat
  reach : Known
deriving DecidableEq, Repr

/--
A node whose children stand among all children, and which reaches up to a token.  Without a
token of its own it stands directly behind that token.
-/
def StoredNode.close
    (node : StoredNode (Option Reach))
    (start count last : Nat) :
    StoredNode (Option Reach) :=
  ⟨node.parent?, node.kind, start, count,
    some ⟨(node.reach.getD ⟨last + 1, last⟩).first, last⟩⟩

/-- A tree over a text, stored flat. -/
structure Arena (Known : Type) where
  text : Text
  tokens : List StoredToken
  nodes : List (StoredNode Known)
  children : List Child
deriving DecidableEq, Repr

namespace Arena

variable {Known : Type}

/-- The children of a stored node. -/
def nodeChildren (arena : Arena Known) (node : StoredNode Known) : List Child :=
  (arena.children.drop node.start).take node.count

/-- The nodes that stand in no other node. -/
def rootNodes (arena : Arena Known) : List (StoredNode Known) :=
  arena.nodes.filter fun node => node.parent?.isNone

/-- The number of bytes in a stored token; the token that comes first starts nowhere. -/
def tokenLength? (arena : Arena Known) : Nat → Option Nat
  | 0 => none
  | index + 1 => do
    let before ← arena.tokens[index]?
    let token ← arena.tokens[index + 1]?
    return token.stop - before.stop

/-- The trivia piece that is stored as a token. -/
def piece? (arena : Arena Known) (index : Nat) : Option Measured := do
  let token ← arena.tokens[index]?
  let kind ← TriviaKind.ofKind? token.kind
  let length ← arena.tokenLength? index
  return ⟨kind, length⟩

/-- The call that adds a stored token with the trivia around it. -/
def tokenCall? (arena : Arena Known) (index : Nat) : Option Call := do
  let token ← arena.tokens[index]?
  let leading ← (List.range' (index - token.leading) token.leading).mapM arena.piece?
  let length ← arena.tokenLength? index
  let trailing ← (List.range' (index + 1) token.trailing).mapM arena.piece?
  return .token leading token.kind length trailing

mutual

/-- The calls that open a stored node, add what is in it, and close it. -/
def callsAt? (arena : Arena Known) (index : Nat) : Option (List Call) :=
  match arena.nodes[index]? with
  | none => none
  | some node => do
    let inside ← (arena.nodeChildren node).mapM (arena.childCalls? index)
    return .start node.kind :: (inside.flatten ++ [.finish])
termination_by (arena.nodes.length - index, 1)

/--
The calls of a child of a node.  A node is opened before those in it, so the walk only follows
numbers that lead forward.
-/
def childCalls? (arena : Arena Known) (index : Nat) : Child → Option (List Call)
  | .token token => (arena.tokenCall? token).map ([·])
  | .node child =>
    if _ : index < child ∧ child < arena.nodes.length then arena.callsAt? child else none
termination_by (arena.nodes.length - index, 0)

end

/-- The calls that a walk from the root retraces. -/
def calls? (arena : Arena Known) : Option (List Call) :=
  arena.callsAt? 0

end Arena

/-- Why calls leave no arena: they are refused, or a node reaches nowhere. -/
inductive ArenaFault where
  | refused (fault : BuildFault)
  | withoutReach
deriving DecidableEq, Repr

/-- An open node with the children that it has so far. -/
structure OpenNode where
  index : Nat
  children : List Child
deriving DecidableEq, Repr

/--
An arena under construction: the open nodes, innermost first, buffers to use again, and the
number of bytes that the tokens fill so far.
-/
structure ArenaBuilder where
  arena : Arena (Option Reach)
  opened : List OpenNode
  spare : List (List Child)
  offset : Nat

namespace ArenaBuilder

/-- Only the token that comes first, over a text. -/
def new (text : Text) : ArenaBuilder :=
  ⟨⟨text, [⟨.tombstone, 0, 0, 0, 0⟩], [], []⟩, [], [], 0⟩

/-- Add a child to the innermost open node. -/
def addChild (child : Child) : List OpenNode → List OpenNode
  | [] => []
  | inner :: outer => ⟨inner.index, inner.children ++ [child]⟩ :: outer

/-- Store a node and open it, with a buffer that was used before if there is one. -/
def start (builder : ArenaBuilder) (kind : Kind) : ArenaBuilder :=
  let arena := builder.arena
  let index := arena.nodes.length
  let parent? := builder.opened.head?.map OpenNode.index
  ⟨⟨arena.text, arena.tokens, arena.nodes ++ [⟨parent?, kind, 0, 0, none⟩], arena.children⟩,
    ⟨index, builder.spare.headD []⟩ :: addChild (.node index) builder.opened,
    builder.spare.tail, builder.offset⟩

/-- Close a node inside others: its children are stored, and its emptied buffer is kept. -/
def leave (builder : ArenaBuilder) (inner : OpenNode) (outer : List OpenNode) : ArenaBuilder :=
  let arena := builder.arena
  let nodes := arena.nodes.modify inner.index fun node =>
    node.close arena.children.length inner.children.length (arena.tokens.length - 1)
  ⟨⟨arena.text, arena.tokens, nodes, arena.children ++ inner.children⟩, outer,
    [] :: builder.spare, builder.offset⟩

/-- Close the innermost open node. -/
def close (builder : ArenaBuilder) : Except ArenaFault ArenaBuilder :=
  match builder.opened with
  | [] => .error (.refused .nothingToFinish)
  | inner :: outer => .ok (builder.leave inner outer)

/-- Store a token or a trivia piece, which has to stop where a character ends. -/
def push
    (builder : ArenaBuilder)
    (kind : Kind)
    (length parent leading trailing : Nat) :
    Except ArenaFault ArenaBuilder :=
  let arena := builder.arena
  let stop := builder.offset + length
  if (Text.cut? stop arena.text).isSome then
    .ok ⟨⟨arena.text, arena.tokens ++ [⟨kind, stop, parent, leading, trailing⟩], arena.nodes,
      arena.children⟩, builder.opened, builder.spare, stop⟩
  else .error (.refused .brokenCharacter)

/-- Store trivia pieces one after the other. -/
def pushTrivia
    (parent : Nat)
    (builder : ArenaBuilder)
    (pieces : List Measured) :
    Except ArenaFault ArenaBuilder :=
  pieces.foldlM (fun builder piece => builder.push piece.kind.kind piece.length parent 0 0) builder

/-- Fill in what open nodes reach over, up to the first of them that knows it already. -/
def fill (reach : Reach) : List OpenNode → List (StoredNode (Option Reach)) →
    List (StoredNode (Option Reach))
  | [], nodes => nodes
  | inner :: outer, nodes =>
    match nodes[inner.index]? with
    | none => nodes
    | some node =>
      if node.reach.isSome then nodes
      else fill reach outer
        (nodes.set inner.index ⟨node.parent?, node.kind, node.start, node.count, some reach⟩)

/-- Store a token between its trivia, and add it to the innermost open node. -/
def token
    (builder : ArenaBuilder)
    (leading : List Measured)
    (kind : Kind)
    (length : Nat)
    (trailing : List Measured) :
    Except ArenaFault ArenaBuilder :=
  match builder.opened with
  | [] => .error (.refused .tokenOutsideNodes)
  | inner :: _ => do
    let before ← builder.pushTrivia inner.index leading
    let inside ← before.push kind length inner.index leading.length trailing.length
    let behind ← inside.pushTrivia inner.index trailing
    let arena := behind.arena
    let reach : Reach := ⟨builder.arena.tokens.length, arena.tokens.length - 1⟩
    return ⟨⟨arena.text, arena.tokens, fill reach builder.opened arena.nodes, arena.children⟩,
      addChild (.token before.arena.tokens.length) behind.opened, behind.spare, behind.offset⟩

/-- Perform one call. -/
def perform (builder : ArenaBuilder) : Call → Except ArenaFault ArenaBuilder
  | .start kind => .ok (builder.start kind)
  | .finish => builder.close
  | .token leading kind length trailing => builder.token leading kind length trailing

/-- A stored node whose reach has to be known by now. -/
def complete (node : StoredNode (Option Reach)) : Except ArenaFault (StoredNode Reach) :=
  match node.reach with
  | none => .error .withoutReach
  | some reach => .ok ⟨node.parent?, node.kind, node.start, node.count, reach⟩

/-- The finished arena. -/
def finish (builder : ArenaBuilder) : Except ArenaFault (Arena Reach) :=
  let arena := builder.arena
  if !builder.opened.isEmpty then .error (.refused .unfinishedNodes)
  else if arena.nodes.isEmpty then .error (.refused .noRoot)
  else if builder.offset ≠ Text.size arena.text then
    .error (.refused (.uncovered builder.offset (Text.size arena.text)))
  else do
    let nodes ← arena.nodes.mapM complete
    return ⟨arena.text, arena.tokens, nodes, arena.children⟩

end ArenaBuilder

/-- The arena that a list of calls builds over a text. -/
def Arena.build (text : Text) (calls : List Call) : Except ArenaFault (Arena Reach) := do
  let builder ← calls.foldlM ArenaBuilder.perform (.new text)
  builder.finish

end LuaFold
