import LuaFold.Tree.Arena

/-!
# Reading an arena

The nodes and tokens of an arena are read through their numbers.  A token starts where the one
stored before it stops, the span of a token with its trivia and that of a node go from one stored
token to another, and every token but the last leads to the next one.

A number that leads nowhere has no span, and neither has a range that would stop before it
starts.
-/

namespace LuaFold

namespace Arena

section Reading

variable {Known : Type} (arena : Arena Known)

/-- Where a stored token stops. -/
def stop? (index : Nat) : Option Nat :=
  arena.tokens[index]?.map StoredToken.stop

/-- Where a stored token starts; the token that comes first starts nowhere. -/
def start? : Nat → Option Nat
  | 0 => none
  | index + 1 => arena.stop? index

/-- The span from the start of one stored token to the stop of another. -/
def spanBetween? (first last : Nat) : Option Span := do
  let start ← arena.start? first
  let stop ← arena.stop? last
  if start ≤ stop then some ⟨start, stop⟩ else none

/-- The span of a stored token or trivia piece. -/
def tokenSpan? (index : Nat) : Option Span :=
  arena.spanBetween? index index

/-- The span of a stored token with the trivia around it. -/
def fullSpan? (index : Nat) : Option Span := do
  let token ← arena.tokens[index]?
  arena.spanBetween? (index - token.leading) (index + token.trailing)

/-- The number of the token that is stored behind a token. -/
def nextToken? (index : Nat) : Option Nat :=
  if index + 1 < arena.tokens.length then some (index + 1) else none

/-- The numbers of the tokens that a token leads to one after the other. -/
def tokensAfter (index : Nat) : List Nat :=
  match _found : arena.nextToken? index with
  | none => []
  | some next => next :: tokensAfter next
termination_by arena.tokens.length - index
decreasing_by
  simp only [nextToken?] at _found
  split at _found
  · cases _found
    omega
  · cases _found

/-- The node around a stored node or token. -/
def parent? : Child → Option Nat
  | .node index => arena.nodes[index]?.bind StoredNode.parent?
  | .token index => arena.tokens[index]?.map StoredToken.parent

/-- The numbers of the nodes that stand in no other node. -/
def rootNumbers : List Nat :=
  (List.range arena.nodes.length).filter fun index => (arena.parent? (.node index)).isNone

mutual

/-- The numbers of the nodes that a walk from a node enters, in order. -/
def enteredAt (index : Nat) : List Nat :=
  match arena.nodes[index]? with
  | none => []
  | some node => index :: (arena.nodeChildren node).flatMap (enteredIn index)
termination_by (arena.nodes.length - index, 1)

/-- The numbers of the nodes that a walk enters from a child of a node, which comes after it. -/
def enteredIn (index : Nat) : Child → List Nat
  | .token _ => []
  | .node child =>
    if _ : index < child ∧ child < arena.nodes.length then enteredAt child else []
termination_by (arena.nodes.length - index, 0)

end

/-- The numbers of all nodes that walks enter, from one root after the other. -/
def entered : List Nat :=
  arena.rootNumbers.flatMap arena.enteredAt

end Reading

section Spans

variable (arena : Arena Reach)

/-- The span of a stored node, which is empty behind a token if there is no token in the node. -/
def nodeSpan? (node : StoredNode Reach) : Option Span :=
  if node.reach.last < node.reach.first then (arena.stop? node.reach.last).map Span.empty
  else arena.spanBetween? node.reach.first node.reach.last

/-- The span of a child of a node, with trivia. -/
def childSpan? : Child → Option Span
  | .node index => arena.nodes[index]?.bind arena.nodeSpan?
  | .token index => arena.fullSpan? index

/-- The kind of a stored node and its span. -/
def outline? (node : StoredNode Reach) : Option (Kind × Span) :=
  (arena.nodeSpan? node).map fun span => (node.kind, span)

end Spans

end Arena

end LuaFold
