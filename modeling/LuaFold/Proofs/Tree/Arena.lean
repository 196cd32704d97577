import LuaFold.Proofs.Tree.Rebuild
import LuaFold.Tree.Arena

/-!
# Elements in an arena

An element is stored in an arena when its tokens and its children are found there under their
numbers.  A walk that starts at the number of a stored node retraces the calls of the element.
What is stored stays stored while an arena grows, for a closed node does not change any more.
-/

namespace LuaFold

namespace StoredToken

/-- The tokens that trivia pieces are stored as, from an offset on. -/
def ofTrivia (parent offset : Nat) : List Trivia → List StoredToken
  | [] => []
  | piece :: rest =>
      ⟨piece.kind.kind, offset + piece.width, parent, 0, 0⟩ ::
        ofTrivia parent (offset + piece.width) rest

/-- The tokens that a token and its trivia are stored as, from an offset on. -/
def ofToken (parent offset : Nat) (inner : Token) : List StoredToken :=
  ofTrivia parent offset inner.leading ++
    ⟨inner.kind, (inner.span offset).stop, parent, inner.leading.length, inner.trailing.length⟩ ::
      ofTrivia parent (inner.span offset).stop inner.trailing

@[simp]
theorem length_ofTrivia
    (parent offset : Nat)
    (pieces : List Trivia) :
    (ofTrivia parent offset pieces).length = pieces.length := by
  induction pieces generalizing offset with
  | nil => rfl
  | cons piece rest ih => simp [ofTrivia, ih]

/-- The last of the tokens that trivia is stored as stops behind all of it. -/
theorem exists_last
    (before : StoredToken)
    (parent : Nat)
    (pieces : List Trivia) :
    ∃ front last, before :: ofTrivia parent before.stop pieces = front ++ [last] ∧
      front.length = pieces.length ∧ last.stop = before.stop + Trivia.runWidth pieces := by
  induction pieces generalizing before with
  | nil => exact ⟨[], before, rfl, rfl, rfl⟩
  | cons piece rest ih =>
      obtain ⟨front, last, split, length, stop⟩ :=
        ih ⟨piece.kind.kind, before.stop + piece.width, parent, 0, 0⟩
      refine ⟨before :: front, last, ?_, by simp [length], ?_⟩
      · rw [ofTrivia, split]
        rfl
      · rw [stop, Trivia.runWidth_eq_size, Trivia.runWidth_eq_size, List.flatMap_cons,
          Text.size_append, ← Nat.add_assoc]
        rfl

end StoredToken

namespace Arena

variable
    {Known : Type}
    {arena : Arena Known}
    {earlier later : List StoredToken}
    {before inner : StoredToken}

theorem getElem?_tokens (tokens : arena.tokens = earlier ++ before :: inner :: later) :
    arena.tokens[earlier.length + 1]? = some inner := by
  simp [tokens]

/-- A stored token starts where the one before it stops. -/
theorem tokenLength?_eq (tokens : arena.tokens = earlier ++ before :: inner :: later) :
    arena.tokenLength? (earlier.length + 1) = some (inner.stop - before.stop) := by
  simp [tokenLength?, tokens]

theorem piece?_eq
    {kind : TriviaKind}
    (tokens : arena.tokens = earlier ++ before :: inner :: later)
    (isTrivia : inner.kind = kind.kind) :
    arena.piece? (earlier.length + 1) = some ⟨kind, inner.stop - before.stop⟩ := by
  simp [piece?, tokenLength?_eq tokens, tokens, isTrivia]

/-- Stored trivia is read back piece by piece. -/
theorem mapM_piece?
    {parent : Nat}
    {pieces : List Trivia}
    (tokens : arena.tokens =
      earlier ++ before :: (StoredToken.ofTrivia parent before.stop pieces ++ later)) :
    (List.range' (earlier.length + 1) pieces.length).mapM arena.piece? =
      some (pieces.map Trivia.measure) := by
  induction pieces generalizing earlier before with
  | nil => rfl
  | cons piece rest ih =>
      rw [StoredToken.ofTrivia, List.cons_append] at tokens
      have here := piece?_eq tokens rfl
      have there := @ih (earlier ++ [before])
        ⟨piece.kind.kind, before.stop + piece.width, parent, 0, 0⟩ (by simpa using tokens)
      rw [List.length_append, List.length_singleton] at there
      rw [List.length_cons, List.range'_succ, List.mapM_cons, here, there]
      simp [Trivia.measure]

/-- The call of a stored token is the call of the token. -/
theorem tokenCall?_eq
    {parent : Nat}
    {token : Token}
    (tokens : arena.tokens =
      earlier ++ before :: (StoredToken.ofToken parent before.stop token ++ later)) :
    arena.tokenCall? (earlier.length + 1 + token.leading.length) =
      some (Event.tokenCall token) := by
  obtain ⟨front, last, split, length, stop⟩ :=
    StoredToken.exists_last before parent token.leading
  let stored : StoredToken := ⟨token.kind, (token.span before.stop).stop, parent,
    token.leading.length, token.trailing.length⟩
  rw [StoredToken.ofToken] at tokens
  have around : arena.tokens = earlier ++ before ::
      (StoredToken.ofTrivia parent before.stop token.leading ++
        (stored :: StoredToken.ofTrivia parent stored.stop token.trailing ++ later)) := by
    rw [tokens, List.append_assoc]
  have place : earlier.length + 1 + token.leading.length = (earlier ++ front).length + 1 := by
    simp [length]
    omega
  have inside : arena.tokens = (earlier ++ front) ++ last :: stored ::
      (StoredToken.ofTrivia parent stored.stop token.trailing ++ later) := by
    rw [around, ← List.cons_append, split]
    simp
  have behind : arena.tokens = (earlier ++ front ++ [last]) ++ stored ::
      (StoredToken.ofTrivia parent stored.stop token.trailing ++ later) := by
    rw [inside, List.append_assoc (earlier ++ front), List.singleton_append]
  have leading := mapM_piece? around
  have own := tokenLength?_eq inside
  have trailing := mapM_piece? behind
  have found := getElem?_tokens inside
  have width : stored.stop - last.stop = token.innerWidth := by
    rw [stop]
    simp [stored, Token.span]
  have start : earlier.length + 1 + token.leading.length - token.leading.length =
      earlier.length + 1 := Nat.add_sub_cancel _ _
  rw [← place] at own found
  rw [List.length_append, List.length_singleton, ← place] at trailing
  rw [tokenCall?, found]
  simp only [stored] at leading own trailing width ⊢
  simp [start, leading, own, trailing, width, Event.tokenCall]

end Arena

/--
What can be read from an arena, whether or not it is finished: its tokens, the children of its
nodes, the kinds of its nodes, and where the children of a closed node stand.
-/
structure ArenaView where
  tokens : List StoredToken
  children : List Child
  kind? : Nat → Option Kind
  closed? : Nat → Option (Nat × Nat)

/-- A finished arena, in which every node is closed. -/
def Arena.view {Known : Type} (arena : Arena Known) : ArenaView where
  tokens := arena.tokens
  children := arena.children
  kind? index := arena.nodes[index]?.map StoredNode.kind
  closed? index := arena.nodes[index]?.map fun node => (node.start, node.count)

namespace ArenaView

/-- A token with its trivia is stored under a number. -/
def HasToken (view : ArenaView) (inner : Token) (index : Nat) : Prop :=
  ∃ earlier before parent later, view.tokens =
      earlier ++ before :: (StoredToken.ofToken parent before.stop inner ++ later) ∧
    index = earlier.length + 1 + inner.leading.length

/-- The children of a closed node are among all children, and its child nodes come after it. -/
structure HasNode
    (view : ArenaView)
    (kind : Kind)
    (children : List Child)
    (index : Nat) :
    Prop where
  kind : view.kind? index = some kind
  closed : ∃ start, view.closed? index = some (start, children.length) ∧
    children <+: view.children.drop start
  forward : ∀ child, Child.node child ∈ children → index < child

/-- One view of an arena that is building is followed by another. -/
structure Grows (first second : ArenaView) : Prop where
  tokens : first.tokens <+: second.tokens
  children : first.children <+: second.children
  kind? : ∀ index kind, first.kind? index = some kind → second.kind? index = some kind
  closed? : ∀ index place, first.closed? index = some place → second.closed? index = some place

namespace Grows

variable {first second : ArenaView}

theorem hasToken
    (grows : first.Grows second)
    {inner : Token}
    {index : Nat}
    (has : first.HasToken inner index) :
    second.HasToken inner index := by
  obtain ⟨earlier, before, parent, later, tokens, place⟩ := has
  obtain ⟨more, extended⟩ := grows.tokens
  refine ⟨earlier, before, parent, later ++ more, ?_, place⟩
  rw [← extended, tokens]
  simp

theorem hasNode
    (grows : first.Grows second)
    {kind : Kind}
    {children : List Child}
    {index : Nat}
    (has : first.HasNode kind children index) :
    second.HasNode kind children index := by
  obtain ⟨kindHere, ⟨start, closed, among⟩, forward⟩ := has
  obtain ⟨more, extended⟩ := grows.children
  refine ⟨grows.kind? _ _ kindHere, ⟨start, grows.closed? _ _ closed, ?_⟩, forward⟩
  rw [← extended, List.drop_append]
  exact among.trans (List.prefix_append _ _)

end Grows

end ArenaView

namespace Element

mutual

/-- An element is stored under the number of a child. -/
def StoredAs (view : ArenaView) : Element → Child → Prop
  | .token inner, .token index => view.HasToken inner index
  | .node kind _ elements, .node index =>
      ∃ children, view.HasNode kind children index ∧ AllStoredAs view elements children
  | _, _ => False

def AllStoredAs (view : ArenaView) : List Element → List Child → Prop
  | [], [] => True
  | first :: rest, child :: children => first.StoredAs view child ∧ AllStoredAs view rest children
  | _, _ => False

end

variable {view : ArenaView}

theorem allStoredAs_cons
    {first : Element}
    {rest : List Element}
    {children : List Child} :
    AllStoredAs view (first :: rest) children ↔
      ∃ child others,
        children = child :: others ∧
        first.StoredAs view child ∧
        AllStoredAs view rest others := by
  cases children with
  | nil => simp [AllStoredAs]
  | cons child others =>
      constructor
      · rintro ⟨here, there⟩
        exact ⟨child, others, rfl, here, there⟩
      · rintro ⟨_, _, same, here, there⟩
        cases same
        exact ⟨here, there⟩

theorem AllStoredAs.length_eq
    {elements : List Element}
    {children : List Child}
    (stored : AllStoredAs view elements children) :
    elements.length = children.length := by
  induction elements generalizing children with
  | nil =>
      cases children with
      | nil => rfl
      | cons child children => exact stored.elim
  | cons first rest ih =>
      obtain ⟨child, others, rfl, _, there⟩ := allStoredAs_cons.mp stored
      simp [ih there]

theorem AllStoredAs.append
    {first second : List Element}
    {children others : List Child}
    (before : AllStoredAs view first children)
    (behind : AllStoredAs view second others) :
    AllStoredAs view (first ++ second) (children ++ others) := by
  induction first generalizing children with
  | nil =>
      cases children with
      | nil => exact behind
      | cons child rest => exact before.elim
  | cons element rest ih =>
      obtain ⟨child, more, rfl, here, there⟩ := allStoredAs_cons.mp before
      exact ⟨here, ih there⟩

mutual

/-- What is stored stays stored. -/
theorem StoredAs.grows
    {later : ArenaView}
    (grows : view.Grows later) :
    {element : Element} → {child : Child} → element.StoredAs view child →
      element.StoredAs later child
  | .token _, .token _, stored => grows.hasToken stored
  | .node _ _ _, .node _, ⟨children, has, inside⟩ =>
      ⟨children, grows.hasNode has, AllStoredAs.grows grows inside⟩

theorem AllStoredAs.grows
    {later : ArenaView}
    (grows : view.Grows later) :
    {elements : List Element} → {children : List Child} → AllStoredAs view elements children →
      AllStoredAs later elements children
  | [], [], _ => trivial
  | _ :: _, _ :: _, ⟨here, there⟩ =>
      ⟨StoredAs.grows grows here, AllStoredAs.grows grows there⟩

end

end Element

namespace Arena

variable {Known : Type} {arena : Arena Known}

/-- A closed node is found under its number, with its children among all children. -/
theorem exists_of_hasNode
    {kind : Kind}
    {children : List Child}
    {index : Nat}
    (has : arena.view.HasNode kind children index) :
    ∃ node,
      arena.nodes[index]? = some node ∧
      node.kind = kind ∧
      arena.nodeChildren node = children := by
  obtain ⟨isKind, ⟨start, closed, among⟩, _⟩ := has
  obtain ⟨node, found, isKind⟩ := Option.map_eq_some_iff.mp isKind
  have place : node.start = start ∧ node.count = children.length := by
    simpa [view, found] using closed
  refine ⟨node, found, isKind, ?_⟩
  rw [nodeChildren, place.1, place.2]
  exact (List.prefix_iff_eq_take.mp among).symm

mutual

/-- A walk from the number of a stored node retraces the calls of its element. -/
theorem callsAt?_of_storedAs {index : Nat} :
    (element : Element) → element.StoredAs arena.view (.node index) →
      arena.callsAt? index = some element.calls
  | .token _, stored => stored.elim
  | .node kind extent elements, ⟨children, has, inside⟩ => by
      obtain ⟨node, found, isKind, listed⟩ := exists_of_hasNode has
      have below := mapM_childCalls? elements inside has.forward
      rw [callsAt?, found]
      simp [listed, below, isKind, List.flatMap_def]

theorem mapM_childCalls? {index : Nat} :
    (elements : List Element) → {children : List Child} →
      Element.AllStoredAs arena.view elements children →
      (∀ child, Child.node child ∈ children → index < child) →
      children.mapM (arena.childCalls? index) = some (elements.map Element.calls)
  | [], [], _, _ => rfl
  | first :: rest, child :: children, ⟨here, there⟩, forward => by
      have others := mapM_childCalls? rest there fun later member =>
        forward later (List.mem_cons_of_mem _ member)
      have own := childCalls?_of_storedAs first here fun later same =>
        forward later (same ▸ List.mem_cons_self)
      simp [List.mapM_cons, own, others]

theorem childCalls?_of_storedAs {index : Nat} :
    (element : Element) → {child : Child} → element.StoredAs arena.view child →
      (∀ later, Child.node later = child → index < later) →
      arena.childCalls? index child = some element.calls
  | .token inner, .token place, stored, _ => by
      obtain ⟨earlier, before, parent, later, tokens, rfl⟩ := stored
      rw [childCalls?, tokenCall?_eq tokens]
      simp
  | .node kind extent elements, .node child, stored, forward => by
      have below := callsAt?_of_storedAs (.node kind extent elements) stored
      obtain ⟨_, ⟨isKind, _, _⟩, _⟩ := stored
      obtain ⟨node, found, _⟩ := Option.map_eq_some_iff.mp isKind
      obtain ⟨inside, _⟩ := List.getElem?_eq_some_iff.mp found
      rw [childCalls?, dif_pos ⟨forward child rfl, inside⟩, below]

end

end Arena

end LuaFold
