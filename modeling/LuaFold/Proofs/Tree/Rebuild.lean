import LuaFold.Proofs.Grammar.Replay

/-!
# Rebuilding a tree from its calls

The calls of a tree give its kinds and the lengths of its pieces, and a builder cuts the pieces
from the text.  Over its own text every call of a measured tree is accepted, and the tree comes
back; only the faults that its tokens remember are lost, since no call mentions them.
-/

namespace LuaFold

/-- A trivia piece without its fault. -/
def Trivia.bare (piece : Trivia) : Trivia :=
  ⟨piece.kind, piece.text, none⟩

/-- A token without the faults in it and around it. -/
def Token.bare (inner : Token) : Token :=
  ⟨inner.leading.map Trivia.bare, inner.kind, inner.text, inner.trailing.map Trivia.bare, none⟩

theorem Trivia.runWidth_bare (pieces : List Trivia) :
    runWidth (pieces.map bare) = runWidth pieces := by
  rw [runWidth_eq_size, runWidth_eq_size, List.flatMap_map]
  rfl

theorem Extent.ofToken_bare (inner : Token) : ofToken inner.bare = ofToken inner := by
  simp [ofToken, Token.bare, Token.width, Token.innerWidth, Token.span, Trivia.runWidth_bare]

namespace Element

mutual

def bare : Element → Element
  | .token inner => .token inner.bare
  | .node kind extent children => .node kind extent (allBare children)

def allBare : List Element → List Element
  | [] => []
  | first :: rest => first.bare :: allBare rest

end

@[simp]
theorem allBare_eq_map (elements : List Element) : allBare elements = elements.map bare := by
  induction elements with
  | nil => rfl
  | cons first rest ih => simp [allBare, ih]

@[simp]
theorem bare_token (inner : Token) : (token inner).bare = .token inner.bare := by
  simp [bare]

@[simp]
theorem bare_node
    (kind : Kind)
    (extent : Extent)
    (children : List Element) :
    (node kind extent children).bare = .node kind extent (children.map bare) := by
  simp [bare]

/-- Faults have no part in the extent of an element. -/
@[simp]
theorem extent_bare (element : Element) : element.bare.extent = element.extent := by
  cases element with
  | token inner =>
      rw [bare_token]
      exact Extent.ofToken_bare inner
  | node kind extent children =>
      rw [bare_node]
      rfl

theorem bare_branch
    (kind : Kind)
    (children : List Element) :
    (branch kind children).bare = .branch kind (children.map bare) := by
  simp [branch, Function.comp_def]

end Element

def SyntaxTree.bare (tree : SyntaxTree) : SyntaxTree :=
  ⟨tree.roots.map Element.bare⟩

namespace Builder

/-- A builder with other text left and more bytes behind it. -/
def move (builder : Builder) (rest : Text) (bytes : Nat) : Builder :=
  ⟨rest, builder.pushed + bytes, builder.opened, builder.roots⟩

theorem take_size
    {builder : Builder}
    {text behind : Text}
    (rest : builder.rest = text ++ behind) :
    builder.take (Text.size text) = .ok (text, builder.move behind (Text.size text)) := by
  rw [take, rest, Text.cut?_size_append]
  rfl

private theorem takePieces
    {pieces : List Trivia}
    {behind : Text}
    (taken : List Trivia)
    {builder : Builder}
    (rest : builder.rest = pieces.flatMap Trivia.text ++ behind) :
    (pieces.map Trivia.measure).foldlM
        (fun ((taken, builder) : List Trivia × Builder) (piece : Measured) => do
          let (text, builder) ← builder.take piece.length
          return ((⟨piece.kind, text, none⟩ : Trivia) :: taken, builder))
        (taken, builder) =
      .ok ((pieces.map Trivia.bare).reverse ++ taken,
        builder.move behind (Text.size (pieces.flatMap Trivia.text))) := by
  induction pieces generalizing taken builder with
  | nil =>
      obtain ⟨left, pushed, opened, roots⟩ := builder
      cases rest
      rfl
  | cons piece pieces ih =>
      rw [List.flatMap_cons, List.append_assoc] at rest
      have first := take_size rest
      rw [List.map_cons, List.foldlM_cons]
      simp only [Trivia.measure, Trivia.width, first, bind, Except.bind, pure, Except.pure]
      refine (ih _ rfl).trans ?_
      simp [move, Trivia.bare, Nat.add_assoc]

/-- Trivia pieces at the front of the text are taken one by one. -/
theorem takeTrivia_measure
    {builder : Builder}
    {pieces : List Trivia}
    {behind : Text}
    (rest : builder.rest = pieces.flatMap Trivia.text ++ behind) :
    builder.takeTrivia (pieces.map Trivia.measure) =
      .ok (pieces.map Trivia.bare, builder.move behind (Trivia.runWidth pieces)) := by
  rw [takeTrivia, takePieces [] rest, Trivia.runWidth_eq_size]
  simp [bind, Except.bind, pure, Except.pure]

/-- A token at the front of the text is added to the node that is open. -/
theorem perform_tokenCall
    {builder : Builder}
    {inner : Token}
    {behind : Text}
    (opened : builder.opened ≠ [])
    (rest : builder.rest = inner.fullText ++ behind) :
    builder.perform (Event.tokenCall inner) =
      .ok ((builder.move behind inner.width).add (.token inner.bare)) := by
  rw [Token.fullText, List.append_assoc, List.append_assoc] at rest
  let middle := inner.trailing.flatMap Trivia.text ++ behind
  let before := builder.move (inner.text ++ middle) (Trivia.runWidth inner.leading)
  have leading : builder.takeTrivia (inner.leading.map Trivia.measure) = .ok (_, before) :=
    takeTrivia_measure rest
  have text : before.take inner.innerWidth = .ok (_, before.move middle inner.innerWidth) :=
    take_size rfl
  have trailing := @takeTrivia_measure (before.move middle inner.innerWidth) inner.trailing
    behind rfl
  have isOpen : builder.opened.isEmpty = false := by simpa using opened
  simp only [Event.tokenCall, perform, isOpen, leading, text, trailing, bind, Except.bind, pure,
    Except.pure]
  simp [Token.bare, before, move, Token.width, Nat.add_assoc]

/-! ## Whole elements -/

/-- An element takes its text and is added to the node that is open. -/
def Accepts (element : Element) : Prop :=
  ∀ (builder : Builder) (behind : Text), builder.opened ≠ [] →
    builder.rest = element.tokens.flatMap Token.fullText ++ behind →
    element.calls.foldlM perform builder =
      .ok ((builder.move behind element.width).add element.bare)

/-- Elements take their text one after the other, into the same node. -/
theorem perform_elements
    {elements : List Element}
    (accepts : ∀ element ∈ elements, Accepts element)
    {builder : Builder}
    {kind : Kind}
    {children : List Element}
    {outer : List (Kind × List Element)}
    {behind : Text}
    (opened : builder.opened = (kind, children) :: outer)
    (rest : builder.rest = (elements.flatMap Element.tokens).flatMap Token.fullText ++ behind) :
    (elements.flatMap Element.calls).foldlM perform builder =
      .ok ⟨behind, builder.pushed + (elements.map Element.width).sum,
        (kind, (elements.map Element.bare).reverse ++ children) :: outer, builder.roots⟩ := by
  induction elements generalizing builder children with
  | nil =>
      obtain ⟨left, pushed, opened, roots⟩ := builder
      cases rest
      cases opened
      rfl
  | cons element elements ih =>
      rw [List.flatMap_cons, List.flatMap_append, List.append_assoc] at rest
      have first := accepts element (by simp) builder _ (by simp [opened]) rest
      rw [List.flatMap_cons, List.foldlM_append, first]
      have added : ((builder.move
          ((elements.flatMap Element.tokens).flatMap Token.fullText ++ behind)
          element.width).add element.bare).opened = (kind, element.bare :: children) :: outer := by
        simp [add, move, opened]
      refine (ih (fun later member => accepts later (by simp [member])) added ?_).trans ?_
      · simp [add, move, opened]
      · simp [add, move, opened, Nat.add_assoc]

/-- A node is opened, filled and closed, whether or not another one is open. -/
theorem perform_branch
    {kind : Kind}
    {children : List Element}
    (accepts : ∀ child ∈ children, Accepts child)
    {builder : Builder}
    {behind : Text}
    (rest : builder.rest = (children.flatMap Element.tokens).flatMap Token.fullText ++ behind) :
    (Element.branch kind children).calls.foldlM perform builder =
      .ok ((builder.move behind (Element.branch kind children).width).add
        (Element.branch kind children).bare) := by
  let entered : Builder :=
    ⟨builder.rest, builder.pushed, (kind, []) :: builder.opened, builder.roots⟩
  have started : builder.perform (.start kind) = .ok entered := rfl
  have filled : (children.flatMap Element.calls).foldlM perform entered = .ok _ :=
    perform_elements accepts rfl rest
  have calls : (Element.branch kind children).calls =
      .start kind :: (children.flatMap Element.calls ++ [.finish]) :=
    Element.calls_node _ _ _
  rw [calls, List.foldlM_cons, started]
  simp only [bind, Except.bind]
  rw [List.foldlM_append, filled, Element.width_branch, Element.bare_branch]
  simp [bind, Except.bind, pure, Except.pure, perform, move, entered]

/-- Every measured element is accepted over its own text. -/
theorem accepts_measured
    {element : Element}
    (measured : element.Measured) :
    Accepts element := by
  induction measured with
  | token inner =>
      intro builder behind opened rest
      have performed := perform_tokenCall opened (by simpa using rest)
      simp [performed, Element.width, Element.extent, Extent.ofToken]
  | @node kind children all ih =>
      intro builder behind opened rest
      refine perform_branch ih ?_
      simpa [Element.branch] using rest

/-- Nodes take their text one after the other when no node is open, and become roots. -/
theorem perform_roots
    {roots : List Element}
    (measured : ∀ root ∈ roots, root.Measured)
    (nodes : ∀ root ∈ roots, root.isNode = true)
    {builder : Builder}
    {behind : Text}
    (closed : builder.opened = [])
    (rest : builder.rest = (roots.flatMap Element.tokens).flatMap Token.fullText ++ behind) :
    (roots.flatMap Element.calls).foldlM perform builder =
      .ok ⟨behind, builder.pushed + (roots.map Element.width).sum, [],
        (roots.map Element.bare).reverse ++ builder.roots⟩ := by
  induction roots generalizing builder with
  | nil =>
      obtain ⟨left, pushed, opened, done⟩ := builder
      cases rest
      cases closed
      rfl
  | cons root roots ih =>
      cases measured root (by simp) with
      | token inner => simp [Element.isNode] at nodes
      | @node kind children all =>
          have before : builder.rest = (children.flatMap Element.tokens).flatMap Token.fullText ++
              ((roots.flatMap Element.tokens).flatMap Token.fullText ++ behind) := by
            rw [rest]
            simp [Element.branch]
          have first : (Element.branch kind children).calls.foldlM perform builder = .ok _ :=
            perform_branch (fun child member => accepts_measured (all child member)) before
          rw [List.flatMap_cons, List.foldlM_append, first]
          refine (ih (fun later member => measured later (by simp [member]))
            (fun later member => nodes later (by simp [member])) ?_ ?_).trans ?_
          · simp [add, move, closed]
          · simp [add, move, closed]
          · simp [add, move, closed, Nat.add_assoc]

end Builder

/-- The calls of measured nodes build them over their own text, without their faults. -/
theorem SyntaxTree.build_forest
    {roots : List Element}
    (present : roots ≠ [])
    (measured : ∀ root ∈ roots, root.Measured)
    (nodes : ∀ root ∈ roots, root.isNode = true) :
    build ((roots.flatMap Element.tokens).flatMap Token.fullText)
        (roots.flatMap Element.calls) =
      .ok ⟨roots.map Element.bare⟩ := by
  have start : (Builder.new ((roots.flatMap Element.tokens).flatMap Token.fullText)).rest =
      (roots.flatMap Element.tokens).flatMap Token.fullText ++ [] := (List.append_nil _).symm
  have performed := Builder.perform_roots measured nodes rfl start
  rw [build, performed]
  simp [bind, Except.bind, Builder.finish, Builder.new, present]

/-- The calls of a measured tree with one root build it over its own text, without its faults. -/
theorem SyntaxTree.build_calls
    {kind : Kind}
    {children : List Element}
    (all : ∀ child ∈ children, child.Measured) :
    build ((Element.branch kind children).tokens.flatMap Token.fullText)
        (Element.branch kind children).calls =
      .ok ⟨[(Element.branch kind children).bare]⟩ := by
  have measured : ∀ root ∈ [Element.branch kind children], root.Measured := by
    simpa using Element.Measured.node kind all
  have built := build_forest (by simp) measured (by simp [Element.branch, Element.isNode])
  simpa using built

end LuaFold
