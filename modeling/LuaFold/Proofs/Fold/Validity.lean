import LuaFold.Proofs.Fold.Definition
import LuaFold.Proofs.Parse.Lossless

/-!
# Fold regions cover closed definitions

The collection with its own stack takes the regions of all nodes of a tree, a node before those
below it.  Every region covers exactly one closed definition, from the first byte of its first
keyword to the last byte of its own `end`, and carries the name that stands in it.
-/

namespace LuaFold

namespace Region

/-- The collection lists the regions of the nodes in and below those of a list. -/
theorem collect_eq
    (regions : List Region)
    (nodes : List Node) :
    collect regions nodes = regions.reverse ++ (nodes.flatMap Node.preorder).filterMap ofNode? := by
  fun_induction collect regions nodes with
  | case1 regions => simp
  | case2 regions node rest ih =>
      rw [ih, List.flatMap_append, Node.flatMap_preorder_childNodes, List.flatMap_cons,
        Node.preorder_eq, List.cons_append, List.filterMap_cons]
      cases ofNode? node with
      | none => simp
      | some region => simp

end Region

namespace Chunk

variable {text : Text}

/-- The root of a chunk, at the start of the text. -/
def node (chunk : Chunk text) : Node :=
  ⟨0, .chunk, chunk.root.extent, [.branch .block chunk.statements, .token chunk.ending]⟩

theorem preorder_node (chunk : Chunk text) : chunk.node.preorder = chunk.root.nodes 0 := by
  simp [node, root, Element.branch, Node.preorder_eq, Element.nodes, Element.extent]

theorem root?_eq
    {chunk : Chunk text}
    (roots : (parse text).tree.roots = [chunk.root]) :
    (parse text).tree.root? = some chunk.node := by
  rw [SyntaxTree.root?, roots]
  rfl

end Chunk

/-- The regions of a text are those of the nodes of its chunk. -/
theorem foldRegions_eq
    {text : Text}
    {chunk : Chunk text}
    (roots : (parse text).tree.roots = [chunk.root]) :
    foldRegions text = (chunk.root.nodes 0).filterMap Region.ofNode? := by
  rw [foldRegions, Region.ofTree, Region.collect_eq, Chunk.root?_eq roots, ← chunk.preorder_node]
  simp

namespace ClosedDefinition

def first (definition : ClosedDefinition) : Token :=
  definition.localKeyword?.getD definition.keyword

/-- The tokens between the first keyword of a definition and its `end`. -/
def middle (definition : ClosedDefinition) : List Token :=
  (definition.localKeyword?.map fun _ => definition.keyword).toList
    ++ definition.name.flatMap Element.tokens ++ definition.body.flatMap Element.tokens

/-- All tokens of a definition: its keywords, its name, and its body with the `end`. -/
def tokens (definition : ClosedDefinition) : List Token :=
  definition.localKeyword?.toList ++ definition.keyword ::
    (definition.name.flatMap Element.tokens ++ definition.bodyChildren.flatMap Element.tokens)

/-- The text from the first keyword of a definition to its `end`, without outer trivia. -/
def slice (definition : ClosedDefinition) : Text :=
  definition.first.text ++ definition.first.trailing.flatMap Trivia.text
    ++ definition.middle.flatMap Token.fullText
    ++ definition.closing.leading.flatMap Trivia.text ++ definition.closing.text

theorem tokens_eq (definition : ClosedDefinition) :
    definition.tokens = definition.first :: (definition.middle ++ [definition.closing]) := by
  obtain ⟨localKeyword?, keyword, name, body, closing⟩ := definition
  cases localKeyword? <;> simp [tokens, first, middle, bodyChildren]

theorem flatMap_tokens_children
    (definition : ClosedDefinition)
    (extent : Extent) :
    (definition.children extent).flatMap Element.tokens = definition.tokens := by
  simp [children, tokens, List.flatMap_map]

/-- The tokens of the node of a definition are its own. -/
theorem tokens_element
    (definition : ClosedDefinition)
    {node : Node}
    {extent : Extent}
    (children : node.children = definition.children extent) :
    node.element.tokens = definition.first :: (definition.middle ++ [definition.closing]) := by
  rw [← definition.tokens_eq, ← definition.flatMap_tokens_children extent, ← children]
  exact Element.tokens_node _ _ _

theorem isTrivia_first (definition : ClosedDefinition) :
    definition.first.kind.isTrivia = false := by
  obtain ⟨localKeyword?, keyword, name, body, closing, isLocal, isFunction, isEnd⟩ := definition
  cases localKeyword? with
  | none => simp [first, isFunction, Kind.isTrivia]
  | some token => simp [first, isLocal token rfl, Kind.isTrivia]

theorem isTrivia_closing (definition : ClosedDefinition) :
    definition.closing.kind.isTrivia = false := by
  rw [definition.isEnd]
  rfl

/-- What stands before the first keyword of a definition, its leading trivia included. -/
def left (definition : ClosedDefinition) (before : List Token) : Text :=
  before.flatMap Token.fullText ++ definition.first.leading.flatMap Trivia.text

/-- What stands behind the `end` of a definition, its trailing trivia included. -/
def right (definition : ClosedDefinition) (behind : List Token) : Text :=
  definition.closing.trailing.flatMap Trivia.text ++ behind.flatMap Token.fullText

/-- A definition cuts the text of tokens around it at its first keyword and behind its `end`. -/
theorem flatMap_fullText_around
    (definition : ClosedDefinition)
    (before behind : List Token) :
    (before ++ definition.tokens ++ behind).flatMap Token.fullText =
      definition.left before ++ definition.slice ++ definition.right behind := by
  simp [tokens_eq, left, slice, right, Token.fullText]

theorem size_slice_pos
    (definition : ClosedDefinition)
    (nonempty : definition.closing.text ≠ []) :
    0 < Text.size definition.slice := by
  refine Nat.pos_of_ne_zero fun empty => nonempty ?_
  have pieces := Text.size_eq_zero_iff.mp empty
  simp only [slice, List.append_eq_nil_iff] at pieces
  exact pieces.2

/-- The trimmed span of a definition is the span of its slice. -/
theorem trimmedSpan_eq
    (definition : ClosedDefinition)
    {node : Node}
    {extent : Extent}
    (measured : node.element.Measured)
    (children : node.children = definition.children extent)
    {before : List Token}
    (offset : node.offset = (before.map Token.width).sum) :
    node.trimmedSpan = ⟨Text.size (definition.left before),
      Text.size (definition.left before) + Text.size definition.slice⟩ := by
  rw [node.trimmedSpan_eq measured (definition.tokens_element children)
    definition.isTrivia_first definition.isTrivia_closing, offset, Token.sum_width, Token.sum_width]
  simp [Token.span, left, slice, Token.innerWidth, Trivia.runWidth_eq_size, Token.fullText]
  omega

end ClosedDefinition

/--
Every region covers a closed definition of the tree.  It starts with the first keyword of the
definition and stops behind its own `end`, both between two characters of the text, and has the
name that the definition is written with.
-/
theorem region_covers_definition (text : Text) :
    ∀ region ∈ foldRegions text, ∃ root ∈ (parse text).tree.root?, ∃ node ∈ root.preorder,
      ∃ (definition : ClosedDefinition) (extent : Extent) (before behind : List Token),
        DefinitionForm.ofKind? node.kind ≠ none ∧
        node.children = definition.children extent ∧
        tokenize text = before ++ definition.tokens ++ behind ∧
        text = definition.left before ++ definition.slice ++ definition.right behind ∧
        region.name = definition.writtenName ∧
        region.span.start = Text.size (definition.left before) ∧
        region.span.stop = Text.size (definition.left before ++ definition.slice) ∧
        region.span.start < region.span.stop ∧ region.span.stop ≤ Text.size text := by
  intro region member
  obtain ⟨chunk, roots, _⟩ := exists_chunk text
  rw [foldRegions_eq roots] at member
  obtain ⟨node, inTree, found⟩ := List.mem_filterMap.mp member
  obtain ⟨measured, formed, before, behind, tokens, offset⟩ :=
    chunk.root.stands_of_mem_nodes 0 chunk.measured_root chunk.formed node inTree
  obtain ⟨definition, extent, defines, children, name, span⟩ :=
    exists_closedDefinition formed found
  have inside : node.element.tokens = definition.tokens := by
    rw [← definition.flatMap_tokens_children extent, ← children]
    exact Element.tokens_node _ _ _
  rw [chunk.tokens_root, inside] at tokens
  have whole : text =
      definition.left before ++ definition.slice ++ definition.right behind := by
    rw [← definition.flatMap_fullText_around, ← tokens, flatMap_fullText_tokenize]
  have trimmed := definition.trimmedSpan_eq measured children (by simpa using offset)
  rw [← span] at trimmed
  have start : region.span.start = Text.size (definition.left before) := by rw [trimmed]
  have stop : region.span.stop = Text.size (definition.left before ++ definition.slice) := by
    rw [trimmed, Text.size_append]
  have closing : definition.closing ∈ tokenize text := by
    rw [tokens, definition.tokens_eq]
    simp
  have nonempty := (significant_of_mem_tokenize closing (by simp [definition.isEnd])).text
  have positive := definition.size_slice_pos nonempty
  have sizes := congrArg Text.size whole
  rw [Text.size_append] at stop
  simp only [Text.size_append] at sizes
  refine ⟨chunk.node, Chunk.root?_eq roots, node, ?_, definition, extent, before, behind, defines,
    children, tokens, whole, name, start, ?_, ?_, ?_⟩
  · rw [chunk.preorder_node]
    exact inTree
  · rw [stop, Text.size_append]
  · omega
  · omega

theorem region_covers_definition_anonymous :
    ⟨"", ⟨7, 21⟩⟩ ∈ foldRegions "return function() end".toList ∧
      ∃ root ∈ (parse "return function() end".toList).tree.root?, ∃ node ∈ root.preorder,
        ∃ (definition : ClosedDefinition) (extent : Extent) (before behind : List Token),
          DefinitionForm.ofKind? node.kind ≠ none ∧
          node.children = definition.children extent ∧
          tokenize "return function() end".toList = before ++ definition.tokens ++ behind ∧
          "return function() end".toList =
            definition.left before ++ definition.slice ++ definition.right behind ∧
          "" = definition.writtenName ∧
          7 = Text.size (definition.left before) ∧
          21 = Text.size (definition.left before ++ definition.slice) ∧
          7 < 21 ∧ 21 ≤ Text.size "return function() end".toList :=
  ⟨by decide +kernel,
    region_covers_definition "return function() end".toList ⟨"", ⟨7, 21⟩⟩ (by decide +kernel)⟩

end LuaFold
