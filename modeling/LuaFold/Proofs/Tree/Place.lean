import LuaFold.Proofs.Grammar.Form

/-!
# Places of nodes in a tree

A node below an element holds consecutive tokens of the element, and begins where the tokens
before it stop.  It is measured and formed when the whole element is.  The trimmed span of such
a node runs from the start of its first token to the end of its last, provided that both are
significant.
-/

namespace LuaFold

namespace Extent

theorem core?_append_of_some
    {first second : Extent}
    {core : Span}
    (found : second.core? = some core) :
    ∃ start, (first.append second).core? = some ⟨start, core.stop + first.width⟩ := by
  obtain ⟨width, core?⟩ := first
  rw [append, found]
  cases core? with
  | none => exact ⟨_, rfl⟩
  | some span => exact ⟨_, rfl⟩

/-- The significant part of tokens runs from the first to the last of them. -/
theorem core?_total
    {first last : Token}
    (middle : List Token)
    (firstSignificant : first.kind.isTrivia = false)
    (lastSignificant : last.kind.isTrivia = false) :
    (total ((first :: (middle ++ [last])).map ofToken)).core? =
      some ⟨(first.span 0).start, (last.span ((first :: middle).map Token.width).sum).stop⟩ := by
  have width : (total (middle.map ofToken)).width = (middle.map Token.width).sum := by
    rw [width_total, List.map_map]
    rfl
  have ending : (ofToken last).core? = some (last.span 0) := by simp [ofToken, lastSignificant]
  obtain ⟨start, core⟩ := core?_append_of_some ending
  rw [List.map_cons, List.map_append, total_cons, total_append, List.map_singleton, total_cons,
    total_nil, append_empty, append, core]
  simp [ofToken, firstSignificant, joinCores, Span.shift, width, Token.span]
  omega

end Extent

namespace Element

theorem total_extents
    {elements : List Element}
    (extents : ∀ element ∈ elements,
      element.extent = Extent.total (element.tokens.map Extent.ofToken)) :
    Extent.total (elements.map extent) =
      Extent.total ((elements.flatMap tokens).map Extent.ofToken) := by
  induction elements with
  | nil => rfl
  | cons first rest ih =>
      have there := ih fun element member => extents element (by simp [member])
      simp [extents first (by simp), there]

/-- The extent of a measured element is the extent of its tokens. -/
theorem Measured.extent_eq
    {element : Element}
    (measured : element.Measured) :
    element.extent = Extent.total (element.tokens.map Extent.ofToken) := by
  induction measured with
  | token inner => simp [extent]
  | @node kind children all ih =>
      rw [branch, tokens_node]
      exact total_extents ih

theorem mem_allNodes
    {node : Node}
    {offset : Nat}
    {elements : List Element}
    (member : node ∈ allNodes offset elements) :
    ∃ before element after, elements = before ++ element :: after ∧
      node ∈ element.nodes (offset + (before.map width).sum) := by
  induction elements generalizing offset with
  | nil => simp [allNodes] at member
  | cons first rest ih =>
      rw [allNodes] at member
      rcases List.mem_append.mp member with here | there
      · exact ⟨[], first, rest, rfl, by simpa using here⟩
      · obtain ⟨before, element, after, rfl, inside⟩ := ih there
        exact ⟨first :: before, element, after, rfl, by simpa [Nat.add_assoc] using inside⟩

end Element

namespace Node

/-- The element that a node is, without its offset. -/
def element (node : Node) : Element :=
  .node node.kind node.extent node.children

/-- A node holds consecutive tokens of a list, and begins behind the bytes of those before. -/
structure Stands (node : Node) (offset : Nat) (tokens : List Token) : Prop where
  measured : node.element.Measured
  formed : node.element.shape.Formed
  placed : ∃ before behind, tokens = before ++ node.element.tokens ++ behind ∧
    node.offset = offset + (before.map Token.width).sum

theorem Stands.within
    {node : Node}
    {offset : Nat}
    {tokens : List Token}
    {before behind : List Token}
    (stands : node.Stands (offset + (before.map Token.width).sum) tokens) :
    node.Stands offset (before ++ tokens ++ behind) := by
  obtain ⟨measured, formed, more, after, rfl, start⟩ := stands
  refine ⟨measured, formed, before ++ more, after ++ behind, by simp, ?_⟩
  rw [start, List.map_append, List.sum_append, Nat.add_assoc]

end Node

namespace Element

/-- Every node in or below a measured and formed element stands in its tokens. -/
theorem stands_of_mem_nodes (element : Element) :
    ∀ (offset : Nat), element.Measured → element.shape.Formed →
      ∀ node ∈ element.nodes offset, node.Stands offset element.tokens := by
  induction element using Element.induct with
  | token inner =>
      intro offset _ _ node member
      simp [nodes] at member
  | node kind extent children ih =>
      intro offset measured formed node member
      rw [nodes] at member
      rcases List.mem_cons.mp member with rfl | below
      · exact ⟨measured, formed, [], [], by simp [Node.element], rfl⟩
      · obtain ⟨before, child, after, rfl, inside⟩ := mem_allNodes below
        have shapes : (Shape.node kind ((before ++ child :: after).map shape)).Formed := by
          rwa [shape_node] at formed
        have widths := sum_width fun element member =>
          measured.children element (List.mem_append_left (child :: after) member)
        rw [widths] at inside
        have stands := ih child (by simp) _ (measured.children child (by simp))
          (shapes.children _ (by simp)) node inside
        rw [tokens_node, List.flatMap_append, List.flatMap_cons, ← List.append_assoc]
        exact stands.within

end Element

namespace Node

/-- The trimmed span of a measured node whose first and last tokens are significant. -/
theorem trimmedSpan_eq
    {node : Node}
    {first last : Token}
    {middle : List Token}
    (measured : node.element.Measured)
    (tokens : node.element.tokens = first :: (middle ++ [last]))
    (firstSignificant : first.kind.isTrivia = false)
    (lastSignificant : last.kind.isTrivia = false) :
    node.trimmedSpan = ⟨(first.span node.offset).start,
      (last.span (node.offset + ((first :: middle).map Token.width).sum)).stop⟩ := by
  have extent := measured.extent_eq
  rw [tokens] at extent
  have core := Extent.core?_total middle firstSignificant lastSignificant
  rw [← extent] at core
  have known : node.extent.core? = some _ := core
  simp [trimmedSpan, known, Span.shift, Token.span]
  omega

end Node

end LuaFold
