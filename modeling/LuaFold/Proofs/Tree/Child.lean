import LuaFold.Proofs.Tree.Shape

/-!
# Children of a node

A search through the children of a node finds the first child of a kind, or none when no child
has this kind.  What is before the child decides on its offset and on nothing else.
-/

namespace LuaFold

namespace Node

variable {node : Node} {before after : List Element}

/-- The first child node of a kind begins behind the children before it. -/
theorem childNode?_eq_some
    {kind : Kind}
    {extent : Extent}
    {inside : List Element}
    (children : node.children = before ++ .node kind extent inside :: after)
    (first : ∀ extent inside, Element.node kind extent inside ∉ before) :
    node.childNode? kind =
      some ⟨node.offset + (before.map Element.width).sum, kind, extent, inside⟩ := by
  rw [childNode?, childNodes, elements, children]
  generalize node.offset = offset
  clear children
  induction before generalizing offset with
  | nil => simp [ofElement?]
  | cons child rest ih =>
      have others : ∀ extent inside, Element.node kind extent inside ∉ rest :=
        fun extent inside member => first extent inside (List.mem_cons_of_mem child member)
      have found := ih others (offset + child.width)
      cases child with
      | token inner => simpa [ofElement?, Nat.add_assoc] using found
      | node other extent inside =>
          have different : other ≠ kind := by
            rintro rfl
            exact first _ _ List.mem_cons_self
          simpa [ofElement?, different, Nat.add_assoc] using found

theorem childNode?_eq_none
    {kind : Kind}
    (absent : ∀ extent inside, Element.node kind extent inside ∉ node.children) :
    node.childNode? kind = none := by
  rw [childNode?, childNodes, elements]
  generalize node.offset = offset
  generalize node.children = children at absent
  induction children generalizing offset with
  | nil => rfl
  | cons child rest ih =>
      have others : ∀ extent inside, Element.node kind extent inside ∉ rest :=
        fun extent inside member => absent extent inside (List.mem_cons_of_mem child member)
      have found := ih (offset + child.width) others
      cases child with
      | token inner => simpa [ofElement?] using found
      | node other extent inside =>
          have different : other ≠ kind := by
            rintro rfl
            exact absent _ _ List.mem_cons_self
          simpa [ofElement?, different] using found

theorem childToken?_eq_some
    {inner : Token}
    (children : node.children = before ++ .token inner :: after)
    (first : ∀ other, Element.token other ∈ before → other.kind ≠ inner.kind) :
    node.childToken? inner.kind =
      some (node.offset + (before.map Element.width).sum, inner) := by
  rw [childToken?, childTokens, elements, children]
  generalize node.offset = offset
  clear children
  induction before generalizing offset with
  | nil => simp
  | cons child rest ih =>
      have others : ∀ other, Element.token other ∈ rest → other.kind ≠ inner.kind :=
        fun other member => first other (List.mem_cons_of_mem child member)
      have found := ih others (offset + child.width)
      cases child with
      | token other =>
          have different := first other List.mem_cons_self
          simpa [different, Nat.add_assoc] using found
      | node kind extent inside => simpa [Nat.add_assoc] using found

theorem childToken?_eq_none
    {kind : Kind}
    (absent : ∀ inner, Element.token inner ∈ node.children → inner.kind ≠ kind) :
    node.childToken? kind = none := by
  rw [childToken?, childTokens, elements]
  generalize node.offset = offset
  generalize node.children = children at absent
  induction children generalizing offset with
  | nil => rfl
  | cons child rest ih =>
      have others : ∀ inner, Element.token inner ∈ rest → inner.kind ≠ kind :=
        fun inner member => absent inner (List.mem_cons_of_mem child member)
      have found := ih (offset + child.width) others
      cases child with
      | token inner =>
          have different := absent inner List.mem_cons_self
          simpa [different] using found
      | node other extent inside => simpa using found

/-- The tokens of a node with no nodes in it are its child tokens. -/
theorem childTokens_eq_layOut
    {tokens : List Token}
    (flat : node.children = tokens.map .token) :
    node.childTokens = Text.layOut Token.width node.offset tokens := by
  rw [childTokens, elements, flat]
  generalize node.offset = offset
  clear flat
  induction tokens generalizing offset with
  | nil => rfl
  | cons first rest ih => simpa using ih (offset + first.width)

/-- The nodes below a node are its child nodes and the nodes below those. -/
theorem flatMap_preorder_childNodes (node : Node) :
    node.childNodes.flatMap preorder = Element.allNodes node.offset node.children := by
  rw [childNodes, elements]
  generalize node.offset = offset
  generalize node.children = children
  induction children generalizing offset with
  | nil => rfl
  | cons child rest ih =>
      have below := ih (offset + child.width)
      cases child with
      | token inner => simpa [ofElement?, Element.allNodes, Element.nodes] using below
      | node kind extent inside =>
          rw [Text.layOut_cons]
          show (Node.mk offset kind extent inside :: List.filterMap _ _).flatMap preorder = _
          rw [List.flatMap_cons, below, preorder_eq, Element.allNodes, Element.nodes]

end Node

end LuaFold
