import LuaFold.Proofs.Grammar.Account.Statement
import LuaFold.Proofs.Parse.Schema
import Mathlib.Algebra.Order.BigOperators.Group.List
import Mathlib.Algebra.Order.Ring.Nat

/-!
# The account of a text

The actions of a text form one shape only, so the root of its tree is arranged and the faults of
the text cover its debt.  The debt is spread over the nodes of the tree: it is the sum of what
each of them is charged.  What holds of a shape and is handed down to its parts holds of every
node.
-/

namespace LuaFold

open Grammar

/-- Over the kinds of given tokens a word forms one shape only. -/
theorem Action.Forms.unique
    {word : List Action}
    {first second : Shape}
    {tokens : List Token}
    (forms : Forms word first)
    (formsToo : Forms word second)
    (leaves : tokens.map Token.kind = first.leaves)
    (leavesToo : tokens.map Token.kind = second.leaves) :
    first = second := by
  obtain ⟨element, filled, performed⟩ := forms.assembles tokens leaves
  obtain ⟨other, otherFilled, otherPerformed⟩ := formsToo.assembles tokens leavesToo
  have same : element = other := by
    simpa using (performed [] [] []).symm.trans (otherPerformed [] [] [])
  have shapes : [element].map Element.shape = [first] := filled.shapes_eq
  have otherShapes : [other].map Element.shape = [second] := otherFilled.shapes_eq
  rw [same, otherShapes] at shapes
  exact (List.singleton_inj.mp shapes).symm

/-- The tree of every text is arranged, and the faults of the text cover its debt. -/
theorem exists_settled_chunk (text : Text) :
    ∃ chunk : Chunk text, (parse text).tree.roots = [chunk.root] ∧
      chunk.root.shape.Arranged ∧ chunk.root.shape.debt ≤ (parse text).faults.length := by
  obtain ⟨chunk, roots, forms⟩ := exists_chunk text
  obtain ⟨kinds, tokens, absent⟩ := map_kind_tokenize text
  obtain ⟨shape, formsToo, leaves, arranged, covered⟩ := run_settles absent
  rw [← tokens] at formsToo leaves covered
  have rootLeaves : (tokenize text).map Token.kind = chunk.root.shape.leaves := by
    rw [Element.leaves_shape, chunk.tokens_root]
  have same : chunk.root.shape = shape := forms.unique formsToo rootLeaves leaves.symm
  refine ⟨chunk, roots, ?_, ?_⟩
  · rw [same]
    exact arranged
  · rw [same]
    exact covered

/-- The number of faults that a node stands for, apart from those of the nodes in it. -/
def Node.charge (node : Node) : Nat :=
  node.kind.charge node.slots

theorem Node.shape_element (node : Node) :
    node.element.shape = .node node.kind (node.children.map Element.shape) := by
  rw [element, Element.shape_node]

theorem Node.debt_element (node : Node) :
    node.element.shape.debt =
      node.charge + (node.children.map fun child => child.shape.debt).sum := by
  rw [node.shape_element, Shape.debt_node, List.map_map, List.map_map]
  rfl

namespace Element

/-- What a shape hands down to its parts holds of every node in it. -/
theorem holds_of_mem_nodes
    (holds : Shape → Prop)
    (inherited : ∀ kind children, holds (.node kind children) → ∀ child ∈ children, holds child)
    (element : Element) :
    ∀ (offset : Nat), holds element.shape → ∀ node ∈ element.nodes offset,
      holds node.element.shape := by
  induction element using Element.induct with
  | token inner =>
      intro offset _ node member
      simp [nodes] at member
  | node kind extent children ih =>
      intro offset whole node member
      rw [nodes] at member
      rcases List.mem_cons.mp member with rfl | below
      · exact whole
      · obtain ⟨before, child, after, rfl, inside⟩ := mem_allNodes below
        rw [shape_node] at whole
        exact ih child (by simp) _ (inherited _ _ whole child.shape (by simp)) node inside

theorem debt_eq_zero_of_mem_nodes
    {element : Element}
    {offset : Nat}
    (paid : element.shape.debt = 0) :
    ∀ node ∈ element.nodes offset,
        node.element.shape.debt = 0 := by
  refine holds_of_mem_nodes (fun shape => shape.debt = 0)
    (fun kind children whole child member => ?_) element offset paid
  rw [Shape.debt_node, Nat.add_eq_zero_iff, List.sum_eq_zero_iff] at whole
  exact whole.2 _ (List.mem_map.mpr ⟨child, member, rfl⟩)

end Element

end LuaFold
