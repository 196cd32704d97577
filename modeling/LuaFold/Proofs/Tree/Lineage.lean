import LuaFold.Proofs.Tree.Child
import LuaFold.Proofs.Tree.Place

/-!
# Nodes with their ancestors

A walk enters a node inside all nodes that it has entered and not yet left: these are the proper
ancestors of the node, the closest one first.  A node and its ancestors are what lies on a path
down from the root, read from its end.
-/

namespace LuaFold

/-- The nodes that visits enter, each with the nodes that are open around it, innermost first. -/
def Visit.lineages (opened : List Node) : List Visit → List (Node × List Node)
  | [] => []
  | .enter node :: rest => (node, opened) :: lineages (node :: opened) rest
  | .leave _ :: rest => lineages opened.tail rest
  | .token _ _ :: rest => lineages opened rest

/-- The node and all nodes below it, each with its proper ancestors up to this node. -/
def Node.lineages (node : Node) : List (Node × List Node) :=
  Visit.lineages [] node.visits

namespace Element

mutual

/-- The nodes in and below an element at an offset, below nodes that are open around it. -/
def lineages (opened : List Node) (offset : Nat) : Element → List (Node × List Node)
  | .token _ => []
  | .node kind extent children =>
      let here : Node := ⟨offset, kind, extent, children⟩
      (here, opened) :: allLineages (here :: opened) offset children

def allLineages (opened : List Node) (offset : Nat) : List Element → List (Node × List Node)
  | [] => []
  | first :: rest =>
      first.lineages opened offset ++ allLineages opened (offset + first.width) rest

end

mutual

theorem lineages_walked
    (opened : List Node)
    (offset : Nat)
    (rest : List Visit) :
    (element : Element) →
      Visit.lineages opened (element.walked offset ++ rest) =
        element.lineages opened offset ++ Visit.lineages opened rest
  | .token inner => by simp [walked, lineages, Visit.lineages]
  | .node kind extent children => by
      have below := lineages_allWalked (⟨offset, kind, extent, children⟩ :: opened) offset
        (.leave ⟨offset, kind, extent, children⟩ :: rest) children
      simp [walked, lineages, Visit.lineages, below]

/-- A walk leaves every node that it enters, so behind elements the same nodes are open. -/
theorem lineages_allWalked
    (opened : List Node)
    (offset : Nat)
    (rest : List Visit) :
    (elements : List Element) →
      Visit.lineages opened (allWalked offset elements ++ rest) =
        allLineages opened offset elements ++ Visit.lineages opened rest
  | [] => rfl
  | first :: others => by
      have there := lineages_allWalked opened (offset + first.width) rest others
      have here := lineages_walked opened offset
        (allWalked (offset + first.width) others ++ rest) first
      simp [allWalked, allLineages, here, there]

end

mutual

theorem map_fst_lineages
    (opened : List Node)
    (offset : Nat) :
    (element : Element) → (element.lineages opened offset).map Prod.fst = element.nodes offset
  | .token inner => by simp [lineages, nodes]
  | .node kind extent children => by
      have below := map_fst_allLineages (⟨offset, kind, extent, children⟩ :: opened) offset children
      simp [lineages, nodes, below]

theorem map_fst_allLineages
    (opened : List Node)
    (offset : Nat) :
    (elements : List Element) →
      (allLineages opened offset elements).map Prod.fst = allNodes offset elements
  | [] => rfl
  | first :: rest => by
      have here := map_fst_lineages opened offset first
      have there := map_fst_allLineages opened (offset + first.width) rest
      simp [allLineages, allNodes, here, there]

end

end Element

namespace Node

theorem lineages_eq (node : Node) : node.lineages = node.element.lineages [] node.offset := by
  have walked := Element.lineages_allWalked [] node.offset []
    [.node node.kind node.extent node.children]
  rw [List.append_nil] at walked
  rw [lineages, visits, Element.visits_eq, walked]
  simp [Element.allLineages, Visit.lineages, element]

/-- The nodes with ancestors are the nodes in and below a node, in the same order. -/
theorem map_fst_lineages (node : Node) : node.lineages.map Prod.fst = node.preorder := by
  rw [lineages_eq, Element.map_fst_lineages, preorder_eq, element, Element.nodes]

/-- The lineages below a node are those of its child nodes. -/
theorem allLineages_children
    (node : Node)
    (opened : List Node) :
    Element.allLineages opened node.offset node.children =
      node.childNodes.flatMap fun child => child.element.lineages opened child.offset := by
  rw [childNodes, elements]
  generalize node.offset = offset
  generalize node.children = children
  induction children generalizing offset with
  | nil => rfl
  | cons child rest ih =>
      have others := ih (offset + child.width)
      cases child with
      | token inner =>
          simpa [Element.allLineages, Element.lineages, ofElement?] using others
      | node kind extent inside =>
          rw [Text.layOut_cons]
          show _ = (Node.mk offset kind extent inside :: List.filterMap _ _).flatMap _
          rw [List.flatMap_cons, Element.allLineages, others, element]

theorem element_mem_of_mem_childNodes
    {node child : Node}
    (member : child ∈ node.childNodes) :
    child.element ∈ node.children := by
  obtain ⟨⟨offset, inside⟩, placed, isChild⟩ := List.mem_filterMap.mp member
  have listed : inside ∈ node.children := Text.mem_of_mem_layOut placed
  cases inside with
  | token inner => cases isChild
  | node kind extent children =>
      cases isChild
      exact listed

/-- One step down from the last node of a chain. -/
def step? (chain : List Node) (index : Nat) : Option (List Node) := do
  let parent ← chain.head?
  let child ← parent.childNodes[index]?
  some (child :: chain)

theorem step?_eq_some
    {parent : Node}
    {opened chain : List Node}
    {index : Nat} :
    step? (parent :: opened) index = some chain ↔
      ∃ child, parent.childNodes[index]? = some child ∧ child :: parent :: opened = chain := by
  simp [step?, Option.bind_eq_some_iff]

end Node

/-- Below an element, a node has the ancestors that a path down to it leads through. -/
theorem Element.mem_lineages_iff (element : Element) :
    ∀ node : Node, node.element = element → ∀ (opened : List Node) (found : Node × List Node),
      found ∈ element.lineages opened node.offset ↔
        ∃ path : List Nat, path.foldlM Node.step? (node :: opened) = some (found.1 :: found.2) := by
  induction element using Element.induct with
  | token inner =>
      rintro node ⟨⟩
  | node kind extent children ih =>
      rintro node ⟨⟩ opened found
      have down : ∀ child ∈ node.childNodes,
          found ∈ child.element.lineages (node :: opened) child.offset ↔
            ∃ path : List Nat,
              path.foldlM Node.step? (child :: node :: opened) = some (found.1 :: found.2) :=
        fun child member => ih child.element (Node.element_mem_of_mem_childNodes member) child rfl
          (node :: opened) found
      rw [lineages, List.mem_cons, node.allLineages_children, List.mem_flatMap]
      constructor
      · rintro (rfl | ⟨child, member, inside⟩)
        · exact ⟨[], rfl⟩
        · obtain ⟨index, bound, isChild⟩ := List.mem_iff_getElem.mp member
          obtain ⟨path, leads⟩ := (down child member).mp inside
          refine ⟨index :: path, ?_⟩
          rw [List.foldlM_cons, Node.step?_eq_some.mpr
            ⟨child, List.getElem?_eq_some_iff.mpr ⟨bound, isChild⟩, rfl⟩]
          exact leads
      · rintro ⟨path, leads⟩
        cases path with
        | nil =>
            cases leads
            exact Or.inl rfl
        | cons index path =>
            rw [List.foldlM_cons] at leads
            obtain ⟨_, stepped, leads⟩ := Option.bind_eq_some_iff.mp leads
            obtain ⟨child, isChild, rfl⟩ := Node.step?_eq_some.mp stepped
            have member := List.mem_of_getElem? isChild
            exact Or.inr ⟨child, member, (down child member).mpr ⟨path, leads⟩⟩

/-- The lineages of a node are the chains that paths down from it lead through. -/
theorem Node.mem_lineages_iff
    (node : Node)
    (found : Node × List Node) :
    found ∈ node.lineages ↔ ∃ path, node.descend? path = some (found.1 :: found.2) := by
  rw [lineages_eq]
  exact node.element.mem_lineages_iff node rfl [] found

end LuaFold
