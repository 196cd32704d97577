import LuaFold.Proofs.Text.Layout
import LuaFold.Tree.Builder

/-!
# Measured elements

An element is measured when every node in it remembers the extent that its children add up
to.  The tokens of a measured element then fill exactly its width, so a walk meets them where
laying them end to end puts them.

The walk of a tree keeps a stack of what is pending.  It is the recursive walk: a node is
entered, everything below it is walked, and the node is left.
-/

namespace LuaFold

namespace Extent

private theorem foldl_append
    (start : Extent)
    (extents : List Extent) :
    extents.foldl append start = start.append (total extents) := by
  induction extents generalizing start with
  | nil => simp [total]
  | cons first rest ih =>
      rw [total, List.foldl_cons, List.foldl_cons, ih, ih (empty.append first)]
      rw [empty_append, append_assoc]

@[simp]
theorem total_nil : total [] = empty :=
  rfl

@[simp]
theorem total_cons
    (first : Extent)
    (rest : List Extent) :
    total (first :: rest) = first.append (total rest) := by
  rw [total, List.foldl_cons, foldl_append, empty_append]

@[simp]
theorem total_append (first second : List Extent) :
    total (first ++ second) = (total first).append (total second) := by
  induction first with
  | nil => simp
  | cons extent rest ih => simp [ih, append_assoc]

@[simp]
theorem width_append (first second : Extent) :
    (first.append second).width = first.width + second.width :=
  rfl

theorem width_total (extents : List Extent) :
    (total extents).width = (extents.map width).sum := by
  induction extents with
  | nil => rfl
  | cons first rest ih => simp [ih]

end Extent

namespace Element

/-- What holds of tokens, and of a node when it holds of all children, holds everywhere. -/
@[elab_as_elim]
theorem induct
    {motive : Element → Prop}
    (token : ∀ inner, motive (.token inner))
    (node : ∀ kind extent children, (∀ child ∈ children, motive child) →
      motive (.node kind extent children)) :
    ∀ element, motive element
  | .token inner => token inner
  | .node kind extent children =>
      node kind extent children fun child _ => induct token node child

mutual

/-- The tokens in and below an element, in the order of the text. -/
def tokens : Element → List Token
  | .token inner => [inner]
  | .node _ _ children => allTokens children

def allTokens : List Element → List Token
  | [] => []
  | first :: rest => first.tokens ++ allTokens rest

end

@[simp]
theorem allTokens_eq_flatMap (elements : List Element) :
    allTokens elements = elements.flatMap tokens := by
  induction elements with
  | nil => rfl
  | cons first rest ih => simp [allTokens, ih]

@[simp]
theorem tokens_token (inner : Token) : (token inner).tokens = [inner] := by
  simp [tokens]

@[simp]
theorem tokens_node
    (kind : Kind)
    (extent : Extent)
    (children : List Element) :
    (node kind extent children).tokens = children.flatMap tokens := by
  simp [tokens]

@[simp]
theorem width_token (inner : Token) : (token inner).width = inner.width :=
  rfl

/-- Every node in an element remembers the extent that its children add up to. -/
inductive Measured : Element → Prop where
  | token (inner : Token) : Measured (.token inner)
  | node
      (kind : Kind)
      {children : List Element}
      (all : ∀ child ∈ children, Measured child) :
      Measured (.branch kind children)

theorem Measured.eq_branch
    {kind : Kind}
    {extent : Extent}
    {children : List Element}
    (measured : (Element.node kind extent children).Measured) :
    Element.node kind extent children = branch kind children := by
  cases measured with
  | node _ all => rfl

theorem Measured.children
    {kind : Kind}
    {extent : Extent}
    {children : List Element}
    (measured : (Element.node kind extent children).Measured) :
    ∀ child ∈ children, child.Measured := by
  cases measured with
  | node _ all => exact all

theorem width_branch
    (kind : Kind)
    (children : List Element) :
    (branch kind children).width = (children.map width).sum := by
  rw [width, branch, extent, Extent.width_total, List.map_map]
  rfl

theorem Measured.width_eq
    {element : Element}
    (measured : element.Measured) :
    element.width = (element.tokens.map Token.width).sum := by
  induction measured with
  | token inner => simp [width, extent, Extent.ofToken]
  | @node kind children all ih =>
      rw [width, branch, extent, Extent.width_total, tokens_node]
      clear all
      induction children with
      | nil => rfl
      | cons first rest tail =>
          have here := ih first (by simp)
          have there := tail fun child member => ih child (by simp [member])
          simp only [List.map_cons, List.sum_cons, List.flatMap_cons, List.map_append,
            List.sum_append, there]
          rw [← here, width]

/-- The widths of measured elements add up to the widths of their tokens. -/
theorem sum_width
    {elements : List Element}
    (measured : ∀ element ∈ elements, element.Measured) :
    (elements.map width).sum = ((elements.flatMap tokens).map Token.width).sum := by
  induction elements with
  | nil => rfl
  | cons first rest ih =>
      have here := (measured first (by simp)).width_eq
      have there := ih fun element member => measured element (by simp [member])
      simp [here, there]

/-! ## The recursive walk -/

mutual

/-- The walk through an element at an offset. -/
def walked (offset : Nat) : Element → List Visit
  | .token inner => [.token offset inner]
  | .node kind extent children =>
      let here : Node := ⟨offset, kind, extent, children⟩
      .enter here :: (allWalked offset children ++ [.leave here])

def allWalked (offset : Nat) : List Element → List Visit
  | [] => []
  | first :: rest => first.walked offset ++ allWalked (offset + first.width) rest

end

mutual

/-- The nodes in and below an element at an offset, a node before those below it. -/
def nodes (offset : Nat) : Element → List Node
  | .token _ => []
  | .node kind extent children =>
      ⟨offset, kind, extent, children⟩ :: allNodes offset children

def allNodes (offset : Nat) : List Element → List Node
  | [] => []
  | first :: rest => first.nodes offset ++ allNodes (offset + first.width) rest

end

theorem allNodes_append
    (offset : Nat)
    (first second : List Element) :
    allNodes offset (first ++ second) =
      allNodes offset first ++ allNodes (offset + (first.map width).sum) second := by
  induction first generalizing offset with
  | nil => simp [allNodes]
  | cons element rest ih => simp [allNodes, ih, Nat.add_assoc]

end Element

namespace Visit

/-- The walk through what is pending. -/
def Pending.walked : Pending → List Visit
  | .element offset part => part.walked offset
  | .closing node => [.leave node]

private theorem flatMap_walked_ofElements
    (offset : Nat)
    (elements : List Element) :
    (Pending.ofElements (Text.layOut Element.width offset elements)).flatMap Pending.walked =
      Element.allWalked offset elements := by
  induction elements generalizing offset with
  | nil => rfl
  | cons first rest ih =>
      have there := ih (offset + first.width)
      simp only [Pending.ofElements] at there
      simp [Pending.ofElements, Element.allWalked, Pending.walked, there]

/-- The walk with a stack is the recursive walk through everything on it. -/
theorem walk_eq
    (made : List Visit)
    (pending : List Pending) :
    walk made pending = made.reverse ++ pending.flatMap Pending.walked := by
  fun_induction walk made pending with
  | case1 made => simp
  | case2 made node rest ih => simp [ih, Pending.walked]
  | case3 made offset inner rest ih => simp [ih, Pending.walked, Element.walked]
  | case4 made offset kind extent children rest here ih =>
      rw [ih, List.flatMap_append, Node.elements, flatMap_walked_ofElements]
      simp [Pending.walked, Element.walked, here]

end Visit

namespace Element

theorem visits_eq
    (offset : Nat)
    (elements : List Element) :
    visits offset elements = allWalked offset elements := by
  rw [visits, Visit.walk_eq, Visit.flatMap_walked_ofElements]
  rfl

end Element

namespace Visit

/-- The token that a visit is made to, with its offset. -/
def token? : Visit → Option (Nat × Token)
  | .token offset inner => some (offset, inner)
  | _ => none

def entered? : Visit → Option Node
  | .enter inner => some inner
  | _ => none

end Visit

namespace Element

mutual

/-- A walk through a measured element meets its tokens where they are laid out. -/
theorem filterMap_token_walked (offset : Nat) :
    (element : Element) → element.Measured →
      (element.walked offset).filterMap Visit.token? =
        Text.layOut Token.width offset element.tokens
  | .token inner, _ => by simp [walked, Visit.token?]
  | .node kind extent children, measured => by
      have below := filterMap_token_allWalked offset children measured.children
      simp [walked, List.filterMap_cons, Visit.token?, below]

theorem filterMap_token_allWalked (offset : Nat) :
    (elements : List Element) → (∀ element ∈ elements, element.Measured) →
      (allWalked offset elements).filterMap Visit.token? =
        Text.layOut Token.width offset (elements.flatMap tokens)
  | [], _ => rfl
  | first :: rest, measured => by
      have here := filterMap_token_walked offset first (measured first (by simp))
      have there := filterMap_token_allWalked (offset + first.width) rest
        fun element member => measured element (by simp [member])
      rw [allWalked, List.filterMap_append, here, there, List.flatMap_cons,
        Text.layOut_append, (measured first (by simp)).width_eq]

end

mutual

theorem filterMap_entered_walked (offset : Nat) :
    (element : Element) →
      (element.walked offset).filterMap Visit.entered? = element.nodes offset
  | .token inner => by simp [walked, nodes, Visit.entered?]
  | .node kind extent children => by
      have below := filterMap_entered_allWalked offset children
      simp [walked, nodes, Visit.entered?, below]

/-- A walk enters the nodes in the order in which they are listed. -/
theorem filterMap_entered_allWalked (offset : Nat) :
    (elements : List Element) →
      (allWalked offset elements).filterMap Visit.entered? = allNodes offset elements
  | [] => rfl
  | first :: rest => by
      have here := filterMap_entered_walked offset first
      have there := filterMap_entered_allWalked (offset + first.width) rest
      rw [allWalked, List.filterMap_append, here, there, allNodes]

end

end Element

theorem Node.preorder_eq (node : Node) :
    node.preorder =
      node :: Element.allNodes node.offset node.children := by
  have listed := Element.filterMap_entered_allWalked node.offset
    [.node node.kind node.extent node.children]
  rw [← Element.visits_eq, Element.allNodes, Element.allNodes, List.append_nil,
    Element.nodes] at listed
  exact listed

/-- The tokens of a measured tree are where laying them end to end puts them. -/
theorem SyntaxTree.tokens_eq_layOut
    (tree : SyntaxTree)
    (measured : ∀ element ∈ tree.roots, element.Measured) :
    tree.tokens = Token.layOut (tree.roots.flatMap Element.tokens) := by
  have listed := Element.filterMap_token_allWalked 0 tree.roots measured
  rw [← Element.visits_eq] at listed
  exact listed

end LuaFold
