import LuaFold.Tree.Element

/-!
# Walks through a tree

A walk visits a node, then everything below it from left to right, and then leaves the node.
Trees can be as deep as their text is long, so the walk keeps its own stack of what is still
to be visited.
-/

namespace LuaFold

/-- A step of a walk. -/
inductive Visit where
  | enter (node : Node)
  | token (offset : Nat) (token : Token)
  | leave (node : Node)

namespace Visit

/-- What a walk still has to visit: an element at an offset, or the end of an open node. -/
inductive Pending where
  | element (offset : Nat) (element : Element)
  | closing (node : Node)

/-- How much of a walk is pending. -/
noncomputable def Pending.weight : Pending → Nat
  | .element _ part => sizeOf part + 1
  | .closing _ => 1

/-- The elements of a list as pending visits. -/
def Pending.ofElements (placed : List (Nat × Element)) : List Pending :=
  placed.map fun (offset, part) => .element offset part

/-- The weight of a list of pending visits. -/
noncomputable def Pending.total : List Pending → Nat
  | [] => 0
  | first :: rest => first.weight + total rest

theorem Pending.total_append (left right : List Pending) :
    total (left ++ right) = total left + total right := by
  induction left with
  | nil => simp [total]
  | cons first rest ih => simp [total, ih, Nat.add_assoc]

private theorem total_ofElements_go
    (offset : Nat)
    (placed : List (Nat × Element))
    (children : List Element) :
    Pending.total (Pending.ofElements (Text.layOut.go Element.width offset placed children)) + 1 =
      Pending.total (Pending.ofElements placed) + sizeOf children := by
  induction children generalizing offset placed with
  | nil =>
    have reversed : ∀ items : List Pending,
        Pending.total items.reverse = Pending.total items := by
      intro items
      induction items with
      | nil => rfl
      | cons first rest ih =>
        simp [Pending.total, Pending.total_append, ih, Nat.add_comm]
    simp [Text.layOut.go, Pending.ofElements, reversed]
  | cons child rest ih =>
    rw [Text.layOut.go, ih]
    simp [Pending.ofElements, Pending.total, Pending.weight]
    omega

theorem Pending.total_elements (node : Node) :
    total (ofElements node.elements) + 1 = sizeOf node.children := by
  have laidOut := total_ofElements_go node.offset [] node.children
  simpa [Node.elements, Text.layOut, ofElements, total] using laidOut

/-- Visit everything that is pending, behind the visits already made, newest first. -/
def walk (made : List Visit) : List Pending → List Visit
  | [] => made.reverse
  | .closing node :: rest => walk (leave node :: made) rest
  | .element offset (.token inner) :: rest => walk (token offset inner :: made) rest
  | .element offset (.node kind extent children) :: rest =>
    let node : Node := ⟨offset, kind, extent, children⟩
    walk (enter node :: made) (Pending.ofElements node.elements ++ .closing node :: rest)
termination_by pending => Pending.total pending
decreasing_by
  · simp [Pending.total, Pending.weight]
  · simp [Pending.total, Pending.weight]
  · have below := Pending.total_elements ⟨offset, kind, extent, children⟩
    simp only [Pending.total_append, Pending.total, Pending.weight,
      Element.node.sizeOf_spec] at below ⊢
    omega

end Visit

/-- Elements laid end to end from an offset, walked one after the other. -/
def Element.visits (offset : Nat) (elements : List Element) : List Visit :=
  Visit.walk [] (Visit.Pending.ofElements (Text.layOut Element.width offset elements))

namespace Node

/-- The walk through a node. -/
def visits (node : Node) : List Visit :=
  Element.visits node.offset [.node node.kind node.extent node.children]

/-- The tokens in and below a node, with their offsets. -/
def tokens (node : Node) : List (Nat × Token) :=
  node.visits.filterMap fun
    | .token offset token => some (offset, token)
    | _ => none

/-- The node and all nodes below it, a node before those below it. -/
def preorder (node : Node) : List Node :=
  node.visits.filterMap fun
    | .enter inner => some inner
    | _ => none

/-- The text of a node, trivia included. -/
def text (node : Node) : Text :=
  node.tokens.flatMap fun (_, token) => token.fullText

/-- The text from the first to the last significant token of a node. -/
def trimmedText (node : Node) : Text :=
  let trimmed := node.trimmedSpan
  let behind := ((Text.cut? (trimmed.start - node.offset) node.text).getD ([], [])).2
  ((Text.cut? (trimmed.stop - trimmed.start) behind).getD ([], [])).1

/-- The nodes on the way down a path of child numbers, the last one first. -/
def descend? (node : Node) (path : List Nat) : Option (List Node) :=
  path.foldlM
    (fun chain index => do
      let parent ← chain.head?
      let child ← parent.childNodes[index]?
      some (child :: chain))
    [node]

end Node

namespace SyntaxTree

/-- The walk through everything a tree holds. -/
def visits (tree : SyntaxTree) : List Visit :=
  Element.visits 0 tree.roots

/-- The tokens of a tree in the order of its text, with their offsets. -/
def tokens (tree : SyntaxTree) : List (Nat × Token) :=
  tree.visits.filterMap fun
    | .token offset token => some (offset, token)
    | _ => none

/-- The text of a tree. -/
def text (tree : SyntaxTree) : Text :=
  tree.tokens.flatMap fun (_, token) => token.fullText

end SyntaxTree

end LuaFold
