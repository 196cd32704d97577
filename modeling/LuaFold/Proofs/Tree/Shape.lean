import LuaFold.Proofs.Tree.Measure

/-!
# Shapes of trees

The shape of an element is what is left of it without texts, trivia and extents: the kinds of
its nodes and tokens and how they are nested.  The grammar decides on shapes only.  A shape
shows its kind to the node around it through a slot, which tells tokens from nodes.
-/

namespace LuaFold

/-- The kinds of a tree, without its text. -/
inductive Shape where
  | leaf (kind : Kind)
  | node (kind : Kind) (children : List Shape)

/-- What a node sees of one of its children. -/
inductive Slot where
  | token (kind : Kind)
  | node (kind : Kind)
deriving DecidableEq

namespace Shape

/-- The slot that a shape fills in the node around it. -/
def slot : Shape → Slot
  | .leaf kind => .token kind
  | .node kind _ => .node kind

@[simp]
theorem slot_leaf (kind : Kind) : (leaf kind).slot = .token kind :=
  rfl

@[simp]
theorem slot_node
    (kind : Kind)
    (children : List Shape) :
    (node kind children).slot = .node kind :=
  rfl

theorem slot_eq_token
    {shape : Shape}
    {kind : Kind} :
    shape.slot = .token kind ↔ shape = .leaf kind := by
  cases shape <;> simp

theorem slot_eq_node
    {shape : Shape}
    {kind : Kind} :
    shape.slot = .node kind ↔ ∃ children, shape = .node kind children := by
  cases shape with
  | leaf other => simp
  | node other children =>
      constructor
      · intro same
        cases same
        exact ⟨children, rfl⟩
      · rintro ⟨others, same⟩
        cases same
        rfl

mutual

/-- The kinds of the tokens of a shape, in order. -/
def leaves : Shape → List Kind
  | .leaf kind => [kind]
  | .node _ children => allLeaves children

def allLeaves : List Shape → List Kind
  | [] => []
  | first :: rest => first.leaves ++ allLeaves rest

end

@[simp]
theorem allLeaves_eq_flatMap (shapes : List Shape) :
    allLeaves shapes = shapes.flatMap leaves := by
  induction shapes with
  | nil => rfl
  | cons first rest ih => simp [allLeaves, ih]

@[simp]
theorem leaves_leaf (kind : Kind) : (leaf kind).leaves = [kind] := by
  simp [leaves]

@[simp]
theorem leaves_node
    (kind : Kind)
    (children : List Shape) :
    (node kind children).leaves = children.flatMap leaves := by
  simp [leaves]

end Shape

namespace Element

mutual

def shape : Element → Shape
  | .token inner => .leaf inner.kind
  | .node kind _ children => .node kind (allShapes children)

def allShapes : List Element → List Shape
  | [] => []
  | first :: rest => first.shape :: allShapes rest

end

@[simp]
theorem allShapes_eq_map (elements : List Element) :
    allShapes elements = elements.map shape := by
  induction elements with
  | nil => rfl
  | cons first rest ih => simp [allShapes, ih]

@[simp]
theorem shape_token (inner : Token) : (token inner).shape = .leaf inner.kind := by
  simp [shape]

@[simp]
theorem shape_node
    (kind : Kind)
    (extent : Extent)
    (children : List Element) :
    (node kind extent children).shape = .node kind (children.map shape) := by
  simp [shape]

theorem shape_eq_leaf
    {element : Element}
    {kind : Kind} :
    element.shape = .leaf kind ↔ ∃ inner, element = .token inner ∧ inner.kind = kind := by
  cases element <;> simp

theorem shape_eq_node
    {element : Element}
    {kind : Kind}
    {shapes : List Shape} :
    element.shape = .node kind shapes ↔
      ∃ extent children, element = .node kind extent children ∧ children.map shape = shapes := by
  cases element with
  | token inner => simp
  | node other extent children =>
      constructor
      · intro same
        rw [shape_node] at same
        cases same
        exact ⟨extent, children, rfl, rfl⟩
      · rintro ⟨extents, others, same, mapped⟩
        cases same
        rw [shape_node, mapped]

/-- The tokens of an element have the kinds at the leaves of its shape. -/
theorem leaves_shape (element : Element) :
    element.shape.leaves = element.tokens.map Token.kind := by
  induction element using Element.induct with
  | token inner => simp
  | node kind extent children ih =>
      rw [shape_node, Shape.leaves_node, tokens_node]
      induction children with
      | nil => rfl
      | cons first rest tail =>
          have here := ih first (by simp)
          have there := tail fun child member => ih child (by simp [member])
          simp [here, there]

end Element

end LuaFold
