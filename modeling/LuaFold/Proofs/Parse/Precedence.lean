import LuaFold.Proofs.Grammar.Lookahead
import LuaFold.Proofs.Parse.Account
import LuaFold.Proofs.Parse.Nesting

/-!
# Precedence in a tree

Without faults every operator has its operands, and its node is arranged: the operator of the
left operand reached for no more than what stands in front of the sign, and the operator of the
right operand binds above the power of the sign.  Binding powers are two numbers for each level
of precedence, so this says which levels the operators of both operands have.
-/

namespace LuaFold

open scoped Computability
open Grammar

/-! ## Powers and levels -/

/--
What an operator of one level may have in its left operand: a tighter operator, or one of the same
level that groups to the left.
-/
def BindsOnLeft (level inner : Nat) : Prop :=
  level < inner ∨ inner = level ∧ groupsRight level = false

theorem bindsOnLeft_of_power_le
    {level inner : Nat}
    (within : leftPower level ≤ rightPower inner) :
    BindsOnLeft level inner := by
  simp only [leftPower, rightPower, BindsOnLeft, groupsRight] at *
  grind

theorem binds_right_of_power_lt
    {level inner : Nat}
    (bound : level ≤ 12)
    (above : rightPower level < leftPower inner) :
    level < inner ∨ inner = level ∧ groupsRight level = true := by
  simp only [leftPower, rightPower, groupsRight] at *
  grind

theorem exists_precedence
    {sign : Kind}
    {powers : Nat × Nat}
    (isOperator : binaryPower? sign = some powers) :
    ∃ level, precedence? sign = some level ∧ powers = (leftPower level, rightPower level) := by
  rw [binaryPower?_eq] at isOperator
  obtain ⟨level, found, rfl⟩ := Option.map_eq_some_iff.mp isOperator
  exact ⟨level, found, rfl⟩

/-- Behind a unary operator only `^` is taken into the operand. -/
theorem eq_caret_of_bindsAbove
    {sign : Kind}
    {powers : Nat × Nat}
    (isOperator : binaryPower? sign = some powers)
    (above : sign.BindsAbove unaryPower) :
    sign = .caret := by
  have tight := above powers isOperator
  cases sign <;> cases isOperator <;> first | rfl | exact absurd tight (by decide)

/-- The operators that group to the right. -/
theorem eq_of_groupsRight
    {sign : Kind}
    {level : Nat}
    (found : precedence? sign = some level)
    (right : groupsRight level = true) :
    sign = .dot2 ∨ sign = .caret := by
  cases sign <;> cases found <;> first | exact Or.inl rfl | exact Or.inr rfl | cases right

/-! ## Operands -/

/-- The operator between the two operands of a binary expression. -/
def Element.operator? : Element → Option Kind
  | .node .binaryExpr _ [_, .token sign, _] => some sign.kind
  | _ => none

/-- If an operand is a binary expression itself, its operator has one of certain levels. -/
def Element.Binds (allowed : Nat → Prop) (operand : Element) : Prop :=
  operand.kind = .binaryExpr → ∃ sign level, operand.operator? = some sign ∧
    precedence? sign = some level ∧ allowed level

namespace Form

theorem mem_form_binaryExpr
    {slots : List Slot}
    (fits : slots ∈ Kind.form .binaryExpr) :
    ∃ left sign right,
      slots = .node left :: .token sign :: right ∧
      left.isExpression = true ∧
      (right = [] ∨ ∃ kind, right = [.node kind]) := by
  obtain ⟨_, ⟨left, isExpression, rfl⟩, _, signed, rfl⟩ := Language.mem_mul.mp fits
  obtain ⟨_, ⟨sign, _, rfl⟩, right, tried, rfl⟩ := Language.mem_mul.mp signed
  refine ⟨left, sign, right, rfl, isExpression, ?_⟩
  rcases mem_optional.mp tried with empty | ⟨kind, _, rfl⟩
  · exact Or.inl empty
  · exact Or.inr ⟨kind, rfl⟩

theorem mem_form_prefixExpr
    {slots : List Slot}
    (fits : slots ∈ Kind.form .prefixExpr) :
    ∃ sign operand, slots = .token sign :: operand ∧
      (operand = [] ∨ ∃ kind, operand = [.node kind]) := by
  obtain ⟨_, ⟨sign, _, rfl⟩, operand, tried, rfl⟩ := Language.mem_mul.mp fits
  refine ⟨sign, operand, rfl, ?_⟩
  rcases mem_optional.mp tried with empty | ⟨kind, _, rfl⟩
  · exact Or.inl empty
  · exact Or.inr ⟨kind, rfl⟩

end Form

/-- A shape in which nothing is missing. -/
structure Shape.Faultless (shape : Shape) : Prop where
  formed : shape.Formed
  arranged : shape.Arranged
  paid : shape.debt = 0

namespace Shape.Faultless

theorem arranges
    {kind : Kind}
    {children : List Shape}
    (faultless : (Shape.node kind children).Faultless) :
    kind.Arranges children := by
  cases faultless.arranged with
  | node all arranges => exact arranges

theorem charge_eq_zero
    {kind : Kind}
    {children : List Shape}
    (faultless : (Shape.node kind children).Faultless) :
    kind.charge (children.map slot) = 0 := by
  have paid := faultless.paid
  rw [debt_node] at paid
  omega

theorem child
    {kind : Kind}
    {children : List Shape}
    (faultless : (Shape.node kind children).Faultless)
    {child : Shape}
    (member : child ∈ children) :
    child.Faultless := by
  obtain ⟨formed, arranged, paid⟩ := faultless
  cases arranged with
  | node all arranges =>
      rw [debt_node, Nat.add_eq_zero_iff, List.sum_eq_zero_iff] at paid
      exact ⟨formed.children child member, all child member,
        paid.2 _ (List.mem_map.mpr ⟨child, member, rfl⟩)⟩

/-- No error node is without debt. -/
theorem slot_ne_error
    {shape : Shape}
    (faultless : shape.Faultless) :
    shape.slot ≠ .node .error := by
  intro failed
  obtain ⟨children, rfl⟩ := slot_eq_node.mp failed
  exact Nat.one_ne_zero faultless.charge_eq_zero

/-- A binary expression has both operands, which its operator leaves to it. -/
theorem binaryExpr
    {children : List Shape}
    (faultless : (Shape.node .binaryExpr children).Faultless) :
    ∃ leftKind left sign rightKind right level,
      children = [.node leftKind left, .leaf sign, .node rightKind right] ∧
      precedence? sign = some level ∧
      rightKind ≠ .error ∧
      (∀ reach ∈ (Shape.node leftKind left).reach?, leftPower level ≤ reach) ∧
      (Shape.node rightKind right).BindsAbove (rightPower level) := by
  obtain ⟨first, sign, operands, powers, rfl, isOperator, within, above⟩ := faultless.arranges
  obtain ⟨level, found, rfl⟩ := exists_precedence isOperator
  have charge := faultless.charge_eq_zero
  obtain ⟨leftKind, _, rest, slots, _, isRight⟩ :=
    Form.mem_form_binaryExpr faultless.formed.fits
  simp only [List.map_cons, slot_leaf, List.cons.injEq] at slots
  obtain ⟨leftSlot, _, restSlots⟩ := slots
  obtain ⟨left, rfl⟩ := slot_eq_node.mp leftSlot
  rcases isRight with rfl | ⟨rightKind, rfl⟩
  · simp [Kind.charge, restSlots] at charge
  · obtain ⟨operand, rfl, rightSlot⟩ := List.map_eq_singleton_iff.mp restSlots
    obtain ⟨right, rfl⟩ := slot_eq_node.mp rightSlot
    have whole : (Shape.node rightKind right).Faultless := faultless.child (by simp)
    refine ⟨leftKind, left, sign, rightKind, right, level, rfl, found, ?_, ?_,
      above _ (List.mem_singleton_self _)⟩
    · rintro rfl
      exact whole.slot_ne_error rfl
    · exact fun reach reaches => within reach reaches _ isOperator

/-- A unary operator has its operand. -/
theorem prefixExpr
    {children : List Shape}
    (faultless : (Shape.node .prefixExpr children).Faultless) :
    ∃ sign kind inside,
      children = [.leaf sign, .node kind inside] ∧
      kind ≠ .error ∧
      (Shape.node kind inside).BindsAbove unaryPower := by
  obtain ⟨sign, operands, rfl, above⟩ := faultless.arranges
  have charge := faultless.charge_eq_zero
  obtain ⟨_, rest, slots, isOperand⟩ := Form.mem_form_prefixExpr faultless.formed.fits
  simp only [List.map_cons, slot_leaf, List.cons.injEq] at slots
  obtain ⟨_, restSlots⟩ := slots
  rcases isOperand with rfl | ⟨kind, rfl⟩
  · simp [Kind.charge, restSlots] at charge
  · obtain ⟨operand, rfl, slot⟩ := List.map_eq_singleton_iff.mp restSlots
    obtain ⟨inside, rfl⟩ := slot_eq_node.mp slot
    have whole : (Shape.node kind inside).Faultless := faultless.child (by simp)
    refine ⟨sign, kind, inside, rfl, ?_, above _ (List.mem_singleton_self _)⟩
    rintro rfl
    exact whole.slot_ne_error rfl

/-- The operator of a binary expression reaches for what its right operand can take. -/
theorem exists_operator
    {children : List Shape}
    (faultless : (Shape.node .binaryExpr children).Faultless) :
    ∃ left sign right level, children = [left, .leaf sign, right] ∧
      precedence? sign = some level ∧
      (Shape.node .binaryExpr children).reach? = some (rightPower level) := by
  obtain ⟨leftKind, left, sign, rightKind, right, level, rfl, found, notError, _⟩ :=
    faultless.binaryExpr
  have powers : binaryPower? sign = some (leftPower level, rightPower level) := by
    rw [binaryPower?_eq, found]
    rfl
  exact ⟨_, sign, _, level, rfl, found, by simp [reach?, limit?, powers, notError]⟩

/-- A unary operator reaches for `^` only. -/
theorem reach?_prefixExpr
    {children : List Shape}
    (faultless : (Shape.node .prefixExpr children).Faultless) :
    (Shape.node .prefixExpr children).reach? = some unaryPower := by
  obtain ⟨sign, kind, inside, rfl, notError, _⟩ := faultless.prefixExpr
  simp [reach?, limit?, notError]

end Shape.Faultless

namespace Element

/-- The operator of an element that is a binary expression. -/
theorem exists_operator
    {extent : Extent}
    {children : List Element}
    (faultless : (node .binaryExpr extent children).shape.Faultless) :
    ∃ sign level, (node .binaryExpr extent children).operator? = some sign ∧
      precedence? sign = some level ∧
      (node .binaryExpr extent children).shape.operator? = some sign ∧
      (node .binaryExpr extent children).shape.reach? = some (rightPower level) := by
  rw [shape_node] at faultless ⊢
  obtain ⟨left, sign, right, level, shapes, found, reach⟩ := faultless.exists_operator
  obtain ⟨first, _, rfl, rfl, shapes'⟩ := List.map_eq_cons_iff.mp shapes
  obtain ⟨second, _, rfl, isSign, rest⟩ := List.map_eq_cons_iff.mp shapes'
  obtain ⟨third, rfl, rfl⟩ := List.map_eq_singleton_iff.mp rest
  obtain ⟨inner, rfl, rfl⟩ := shape_eq_leaf.mp isSign
  exact ⟨inner.kind, level, rfl, found, by simp [Shape.operator?], reach⟩

/-- The operator of a left operand is one that leaves the sign behind it to the node. -/
theorem binds_left
    {operand : Element}
    {kind : Kind}
    {inside : List Shape}
    {level : Nat}
    (isNode : operand.shape = .node kind inside)
    (faultless : operand.shape.Faultless)
    (within : ∀ reach ∈ operand.shape.reach?, leftPower level ≤ reach) :
    operand.Binds (BindsOnLeft level) := by
  obtain ⟨extent, children, rfl, _⟩ := shape_eq_node.mp isNode
  rintro rfl
  obtain ⟨sign, inner, operator, found, _, reach⟩ := exists_operator faultless
  exact ⟨sign, inner, operator, found, bindsOnLeft_of_power_le (within _ reach)⟩

/-- The operator of a right operand binds above the power of the sign in front of it. -/
theorem binds_right
    {operand : Element}
    {kind : Kind}
    {inside : List Shape}
    {limit : Nat}
    (isNode : operand.shape = .node kind inside)
    (faultless : operand.shape.Faultless)
    (above : operand.shape.BindsAbove limit) :
    operand.kind = .binaryExpr → ∃ sign level, operand.operator? = some sign ∧
      precedence? sign = some level ∧
      binaryPower? sign = some (leftPower level, rightPower level) ∧
      sign.BindsAbove limit := by
  obtain ⟨extent, children, rfl, _⟩ := shape_eq_node.mp isNode
  rintro rfl
  obtain ⟨sign, inner, operator, found, shapeOperator, _⟩ := exists_operator faultless
  refine ⟨sign, inner, operator, found, ?_, above sign shapeOperator⟩
  rw [binaryPower?_eq, found]
  rfl

/-- A right operand has a tighter operator, or one of the same level behind `..` and `^`. -/
theorem binds_behind
    {operand : Element}
    {kind sign : Kind}
    {inside : List Shape}
    {level : Nat}
    (isNode : operand.shape = .node kind inside)
    (faultless : operand.shape.Faultless)
    (found : precedence? sign = some level)
    (above : operand.shape.BindsAbove (rightPower level)) :
    operand.Binds fun inner => level < inner ∨ inner = level ∧ (sign = .dot2 ∨ sign = .caret) := by
  intro isOperation
  obtain ⟨other, inner, operator, otherFound, powers, tight⟩ :=
    binds_right isNode faultless above isOperation
  refine ⟨other, inner, operator, otherFound, ?_⟩
  rcases binds_right_of_power_lt (precedence?_range found).2.1 (tight _ powers) with
    tighter | same
  · exact Or.inl tighter
  · exact Or.inr ⟨same.1, eq_of_groupsRight found same.2⟩

/-- A unary operator reaches for a `^` behind its operand, so it is no left operand of one. -/
theorem ne_caret_of_prefixExpr
    {operand : Element}
    {kind sign : Kind}
    {inside : List Shape}
    {level : Nat}
    (isNode : operand.shape = .node kind inside)
    (faultless : operand.shape.Faultless)
    (found : precedence? sign = some level)
    (within : ∀ reach ∈ operand.shape.reach?, leftPower level ≤ reach)
    (isPrefix : operand.kind = .prefixExpr) :
    sign ≠ .caret := by
  rintro rfl
  obtain ⟨extent, children, rfl, _⟩ := shape_eq_node.mp isNode
  cases isPrefix
  rw [shape_node] at faultless within
  have reached := within _ faultless.reach?_prefixExpr
  cases found
  exact absurd reached (by decide)

end Element

/-- The operands in a node are those that precedence gives to its operator. -/
structure Node.Grouped (node : Node) : Prop where
  binary : node.kind = .binaryExpr → ∃ left sign right level,
    node.children = [left, .token sign, right] ∧ precedence? sign.kind = some level ∧
    left.Binds (BindsOnLeft level) ∧
    right.Binds (fun inner =>
      level < inner ∨ inner = level ∧ (sign.kind = .dot2 ∨ sign.kind = .caret)) ∧
    (left.kind = .prefixExpr → sign.kind ≠ .caret)
  unary : node.kind = .prefixExpr → ∃ sign operand, node.children = [.token sign, operand] ∧
    (operand.kind = .binaryExpr → operand.operator? = some .caret)

theorem Node.grouped_of_faultless
    {node : Node}
    (faultless : node.element.shape.Faultless) :
    node.Grouped := by
  rw [node.shape_element] at faultless
  constructor
  · intro isBinary
    rw [isBinary] at faultless
    obtain ⟨leftKind, inLeft, sign, rightKind, inRight, level, shapes, found, _, within, above⟩ :=
      faultless.binaryExpr
    obtain ⟨left, _, children, leftShape, shapes'⟩ := List.map_eq_cons_iff.mp shapes
    obtain ⟨middle, _, rfl, isSign, rest⟩ := List.map_eq_cons_iff.mp shapes'
    obtain ⟨right, rfl, rightShape⟩ := List.map_eq_singleton_iff.mp rest
    obtain ⟨sign, rfl, rfl⟩ := Element.shape_eq_leaf.mp isSign
    have leftFaultless : left.shape.Faultless := faultless.child (by simp [children])
    have rightFaultless : right.shape.Faultless := faultless.child (by simp [children])
    rw [← leftShape] at within
    rw [← rightShape] at above
    exact ⟨left, sign, right, level, children, found,
      Element.binds_left leftShape leftFaultless within,
      Element.binds_behind rightShape rightFaultless found above,
      Element.ne_caret_of_prefixExpr leftShape leftFaultless found within⟩
  · intro isPrefix
    rw [isPrefix] at faultless
    obtain ⟨sign, kind, inside, shapes, _, above⟩ := faultless.prefixExpr
    obtain ⟨first, _, children, isSign, rest⟩ := List.map_eq_cons_iff.mp shapes
    obtain ⟨operand, rfl, operandShape⟩ := List.map_eq_singleton_iff.mp rest
    obtain ⟨sign, rfl, rfl⟩ := Element.shape_eq_leaf.mp isSign
    have operandFaultless : operand.shape.Faultless := faultless.child (by simp [children])
    rw [← operandShape] at above
    refine ⟨sign, operand, children, fun isOperation => ?_⟩
    obtain ⟨other, _, operator, _, powers, tight⟩ :=
      Element.binds_right operandShape operandFaultless above isOperation
    rw [operator, eq_caret_of_bindsAbove powers tight]

/--
In the tree of a text without diagnostics the operators are grouped by their precedence.  The
left operand of an operator has a tighter operator, or one of the same level if the operator
groups to the left; the right operand has a tighter operator, or one of the same level if the
operator is `..` or `^`.  A unary operator is no left operand of `^`, and its own operand has no
operator but `^`.
-/
theorem operators_follow_precedence
    {text : Text}
    (silent : (parse text).diagnostics = []) :
    ∃ root : Node, (parse text).tree.roots = [root.element] ∧
      ∀ node ∈ root.preorder, node.Grouped := by
  obtain ⟨chunk, roots, arranged, covered⟩ := exists_settled_chunk text
  obtain ⟨_, faults⟩ := diagnostics_eq_nil_iff.mp silent
  rw [faults] at covered
  have faultless : chunk.root.shape.Faultless :=
    ⟨chunk.formed, arranged, Nat.le_zero.mp covered⟩
  refine ⟨chunk.node, roots, fun node member => ?_⟩
  rw [chunk.preorder_node] at member
  exact Node.grouped_of_faultless (Element.holds_of_mem_nodes Shape.Faultless
    (fun _ _ whole _ => whole.child) chunk.root 0 faultless node member)

theorem operators_follow_precedence_chain :
    (parse "return -a ^ b ^ c .. d .. e - f - g * h".toList).diagnostics = [] ∧
      ∃ root : Node,
        (parse "return -a ^ b ^ c .. d .. e - f - g * h".toList).tree.roots = [root.element] ∧
        ∀ node ∈ root.preorder, node.Grouped := by
  have silent : (parse "return -a ^ b ^ c .. d .. e - f - g * h".toList).diagnostics = [] :=
    diagnostics_eq_nil_iff.mpr (by decide +kernel)
  exact ⟨silent, operators_follow_precedence silent⟩

end LuaFold
