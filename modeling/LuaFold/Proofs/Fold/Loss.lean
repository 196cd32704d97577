import LuaFold.Proofs.Fold.Validity
import LuaFold.Proofs.Parse.Account
import LuaFold.Proofs.Parse.Nesting

/-!
# Regions are not lost silently

A text loses something where its tree has an error node or a definition without a region.  An
error node is charged for itself, and a definition without a region for the `end` that is missing
in its body.  The body is a node of the definition and of no other, so no fault is counted for
two definitions, and the faults of a text cover all that it loses.
-/

namespace LuaFold

open Grammar

namespace Outlined

variable
    {form : DefinitionForm}
    {node : Node}
    {front : Option Token}
    {keyword : Token}
    {name : List Element}
    {extent : Extent}
    {body : List Element}

/-- A definition with an `end` in its body is closed. -/
theorem isClosed_of_mem
    (outlined : Outlined form node front keyword name extent body)
    (formed : node.element.shape.Formed)
    (member : Slot.token .endKw ∈ body.map Element.slot) :
    (FunctionDefinition.mk form node).isClosed = true := by
  have formedBody : (Element.node .funcBody extent body).shape.Formed :=
    Element.formed_children formed _ (by simp [outlined.children])
  obtain ⟨_, _, slots, absent, isLast⟩ :=
    Form.mem_form_funcBody (Element.map_slot_mem_form formedBody)
  rcases isLast with rfl | rfl
  · rw [slots, List.append_nil] at member
    exact absurd member (absent .endKw)
  · obtain ⟨inside, last, rfl, insideSlots, lastSlots⟩ := List.map_eq_append_iff.mp slots
    obtain ⟨_, rfl, slot⟩ := List.map_eq_singleton_iff.mp lastSlots
    obtain ⟨closing, rfl, isEnd⟩ := Element.slot_eq_token.mp slot
    obtain ⟨offset, found⟩ := outlined.body?_eq
    have noToken : ∀ other, Element.token other ∈ inside → other.kind ≠ closing.kind := by
      intro other early
      refine absurd ?_ (absent other.kind)
      rw [← insideSlots]
      exact List.mem_map.mpr ⟨_, early, Element.slot_eq_token.mpr ⟨other, rfl, rfl⟩⟩
    have closes := @Node.childToken?_eq_some
      ⟨offset, .funcBody, extent, inside ++ [.token closing]⟩ inside [] closing rfl noToken
    rw [isEnd] at closes
    simp [FunctionDefinition.isClosed, FunctionDefinition.closing?, found, closes]

end Outlined

namespace DefinitionForm

/-- The kind of node that defines a function in a form. -/
def kind : DefinitionForm → Kind
  | .statement => .functionStmt
  | .localStatement => .localFunctionStmt
  | .expression => .functionExpr

theorem eq_kind
    {kind : Kind}
    {form : DefinitionForm}
    (defines : ofKind? kind = some form) :
    kind = form.kind := by
  unfold ofKind? at defines
  split at defines <;> cases defines <;> rfl

end DefinitionForm

namespace Element

/-- The first token of a dotted name is a name. -/
theorem exists_name_of_funcName
    {extent : Extent}
    {parts : List Element}
    (formed : (node .funcName extent parts).shape.Formed) :
    ∃ inner ∈ (node .funcName extent parts).tokens, inner.kind = .name := by
  obtain ⟨_, dotted, _, _, slots⟩ := Language.mem_mul.mp (map_slot_mem_form formed)
  obtain ⟨_, isName, _, _, rfl⟩ := Language.mem_mul.mp dotted
  rw [Form.mem_token.mp isName] at slots
  obtain ⟨first, rest, rfl, slot, _⟩ := List.map_eq_cons_iff.mp slots.symm
  obtain ⟨inner, rfl, isKind⟩ := slot_eq_token.mp slot
  exact ⟨inner, by simp, isKind⟩

end Element

namespace Outlined

variable
    {form : DefinitionForm}
    {node : Node}
    {front : Option Token}
    {keyword : Token}
    {name : List Element}
    {extent : Extent}
    {body : List Element}

/-- Without a charge a definition statement has a token in its name. -/
theorem exists_name
    (outlined : Outlined form node front keyword name extent body)
    (formed : node.element.shape.Formed)
    (defines : DefinitionForm.ofKind? node.kind = some form)
    (paid : node.charge = 0)
    (named : form ≠ .expression) :
    ∃ inner ∈ name.flatMap Element.tokens, inner.kind = .name := by
  have isKind := DefinitionForm.eq_kind defines
  have present : ∀ slot, node.kind.required? = some slot →
      ∃ child ∈ node.children, child.slot = slot := by
    intro slot required
    rw [Node.charge, Kind.charge_of_required required] at paid
    by_contra absent
    have missing : slot ∉ node.slots := fun member => absent (List.mem_map.mp member)
    simp [missing] at paid
  have children := outlined.children
  have isName := outlined.isName
  cases form with
  | statement =>
      rcases isName with rfl | ⟨nameExtent, parts, rfl⟩
      · obtain ⟨child, inside, slot⟩ := present (.node .funcName) (by rw [isKind]; rfl)
        obtain ⟨_, _, rfl⟩ := Element.slot_eq_node.mp slot
        simp [children] at inside
      · have formedName : (Element.node .funcName nameExtent parts).shape.Formed :=
          Element.formed_children formed _ (by simp [children])
        simpa using Element.exists_name_of_funcName formedName
  | localStatement =>
      rcases isName with rfl | ⟨inner, rfl, isName⟩
      · obtain ⟨child, inside, slot⟩ := present (.token .name) (by rw [isKind]; rfl)
        obtain ⟨inner, rfl, isName⟩ := Element.slot_eq_token.mp slot
        refine absurd isName (outlined.kind_ne_name ?_)
        simpa [children] using inside
      · exact ⟨inner, by simp, isName⟩
  | expression => exact absurd rfl named

end Outlined

/-! ## What is lost -/

/-- Whether a node is a definition without a region. -/
def Node.isLost (node : Node) : Bool :=
  (FunctionDefinition.ofNode? node).any fun definition =>
    (Region.ofDefinition? definition).isNone

/-- Whether a node is an error node or a definition without a region, as a number. -/
def Node.loss (node : Node) : Nat :=
  (if node.kind = .error then 1 else 0) + if node.isLost then 1 else 0

/-- The charge of a function body; nothing else has a gap. -/
def Element.gap : Element → Nat
  | .node .funcBody _ children => Kind.charge .funcBody (children.map slot)
  | _ => 0

theorem Element.gap_eq_zero
    {kind : Kind}
    (notBody : kind ≠ .funcBody)
    (extent : Extent)
    (children : List Element) :
    (node kind extent children).gap = 0 := by
  unfold gap
  split
  · next same =>
    cases same
    exact absurd rfl notBody
  · rfl

/-- A definition without a region has a gap in it. -/
theorem Node.gap_pos_of_isLost
    {node : Node}
    (formed : node.element.shape.Formed)
    (lost : node.isLost = true) :
    0 < (node.children.map Element.gap).sum := by
  obtain ⟨definition, isDefinition, noRegion⟩ := (Option.any_eq_true _ _).mp lost
  obtain ⟨form, defines, rfl⟩ := Option.map_eq_some_iff.mp isDefinition
  obtain ⟨front, keyword, name, extent, body, outlined⟩ := exists_outlined formed defines
  have gap : (Element.node .funcBody extent body).gap = 1 := by
    have noEnd : Slot.token .endKw ∉ body.map Element.slot := by
      intro member
      simp [Region.ofDefinition?, outlined.isClosed_of_mem formed member] at noRegion
    rw [Element.gap, Kind.charge_of_required rfl, if_neg noEnd]
  have member : (Element.node .funcBody extent body).gap ∈ node.children.map Element.gap :=
    List.mem_map_of_mem (by simp [outlined.children])
  rw [gap] at member
  exact Nat.lt_of_lt_of_le Nat.one_pos (List.le_sum_of_mem member)

/-- What a node loses is charged to it, or is a gap in one of its children. -/
theorem Node.loss_add_gap_le
    {node : Node}
    (formed : node.element.shape.Formed) :
    node.loss + node.element.gap ≤ node.charge + (node.children.map Element.gap).sum := by
  by_cases lost : node.isLost = true
  · have gap := gap_pos_of_isLost formed lost
    have isDefinition : DefinitionForm.ofKind? node.kind ≠ none := by
      intro none
      simp [isLost, FunctionDefinition.ofNode?, none] at lost
    have notBody : node.kind ≠ .funcBody := by
      intro same
      exact isDefinition (by rw [same]; rfl)
    have notError : node.kind ≠ .error := by
      intro same
      exact isDefinition (by rw [same]; rfl)
    rw [element, Element.gap_eq_zero notBody, loss, if_neg notError, if_pos lost]
    omega
  · rw [loss, if_neg lost]
    by_cases isError : node.kind = .error
    · have notBody : node.kind ≠ .funcBody := by simp [isError]
      have charge : node.charge = 1 := by
        rw [Node.charge, isError]
        rfl
      rw [element, Element.gap_eq_zero notBody, if_pos isError, charge]
      omega
    · rw [if_neg isError]
      by_cases isBody : node.kind = .funcBody
      · have gap : node.element.gap = node.charge := by
          rw [element, charge, isBody]
          rfl
        omega
      · rw [element, Element.gap_eq_zero isBody]
        omega

namespace Element

mutual

/-- The debt of a formed element covers all that is lost in it, and its own gap. -/
theorem loss_nodes_le (offset : Nat) :
    (element : Element) → element.shape.Formed →
      ((element.nodes offset).map Node.loss).sum + element.gap ≤ element.shape.debt
  | .token inner, _ => by simp [nodes, gap]
  | .node kind extent children, formed => by
      have here := @Node.loss_add_gap_le ⟨offset, kind, extent, children⟩ formed
      have below := loss_allNodes_le offset children (formed_children formed)
      have debt := Node.debt_element ⟨offset, kind, extent, children⟩
      simp only [Node.element] at here debt
      rw [nodes, List.map_cons, List.sum_cons, debt]
      omega

theorem loss_allNodes_le (offset : Nat) :
    (elements : List Element) → (∀ element ∈ elements, element.shape.Formed) →
      ((allNodes offset elements).map Node.loss).sum + (elements.map gap).sum ≤
        (elements.map fun element => element.shape.debt).sum
  | [], _ => by simp [allNodes]
  | first :: rest, formed => by
      have here := loss_nodes_le offset first (formed first (by simp))
      have there := loss_allNodes_le (offset + first.width) rest
        fun element member => formed element (by simp [member])
      simp only [allNodes, List.map_append, List.sum_append, List.map_cons, List.sum_cons]
      omega

end

end Element

/-- Among nodes the losses are the error nodes and the definitions without a region. -/
theorem Node.sum_loss (nodes : List Node) :
    (nodes.map loss).sum = nodes.countP (fun node => node.kind = .error) +
      (nodes.filterMap FunctionDefinition.ofNode?).countP fun definition =>
        (Region.ofDefinition? definition).isNone := by
  have lost : (nodes.filterMap FunctionDefinition.ofNode?).countP
      (fun definition => (Region.ofDefinition? definition).isNone) = nodes.countP isLost := by
    rw [List.countP_filterMap]
    congr 1
    funext node
    rw [isLost]
    cases FunctionDefinition.ofNode? node <;> rfl
  rw [lost]
  clear lost
  induction nodes with
  | nil => rfl
  | cons node rest ih =>
      simp only [List.map_cons, List.sum_cons, List.countP_cons, ih, loss, decide_eq_true_eq]
      omega

/-! ## Regions and names -/

theorem Region.ofDefinition?_eq_some
    {definition : FunctionDefinition}
    (closed : (Region.ofDefinition? definition).isNone = false) :
    Region.ofDefinition? definition = some ⟨definition.name?.getD "", definition.span⟩ := by
  unfold Region.ofDefinition? at closed ⊢
  split at closed
  · next isClosed => rw [if_pos isClosed]
  · cases closed

theorem Text.ofList_eq_empty {text : Text} : String.ofList text = "" ↔ text = [] := by
  constructor
  · intro same
    simpa using congrArg String.toList same
  · rintro rfl
    rfl

/-- Without faults a definition has an empty name only where it is an expression. -/
theorem FunctionDefinition.name_eq_empty_iff
    {text : Text}
    (chunk : Chunk text)
    (paid : chunk.root.shape.debt = 0)
    {node : Node}
    (inTree : node ∈ chunk.node.preorder)
    {definition : FunctionDefinition}
    (isDefinition : ofNode? node = some definition) :
    definition.name?.getD "" = "" ↔ definition.node.kind = .functionExpr := by
  rw [chunk.preorder_node] at inTree
  obtain ⟨_, formed, before, behind, tokens, _⟩ :=
    chunk.root.stands_of_mem_nodes 0 chunk.measured_root chunk.formed node inTree
  have free : node.charge = 0 := by
    have none := Element.debt_eq_zero_of_mem_nodes paid node inTree
    rw [node.debt_element] at none
    omega
  obtain ⟨form, defines, rfl⟩ := Option.map_eq_some_iff.mp isDefinition
  obtain ⟨front, keyword, name, extent, body, outlined⟩ := exists_outlined formed defines
  have isKind := DefinitionForm.eq_kind defines
  rw [outlined.name?_eq formed, Text.ofList_eq_empty]
  by_cases anonymous : form = .expression
  · subst anonymous
    have noName : name = [] := outlined.isName
    simp [noName, isKind, DefinitionForm.kind]
  · obtain ⟨inner, inName, isName⟩ := outlined.exists_name formed defines free anonymous
    have inText : inner ∈ tokenize text := by
      rw [← chunk.tokens_root, tokens, Node.element, Element.tokens_node, outlined.children]
      simp only [List.flatMap_append, List.flatMap_cons, List.mem_append]
      exact Or.inl (Or.inr (Or.inr (Or.inr (Or.inl inName))))
    have written := (significant_of_mem_tokenize inText (by simp [isName])).text
    constructor
    · intro empty
      rw [List.flatMap_eq_nil_iff] at empty
      exact absurd (empty inner inName) written
    · intro isExpression
      rw [isExpression] at isKind
      cases form <;> first | exact absurd rfl anonymous | cases isKind

/--
For every text the error nodes of its tree and the definitions without a region are together at
most as many as the diagnostics that are not about broken tokens.  A text without diagnostics
has no error node, every definition has its region, and only the regions of function expressions
have an empty name.
-/
theorem losses_are_reported (text : Text) :
    ∃ root : Node, (parse text).tree.root? = some root ∧
      foldRegions text = root.definitions.filterMap Region.ofDefinition? ∧
      (parse text).diagnostics.length =
        (parse text).lexicalDiagnostics.length + (parse text).syntaxDiagnostics.length ∧
      root.preorder.countP (fun node => node.kind = .error) +
          root.definitions.countP (fun definition => (Region.ofDefinition? definition).isNone) ≤
        (parse text).syntaxDiagnostics.length ∧
      ((parse text).diagnostics = [] →
        (∀ node ∈ root.preorder, node.kind ≠ .error) ∧
        ∀ definition ∈ root.definitions, ∃ region,
          Region.ofDefinition? definition = some region ∧
          (region.name = "" ↔ definition.node.kind = .functionExpr)) := by
  obtain ⟨chunk, roots, _, covered⟩ := exists_settled_chunk text
  have counted : chunk.node.preorder.countP (fun node => node.kind = .error) +
      chunk.node.definitions.countP (fun definition => (Region.ofDefinition? definition).isNone) ≤
        chunk.root.shape.debt := by
    have losses := chunk.root.loss_nodes_le 0 chunk.formed
    rw [Node.definitions, ← Node.sum_loss, chunk.preorder_node]
    omega
  refine ⟨chunk.node, Chunk.root?_eq roots, ?_, ?_, ?_, fun silent => ?_⟩
  · rw [foldRegions_eq roots, Node.definitions, chunk.preorder_node, List.filterMap_filterMap]
    rfl
  · rw [Parse.diagnostics, Diagnostic.sorted, List.length_mergeSort, List.length_append]
  · rw [Parse.syntaxDiagnostics, List.length_map]
    exact counted.trans covered
  · obtain ⟨_, faults⟩ := diagnostics_eq_nil_iff.mp silent
    rw [faults] at covered
    have paid : chunk.root.shape.debt = 0 := Nat.le_zero.mp covered
    rw [paid, Nat.le_zero, Nat.add_eq_zero_iff, List.countP_eq_zero, List.countP_eq_zero]
      at counted
    refine ⟨fun node member isError => ?_, fun definition member => ?_⟩
    · exact counted.1 node member (decide_eq_true isError)
    · obtain ⟨node, inTree, isDefinition⟩ := List.mem_filterMap.mp member
      have closed := counted.2 definition member
      rw [Bool.not_eq_true] at closed
      exact ⟨_, Region.ofDefinition?_eq_some closed,
        FunctionDefinition.name_eq_empty_iff chunk paid inTree isDefinition⟩

theorem losses_are_reported_nested :
    (parse "local function f() return function() end end".toList).diagnostics = [] ∧
      ∃ root : Node,
        (parse "local function f() return function() end end".toList).tree.root? = some root ∧
        ∀ definition ∈ root.definitions, ∃ region,
          Region.ofDefinition? definition = some region ∧
          (region.name = "" ↔ definition.node.kind = .functionExpr) := by
  have silent : (parse "local function f() return function() end end".toList).diagnostics = [] :=
    diagnostics_eq_nil_iff.mpr (by decide +kernel)
  obtain ⟨root, isRoot, _, _, _, complete⟩ :=
    losses_are_reported "local function f() return function() end end".toList
  exact ⟨silent, root, isRoot, (complete silent).2⟩

end LuaFold
