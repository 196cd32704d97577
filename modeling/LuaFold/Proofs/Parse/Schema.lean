import LuaFold.Proofs.Fold.Validity

/-!
# The schema of a tree

The tree of every text, well-formed or not, fits the typed view of it.  The form of each kind of
node is regular, so what stands in a block, in a definition or in its body is read off a word of
this form.  The end of the text closes the root and stands nowhere else, because it is the last of
the tokens and no node is of its kind.
-/

namespace LuaFold

open scoped Computability

namespace Form

/-- A block holds statements, and error nodes in the place of statements. -/
theorem mem_form_block
    {slots : List Slot}
    (fits : slots ∈ Kind.form .block) :
    ∀ slot ∈ slots, ∃ kind, slot = .node kind ∧ (kind.isStatement = true ∨ kind = .error) := by
  obtain ⟨parts, rfl, all⟩ := Language.mem_kstar.mp fits
  intro slot member
  obtain ⟨part, listed, inside⟩ := List.mem_flatten.mp member
  obtain ⟨kind, passed, rfl⟩ := all part listed
  exact ⟨kind, List.mem_singleton.mp inside, passed⟩

/-- The parts of a function name: names with points between them, and a method at the end. -/
theorem mem_form_funcName
    {slots : List Slot}
    (fits : slots ∈ Kind.form .funcName) :
    ∃ dotted method, slots = dotted ++ method ∧
      (∀ slot ∈ dotted, slot = .token .name ∨ slot = .token .dot) ∧
      (method = [] ∨ method = [.token .colon] ∨ method = [.token .colon, .token .name]) := by
  obtain ⟨_, front, method, isMethod, rfl⟩ := Language.mem_mul.mp fits
  obtain ⟨_, name, _, starred, rfl⟩ := Language.mem_mul.mp front
  obtain ⟨parts, rfl, all⟩ := Language.mem_kstar.mp starred
  refine ⟨_, method, rfl, ?_, ?_⟩
  · intro slot member
    rw [mem_token.mp name] at member
    rcases List.mem_append.mp member with first | later
    · exact Or.inl (List.mem_singleton.mp first)
    · obtain ⟨part, listed, inside⟩ := List.mem_flatten.mp later
      obtain ⟨_, dot, _, field, rfl⟩ := Language.mem_mul.mp (all part listed)
      rw [mem_token.mp dot] at inside
      rcases mem_optional.mp field with rfl | isField
      · exact Or.inr (List.mem_singleton.mp inside)
      · rw [mem_token.mp isField] at inside
        simpa [or_comm] using inside
  · rcases mem_optional.mp isMethod with rfl | called
    · exact Or.inl rfl
    · obtain ⟨_, colon, _, field, rfl⟩ := Language.mem_mul.mp called
      rw [mem_token.mp colon]
      rcases mem_optional.mp field with rfl | isField
      · exact Or.inr (Or.inl rfl)
      · rw [mem_token.mp isField]
        exact Or.inr (Or.inr rfl)

end Form

namespace Node

/-- What a node shows of its children, in order. -/
def slots (node : Node) : List Slot :=
  node.children.map Element.slot

/-- The children of a node are what the typed view of a tree takes them for. -/
structure Typed (node : Node) : Prop where
  kind_ne_tombstone : node.kind ≠ .tombstone
  block : node.kind = .block →
    ∀ slot ∈ node.slots, ∃ kind, slot = .node kind ∧ (kind.isStatement = true ∨ kind = .error)
  functionStmt : node.kind = .functionStmt →
    ∃ name, (name = [] ∨ name = [.node .funcName]) ∧
      node.slots = .token .functionKw :: (name ++ [.node .funcBody])
  localFunctionStmt : node.kind = .localFunctionStmt →
    ∃ name, (name = [] ∨ name = [.token .name]) ∧
      node.slots = .token .localKw :: .token .functionKw :: (name ++ [.node .funcBody])
  functionExpr : node.kind = .functionExpr →
    node.slots = [.token .functionKw, .node .funcBody]
  funcBody : node.kind = .funcBody →
    ∃ parameters closing, (parameters = [] ∨ parameters = [.node .paramList]) ∧
      (closing = [] ∨ closing = [.token .endKw]) ∧
      node.slots = parameters ++ .node .block :: closing
  funcName : node.kind = .funcName →
    (∀ slot ∈ node.slots, slot = .token .name ∨ slot = .token .dot ∨ slot = .token .colon) ∧
      node.slots.count (.token .colon) ≤ 1

variable {node : Node}

/-- The children of a formed node are a word of the form of its kind. -/
theorem slots_mem_form (formed : node.element.shape.Formed) : node.slots ∈ node.kind.form :=
  Element.map_slot_mem_form formed

theorem typed_of_formed (formed : node.element.shape.Formed) : node.Typed := by
  have fits := slots_mem_form formed
  constructor
  · intro isTombstone
    rw [isTombstone] at fits
    exact fits
  · intro isBlock
    rw [isBlock] at fits
    exact Form.mem_form_block fits
  · intro isFunctionStmt
    rw [isFunctionStmt] at fits
    exact Form.mem_form_functionStmt fits
  · intro isLocalFunctionStmt
    rw [isLocalFunctionStmt] at fits
    exact Form.mem_form_localFunctionStmt fits
  · intro isFunctionExpr
    rw [isFunctionExpr] at fits
    exact Form.mem_form_functionExpr fits
  · intro isFuncBody
    rw [isFuncBody] at fits
    exact Form.mem_form_body fits
  · intro isFuncName
    rw [isFuncName] at fits
    obtain ⟨dotted, method, whole, isDotted, isMethod⟩ := Form.mem_form_funcName fits
    rw [whole]
    constructor
    · intro slot member
      rcases List.mem_append.mp member with early | late
      · exact (isDotted slot early).imp_right Or.inl
      · rcases isMethod with rfl | rfl | rfl
        · cases late
        · exact Or.inr (Or.inr (List.mem_singleton.mp late))
        · rcases List.mem_cons.mp late with isColon | isName
          · exact Or.inr (Or.inr isColon)
          · exact Or.inl (List.mem_singleton.mp isName)
    · have noColon : dotted.count (.token .colon) = 0 := by
        refine List.count_eq_zero_of_not_mem fun member => ?_
        rcases isDotted _ member with isName | isDot
        · cases isName
        · cases isDot
      rw [List.count_append, noColon]
      rcases isMethod with rfl | rfl | rfl
      · decide
      · decide
      · decide

/-- No formed node is of the kind of the end of the text. -/
theorem kind_ne_eof (formed : node.element.shape.Formed) : node.kind ≠ .eof := by
  intro isEnd
  have fits := slots_mem_form formed
  rw [isEnd] at fits
  exact fits

/-- The tokens that a node shows are among its tokens. -/
theorem exists_token_of_mem_slots
    {kind : Kind}
    (member : Slot.token kind ∈ node.slots) :
    ∃ inner ∈ node.element.tokens, inner.kind = kind := by
  obtain ⟨child, inside, slot⟩ := List.mem_map.mp member
  obtain ⟨inner, rfl, isKind⟩ := Element.slot_eq_token.mp slot
  refine ⟨inner, ?_, isKind⟩
  rw [element, Element.tokens_node]
  exact List.mem_flatMap.mpr ⟨.token inner, inside, by simp⟩

end Node

/-- A formed definition has a body. -/
theorem FunctionDefinition.exists_body
    {node : Node}
    {definition : FunctionDefinition}
    (formed : node.element.shape.Formed)
    (isDefinition : ofNode? node = some definition) :
    ∃ body, definition.body? = some body ∧ body.kind = .funcBody := by
  obtain ⟨form, defines, rfl⟩ := Option.map_eq_some_iff.mp isDefinition
  obtain ⟨_, _, _, _, _, outlined⟩ := exists_outlined formed defines
  obtain ⟨_, found⟩ := outlined.body?_eq
  exact ⟨_, found, rfl⟩

namespace Chunk

variable {text : Text}

theorem slots_node (chunk : Chunk text) : chunk.node.slots = [.node .block, .token .eof] := by
  have ending : Element.slot (.token chunk.ending) = .token .eof :=
    Element.slot_eq_token.mpr ⟨chunk.ending, rfl, chunk.isEnd⟩
  have block : Element.slot (.branch .block chunk.statements) = .node .block :=
    Element.slot_eq_node.mpr ⟨_, _, rfl⟩
  simp [Node.slots, node, block, ending]

/-- Every node of a chunk is formed. -/
theorem formed_of_mem_preorder
    (chunk : Chunk text)
    {node : Node}
    (member : node ∈ chunk.node.preorder) :
    node.element.shape.Formed := by
  rw [chunk.preorder_node] at member
  exact (chunk.root.stands_of_mem_nodes 0 chunk.measured_root chunk.formed node member).formed

/-- The end of the text is no token of a node below the root. -/
theorem not_mem_slots_of_mem_tail
    (chunk : Chunk text)
    {node : Node}
    (member : node ∈ chunk.node.preorder.tail) :
    Slot.token .eof ∉ node.slots := by
  have block := chunk.measured_children _ List.mem_cons_self
  have formed := Element.formed_children chunk.formed _ List.mem_cons_self
  have below : node ∈ (Element.branch .block chunk.statements).nodes 0 := by
    have tail : chunk.node.preorder.tail =
        Element.allNodes 0 [.branch .block chunk.statements, .token chunk.ending] := by
      rw [Node.preorder_eq]
      rfl
    rw [tail] at member
    simpa [Element.allNodes, Element.nodes] using member
  intro shown
  obtain ⟨inner, inside, isEnd⟩ := Node.exists_token_of_mem_slots shown
  obtain ⟨_, _, before, behind, tokens, _⟩ :=
    Element.stands_of_mem_nodes _ 0 block formed node below
  obtain ⟨others, whole, significant⟩ := chunk.tokenize_eq
  have same : chunk.statements.flatMap Element.tokens = others :=
    List.append_cancel_right (chunk.tokens.trans whole)
  refine significant inner ?_ isEnd
  rw [← same]
  have all : (Element.branch .block chunk.statements).tokens =
      chunk.statements.flatMap Element.tokens := Element.tokens_node _ _ _
  rw [← all, tokens]
  exact List.mem_append_left _ (List.mem_append_right _ inside)

end Chunk

/--
The tree of every text fits its typed view.  Its one root is a chunk of a block and the end of
the text, which stands nowhere else; every node has the children that its kind asks for; and so
the chunk, its block and the body of every function definition are always found.
-/
theorem parse_typed (text : Text) :
    ∃ root,
      (parse text).tree.roots = [root.element] ∧
      (parse text).chunk? = some root ∧
      root.slots = [.node .block, .token .eof] ∧
      (∀ node ∈ root.preorder, node.Typed ∧ node.kind ≠ .eof) ∧
      (∀ node ∈ root.preorder.tail, Slot.token .eof ∉ node.slots) ∧
      (∃ block, root.block? = some block ∧ block.kind = .block) ∧
      ∀ definition ∈ root.definitions,
        ∃ body, definition.body? = some body ∧ body.kind = .funcBody := by
  obtain ⟨chunk, roots, _⟩ := exists_chunk text
  refine ⟨chunk.node, roots, ?_, chunk.slots_node, ?_, ?_, ?_, ?_⟩
  · rw [Parse.chunk?, Chunk.root?_eq roots]
    rfl
  · intro node member
    have formed := chunk.formed_of_mem_preorder member
    exact ⟨Node.typed_of_formed formed, Node.kind_ne_eof formed⟩
  · intro node member
    exact chunk.not_mem_slots_of_mem_tail member
  · exact ⟨_, @Node.childNode?_eq_some chunk.node [] _ .block _ _ rfl (by simp), rfl⟩
  · intro definition member
    obtain ⟨node, inTree, isDefinition⟩ := List.mem_filterMap.mp member
    exact FunctionDefinition.exists_body (chunk.formed_of_mem_preorder inTree) isDefinition

end LuaFold
