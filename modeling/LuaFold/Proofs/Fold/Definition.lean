import LuaFold.Fold.Region
import LuaFold.Proofs.Tree.Child
import LuaFold.Proofs.Tree.Place

/-!
# Closed definitions

A definition is formed like this: `local` or nothing, `function`, a name or nothing, and a body.
A body holds parameters, a block and at most one token of its own, its `end`, which then comes
last.  So a closed definition begins with its keywords and ends with its own `end`, and what
stands between its `function` and its body is exactly its name.
-/

namespace LuaFold

open scoped Computability

namespace Element

/-- What a node sees of an element in it. -/
def slot (element : Element) : Slot :=
  element.shape.slot

theorem slot_eq_token
    {element : Element}
    {kind : Kind} :
    element.slot = .token kind ↔ ∃ inner, element = .token inner ∧ inner.kind = kind := by
  rw [slot, Shape.slot_eq_token, shape_eq_leaf]

theorem slot_eq_node
    {element : Element}
    {kind : Kind} :
    element.slot = .node kind ↔ ∃ extent children, element = .node kind extent children := by
  rw [slot, Shape.slot_eq_node]
  constructor
  · rintro ⟨shapes, same⟩
    obtain ⟨extent, children, rfl, _⟩ := shape_eq_node.mp same
    exact ⟨extent, children, rfl⟩
  · rintro ⟨extent, children, rfl⟩
    exact ⟨_, shape_node kind extent children⟩

/-- The children of a formed node follow the form of its kind. -/
theorem map_slot_mem_form
    {kind : Kind}
    {extent : Extent}
    {children : List Element}
    (formed : (node kind extent children).shape.Formed) :
    children.map slot ∈ kind.form := by
  rw [shape_node] at formed
  have fits := formed.fits
  rwa [List.map_map] at fits

theorem formed_children
    {kind : Kind}
    {extent : Extent}
    {children : List Element}
    (formed : (node kind extent children).shape.Formed) :
    ∀ child ∈ children, child.shape.Formed := by
  rw [shape_node] at formed
  exact fun child member => formed.children _ (List.mem_map.mpr ⟨child, member, rfl⟩)

/-- Elements that show no node are tokens. -/
theorem eq_map_token
    {elements : List Element}
    (flat : ∀ kind, Slot.node kind ∉ elements.map slot) :
    ∃ tokens : List Token, elements = tokens.map .token := by
  induction elements with
  | nil => exact ⟨[], rfl⟩
  | cons first rest ih =>
      obtain ⟨tokens, rfl⟩ := ih fun kind member => flat kind (List.mem_cons_of_mem _ member)
      cases first with
      | token inner => exact ⟨inner :: tokens, rfl⟩
      | node kind extent children =>
          refine absurd (flat kind) (not_not.mpr ?_)
          rw [List.map_cons, slot_eq_node.mpr ⟨extent, children, rfl⟩]
          exact List.mem_cons_self

end Element

namespace Form

theorem mem_form_functionStmt
    {slots : List Slot}
    (fits : slots ∈ Kind.form .functionStmt) :
    ∃ name, (name = [] ∨ name = [.node .funcName]) ∧
      slots = .token .functionKw :: (name ++ [.node .funcBody]) := by
  obtain ⟨_, named, _, body, rfl⟩ := Language.mem_mul.mp fits
  obtain ⟨_, keyword, name, isName, rfl⟩ := Language.mem_mul.mp named
  rw [mem_token.mp keyword, mem_node.mp body]
  exact ⟨name, by simpa using isName, by simp⟩

theorem mem_form_localFunctionStmt
    {slots : List Slot}
    (fits : slots ∈ Kind.form .localFunctionStmt) :
    ∃ name, (name = [] ∨ name = [.token .name]) ∧
      slots = .token .localKw :: .token .functionKw :: (name ++ [.node .funcBody]) := by
  obtain ⟨_, named, _, body, rfl⟩ := Language.mem_mul.mp fits
  obtain ⟨_, keywords, name, isName, rfl⟩ := Language.mem_mul.mp named
  obtain ⟨_, first, _, second, rfl⟩ := Language.mem_mul.mp keywords
  rw [mem_token.mp first, mem_token.mp second, mem_node.mp body]
  exact ⟨name, by simpa using isName, by simp⟩

theorem mem_form_functionExpr
    {slots : List Slot}
    (fits : slots ∈ Kind.form .functionExpr) :
    slots = [.token .functionKw, .node .funcBody] := by
  obtain ⟨_, keyword, _, body, rfl⟩ := Language.mem_mul.mp fits
  rw [mem_token.mp keyword, mem_node.mp body]
  rfl

/-- The parts of a body: its parameters, its block and its `end`. -/
theorem mem_form_body
    {slots : List Slot}
    (fits : slots ∈ Kind.form .funcBody) :
    ∃ parameters closing, (parameters = [] ∨ parameters = [.node .paramList]) ∧
      (closing = [] ∨ closing = [.token .endKw]) ∧
      slots = parameters ++ .node .block :: closing := by
  obtain ⟨_, headed, closing, isClosing, rfl⟩ := Language.mem_mul.mp fits
  obtain ⟨parameters, isParameters, _, block, rfl⟩ := Language.mem_mul.mp headed
  rw [mem_node.mp block]
  exact ⟨parameters, closing, by simpa using isParameters, by simpa using isClosing, by simp⟩

/-- The slots of a definition: its keywords, what stands for its name, and its body. -/
theorem mem_form_definition
    {kind : Kind}
    {form : DefinitionForm}
    {slots : List Slot}
    (defines : DefinitionForm.ofKind? kind = some form)
    (fits : slots ∈ kind.form) :
    ∃ front middle, slots = front ++ .token .functionKw :: (middle ++ [.node .funcBody]) ∧
      (front = [] ∨ front = [.token .localKw]) ∧
      match form with
      | .statement => middle = [] ∨ middle = [.node .funcName]
      | .localStatement => middle = [] ∨ middle = [.token .name]
      | .expression => middle = [] := by
  unfold DefinitionForm.ofKind? at defines
  split at defines
  · cases defines
    obtain ⟨name, isName, rfl⟩ := mem_form_functionStmt fits
    exact ⟨[], name, rfl, Or.inl rfl, isName⟩
  · cases defines
    obtain ⟨name, isName, rfl⟩ := mem_form_localFunctionStmt fits
    exact ⟨[.token .localKw], name, rfl, Or.inr rfl, isName⟩
  · cases defines
    exact ⟨[], [], mem_form_functionExpr fits, Or.inl rfl, rfl⟩
  · cases defines

/-- The slots of a body: nodes, and one token at most, which is its `end` and comes last. -/
theorem mem_form_funcBody
    {slots : List Slot}
    (fits : slots ∈ Kind.form .funcBody) :
    ∃ inside last,
      slots = inside ++ last ∧
      (∀ kind, Slot.token kind ∉ inside) ∧
      (last = [] ∨ last = [.token .endKw]) := by
  obtain ⟨parameters, closing, isParameters, isClosing, rfl⟩ := mem_form_body fits
  refine ⟨parameters ++ [.node .block], closing, by simp, ?_, isClosing⟩
  rcases isParameters with rfl | rfl
  · simp
  · simp

/-- A dotted name holds nothing but tokens. -/
theorem holds_funcName : Holds (fun _ => False) (Kind.form .funcName) := by
  have name : Holds (fun _ => False) (optional (token .name)) := (holds_token .name).optional
  have dotted := (holds_token .dot).mul name
  have method := (holds_token .colon).mul name
  exact ((holds_token .name).mul dotted.kstar).mul method.optional

end Form

/-- What stands in a definition node, whether or not it is closed. -/
structure Outlined
    (form : DefinitionForm)
    (node : Node)
    (front : Option Token)
    (keyword : Token)
    (name : List Element)
    (extent : Extent)
    (body : List Element) :
    Prop where
  children : node.children = front.toList.map .token ++ .token keyword ::
    (name ++ [.node .funcBody extent body])
  isLocal : ∀ token ∈ front, token.kind = .localKw
  isFunction : keyword.kind = .functionKw
  isName : match form with
    | .statement => name = [] ∨ ∃ extent children, name = [.node .funcName extent children]
    | .localStatement => name = [] ∨ ∃ inner, name = [.token inner] ∧ inner.kind = .name
    | .expression => name = []

theorem exists_outlined
    {form : DefinitionForm}
    {node : Node}
    (formed : node.element.shape.Formed)
    (defines : DefinitionForm.ofKind? node.kind = some form) :
    ∃ front keyword name extent body, Outlined form node front keyword name extent body := by
  obtain ⟨front, middle, slots, isFront, isMiddle⟩ :=
    Form.mem_form_definition defines (Element.map_slot_mem_form formed)
  obtain ⟨fronts, _, children, frontSlots, slots⟩ := List.map_eq_append_iff.mp slots
  obtain ⟨_, _, rfl, keywordSlot, slots⟩ := List.map_eq_cons_iff.mp slots
  obtain ⟨name, _, rfl, nameSlots, slots⟩ := List.map_eq_append_iff.mp slots
  obtain ⟨_, rfl, bodySlot⟩ := List.map_eq_singleton_iff.mp slots
  obtain ⟨keyword, rfl, isFunction⟩ := Element.slot_eq_token.mp keywordSlot
  obtain ⟨extent, body, rfl⟩ := Element.slot_eq_node.mp bodySlot
  obtain ⟨localKeyword, rfl, isLocal⟩ : ∃ found : Option Token,
      fronts = found.toList.map .token ∧ ∀ token ∈ found, token.kind = .localKw := by
    rcases isFront with rfl | rfl
    · exact ⟨none, List.map_eq_nil_iff.mp frontSlots, by simp⟩
    · obtain ⟨_, rfl, slot⟩ := List.map_eq_singleton_iff.mp frontSlots
      obtain ⟨inner, rfl, isLocal⟩ := Element.slot_eq_token.mp slot
      exact ⟨some inner, rfl, by simpa using isLocal⟩
  refine ⟨localKeyword, keyword, name, extent, body, children, isLocal, isFunction, ?_⟩
  cases form with
  | statement =>
      rcases isMiddle with rfl | rfl
      · exact Or.inl (List.map_eq_nil_iff.mp nameSlots)
      · obtain ⟨_, rfl, slot⟩ := List.map_eq_singleton_iff.mp nameSlots
        obtain ⟨nameExtent, parts, rfl⟩ := Element.slot_eq_node.mp slot
        exact Or.inr ⟨nameExtent, parts, rfl⟩
  | localStatement =>
      rcases isMiddle with rfl | rfl
      · exact Or.inl (List.map_eq_nil_iff.mp nameSlots)
      · obtain ⟨_, rfl, slot⟩ := List.map_eq_singleton_iff.mp nameSlots
        obtain ⟨inner, rfl, isName⟩ := Element.slot_eq_token.mp slot
        exact Or.inr ⟨inner, rfl, isName⟩
  | expression =>
      subst isMiddle
      exact List.map_eq_nil_iff.mp nameSlots

namespace Outlined

variable
    {form : DefinitionForm}
    {node : Node}
    {front : Option Token}
    {keyword : Token}
    {name : List Element}
    {extent : Extent}
    {body : List Element}

theorem body_not_mem_name
    (outlined : Outlined form node front keyword name extent body)
    (other : Extent)
    (inside : List Element) :
    Element.node .funcBody other inside ∉ name := by
  have isName := outlined.isName
  cases form with
  | statement =>
      rcases isName with rfl | ⟨_, _, rfl⟩
      · simp
      · simp
  | localStatement =>
      rcases isName with rfl | ⟨_, rfl, _⟩
      · simp
      · simp
  | expression =>
      subst isName
      simp

theorem body?_eq (outlined : Outlined form node front keyword name extent body) :
    ∃ offset, (FunctionDefinition.mk form node).body? = some ⟨offset, .funcBody, extent, body⟩ := by
  have before : node.children = (front.toList.map .token ++ .token keyword :: name) ++
      .node .funcBody extent body :: [] := by simp [outlined.children]
  refine ⟨_, Node.childNode?_eq_some before ?_⟩
  intro other inside member
  refine outlined.body_not_mem_name other inside ?_
  simpa using member

/-- The tokens of a dotted name are its children. -/
theorem name?_statement
    (outlined : Outlined .statement node front keyword name extent body)
    (formed : node.element.shape.Formed) :
    (FunctionDefinition.mk .statement node).name?.getD "" =
      String.ofList ((name.flatMap Element.tokens).flatMap Token.text) := by
  have children := outlined.children
  rcases outlined.isName with rfl | ⟨nameExtent, parts, rfl⟩
  · have absent : node.childNode? .funcName = none := by
      refine Node.childNode?_eq_none ?_
      simp [children]
    simp [FunctionDefinition.name?, FunctionDefinition.nameNode?, absent]
  · have found := @Node.childNode?_eq_some node (front.toList.map .token ++ [.token keyword])
      [.node .funcBody extent body] .funcName nameExtent parts (by simp [children]) (by simp)
    have formedName : (Element.node .funcName nameExtent parts).shape.Formed :=
      Element.formed_children formed _ (by simp [children])
    obtain ⟨tokens, rfl⟩ := Element.eq_map_token fun kind member =>
      Form.holds_funcName _ (Element.map_slot_mem_form formedName) kind member
    have flat : ∀ offset, (Node.mk offset .funcName nameExtent
        (tokens.map .token)).childTokens = Text.layOut Token.width offset tokens :=
      fun offset => Node.childTokens_eq_layOut rfl
    have texts := fun offset => Text.flatMap_layOut Token.width offset tokens Token.text
    simp [FunctionDefinition.name?, FunctionDefinition.nameNode?, found, flat, texts,
      List.flatMap_map]

theorem kind_ne_name
    (outlined : Outlined form node front keyword name extent body)
    {inner : Token}
    (member : Element.token inner ∈ front.toList.map .token ++ [.token keyword]) :
    inner.kind ≠ .name := by
  rcases List.mem_append.mp member with inFront | last
  · rcases List.mem_map.mp inFront with ⟨token, isFront, same⟩
    cases same
    rw [outlined.isLocal inner (Option.mem_toList.mp isFront)]
    decide
  · cases List.mem_singleton.mp last
    rw [outlined.isFunction]
    decide

/-- A local definition is named by the first token that is a name. -/
theorem name?_localStatement
    (outlined : Outlined .localStatement node front keyword name extent body) :
    (FunctionDefinition.mk .localStatement node).name?.getD "" =
      String.ofList ((name.flatMap Element.tokens).flatMap Token.text) := by
  have children := outlined.children
  rcases outlined.isName with rfl | ⟨inner, rfl, isName⟩
  · have absent : node.childToken? .name = none := by
      refine Node.childToken?_eq_none fun inner member => outlined.kind_ne_name ?_
      simpa [children] using member
    simp [FunctionDefinition.name?, absent]
  · have found := @Node.childToken?_eq_some node (front.toList.map .token ++ [.token keyword])
      [.node .funcBody extent body] inner (by simp [children])
      (by rw [isName]; exact fun _ member => outlined.kind_ne_name member)
    rw [isName] at found
    simp [FunctionDefinition.name?, found]

/-- The name of a definition is what stands between its keyword and its body. -/
theorem name?_eq
    (outlined : Outlined form node front keyword name extent body)
    (formed : node.element.shape.Formed) :
    (FunctionDefinition.mk form node).name?.getD "" =
      String.ofList ((name.flatMap Element.tokens).flatMap Token.text) := by
  cases form with
  | statement => exact outlined.name?_statement formed
  | localStatement => exact outlined.name?_localStatement
  | expression =>
      have isName : name = [] := outlined.isName
      subst isName
      rfl

/-- A definition is closed when its body has a token of its own, its `end`. -/
theorem closed
    (outlined : Outlined form node front keyword name extent body)
    (formed : node.element.shape.Formed)
    (isClosed : (FunctionDefinition.mk form node).isClosed = true) :
    ∃ inside closing, body = inside ++ [.token closing] ∧ closing.kind = .endKw := by
  have formedBody : (Element.node .funcBody extent body).shape.Formed :=
    Element.formed_children formed _ (by simp [outlined.children])
  obtain ⟨_, _, slots, absent, isLast⟩ :=
    Form.mem_form_funcBody (Element.map_slot_mem_form formedBody)
  obtain ⟨inside, last, rfl, insideSlots, lastSlots⟩ := List.map_eq_append_iff.mp slots
  rcases isLast with rfl | rfl
  · -- without an `end` the search for it fails
    rw [List.map_eq_nil_iff] at lastSlots
    subst lastSlots
    obtain ⟨offset, found⟩ := outlined.body?_eq
    have missing : (Node.mk offset .funcBody extent (inside ++ [])).childToken? .endKw = none := by
      refine Node.childToken?_eq_none fun inner member => ?_
      refine absurd ?_ (absent inner.kind)
      rw [← insideSlots]
      refine List.mem_map.mpr ⟨.token inner, by simpa using member, ?_⟩
      exact Element.slot_eq_token.mpr ⟨inner, rfl, rfl⟩
    simp only [FunctionDefinition.isClosed, FunctionDefinition.closing?, found,
      Option.bind_some, missing] at isClosed
    cases isClosed
  · obtain ⟨_, rfl, slot⟩ := List.map_eq_singleton_iff.mp lastSlots
    obtain ⟨closing, rfl, isEnd⟩ := Element.slot_eq_token.mp slot
    exact ⟨inside, closing, rfl, isEnd⟩

end Outlined

/-- The parts of a closed definition. -/
structure ClosedDefinition where
  localKeyword? : Option Token
  keyword : Token
  name : List Element
  body : List Element
  closing : Token
  isLocal : ∀ token ∈ localKeyword?, token.kind = .localKw
  isFunction : keyword.kind = .functionKw
  isEnd : closing.kind = .endKw

namespace ClosedDefinition

/-- What stands in the body of a definition, its own `end` last. -/
def bodyChildren (definition : ClosedDefinition) : List Element :=
  definition.body ++ [.token definition.closing]

/-- What stands in the node of a definition. -/
def children (definition : ClosedDefinition) (extent : Extent) : List Element :=
  definition.localKeyword?.toList.map .token ++ .token definition.keyword ::
    (definition.name ++ [.node .funcBody extent definition.bodyChildren])

/-- The name of a definition: the texts of the tokens between its keyword and its body. -/
def writtenName (definition : ClosedDefinition) : String :=
  String.ofList ((definition.name.flatMap Element.tokens).flatMap Token.text)

end ClosedDefinition

/-- A region is that of a closed definition, and has its name. -/
theorem exists_closedDefinition
    {node : Node}
    {region : Region}
    (formed : node.element.shape.Formed)
    (found : Region.ofNode? node = some region) :
    ∃ (definition : ClosedDefinition) (extent : Extent),
      DefinitionForm.ofKind? node.kind ≠ none ∧
      node.children = definition.children extent ∧
      region.name = definition.writtenName ∧ region.span = node.trimmedSpan := by
  obtain ⟨_, isDefinition, isRegion⟩ := Option.bind_eq_some_iff.mp found
  obtain ⟨form, defines, rfl⟩ := Option.map_eq_some_iff.mp isDefinition
  unfold Region.ofDefinition? at isRegion
  split at isRegion
  · next isClosed =>
    cases isRegion
    obtain ⟨front, keyword, name, extent, body, outlined⟩ := exists_outlined formed defines
    obtain ⟨inside, closing, rfl, isEnd⟩ := outlined.closed formed isClosed
    exact ⟨⟨front, keyword, name, inside, closing, outlined.isLocal, outlined.isFunction, isEnd⟩,
      extent, by simp [defines], outlined.children, outlined.name?_eq formed, rfl⟩
  · cases isRegion

end LuaFold
