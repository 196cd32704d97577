import LuaFold.Grammar.Action
import LuaFold.Proofs.Tree.Place
import LuaFold.Tree.Definition

/-!
# Trees without formatting

A plain token has its kind and its text and nothing around it.  Actions put plain tokens
together as they put together the tokens that these are taken from, so the plain tree is known
from the spelling of the tokens.

What the children of a node are searched for is in the plain tree too: the search looks at kinds
and texts, and what it finds is the same up to formatting, wherever it stands.
-/

namespace LuaFold

namespace Token

/-- What formatting leaves alone in a token. -/
def spelling (inner : Token) : Kind × Text :=
  (inner.kind, inner.text)

/-- A token without trivia and faults. -/
def plain (inner : Token) : Token :=
  ⟨[], inner.kind, inner.text, [], none⟩

/-- Tokens that are spelled alike have the same kinds. -/
theorem map_kind_of_spelling
    {first second : List Token}
    (same : first.map spelling = second.map spelling) :
    first.map kind = second.map kind := by
  have kinds := congrArg (List.map Prod.fst) same
  simpa [Function.comp_def, spelling] using kinds

/-- Tokens that are spelled alike are the same without trivia. -/
theorem map_plain_of_spelling
    {first second : List Token}
    (same : first.map spelling = second.map spelling) :
    first.map plain = second.map plain := by
  have spelled : plain = (fun pair => ⟨[], pair.1, pair.2, [], none⟩) ∘ spelling := rfl
  rw [spelled, ← List.map_map, ← List.map_map, same]

end Token

namespace Element

mutual

/-- An element with plain tokens. -/
def plain : Element → Element
  | .token inner => .token inner.plain
  | .node kind _ children => .branch kind (allPlain children)

def allPlain : List Element → List Element
  | [] => []
  | first :: rest => first.plain :: allPlain rest

end

@[simp]
theorem allPlain_eq_map (elements : List Element) : allPlain elements = elements.map plain := by
  induction elements with
  | nil => rfl
  | cons first rest ih => simp [allPlain, ih]

@[simp]
theorem plain_token (inner : Token) : (token inner).plain = .token inner.plain := by
  simp [plain]

@[simp]
theorem plain_node
    (kind : Kind)
    (extent : Extent)
    (children : List Element) :
    (node kind extent children).plain = .branch kind (children.map plain) := by
  simp [plain]

@[simp]
theorem plain_branch
    (kind : Kind)
    (children : List Element) :
    (branch kind children).plain = .branch kind (children.map plain) :=
  plain_node _ _ _

@[simp]
theorem branch_inj
    {kind other : Kind}
    {children others : List Element} :
    branch kind children = branch other others ↔ kind = other ∧ children = others := by
  rw [branch, branch, node.injEq]
  constructor
  · rintro ⟨rfl, _, rfl⟩
    exact ⟨rfl, rfl⟩
  · rintro ⟨rfl, rfl⟩
    exact ⟨rfl, rfl, rfl⟩

/-- What is left without formatting has none. -/
theorem plain_plain (element : Element) : element.plain.plain = element.plain := by
  induction element using Element.induct with
  | token inner => simp [Token.plain]
  | node kind extent children ih => simpa using ih

/-- The tokens of a plain element are those of the element, without formatting. -/
theorem tokens_plain (element : Element) :
    element.plain.tokens = element.tokens.map Token.plain := by
  induction element using Element.induct with
  | token inner => simp
  | node kind extent children ih =>
      rw [plain_node, branch, tokens_node, tokens_node]
      induction children with
      | nil => rfl
      | cons first rest tail =>
          have here := ih first (by simp)
          have there := tail fun child member => ih child (by simp [member])
          simp [here, there]

end Element

namespace Assembly

/-- An assembly of plain tokens. -/
def plain (assembly : Assembly) : Assembly :=
  ⟨assembly.tokens.map Token.plain, assembly.frames.map (List.map Element.plain)⟩

/-- An action does to plain tokens what it does to others. -/
theorem perform_plain
    (assembly : Assembly)
    (action : Action) :
    assembly.plain.perform action = (assembly.perform action).plain := by
  obtain ⟨tokens, frames⟩ := assembly
  cases action with
  | start => rfl
  | advance => cases tokens <;> cases frames <;> simp [plain, perform]
  | complete kind =>
      rcases frames with _ | ⟨inner, _ | ⟨outer, frames⟩⟩ <;> simp [plain, perform]
  | abandon =>
      rcases frames with _ | ⟨inner, _ | ⟨outer, frames⟩⟩ <;> simp [plain, perform]
  | precede =>
      rcases frames with _ | ⟨_ | ⟨last, frame⟩, frames⟩ <;> simp [plain, perform]

theorem performAll_plain
    (assembly : Assembly)
    (actions : List Action) :
    assembly.plain.performAll actions = (assembly.performAll actions).plain := by
  induction actions generalizing assembly with
  | nil => rfl
  | cons action actions ih => rw [performAll_cons, perform_plain, ih, performAll_cons]

theorem roots_plain (assembly : Assembly) :
    assembly.plain.roots = assembly.roots.map Element.plain := by
  rw [roots, roots, plain, List.getLastD_eq_getLast?, List.getLast?_map, List.map_reverse,
    List.getLastD_eq_getLast?]
  cases assembly.frames.getLast? <;> rfl

end Assembly

/-- Plain tokens are put together as the tokens that they are taken from. -/
theorem Action.assemble_plain
    (actions : List Action)
    (tokens : List Token) :
    assemble actions (tokens.map Token.plain) = (assemble actions tokens).map Element.plain := by
  have performed := (Assembly.new tokens).performAll_plain actions
  rw [assemble, assemble, ← Assembly.roots_plain, ← performed]
  rfl

/-! ## Searches -/

/-- The token that an element is, unless it is a node. -/
def Element.token? : Element → Option Token
  | .token inner => some inner
  | .node _ _ _ => none

@[simp]
theorem Element.token?_branch
    (kind : Kind)
    (children : List Element) :
    (branch kind children).token? = none :=
  rfl

@[simp]
theorem Element.isNode_branch
    (kind : Kind)
    (children : List Element) :
    (branch kind children).isNode = true :=
  rfl

namespace Node

/-- Two nodes have the same kind and the same children, up to formatting. -/
structure Alike (first second : Node) : Prop where
  kind : first.kind = second.kind
  children : first.children.map Element.plain = second.children.map Element.plain

theorem alike_iff {first second : Node} :
    first.Alike second ↔ first.element.plain = second.element.plain := by
  rw [element, element, Element.plain_node, Element.plain_node, Element.branch_inj]
  exact ⟨fun alike => ⟨alike.kind, alike.children⟩, fun same => ⟨same.1, same.2⟩⟩

/-- The first child node of a kind is known from the plain children. -/
theorem map_childNode?
    (node : Node)
    (kind : Kind) :
    (node.childNode? kind).map (fun child => child.element.plain) =
      (node.children.map Element.plain).find? fun child => child.isNode && child.kind = kind := by
  rw [childNode?, childNodes, elements]
  generalize node.offset = offset
  generalize node.children = children
  induction children generalizing offset with
  | nil => rfl
  | cons child rest ih =>
      have others := ih (offset + child.width)
      cases child with
      | token inner => simpa [ofElement?, Element.isNode] using others
      | node other extent inside =>
          by_cases same : other = kind
          · simp [ofElement?, element, same]
          · simpa [ofElement?, same] using others

/-- The child tokens are known from the plain children. -/
theorem map_childTokens (node : Node) :
    (node.childTokens.map fun placed => placed.2.plain) =
      (node.children.map Element.plain).filterMap Element.token? := by
  rw [childTokens, elements]
  generalize node.offset = offset
  generalize node.children = children
  induction children generalizing offset with
  | nil => rfl
  | cons child rest ih =>
      have others := ih (offset + child.width)
      cases child with
      | token inner => simpa [Element.token?] using others
      | node other extent inside => simpa [List.filterMap_cons] using others

namespace Alike

variable {first second : Node}

/-- Alike nodes have alike first child nodes of a kind. -/
theorem childNode?
    (alike : first.Alike second)
    (kind : Kind) :
    (first.childNode? kind = none ∧ second.childNode? kind = none) ∨
      ∃ child other,
        first.childNode? kind = some child ∧
        second.childNode? kind = some other ∧
        child.Alike other := by
  have same := first.map_childNode? kind
  rw [alike.children, ← second.map_childNode? kind] at same
  cases found : first.childNode? kind with
  | none =>
      rw [found, Option.map_none, eq_comm, Option.map_eq_none_iff] at same
      exact Or.inl ⟨rfl, same⟩
  | some child =>
      rw [found, Option.map_some, eq_comm, Option.map_eq_some_iff] at same
      obtain ⟨other, isOther, plain⟩ := same
      exact Or.inr ⟨child, other, rfl, isOther, alike_iff.mpr plain.symm⟩

theorem map_childTokens (alike : first.Alike second) :
    (first.childTokens.map fun placed => placed.2.plain) =
      second.childTokens.map fun placed => placed.2.plain := by
  rw [first.map_childTokens, second.map_childTokens, alike.children]

/-- Alike nodes have child tokens of the same texts. -/
theorem flatMap_childTokens (alike : first.Alike second) :
    (first.childTokens.flatMap fun placed => placed.2.text) =
      second.childTokens.flatMap fun placed => placed.2.text := by
  have texts := congrArg (List.flatMap Token.text) alike.map_childTokens
  simpa [List.flatMap_map, Token.plain] using texts

/-- The first child tokens of a kind in alike nodes have the same text. -/
theorem map_childToken?
    (alike : first.Alike second)
    (kind : Kind) :
    ((first.childToken? kind).map fun placed => placed.2.text) =
      (second.childToken? kind).map fun placed => placed.2.text := by
  have texts := congrArg (fun tokens => (tokens.find? fun inner => inner.kind = kind).map
    Token.text) alike.map_childTokens
  simpa [List.find?_map, Function.comp_def, Token.plain, Node.childToken?] using texts

end Alike

end Node

end LuaFold
