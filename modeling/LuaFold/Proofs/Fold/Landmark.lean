import LuaFold.Proofs.Fold.Validity
import LuaFold.Proofs.Tree.Plain

/-!
# Landmarks

A region is known from the name of its definition and from the numbers of the tokens that it
runs between; offsets come in only when the spans of the tokens are looked up.  The landmarks of
a tree are these names and numbers, and they are those of the plain tree.
-/

namespace LuaFold

namespace FunctionDefinition

variable {first second : Node}

/-- Alike definitions are both closed or both open. -/
theorem isClosed_of_alike
    (alike : first.Alike second)
    (form : DefinitionForm) :
    (mk form first).isClosed = (mk form second).isClosed := by
  rw [isClosed, isClosed, closing?, closing?, body?, body?]
  rcases alike.childNode? .funcBody with ⟨none, isNone⟩ | ⟨body, other, isBody, isOther, bodies⟩
  · rw [none, isNone]
  · have closings := congrArg Option.isSome (bodies.map_childToken? .endKw)
    simpa [isBody, isOther] using closings

/-- Alike definitions have the same name. -/
theorem name?_of_alike
    (alike : first.Alike second)
    (form : DefinitionForm) :
    (mk form first).name? = (mk form second).name? := by
  cases form with
  | statement =>
      rw [name?, name?, nameNode?, nameNode?]
      rcases alike.childNode? .funcName with ⟨none, isNone⟩ | ⟨name, other, isName, isOther, names⟩
      · rw [none, isNone]
      · simp [isName, isOther, names.flatMap_childTokens]
  | localStatement =>
      have names := congrArg (Option.map String.ofList) (alike.map_childToken? .name)
      simpa [name?, Function.comp_def] using names
  | expression => rfl

end FunctionDefinition

/-- The name of the region of a node, if the node has a region. -/
def Node.title? (node : Node) : Option String :=
  (Region.ofNode? node).map Region.name

/-- Formatting and offsets have no part in the name of a region, nor in whether there is one. -/
theorem Node.Alike.title?
    {first second : Node}
    (alike : first.Alike second) :
    first.title? = second.title? := by
  rw [Node.title?, Node.title?, Region.ofNode?, Region.ofNode?, FunctionDefinition.ofNode?,
    FunctionDefinition.ofNode?, alike.kind]
  cases DefinitionForm.ofKind? second.kind with
  | none => rfl
  | some form =>
      simp only [Option.map_some, Option.bind_some, Region.ofDefinition?,
        FunctionDefinition.isClosed_of_alike alike form,
        FunctionDefinition.name?_of_alike alike form]
      split
      · rfl
      · rfl

/-- The name of a definition, and the numbers of its first and of its last token. -/
structure Landmark where
  name : String
  first : Nat
  last : Nat
deriving DecidableEq, Repr

/-- The region between the tokens of a landmark, given the spans of the tokens. -/
def Landmark.region (spans : Array Span) (mark : Landmark) : Region :=
  ⟨mark.name, ⟨(spans.getD mark.first (.empty 0)).start, (spans.getD mark.last (.empty 0)).stop⟩⟩

/-- The landmark of a node whose first token has a number, if the node has a region. -/
def Node.landmark? (node : Node) (index : Nat) : Option Landmark :=
  node.title?.map fun name => ⟨name, index, index + node.element.tokens.length - 1⟩

/-- Alike nodes have the same landmark. -/
theorem Node.Alike.landmark?
    {first second : Node}
    (alike : first.Alike second)
    (index : Nat) :
    first.landmark? index = second.landmark? index := by
  have tokens := congrArg (fun element => element.tokens.length) (alike_iff.mp alike)
  simp only [Element.tokens_plain, List.length_map] at tokens
  rw [Node.landmark?, Node.landmark?, alike.title?, tokens]

namespace Token

/-- The spans of tokens that start a text, trivia excluded. -/
def spans (tokens : List Token) : Array Span :=
  ((layOut tokens).map fun (offset, token) => token.span offset).toArray

theorem getD_spans_eq
    (tokens : List Token)
    (index : Nat)
    (other : Span) :
    (spans tokens).getD index other =
      (((layOut tokens).map fun placed => placed.2.span placed.1)[index]?).getD other := by
  rw [Array.getD_eq_getD_getElem?, spans, List.getElem?_toArray]

/-- The span with the number of a token is the span of this token. -/
theorem exists_getD_spans_eq
    {tokens : List Token}
    {index : Nat}
    (inside : index < tokens.length)
    (other : Span) :
    ∃ place, (layOut tokens)[index]? = some place ∧
      (spans tokens).getD index other = place.2.span place.1 := by
  have listed : index < (layOut tokens).length := by rwa [layOut, Text.length_layOut]
  refine ⟨_, List.getElem?_eq_getElem listed, ?_⟩
  rw [getD_spans_eq, List.getElem?_map, List.getElem?_eq_getElem listed]
  rfl

/-- A token begins behind the bytes of those before it. -/
theorem getD_spans
    (before : List Token)
    (inner : Token)
    (behind : List Token)
    (other : Span) :
    (spans (before ++ inner :: behind)).getD before.length other =
      inner.span (before.map width).sum := by
  have passed : (Text.layOut width 0 before).length = before.length :=
    Text.length_layOut width 0 before
  rw [getD_spans_eq, layOut, Text.layOut_append, List.map_append,
    List.getElem?_append_right (by simp [passed])]
  simp [passed]

end Token

/--
The regions of nodes in a list of tokens are those between landmarks, each of which has a first
token and a last one behind it.
-/
structure Marks (all : List Token) (nodes : List Node) (marks : List Landmark) : Prop where
  regions : nodes.filterMap Region.ofNode? = marks.map (Landmark.region (Token.spans all))
  bounds : ∀ mark ∈ marks, mark.first < mark.last ∧ mark.last < all.length

namespace Marks

variable {all : List Token}

theorem nil : Marks all [] [] :=
  ⟨rfl, by simp⟩

theorem append
    {nodes others : List Node}
    {marks more : List Landmark}
    (before : Marks all nodes marks)
    (behind : Marks all others more) :
    Marks all (nodes ++ others) (marks ++ more) := by
  refine ⟨?_, fun mark member => ?_⟩
  · rw [List.filterMap_append, before.regions, behind.regions, List.map_append]
  · rcases List.mem_append.mp member with early | late
    · exact before.bounds mark early
    · exact behind.bounds mark late

/-- The region of a node runs from the first to the last token of the node. -/
theorem node
    {node : Node}
    {before behind : List Token}
    (measured : node.element.Measured)
    (formed : node.element.shape.Formed)
    (stands : all = before ++ node.element.tokens ++ behind)
    (offset : node.offset = (before.map Token.width).sum) :
    Marks all [node] (node.landmark? before.length).toList := by
  cases found : Region.ofNode? node with
  | none =>
      have mark : node.landmark? before.length = none := by
        simp [Node.landmark?, Node.title?, found]
      rw [mark]
      exact ⟨by simp [found], by simp⟩
  | some region =>
      obtain ⟨definition, extent, _, children, _, span⟩ := exists_closedDefinition formed found
      have tokens := definition.tokens_element children
      have mark : node.landmark? before.length = some ⟨region.name, before.length,
          before.length + (definition.middle.length + 1)⟩ := by
        simp [Node.landmark?, Node.title?, found, tokens]
      have trimmed := node.trimmedSpan_eq measured tokens definition.isTrivia_first
        definition.isTrivia_closing
      have opening : (Token.spans all).getD before.length (.empty 0) =
          definition.first.span node.offset := by
        have looked := Token.getD_spans before definition.first
          (definition.middle ++ [definition.closing] ++ behind) (.empty 0)
        simpa [stands, tokens, offset] using looked
      have closing : (Token.spans all).getD (before.length + (definition.middle.length + 1))
          (.empty 0) = definition.closing.span
            (node.offset + ((definition.first :: definition.middle).map Token.width).sum) := by
        have looked := Token.getD_spans (before ++ definition.first :: definition.middle)
          definition.closing behind (.empty 0)
        simpa [stands, tokens, offset] using looked
      have between : Landmark.region (Token.spans all) ⟨region.name, before.length,
          before.length + (definition.middle.length + 1)⟩ = region := by
        rw [Landmark.region, opening, closing, ← trimmed, ← span]
      rw [mark]
      exact ⟨by simp [found, between], by simp [stands, tokens]⟩

end Marks

namespace Element

mutual

/-- The landmarks in and below an element whose first token has a number, outer ones first. -/
def landmarks (index : Nat) : Element → List Landmark
  | .token _ => []
  | .node kind extent children =>
      (Node.landmark? ⟨0, kind, extent, children⟩ index).toList ++ allLandmarks index children

def allLandmarks (index : Nat) : List Element → List Landmark
  | [] => []
  | first :: rest => first.landmarks index ++ allLandmarks (index + first.tokens.length) rest

end

mutual

/-- The landmarks of an element are those of the plain one. -/
theorem landmarks_plain (index : Nat) :
    (element : Element) → element.plain.landmarks index = element.landmarks index
  | .token inner => by simp [landmarks]
  | .node kind extent children => by
      have below := allLandmarks_plain index children
      have alike : Node.Alike ⟨0, kind, .total ((children.map plain).map Element.extent),
          children.map plain⟩ ⟨0, kind, extent, children⟩ := ⟨rfl, by simp [plain_plain]⟩
      rw [plain_node, branch, landmarks, landmarks, alike.landmark? index, below]

theorem allLandmarks_plain (index : Nat) :
    (elements : List Element) →
      allLandmarks index (elements.map plain) = allLandmarks index elements
  | [] => rfl
  | first :: rest => by
      have here := landmarks_plain index first
      have there := allLandmarks_plain (index + first.tokens.length) rest
      simp [allLandmarks, here, there, tokens_plain]

end

mutual

/-- The regions of the nodes in an element are those between its landmarks. -/
theorem marks_nodes (all before behind : List Token) :
    (element : Element) → element.Measured → element.shape.Formed →
      all = before ++ element.tokens ++ behind →
      Marks all (element.nodes (before.map Token.width).sum) (element.landmarks before.length)
  | .token inner, _, _, _ => by
      rw [nodes, landmarks]
      exact .nil
  | .node kind extent children, measured, formed, stands => by
      have here : Marks all [⟨(before.map Token.width).sum, kind, extent, children⟩] _ :=
        .node measured formed stands rfl
      have alike : Node.Alike ⟨(before.map Token.width).sum, kind, extent, children⟩
          ⟨0, kind, extent, children⟩ := ⟨rfl, rfl⟩
      rw [tokens_node] at stands
      have below := marks_allNodes all before behind children measured.children
        (formed_children formed) stands
      rw [nodes, landmarks, ← alike.landmark?]
      exact here.append below

theorem marks_allNodes (all before behind : List Token) :
    (elements : List Element) → (∀ element ∈ elements, element.Measured) →
      (∀ element ∈ elements, element.shape.Formed) →
      all = before ++ elements.flatMap tokens ++ behind →
      Marks all (allNodes (before.map Token.width).sum elements)
        (allLandmarks before.length elements)
  | [], _, _, _ => .nil
  | first :: rest, measured, formed, stands => by
      have widths : (before.map Token.width).sum + first.width =
          ((before ++ first.tokens).map Token.width).sum := by
        simp [(measured first (by simp)).width_eq]
      have here := marks_nodes all before (rest.flatMap tokens ++ behind) first
        (measured first (by simp)) (formed first (by simp)) (by simp [stands])
      have there := marks_allNodes all (before ++ first.tokens) behind rest
        (fun element member => measured element (by simp [member]))
        (fun element member => formed element (by simp [member])) (by simp [stands])
      rw [allNodes, allLandmarks, widths, ← List.length_append]
      exact here.append there

end

end Element

end LuaFold
