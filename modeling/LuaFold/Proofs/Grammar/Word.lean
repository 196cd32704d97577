import LuaFold.Grammar.Action
import LuaFold.Proofs.Tree.Shape

/-!
# Words of actions

Actions fit together like brackets: what is started is completed or given up, and a node can be
started around another one only directly behind it.  A word of actions forms one node when its
last action completes a node that holds everything else, and it builds shapes when it adds them
to the node that is open.

Performing a word that builds shapes over tokens with the kinds at their leaves adds measured
elements of just these shapes to the innermost open node, and touches nothing else.
-/

namespace LuaFold

namespace Action

mutual

/-- The words that complete one node around everything they do. -/
inductive Forms : List Action → Shape → Prop where
  | complete
      {word : List Action}
      {children : List Shape}
      {kind : Kind}
      (inside : Builds word children)
      (proper : kind ≠ .tombstone) :
      Forms (.start :: (word ++ [.complete kind])) (.node kind children)
  | around
      {first word : List Action}
      {inner : Shape}
      {children : List Shape}
      {kind : Kind}
      (wrapped : Forms first inner)
      (inside : Builds word children)
      (proper : kind ≠ .tombstone) :
      Forms (first ++ .precede :: (word ++ [.complete kind]))
        (.node kind (inner :: children))

/-- The words that add shapes to the open node. -/
inductive Builds : List Action → List Shape → Prop where
  | nil : Builds [] []
  | advance
      {word : List Action}
      {shapes : List Shape}
      (before : Builds word shapes)
      (kind : Kind) :
      Builds (word ++ [.advance]) (shapes ++ [.leaf kind])
  | node
      {word last : List Action}
      {shapes : List Shape}
      {shape : Shape}
      (before : Builds word shapes)
      (formed : Forms last shape) :
      Builds (word ++ last) (shapes ++ [shape])
  | abandon
      {word inner : List Action}
      {shapes more : List Shape}
      (before : Builds word shapes)
      (given : Builds inner more) :
      Builds (word ++ .start :: (inner ++ [.abandon])) (shapes ++ more)

end

theorem Forms.builds
    {word : List Action}
    {shape : Shape}
    (formed : Forms word shape) :
    Builds word [shape] := by
  simpa using Builds.nil.node formed

theorem Builds.leaf (kind : Kind) : Builds [.advance] [.leaf kind] := by
  simpa using Builds.nil.advance kind

/-- One word after another builds first the shapes of the one and then those of the other. -/
theorem Builds.append
    {first second : List Action}
    {shapes more : List Shape}
    (before : Builds first shapes) :
    Builds second more → Builds (first ++ second) (shapes ++ more)
  | .nil => by simpa using before
  | .advance between kind => by
      simpa using (before.append between).advance kind
  | .node between formed => by
      simpa using (before.append between).node formed
  | .abandon between given => by
      simpa using (before.append between).abandon given

/-- Performing a word over tokens puts elements behind those of the innermost open node. -/
def Assembles (word : List Action) (taken : List Token) (elements : List Element) : Prop :=
  ∀ (rest : List Token) (frame : List Element) (frames : List (List Element)),
    Assembly.performAll ⟨taken ++ rest, frame :: frames⟩ word =
      ⟨rest, (elements.reverse ++ frame) :: frames⟩

theorem Assembles.append
    {first second : List Action}
    {taken more : List Token}
    {elements others : List Element}
    (before : Assembles first taken elements)
    (behind : Assembles second more others) :
    Assembles (first ++ second) (taken ++ more) (elements ++ others) := by
  intro rest frame frames
  rw [Assembly.performAll_append, List.append_assoc, before, behind]
  simp

end Action

namespace Element

/-- Measured elements that have given shapes and hold given tokens. -/
structure Fill (elements : List Element) (shapes : List Shape) (taken : List Token) : Prop where
  shapes_eq : elements.map shape = shapes
  tokens_eq : elements.flatMap tokens = taken
  measured : ∀ element ∈ elements, element.Measured

namespace Fill

theorem nil : Fill [] [] [] :=
  ⟨rfl, rfl, by simp⟩

theorem token (inner : Token) : Fill [.token inner] [.leaf inner.kind] [inner] :=
  ⟨by simp, by simp, by simpa using Measured.token inner⟩

theorem append
    {first second : List Element}
    {shapes more : List Shape}
    {taken others : List Token}
    (before : Fill first shapes taken)
    (behind : Fill second more others) :
    Fill (first ++ second) (shapes ++ more) (taken ++ others) := by
  refine ⟨?_, ?_, ?_⟩
  · rw [List.map_append, before.shapes_eq, behind.shapes_eq]
  · rw [List.flatMap_append, before.tokens_eq, behind.tokens_eq]
  · intro element member
    rcases List.mem_append.mp member with inFirst | inSecond
    · exact before.measured element inFirst
    · exact behind.measured element inSecond

theorem branch
    {children : List Element}
    {shapes : List Shape}
    {taken : List Token}
    (kind : Kind)
    (inside : Fill children shapes taken) :
    Fill [.branch kind children] [.node kind shapes] taken := by
  refine ⟨?_, ?_, ?_⟩
  · simp [Element.branch, inside.shapes_eq]
  · simp [Element.branch, inside.tokens_eq]
  · simpa using Measured.node kind inside.measured

end Fill

end Element

namespace Action

open Element (Fill)

mutual

/-- A word that forms a node puts one element of its shape behind those that are there. -/
theorem Forms.assembles
    {word : List Action}
    {shape : Shape} :
    Forms word shape → (taken : List Token) → taken.map Token.kind = shape.leaves →
      ∃ element, Fill [element] [shape] taken ∧ Assembles word taken [element]
  | @Forms.complete _ _ kind inside _, taken, kinds => by
      rw [Shape.leaves_node] at kinds
      obtain ⟨children, filled, performed⟩ := inside.assembles taken kinds
      refine ⟨.branch kind children, filled.branch kind, ?_⟩
      intro rest frame frames
      rw [Assembly.performAll_cons, Assembly.performAll_append, Assembly.perform, performed]
      simp [Assembly.perform]
  | @Forms.around _ _ _ _ kind wrapped inside _, taken, kinds => by
      rw [Shape.leaves_node, List.flatMap_cons, List.map_eq_append_iff] at kinds
      obtain ⟨inner, others, rfl, innerKinds, otherKinds⟩ := kinds
      obtain ⟨element, elementFilled, elementPerformed⟩ := wrapped.assembles inner innerKinds
      obtain ⟨children, filled, performed⟩ := inside.assembles others otherKinds
      refine ⟨.branch kind (element :: children),
        (elementFilled.append filled).branch kind, ?_⟩
      intro rest frame frames
      rw [Assembly.performAll_append, List.append_assoc, elementPerformed,
        Assembly.performAll_cons, Assembly.performAll_append]
      simp only [List.reverse_cons, List.reverse_nil, List.nil_append, List.cons_append,
        Assembly.perform]
      rw [performed]
      simp [Assembly.perform]

/-- A word that builds shapes puts elements of these shapes behind those that are there. -/
theorem Builds.assembles
    {word : List Action}
    {shapes : List Shape} :
    Builds word shapes → (taken : List Token) →
      taken.map Token.kind = shapes.flatMap Shape.leaves →
      ∃ elements, Fill elements shapes taken ∧ Assembles word taken elements
  | .nil, taken, kinds => by
      simp only [List.flatMap_nil, List.map_eq_nil_iff] at kinds
      subst kinds
      exact ⟨[], .nil, fun rest frame frames => by simp⟩
  | .advance before kind, taken, kinds => by
      rw [List.flatMap_append, List.map_eq_append_iff] at kinds
      obtain ⟨first, last, rfl, firstKinds, lastKinds⟩ := kinds
      obtain ⟨elements, filled, performed⟩ := before.assembles first firstKinds
      simp only [List.flatMap_cons, Shape.leaves_leaf, List.flatMap_nil, List.append_nil,
        List.map_eq_singleton_iff] at lastKinds
      obtain ⟨token, rfl, rfl⟩ := lastKinds
      refine ⟨elements ++ [.token token], filled.append (.token token), ?_⟩
      refine performed.append ?_
      intro rest frame frames
      simp [Assembly.perform]
  | .node before formed, taken, kinds => by
      rw [List.flatMap_append, List.map_eq_append_iff] at kinds
      obtain ⟨first, last, rfl, firstKinds, lastKinds⟩ := kinds
      obtain ⟨elements, filled, performed⟩ := before.assembles first firstKinds
      obtain ⟨element, elementFilled, elementPerformed⟩ :=
        formed.assembles last (by simpa using lastKinds)
      exact ⟨elements ++ [element], filled.append elementFilled,
        performed.append elementPerformed⟩
  | .abandon before given, taken, kinds => by
      rw [List.flatMap_append, List.map_eq_append_iff] at kinds
      obtain ⟨first, last, rfl, firstKinds, lastKinds⟩ := kinds
      obtain ⟨elements, filled, performed⟩ := before.assembles first firstKinds
      obtain ⟨others, othersFilled, othersPerformed⟩ := given.assembles last lastKinds
      refine ⟨elements ++ others, filled.append othersFilled, performed.append ?_⟩
      intro rest frame frames
      rw [Assembly.performAll_cons, Assembly.performAll_append, Assembly.perform,
        othersPerformed]
      simp [Assembly.perform]

end

end Action

end LuaFold
