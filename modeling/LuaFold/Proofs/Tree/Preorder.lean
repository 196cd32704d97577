import LuaFold.Tree.Preorder
import Mathlib.Data.List.Forall2
import Mathlib.Logic.Relation

/-!
# Walks over stacks are recursive walks

The recursive walk through children enters every node among them, walks through the children of
this node, and leaves it.  While a stack holds nodes with the rest of their children, the walk
that is advanced event by event makes the recursive walk through these rests, and leaves one node
after each.  The walk that collects values takes them in the order in which nodes are entered.

The recursive walk is a relation here, since a branching need not be a tree; where there is such
a walk, both walks with a stack come to an end.
-/

namespace LuaFold

variable {Item Child Value : Type}

/-- Events that enter and leave nodes in pairs, one inside the other. -/
inductive WalkEvent.Balanced : List (WalkEvent Item) → Prop
  | nil : Balanced []
  | around
      {inside behind : List (WalkEvent Item)}
      (node : Item)
      (within : Balanced inside)
      (others : Balanced behind) :
      Balanced (.enter node :: (inside ++ .leave node :: behind))

/-- The nodes that events enter, in order. -/
def WalkEvent.entered (events : List (WalkEvent Item)) : List Item :=
  events.filterMap entered?

@[simp]
theorem WalkEvent.entered_nil : entered ([] : List (WalkEvent Item)) = [] :=
  rfl

@[simp]
theorem WalkEvent.entered_enter
    (node : Item)
    (events : List (WalkEvent Item)) :
    entered (.enter node :: events) = node :: entered events :=
  rfl

@[simp]
theorem WalkEvent.entered_leave
    (node : Item)
    (events : List (WalkEvent Item)) :
    entered (.leave node :: events) = entered events :=
  rfl

@[simp]
theorem WalkEvent.entered_append (first second : List (WalkEvent Item)) :
    entered (first ++ second) = entered first ++ entered second :=
  List.filterMap_append

namespace Branching

variable {branching : Branching Item Child}

/-- The recursive walk through children: depth first, from the first child to the last. -/
inductive DepthFirst (branching : Branching Item Child) :
    List Child → List (WalkEvent Item) → Prop
  | nil : DepthFirst branching [] []
  | token
      {child : Child}
      {rest : List Child}
      {events : List (WalkEvent Item)}
      (isToken : branching.node? child = none)
      (others : DepthFirst branching rest events) :
      DepthFirst branching (child :: rest) events
  | node
      {child : Child}
      {rest : List Child}
      {below events : List (WalkEvent Item)}
      {node : Item}
      (isNode : branching.node? child = some node)
      (inside : DepthFirst branching (branching.children node) below)
      (others : DepthFirst branching rest events) :
      DepthFirst branching (child :: rest) (.enter node :: (below ++ .leave node :: events))

/-- The recursive walk through a node: it is entered, its children are walked, and it is left. -/
def Walk
    (branching : Branching Item Child)
    (node : Item)
    (events : List (WalkEvent Item)) :
    Prop :=
  ∃ below, DepthFirst branching (branching.children node) below ∧
    events = .enter node :: (below ++ [.leave node])

/-- One node is a child of another. -/
def IsChild (branching : Branching Item Child) (outer inner : Item) : Prop :=
  inner ∈ branching.childNodes outer

namespace DepthFirst

variable {children others : List Child} {below events : List (WalkEvent Item)}

theorem append
    (first : DepthFirst branching children below)
    (second : DepthFirst branching others events) :
    DepthFirst branching (children ++ others) (below ++ events) := by
  induction first with
  | nil => exact second
  | token isToken _ ih => exact .token isToken ih
  | node isNode inside _ _ ih =>
      rw [List.cons_append, List.cons_append, List.append_assoc, List.cons_append]
      exact .node isNode inside ih

theorem balanced (walk : DepthFirst branching children below) : WalkEvent.Balanced below := by
  induction walk with
  | nil => exact .nil
  | token _ _ ih => exact ih
  | node _ _ _ within behind => exact .around _ within behind

/-- A walk through children enters what they lead down to. -/
theorem mem_entered
    (walk : DepthFirst branching children below)
    {item : Item} :
    item ∈ WalkEvent.entered below ↔
      ∃ node ∈ children.filterMap branching.node?,
        Relation.ReflTransGen branching.IsChild node item := by
  induction walk with
  | nil => simp
  | token isToken _ ih => rw [List.filterMap_cons_none isToken, ih]
  | @node child rest below events node isNode _ _ within behind =>
      have here : item = node ∨ item ∈ WalkEvent.entered below ↔
          Relation.ReflTransGen branching.IsChild node item := by
        rw [within, Relation.ReflTransGen.cases_head_iff, eq_comm (a := item)]
        rfl
      rw [List.filterMap_cons_some isNode]
      simp only [WalkEvent.entered_enter, WalkEvent.entered_append, WalkEvent.entered_leave,
        List.mem_cons, List.mem_append, exists_eq_or_imp, ← here, ← behind, or_assoc]

end DepthFirst

namespace Walk

variable {node : Item} {events : List (WalkEvent Item)}

theorem balanced (walk : branching.Walk node events) : WalkEvent.Balanced events := by
  obtain ⟨below, inside, rfl⟩ := walk
  exact .around node inside.balanced .nil

/-- A walk from a node enters the node and all its descendants. -/
theorem mem_entered
    (walk : branching.Walk node events)
    {item : Item} :
    item ∈ WalkEvent.entered events ↔ Relation.ReflTransGen branching.IsChild node item := by
  obtain ⟨below, inside, rfl⟩ := walk
  rw [Relation.ReflTransGen.cases_head_iff, WalkEvent.entered_enter, List.mem_cons,
    WalkEvent.entered_append, WalkEvent.entered_leave, WalkEvent.entered_nil, List.append_nil,
    inside.mem_entered, eq_comm]
  rfl

end Walk

end Branching

/-! ## Events one after the other -/

namespace Preorder

variable {branching : Branching Item Child}

/-- Advanced until it is over, a walk has these events. -/
inductive Yields (branching : Branching Item Child) :
    Preorder Item Child → List (WalkEvent Item) → Prop
  | finished
      {walk : Preorder Item Child}
      (ended : walk.next? branching = none) :
      Yields branching walk []
  | next
      {walk later : Preorder Item Child}
      {event : WalkEvent Item}
      {events : List (WalkEvent Item)}
      (advanced : walk.next? branching = some (event, later))
      (others : Yields branching later events) :
      Yields branching walk (event :: events)

/-- Walks with the same next event have the same events. -/
theorem Yields.congr
    {walk other : Preorder Item Child}
    {events : List (WalkEvent Item)}
    (yields : Yields branching walk events)
    (same : other.next? branching = walk.next? branching) :
    Yields branching other events := by
  cases yields with
  | finished ended => exact .finished (same.trans ended)
  | next advanced others => exact .next (same.trans advanced) others

/-- A node whose children are all passed is left. -/
theorem Yields.leave
    {node : Item}
    {outer : List (Item × List Child)}
    {root? : Option Item}
    {events : List (WalkEvent Item)}
    (behind : Yields branching ⟨outer, root?⟩ events) :
    Yields branching ⟨(node, []) :: outer, root?⟩ (.leave node :: events) :=
  .next rfl behind

/-- Children in front of those that are left are walked recursively before these. -/
theorem yields_of_depthFirst
    {children : List Child}
    {below : List (WalkEvent Item)}
    (walk : branching.DepthFirst children below)
    {node : Item}
    {left : List Child}
    {outer : List (Item × List Child)}
    {root? : Option Item}
    {events : List (WalkEvent Item)}
    (behind : Yields branching ⟨(node, left) :: outer, root?⟩ events) :
    Yields branching ⟨(node, children ++ left) :: outer, root?⟩ (below ++ events) := by
  induction walk generalizing node left outer events with
  | nil => exact behind
  | token isToken _ ih =>
      refine (ih behind).congr ?_
      simp only [next?, List.cons_append, Branching.nextNode?, isToken]
  | @node child rest inner later inside isNode _ _ within others =>
      have passed : Yields branching ⟨(inside, []) :: (node, rest ++ left) :: outer, root?⟩ _ :=
        (others behind).leave
      have entered := within passed
      rw [List.append_nil] at entered
      show Yields branching _ (.enter inside :: (inner ++ .leave inside :: later ++ events))
      rw [List.append_assoc, List.cons_append]
      refine .next ?_ entered
      simp only [next?, Branching.nextNode?, isNode]

/-- The walk from a node is the recursive walk, and then it is over. -/
theorem yields_of_walk
    {node : Item}
    {events : List (WalkEvent Item)}
    (walk : branching.Walk node events) :
    Yields branching (start node) events := by
  obtain ⟨below, inside, rfl⟩ := walk
  have ended : Yields branching ⟨[(node, [])], none⟩ [.leave node] := (Yields.finished rfl).leave
  have entered := yields_of_depthFirst inside ended
  rw [List.append_nil] at entered
  exact .next rfl entered

end Preorder

/-! ## Values collected -/

namespace Branching

variable {branching : Branching Item Child} {value? : Item → Option Value}

/-- Continued until nothing is pending, a collection ends with these values. -/
inductive Collects
    (branching : Branching Item Child)
    (value? : Item → Option Value) :
    List Item × List Value → List Value → Prop
  | finished {values : List Value} : Collects branching value? ([], values) values
  | next
      {reached later : List Item × List Value}
      {values : List Value}
      (stepped : branching.collectNext? value? reached = some later)
      (others : Collects branching value? later values) :
      Collects branching value? reached values

/-- Nodes that are pending last, in reverse, are collected before the others. -/
theorem collects_of_depthFirst
    {children : List Child}
    {below : List (WalkEvent Item)}
    (walk : branching.DepthFirst children below)
    {pending : List Item}
    {values final : List Value}
    (behind : Collects branching value?
      (pending, values ++ (WalkEvent.entered below).filterMap value?) final) :
    Collects branching value?
      (pending ++ (children.filterMap branching.node?).reverse, values) final := by
  induction walk generalizing pending values final with
  | nil => simpa using behind
  | token isToken _ ih =>
      rw [List.filterMap_cons_none isToken]
      exact ih behind
  | @node child rest inner later inside isNode _ _ within others =>
      rw [List.filterMap_cons_some isNode, List.reverse_cons, ← List.append_assoc]
      have entered : (WalkEvent.entered
          (.enter inside :: (inner ++ .leave inside :: later))).filterMap value? =
          (value? inside).toList ++ ((WalkEvent.entered inner).filterMap value? ++
            (WalkEvent.entered later).filterMap value?) := by
        cases found : value? inside with
        | none => simp [found]
        | some value => simp [found]
      rw [entered, ← List.append_assoc, ← List.append_assoc] at behind
      refine .next ?_ (within (others behind))
      simp [collectNext?, childNodes]

/-- A collection from one node takes the values of all nodes that a walk from it enters. -/
theorem collects_of_walk
    {node : Item}
    {events : List (WalkEvent Item)}
    (walk : branching.Walk node events) :
    Collects branching value? ([node], []) ((WalkEvent.entered events).filterMap value?) := by
  obtain ⟨below, inside, rfl⟩ := walk
  refine .next rfl ?_
  rw [List.dropLast_singleton]
  refine collects_of_depthFirst inside ?_
  have entered : (WalkEvent.entered (.enter node :: (below ++ [.leave node]))).filterMap value? =
      [] ++ (value? node).toList ++ (WalkEvent.entered below).filterMap value? := by
    cases found : value? node with
    | none => simp [found]
    | some value => simp [found]
  rw [entered]
  exact .finished

end Branching

/-! ## Corresponding walks -/

/-- Events that enter, or leave, related nodes. -/
inductive WalkEvent.Related
    {Other : Type}
    (related : Item → Other → Prop) :
    WalkEvent Item → WalkEvent Other → Prop
  | enter
      {node : Item}
      {other : Other}
      (same : related node other) :
      Related related (.enter node) (.enter other)
  | leave
      {node : Item}
      {other : Other}
      (same : related node other) :
      Related related (.leave node) (.leave other)

namespace Branching

variable {Other Place : Type} {branching : Branching Item Child}
  {elsewhere : Branching Other Place}

/-- Children that are both tokens, or both related nodes. -/
inductive Alike
    (branching : Branching Item Child)
    (elsewhere : Branching Other Place)
    (related : Item → Other → Prop) :
    Child → Place → Prop
  | token
      {child : Child}
      {place : Place}
      (isToken : branching.node? child = none)
      (alsoToken : elsewhere.node? place = none) :
      Alike branching elsewhere related child place
  | node
      {child : Child}
      {place : Place}
      {node : Item}
      {other : Other}
      (isNode : branching.node? child = some node)
      (alsoNode : elsewhere.node? place = some other)
      (same : related node other) :
      Alike branching elsewhere related child place

/-- Where related nodes have alike children, walks through alike children are related. -/
theorem DepthFirst.related
    {related : Item → Other → Prop}
    (alike : ∀ node other, related node other →
      List.Forall₂ (Alike branching elsewhere related) (branching.children node)
        (elsewhere.children other))
    {children : List Child}
    {below : List (WalkEvent Item)}
    (walk : DepthFirst branching children below)
    {places : List Place}
    (same : List.Forall₂ (Alike branching elsewhere related) children places) :
    ∃ events, DepthFirst elsewhere places events ∧
      List.Forall₂ (WalkEvent.Related related) below events := by
  induction walk generalizing places with
  | nil =>
      cases same
      exact ⟨[], .nil, .nil⟩
  | token isToken _ ih =>
      obtain ⟨place, rest, first, others, rfl⟩ := List.forall₂_cons_left_iff.mp same
      obtain ⟨events, walked, matched⟩ := ih others
      cases first with
      | token _ alsoToken => exact ⟨events, .token alsoToken walked, matched⟩
      | node isNode _ _ => cases isToken.symm.trans isNode
  | node isNode _ _ within behind =>
      obtain ⟨place, rest, first, others, rfl⟩ := List.forall₂_cons_left_iff.mp same
      obtain ⟨events, walked, matched⟩ := behind others
      cases first with
      | token isToken _ => cases isToken.symm.trans isNode
      | node alsoHere alsoNode same =>
          cases isNode.symm.trans alsoHere
          obtain ⟨inside, walkedInside, matchedInside⟩ := within (alike _ _ same)
          exact ⟨_, .node alsoNode walkedInside walked,
            .cons (.enter same) (List.rel_append matchedInside (.cons (.leave same) matched))⟩

theorem Walk.related
    {related : Item → Other → Prop}
    (alike : ∀ node other, related node other →
      List.Forall₂ (Alike branching elsewhere related) (branching.children node)
        (elsewhere.children other))
    {node : Item}
    {events : List (WalkEvent Item)}
    (walk : branching.Walk node events)
    {other : Other}
    (same : related node other) :
    ∃ others, elsewhere.Walk other others ∧
      List.Forall₂ (WalkEvent.Related related) events others := by
  obtain ⟨below, inside, rfl⟩ := walk
  obtain ⟨others, walked, matched⟩ := inside.related alike (alike node other same)
  exact ⟨_, ⟨others, walked, rfl⟩,
    .cons (.enter same) (List.rel_append matched (.cons (.leave same) .nil))⟩

end Branching

end LuaFold
