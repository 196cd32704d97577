import LuaFold.Proofs.Fold.Validity
import LuaFold.Proofs.Tree.Lineage
import LuaFold.Proofs.Tree.Preorder
import LuaFold.Proofs.Tree.Remembered
import LuaFold.Proofs.Tree.Representation

/-!
# Traversals of a tree agree

A tree that was built is walked in its arena, by the numbers of nodes, and as a tree of elements,
by nodes that know where they stand.  Both branch alike, so their walks enter and leave the same
nodes.  In the arena each number is entered once, and from a node those are entered that links to
parents lead back from.

Regions are collected with a stack of pending nodes.  They are the closed ones among the function
definitions that a walk from the root enters, in the same order.
-/

namespace LuaFold

/-! ## Walks of elements -/

/-- The event of a visit, if it is made to a node. -/
def Visit.event? : Visit → Option (WalkEvent Node)
  | .enter node => some (.enter node)
  | .token _ _ => none
  | .leave node => some (.leave node)

theorem Visit.entered?_eq_bind (visit : Visit) :
    visit.entered? = visit.event?.bind WalkEvent.entered? := by
  cases visit with
  | enter node => rfl
  | token offset inner => rfl
  | leave node => rfl

namespace Element

mutual

theorem depthFirst_walked
    (offset : Nat)
    {rest : List (Nat × Element)}
    {events : List (WalkEvent Node)}
    (others : Node.branching.DepthFirst rest events) :
    (element : Element) →
      Node.branching.DepthFirst ((offset, element) :: rest)
        ((element.walked offset).filterMap Visit.event? ++ events)
  | .token inner => by
      rw [walked]
      exact .token rfl others
  | .node kind extent children => by
      have below := depthFirst_allWalked offset children
      have listed : ((node kind extent children).walked offset).filterMap Visit.event? ++ events =
          .enter ⟨offset, kind, extent, children⟩ ::
            ((allWalked offset children).filterMap Visit.event? ++
              .leave ⟨offset, kind, extent, children⟩ :: events) := by
        simp [walked, Visit.event?]
      rw [listed]
      exact .node rfl below others

/-- Elements laid end to end are walked as they are visited, tokens apart. -/
theorem depthFirst_allWalked (offset : Nat) :
    (elements : List Element) →
      Node.branching.DepthFirst (Text.layOut Element.width offset elements)
        ((allWalked offset elements).filterMap Visit.event?)
  | [] => .nil
  | first :: rest => by
      have there := depthFirst_allWalked (offset + first.width) rest
      rw [Text.layOut_cons, allWalked, List.filterMap_append]
      exact depthFirst_walked offset there first

end

end Element

namespace Node

/-- The events of the visits to a node and to what is below it. -/
def events (node : Node) : List (WalkEvent Node) :=
  node.visits.filterMap Visit.event?

theorem walk_events (node : Node) : branching.Walk node node.events := by
  refine ⟨_, Element.depthFirst_allWalked node.offset node.children, ?_⟩
  rw [events, visits, Element.visits_eq]
  simp [Element.allWalked, Element.walked, Visit.event?]

theorem entered_events (node : Node) : WalkEvent.entered node.events = node.preorder := by
  rw [WalkEvent.entered, events, List.filterMap_filterMap]
  refine List.filterMap_congr fun visit _ => ?_
  exact visit.entered?_eq_bind.symm

end Node

/-! ## Walks in an arena -/

theorem Arena.node_mem_children
    {Known : Type}
    (arena : Arena Known)
    {outer inner : Nat} :
    arena.branching.IsChild outer inner ↔ Child.node inner ∈ arena.branching.children outer := by
  rw [Branching.IsChild, Branching.childNodes, List.mem_filterMap]
  constructor
  · rintro ⟨child, listed, isNode⟩
    cases child with
    | node number => exact Option.some.inj isNode ▸ listed
    | token number => cases isNode
  · exact fun listed => ⟨_, listed, rfl⟩

/-- The nodes of a piece are walked in the order of their numbers. -/
theorem Laid.depthFirst
    {arena : Arena Reach}
    {parent? : Option Nat}
    {start finish : Place}
    {calls : List Call}
    {kids : List Child}
    (laid : Laid arena.archive parent? start calls kids finish) :
    ∃ events, arena.branching.DepthFirst kids events ∧
      WalkEvent.entered events = List.range' start.node (finish.node - start.node) := by
  induction laid with
  | nil => exact ⟨[], .nil, by simp⟩
  | token before stored ih =>
      obtain ⟨events, walk, entered⟩ := ih
      refine ⟨events ++ [], walk.append (.token rfl .nil), ?_⟩
      simpa [Place.read] using entered
  | @node parent? start here there calls inner kids own kind before inside stored listed ih
      nested =>
      obtain ⟨events, walk, entered⟩ := ih
      obtain ⟨below, within, enteredBelow⟩ := nested
      have found : arena.nodes[here.node]? = _ := stored
      have children : arena.branching.children here.node = own := by
        simp [Arena.branching, found, Arena.nodeChildren_of_prefix listed]
      refine ⟨events ++ (.enter here.node :: (below ++ [.leave here.node])),
        walk.append (.node rfl (children ▸ within) .nil), ?_⟩
      rw [Place.leave, range'_split before.le.1 inside.le.1]
      simp [entered, enteredBelow, Place.enter]

namespace Arena

variable {arena : Arena Reach} {text : Text} {calls : List Call}

/-- Every node of an arena that represents calls is walked, and no number is entered twice. -/
theorem LaysOut.exists_walk
    (laysOut : arena.LaysOut text calls)
    {number : Nat}
    (stored : number < arena.nodes.length) :
    ∃ events, arena.branching.Walk number events ∧ (WalkEvent.entered events).Nodup := by
  obtain ⟨⟨kids, laid⟩, tokens, split, _⟩ := laysOut
  have opens : arena.Anchored .origin := by
    simp [Anchored, start?, stop?, split, Place.origin]
  obtain ⟨node, found, here, inner, own, there, rfl, _, inside, children, _⟩ :=
    laid.holds opens (Nat.zero_le number) stored
  obtain ⟨below, walk, entered⟩ := inside.depthFirst
  have read : arena.branching.children here.node = own := by
    simp [branching, found, children]
  refine ⟨_, ⟨below, read ▸ walk, rfl⟩, ?_⟩
  simp only [WalkEvent.entered_enter, WalkEvent.entered_append, WalkEvent.entered_leave,
    WalkEvent.entered_nil, List.append_nil, entered]
  refine List.nodup_cons.mpr ⟨fun member => ?_, List.nodup_range'⟩
  have above := (List.mem_range'_1.mp member).1
  exact absurd above (Nat.not_succ_le_self _)

/-- In an arena that represents calls, the child nodes of a node have a link back to it. -/
theorem Represents.isChild_iff
    (represents : arena.Represents text calls)
    {outer inner : Nat} :
    arena.branching.IsChild outer inner ↔ arena.parent? (.node inner) = some outer := by
  rw [node_mem_children]
  constructor
  · intro listed
    cases found : arena.nodes[outer]? with
    | none => simp [branching, found] at listed
    | some node =>
        simp only [branching, found, Option.map_some, Option.getD_some] at listed
        have counted := represents.inverse outer node found (.node inner)
        by_cases holds : Child.node inner ∈ Call.items 0 1 calls ∧
            arena.parent? (.node inner) = some outer
        · exact holds.2
        · rw [if_neg holds] at counted
          exact absurd listed (List.count_eq_zero.mp counted)
  · intro isParent
    have numbered : Child.node inner ∈ Call.items 0 1 calls := by
      refine (represents.numbered inner).mpr ?_
      obtain ⟨node, found, _⟩ := Option.bind_eq_some_iff.mp isParent
      exact (List.getElem?_eq_some_iff.mp found).1
    have inside := represents.parents _ numbered outer isParent
    have found := List.getElem?_eq_getElem inside
    have counted := represents.inverse outer _ found (.node inner)
    rw [if_pos ⟨numbered, isParent⟩] at counted
    simp only [branching, found, Option.map_some, Option.getD_some]
    exact List.count_pos_iff.mp (by omega)

end Arena

/-! ## Both walks -/

/-- A node of a tree of elements is stored in an arena under a number. -/
def Node.StoredIn {Known : Type} (arena : Arena Known) (node : Node) (number : Nat) : Prop :=
  node.element.StoredAs arena.view (.node number)

section Stored

variable {Known : Type} {arena : Arena Known}

theorem Arena.children_of_hasNode
    {kind : Kind}
    {children : List Child}
    {index : Nat}
    (has : arena.view.HasNode kind children index) :
    arena.branching.children index = children := by
  obtain ⟨node, found, _, listed⟩ := exists_of_hasNode has
  simp only [branching, found, Option.map_some, Option.getD_some, listed]

/-- Elements laid end to end branch like the children that they are stored as. -/
theorem Element.AllStoredAs.alike
    {elements : List Element}
    {children : List Child}
    (stored : AllStoredAs arena.view elements children)
    (offset : Nat) :
    List.Forall₂ (Branching.Alike Node.branching arena.branching (Node.StoredIn arena))
      (Text.layOut Element.width offset elements) children := by
  induction elements generalizing offset children with
  | nil =>
      cases children with
      | nil => exact .nil
      | cons child rest => exact stored.elim
  | cons first rest ih =>
      obtain ⟨child, others, rfl, here, there⟩ := allStoredAs_cons.mp stored
      rw [Text.layOut_cons]
      refine .cons ?_ (ih there _)
      cases first with
      | token inner =>
          cases child with
          | token number => exact .token rfl rfl
          | node number => exact here.elim
      | node kind extent inside =>
          cases child with
          | token number => exact here.elim
          | node number => exact .node rfl rfl here

/-- A stored node has alike children in the arena. -/
theorem Node.StoredIn.alike
    {node : Node}
    {number : Nat}
    (stored : node.StoredIn arena number) :
    List.Forall₂ (Branching.Alike Node.branching arena.branching (Node.StoredIn arena))
      (Node.branching.children node) (arena.branching.children number) := by
  obtain ⟨children, has, inside⟩ := stored
  rw [Arena.children_of_hasNode has]
  exact inside.alike node.offset

end Stored

/-! ## Collections -/

/-- The region of a definition, whether or not it is closed. -/
def FunctionDefinition.region (definition : FunctionDefinition) : Region :=
  ⟨definition.name?.getD "", definition.span⟩

theorem Region.ofDefinition?_eq (definition : FunctionDefinition) :
    ofDefinition? definition =
      (Option.guard FunctionDefinition.isClosed definition).map FunctionDefinition.region := by
  cases closed : definition.isClosed with
  | false => simp [ofDefinition?, Option.guard, closed]
  | true => simp [ofDefinition?, Option.guard, closed, FunctionDefinition.region]

/-- The regions of nodes are those of the closed definitions among them. -/
theorem Region.filterMap_ofNode? (nodes : List Node) :
    nodes.filterMap ofNode? =
      ((nodes.filterMap FunctionDefinition.ofNode?).filter FunctionDefinition.isClosed).map
        FunctionDefinition.region := by
  rw [← List.filterMap_eq_filter, List.map_filterMap, List.filterMap_filterMap]
  refine List.filterMap_congr fun node _ => ?_
  rw [ofNode?]
  refine congrArg (Option.bind _) (funext fun definition => ?_)
  exact ofDefinition?_eq definition

/-- The regions of a tree are those of the closed definitions in and below its root. -/
theorem Region.ofTree_eq
    {tree : SyntaxTree}
    {root : Node}
    (isRoot : tree.root? = some root) :
    ofTree tree = (root.definitions.filter FunctionDefinition.isClosed).map
      FunctionDefinition.region := by
  rw [ofTree, collect_eq, isRoot, Node.definitions, ← filterMap_ofNode?]
  simp

/-- An arena that holds a tree stores the root of the tree as its first node. -/
theorem Arena.Holds.exists_root
    {Known : Type}
    {arena : Arena Known}
    {tree : SyntaxTree}
    (holds : arena.Holds tree) :
    ∃ root, tree.root? = some root ∧ root.StoredIn arena 0 := by
  obtain ⟨stored, origin⟩ := holds
  obtain ⟨rest, numbers⟩ := List.head?_eq_some_iff.mp origin
  rw [numbers, List.map_cons] at stored
  obtain ⟨roots⟩ := tree
  cases roots with
  | nil => exact stored.elim
  | cons first others =>
      cases first with
      | token inner => exact stored.1.elim
      | node kind extent children => exact ⟨⟨0, kind, extent, children⟩, rfl, stored.1⟩

/--
The traversals of a built tree agree.  Advanced from any node of the arena, a walk is the
recursive one and comes to an end: its events are balanced, and it enters just the nodes from
which links to parents lead back, each of them once; a stack of pending nodes takes them in the
same order.  The walk from a node of the tree of elements is the recursive one too, and from the
root both walks visit the same nodes.  The definitions are
those that the walk from the root enters, and what is collected with a stack of pending nodes are
the names and spans of the closed ones in the same order.
-/
theorem traversals_agree
    {text : Text}
    {calls : List Call}
    {arena : Arena Reach}
    (built : Arena.build text calls = .ok arena) :
    (∀ number < arena.nodes.length, ∃ events, arena.branching.Walk number events ∧
      Preorder.Yields arena.branching (.start number) events ∧
      WalkEvent.Balanced events ∧
      (WalkEvent.entered events).Nodup ∧
      (∀ other, other ∈ WalkEvent.entered events ↔
        Relation.ReflTransGen (fun outer inner => arena.parent? (.node inner) = some outer)
          number other) ∧
      arena.branching.Collects some ([number], []) (WalkEvent.entered events)) ∧
    (∀ node : Node, Node.branching.Walk node node.events ∧
      Preorder.Yields Node.branching (.start node) node.events ∧
      WalkEvent.Balanced node.events) ∧
    ∃ tree root,
      SyntaxTree.build text calls = .ok tree ∧
      tree.root? = some root ∧
      (∃ events, Preorder.Yields arena.branching (.start 0) events ∧
        List.Forall₂ (WalkEvent.Related (Node.StoredIn arena)) root.events events) ∧
      root.definitions =
        (WalkEvent.entered root.events).filterMap FunctionDefinition.ofNode? ∧
      Node.branching.Collects Region.ofNode? ([root], []) (Region.ofTree tree) ∧
      Region.ofTree tree = (root.definitions.filter FunctionDefinition.isClosed).map
        fun definition => ⟨definition.name?.getD "", definition.span⟩ := by
  have laysOut := Arena.laysOut_of_build built
  have links : arena.branching.IsChild =
      fun outer inner => arena.parent? (.node inner) = some outer :=
    funext₂ fun _ _ => propext laysOut.represents.isChild_iff
  obtain ⟨tree, isTree, holds⟩ := (built ▸ Arena.build_agree text calls).exists_of_ok
  obtain ⟨root, isRoot, stored⟩ := holds.exists_root
  refine ⟨fun number inside => ?_, fun node => ?_, tree, root, isTree, isRoot, ?_, ?_, ?_, ?_⟩
  · obtain ⟨events, walk, once⟩ := laysOut.exists_walk inside
    refine ⟨events, walk, Preorder.yields_of_walk walk, walk.balanced, once, fun other => ?_, ?_⟩
    · rw [walk.mem_entered, links]
    · have taken : arena.branching.Collects some ([number], []) _ :=
        Branching.collects_of_walk walk
      rwa [List.filterMap_some] at taken
  · exact ⟨node.walk_events, Preorder.yields_of_walk node.walk_events, node.walk_events.balanced⟩
  · obtain ⟨events, walk, same⟩ :=
      root.walk_events.related (fun _ _ isStored => isStored.alike) stored
    exact ⟨events, Preorder.yields_of_walk walk, same⟩
  · rw [Node.entered_events, Node.definitions]
  · have collected : Node.branching.Collects Region.ofNode? ([root], []) _ :=
      Branching.collects_of_walk root.walk_events
    rw [Node.entered_events] at collected
    have listed : Region.ofTree tree = root.preorder.filterMap Region.ofNode? := by
      rw [Region.ofTree, Region.collect_eq, isRoot]
      simp
    rwa [listed]
  · exact Region.ofTree_eq isRoot

/-- A definition in a chunk, with a body that is closed. -/
theorem traversals_agree_closed :
    let text := "function end".toList
    let calls : List Call :=
      [.start .chunk, .start .functionExpr, .token [] .functionKw 8 [⟨.whitespace, 1⟩],
        .start .funcBody, .token [] .endKw 3 [], .finish, .finish, .token [] .eof 0 [], .finish]
    let arena : Arena Reach :=
      ⟨text,
        [⟨.tombstone, 0, 0, 0, 0⟩, ⟨.functionKw, 8, 1, 0, 1⟩, ⟨.whitespace, 9, 1, 0, 0⟩,
          ⟨.endKw, 12, 2, 0, 0⟩, ⟨.eof, 12, 0, 0, 0⟩],
        [⟨none, .chunk, 3, 2, ⟨1, 4⟩⟩, ⟨some 0, .functionExpr, 1, 2, ⟨1, 3⟩⟩,
          ⟨some 1, .funcBody, 0, 1, ⟨3, 3⟩⟩],
        [.token 3, .token 1, .node 2, .node 1, .token 4]⟩
    Arena.build text calls = .ok arena ∧
      ∃ tree root, SyntaxTree.build text calls = .ok tree ∧ tree.root? = some root ∧
        Node.branching.Collects Region.ofNode? ([root], []) (Region.ofTree tree) := by
  intro text calls arena
  have built : Arena.build text calls = .ok arena := by rfl
  obtain ⟨_, _, tree, root, isTree, isRoot, _, _, collected, _⟩ := traversals_agree built
  exact ⟨built, tree, root, isTree, isRoot, collected⟩

end LuaFold
