import LuaFold.Proofs.Tree.Arena

/-!
# Nodes of an arena that is building

The nodes that are open have numbers of their own, and only they may still have no reach.  What
can be read from the arena stays the same with every step, for a node that was closed is not
changed any more.  Every node comes behind those stored before, so the first of those in no other
node has number zero.
-/

namespace LuaFold

/-- A stored node without what is known about its tokens. -/
def StoredNode.bare {Known : Type} (node : StoredNode Known) : StoredNode Unit :=
  ⟨node.parent?, node.kind, node.start, node.count, ()⟩

/-- Stored nodes that differ only in their reach read the same otherwise. -/
theorem StoredNode.getElem?_of_bare
    {Known Other Read : Type}
    {nodes : List (StoredNode Known)}
    {others : List (StoredNode Other)}
    (same : nodes.map bare = others.map bare)
    (read : StoredNode Unit → Read)
    (index : Nat) :
    nodes[index]?.map (fun node => read node.bare) =
      others[index]?.map fun node => read node.bare := by
  simpa [Function.comp_def] using congrArg (fun bare => bare[index]?.map read) same

/-- The numbers of the nodes without a parent. -/
def rootIndices (parents : List (Option Nat)) : List Nat :=
  (parents.zipIdx.filter fun placed => placed.1.isNone).map Prod.snd

theorem rootIndices_append
    (parents : List (Option Nat))
    (parent? : Option Nat) :
    rootIndices (parents ++ [parent?]) =
      rootIndices parents ++ if parent?.isNone then [parents.length] else [] := by
  cases parent? <;> simp [rootIndices, List.zipIdx_append]

namespace ArenaBuilder

/-- Filling in what nodes reach over changes nothing else in them. -/
theorem map_bare_fill
    (reach : Reach)
    (opened : List OpenNode)
    (nodes : List (StoredNode (Option Reach))) :
    (fill reach opened nodes).map StoredNode.bare = nodes.map StoredNode.bare := by
  induction opened generalizing nodes with
  | nil => rfl
  | cons inner outer ih =>
      rw [fill]
      split
      · rfl
      · next node found =>
        split
        · rfl
        · rw [ih]
          refine List.ext_getElem? fun index => ?_
          rw [List.getElem?_map, List.getElem?_map, List.getElem?_set]
          split
          · next same =>
            subst same
            obtain ⟨inside, _⟩ := List.getElem?_eq_some_iff.mp found
            rw [if_pos inside, found]
            rfl
          · rfl

/-- A node of which it is known what it reaches over is not changed. -/
theorem getElem?_fill
    (reach : Reach)
    (opened : List OpenNode)
    {nodes : List (StoredNode (Option Reach))}
    {index : Nat}
    {node : StoredNode (Option Reach)}
    (found : nodes[index]? = some node)
    (known : node.reach.isSome) :
    (fill reach opened nodes)[index]? = some node := by
  induction opened generalizing nodes with
  | nil => exact found
  | cons inner outer ih =>
      rw [fill]
      split
      · exact found
      · next other isOther =>
        split
        · exact found
        · next unknown =>
          refine ih ?_
          have different : inner.index ≠ index := by
            rintro rfl
            cases found.symm.trans isOther
            exact unknown known
          rwa [List.getElem?_set_ne different]

/-- The numbers of the open nodes, innermost first. -/
def numbers (builder : ArenaBuilder) : List Nat :=
  builder.opened.map OpenNode.index

/-- The parents of all nodes. -/
def parents (builder : ArenaBuilder) : List (Option Nat) :=
  builder.arena.nodes.map StoredNode.parent?

/-- What can be read from an arena that is building. -/
def view (builder : ArenaBuilder) : ArenaView where
  tokens := builder.arena.tokens
  children := builder.arena.children
  kind? index := builder.arena.nodes[index]?.map StoredNode.kind
  closed? index :=
    if index ∈ builder.numbers then none
    else builder.arena.nodes[index]?.map fun node => (node.start, node.count)

theorem closed?_eq_some
    {builder : ArenaBuilder}
    {index : Nat}
    {place : Nat × Nat} :
    builder.view.closed? index = some place ↔ index ∉ builder.numbers ∧
      builder.arena.nodes[index]?.map (fun node => (node.start, node.count)) = some place := by
  simp only [view]
  split
  · next opened => simp [opened]
  · next closed => simp [closed]

@[simp]
theorem map_index_addChild
    (child : Child)
    (opened : List OpenNode) :
    (addChild child opened).map OpenNode.index = opened.map OpenNode.index := by
  cases opened <;> rfl

/-- Open nodes are stored under different numbers, and closed nodes know what they reach over. -/
structure Numbered (builder : ArenaBuilder) : Prop where
  bounded : ∀ number ∈ builder.numbers, number < builder.parents.length
  distinct : builder.numbers.Nodup
  reached : ∀ index node, builder.arena.nodes[index]? = some node → index ∉ builder.numbers →
    node.reach.isSome
  origin : builder.parents ≠ [] → (rootIndices builder.parents).head? = some 0
  spare : ∀ buffer ∈ builder.spare, buffer = []

theorem Numbered.new (text : Text) : Numbered (.new text) := by
  refine ⟨?_, List.nodup_nil, ?_, fun nonempty => absurd rfl nonempty, ?_⟩ <;>
    simp [ArenaBuilder.new, numbers]

section Start

variable (builder : ArenaBuilder) (kind : Kind)

theorem numbers_start :
    (builder.start kind).numbers = builder.parents.length :: builder.numbers := by
  simp [ArenaBuilder.start, numbers, parents]

theorem parents_start :
    (builder.start kind).parents = builder.parents ++ [builder.numbers.head?] := by
  simp [ArenaBuilder.start, numbers, parents]

theorem getElem?_start
    {index : Nat}
    {node : StoredNode (Option Reach)}
    (found : builder.arena.nodes[index]? = some node) :
    (builder.start kind).arena.nodes[index]? = some node ∧ index ≠ builder.parents.length := by
  obtain ⟨inside, _⟩ := List.getElem?_eq_some_iff.mp found
  refine ⟨(List.getElem?_append_left inside).trans found, ?_⟩
  rw [parents, List.length_map]
  exact Nat.ne_of_lt inside

/-- A node that is opened comes behind those stored before. -/
theorem grows_start : builder.view.Grows (builder.start kind).view := by
  refine ⟨List.prefix_refl _, List.prefix_refl _, fun index kind found => ?_,
    fun index place found => ?_⟩
  · obtain ⟨node, isNode, same⟩ := Option.map_eq_some_iff.mp found
    exact Option.map_eq_some_iff.mpr ⟨node, (getElem?_start builder _ isNode).1, same⟩
  · obtain ⟨closed, found⟩ := closed?_eq_some.mp found
    obtain ⟨node, isNode, same⟩ := Option.map_eq_some_iff.mp found
    obtain ⟨kept, different⟩ := getElem?_start builder kind isNode
    refine closed?_eq_some.mpr ⟨?_, Option.map_eq_some_iff.mpr ⟨node, kept, same⟩⟩
    rw [numbers_start, List.mem_cons, not_or]
    exact ⟨different, closed⟩

theorem Numbered.start
    {builder : ArenaBuilder}
    (numbered : builder.Numbered)
    (kind : Kind) :
    (builder.start kind).Numbered := by
  refine ⟨?_, ?_, ?_, ?_, ?_⟩
  · intro number member
    rw [numbers_start] at member
    rw [parents_start, List.length_append, List.length_singleton]
    rcases List.mem_cons.mp member with rfl | earlier
    · exact Nat.lt_succ_self _
    · exact Nat.lt_succ_of_lt (numbered.bounded number earlier)
  · rw [numbers_start]
    exact List.nodup_cons.mpr
      ⟨fun member => Nat.lt_irrefl _ (numbered.bounded _ member), numbered.distinct⟩
  · intro index node found notOpened
    rw [numbers_start, List.mem_cons, not_or, parents, List.length_map] at notOpened
    obtain ⟨bound, _⟩ := List.getElem?_eq_some_iff.mp found
    have inside : index < builder.arena.nodes.length := by
      simp only [ArenaBuilder.start, List.length_append, List.length_singleton] at bound
      omega
    exact numbered.reached index node
      ((List.getElem?_append_left inside).symm.trans found) notOpened.2
  · intro _
    rw [parents_start, rootIndices_append]
    cases parents : builder.parents with
    | nil =>
        -- the first node of all lies in no other one
        have none : builder.numbers = [] := by
          refine List.eq_nil_iff_forall_not_mem.mpr fun number member => ?_
          have bound := numbered.bounded number member
          simp [parents] at bound
        rw [none]
        rfl
    | cons parent? others =>
        have origin := numbered.origin (by simp [parents])
        rw [parents] at origin
        rw [List.head?_append, origin]
        rfl
  · exact fun buffer member => numbered.spare buffer (List.mem_of_mem_tail member)

end Start

section Leave

variable {builder : ArenaBuilder} {inner : OpenNode} {outer : List OpenNode}

theorem getElem?_leave_self
    (builder : ArenaBuilder)
    (inner : OpenNode)
    (outer : List OpenNode) :
    (builder.leave inner outer).arena.nodes[inner.index]? =
      builder.arena.nodes[inner.index]?.map fun node =>
        node.close builder.arena.children.length inner.children.length
          (builder.arena.tokens.length - 1) := by
  simp [leave]

theorem getElem?_leave_of_ne
    (builder : ArenaBuilder)
    (outer : List OpenNode)
    {index : Nat}
    (different : index ≠ inner.index) :
    (builder.leave inner outer).arena.nodes[index]? = builder.arena.nodes[index]? := by
  simp [leave, different.symm]

theorem parents_leave
    (builder : ArenaBuilder)
    (inner : OpenNode)
    (outer : List OpenNode) :
    (builder.leave inner outer).parents = builder.parents := by
  refine List.ext_getElem? fun index => ?_
  rw [parents, parents, List.getElem?_map, List.getElem?_map]
  by_cases isInner : index = inner.index
  · subst isInner
    rw [getElem?_leave_self, Option.map_map]
    rfl
  · rw [getElem?_leave_of_ne builder outer isInner]

variable (opened : builder.opened = inner :: outer)
include opened

theorem numbers_leave : builder.numbers = inner.index :: (builder.leave inner outer).numbers := by
  rw [numbers, opened]
  rfl

/-- A node that is closed keeps its kind, and closed nodes are not changed. -/
theorem grows_leave : builder.view.Grows (builder.leave inner outer).view := by
  refine ⟨List.prefix_refl _, List.prefix_append _ _, fun index kind found => ?_,
    fun index place found => ?_⟩
  · obtain ⟨node, isNode, same⟩ := Option.map_eq_some_iff.mp found
    refine Option.map_eq_some_iff.mpr ?_
    by_cases isInner : index = inner.index
    · subst isInner
      refine ⟨node.close builder.arena.children.length inner.children.length
        (builder.arena.tokens.length - 1), ?_, same⟩
      rw [getElem?_leave_self, isNode]
      rfl
    · exact ⟨node, by rw [getElem?_leave_of_ne builder outer isInner, isNode], same⟩
  · obtain ⟨closed, found⟩ := closed?_eq_some.mp found
    rw [numbers_leave opened, List.mem_cons, not_or] at closed
    refine closed?_eq_some.mpr ⟨closed.2, ?_⟩
    rw [getElem?_leave_of_ne builder outer closed.1, found]

/-- The node that was closed has the children that were kept with it. -/
theorem hasNode_leave
    (numbered : builder.Numbered)
    {kind : Kind}
    (isKind : builder.view.kind? inner.index = some kind)
    (forward : ∀ child, Child.node child ∈ inner.children → inner.index < child) :
    (builder.leave inner outer).view.HasNode kind inner.children inner.index := by
  have distinct := numbered.distinct
  rw [numbers_leave opened, List.nodup_cons] at distinct
  obtain ⟨node, isNode, _⟩ := Option.map_eq_some_iff.mp isKind
  refine ⟨(grows_leave opened).kind? _ _ isKind, ⟨builder.arena.children.length, ?_, ?_⟩, forward⟩
  · refine closed?_eq_some.mpr ⟨distinct.1, ?_⟩
    rw [getElem?_leave_self, isNode]
    rfl
  · exact ⟨[], (List.append_nil _).trans List.drop_left.symm⟩

theorem Numbered.leave (numbered : builder.Numbered) : (builder.leave inner outer).Numbered := by
  obtain ⟨bounded, distinct, reached, origin, spare⟩ := numbered
  rw [numbers_leave opened] at bounded distinct reached
  rw [← parents_leave builder inner outer] at bounded origin
  refine ⟨fun number member => bounded number (List.mem_cons_of_mem _ member),
    (List.nodup_cons.mp distinct).2, fun index node found notOpened => ?_, origin,
    fun buffer member => ?_⟩
  · by_cases isInner : index = inner.index
    · subst isInner
      rw [getElem?_leave_self] at found
      obtain ⟨earlier, _, rfl⟩ := Option.map_eq_some_iff.mp found
      rfl
    · rw [getElem?_leave_of_ne builder outer isInner] at found
      exact reached index node found (List.not_mem_cons_of_ne_of_not_mem isInner notOpened)
  · rcases List.mem_cons.mp member with rfl | earlier
    · rfl
    · exact spare buffer earlier

end Leave

section Put

/-- Tokens are stored that lie in the open nodes, and one of them is added to the innermost. -/
def put
    (builder : ArenaBuilder)
    (stored : List StoredToken)
    (offset : Nat)
    (reach : Reach)
    (index : Nat) :
    ArenaBuilder :=
  ⟨⟨builder.arena.text, builder.arena.tokens ++ stored,
      fill reach builder.opened builder.arena.nodes, builder.arena.children⟩,
    addChild (.token index) builder.opened, builder.spare, offset⟩

variable (builder : ArenaBuilder) (stored : List StoredToken) (offset : Nat) (reach : Reach)
  (index : Nat)

theorem numbers_put : (builder.put stored offset reach index).numbers = builder.numbers :=
  map_index_addChild _ _

/-- What does not depend on the reach of a node can be read from it as before. -/
theorem getElem?_put
    {Read : Type}
    (read : StoredNode Unit → Read)
    (place : Nat) :
    (builder.put stored offset reach index).arena.nodes[place]?.map (fun node => read node.bare) =
      builder.arena.nodes[place]?.map fun node => read node.bare :=
  StoredNode.getElem?_of_bare (map_bare_fill reach builder.opened builder.arena.nodes) read place

theorem parents_put : (builder.put stored offset reach index).parents = builder.parents := by
  refine List.ext_getElem? fun place => ?_
  rw [parents, parents, List.getElem?_map, List.getElem?_map]
  exact getElem?_put builder stored offset reach index StoredNode.parent? place

/-- Tokens come behind those stored before. -/
theorem grows_put : builder.view.Grows (builder.put stored offset reach index).view := by
  refine ⟨List.prefix_append _ _, List.prefix_refl _, fun place kind found => ?_,
    fun place range found => ?_⟩
  · exact (getElem?_put builder stored offset reach index StoredNode.kind place).trans found
  · obtain ⟨closed, found⟩ := closed?_eq_some.mp found
    refine closed?_eq_some.mpr ⟨by rwa [numbers_put], ?_⟩
    exact (getElem?_put builder stored offset reach index (fun node => (node.start, node.count))
      place).trans found

variable {builder}

theorem Numbered.put (numbered : builder.Numbered) :
    (builder.put stored offset reach index).Numbered := by
  obtain ⟨bounded, distinct, reached, origin, spare⟩ := numbered
  rw [← numbers_put builder stored offset reach index] at bounded distinct reached
  rw [← parents_put builder stored offset reach index] at bounded origin
  refine ⟨bounded, distinct, fun place node found notOpened => ?_, origin, spare⟩
  have same := getElem?_put builder stored offset reach index id place
  rw [found] at same
  obtain ⟨earlier, isEarlier, _⟩ := Option.map_eq_some_iff.mp same.symm
  have known := reached place earlier isEarlier notOpened
  have kept := getElem?_fill reach builder.opened isEarlier known
  cases found.symm.trans kept
  exact known

end Put

end ArenaBuilder

end LuaFold
