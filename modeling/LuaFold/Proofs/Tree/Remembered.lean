import LuaFold.Proofs.Tree.ArenaBuilder

/-!
# Arenas remember their calls

A list of calls builds an arena exactly when it builds a tree, and the faults that refuse it are
the same ones; a node that is closed always knows what it reaches over.  The roots of the tree
are stored in the arena under the numbers of its root nodes, in order.  So where there is one
root, the walk from the first node retraces the calls.
-/

namespace LuaFold

namespace ArenaBuilder

variable {first : ArenaBuilder} {second : Builder}

/-- Both builders perform a call, or refuse it. -/
theorem Simulates.perform
    (simulates : Simulates first second)
    (call : Call) :
    Agree Simulates (first.perform call) (second.perform call) := by
  cases call with
  | start kind => exact simulates.start kind
  | token leading kind length trailing => exact simulates.token leading kind length trailing
  | finish => exact simulates.close

/-- Both builders perform a list of calls, or refuse the same one of them. -/
theorem Simulates.foldlM
    (simulates : Simulates first second)
    (calls : List Call) :
    Agree Simulates (calls.foldlM ArenaBuilder.perform first)
      (calls.foldlM Builder.perform second) := by
  induction calls generalizing first second with
  | nil => exact .accepted simulates
  | cons call calls ih =>
      rw [List.foldlM_cons, List.foldlM_cons]
      exact (simulates.perform call).bind fun _ _ next => ih next

/-- Nodes that all know what they reach over are completed, and nothing else changes in them. -/
theorem mapM_complete
    {nodes : List (StoredNode (Option Reach))}
    (reached : ∀ node ∈ nodes, node.reach.isSome) :
    ∃ completed, nodes.mapM complete = .ok completed ∧
      completed.map StoredNode.bare = nodes.map StoredNode.bare := by
  induction nodes with
  | nil => exact ⟨[], rfl, rfl⟩
  | cons node nodes ih =>
      obtain ⟨completed, others, same⟩ := ih fun other member =>
        reached other (List.mem_cons_of_mem _ member)
      obtain ⟨reach, known⟩ := Option.isSome_iff_exists.mp (reached node List.mem_cons_self)
      refine ⟨⟨node.parent?, node.kind, node.start, node.count, reach⟩ :: completed, ?_, ?_⟩
      · rw [List.mapM_cons, others, complete, known]
        rfl
      · rw [List.map_cons, List.map_cons, same]
        rfl

end ArenaBuilder

/-- The roots of a tree are stored under the numbers of the root nodes, the first one under zero. -/
structure Arena.Holds {Known : Type} (arena : Arena Known) (tree : SyntaxTree) : Prop where
  roots : Element.AllStoredAs arena.view tree.roots
    ((rootIndices (arena.nodes.map StoredNode.parent?)).map Child.node)
  origin : (rootIndices (arena.nodes.map StoredNode.parent?)).head? = some 0

namespace ArenaBuilder

variable {first : ArenaBuilder} {second : Builder}

namespace Simulates

variable (simulates : Simulates first second)
include simulates

/-- Once all nodes are closed, the roots are stored under the numbers of the root nodes. -/
theorem roots_of_closed (opened : first.opened = []) :
    Element.AllStoredAs first.view second.roots.reverse
      ((rootIndices first.parents).map Child.node) := by
  obtain ⟨closed, indices, stored⟩ := simulates.roots
  have same : rootIndices first.parents = closed := by
    simpa [numbers, opened] using indices
  rwa [same]

/-- There is a root exactly when there is a node at all. -/
theorem isEmpty_roots (opened : first.opened = []) :
    second.roots.isEmpty = first.arena.nodes.isEmpty := by
  have empty : first.arena.nodes.isEmpty = first.parents.isEmpty := by
    rw [parents, List.isEmpty_map]
  have length := (simulates.roots_of_closed opened).length_eq
  rw [List.length_reverse, List.length_map] at length
  rw [empty, Bool.eq_iff_iff, List.isEmpty_iff, List.isEmpty_iff, ← List.length_eq_zero_iff,
    length, List.length_eq_zero_iff]
  constructor
  · refine fun none => Decidable.byContradiction fun nonempty => ?_
    have origin := simulates.numbered.origin nonempty
    rw [none] at origin
    cases origin
  · intro none
    rw [none]
    rfl

/-- The tokens stop at the offset, before what is left of the text. -/
theorem size_text : Text.size first.arena.text = first.offset + Text.size second.rest := by
  obtain ⟨before, whole, offset⟩ := simulates.aligned.whole
  rw [whole, Text.size_append, offset]

/-- A closed arena can be completed, and reads the same afterwards. -/
theorem complete (opened : first.opened = []) :
    ∃ completed, first.arena.nodes.mapM ArenaBuilder.complete = .ok completed ∧
      (⟨first.arena.text, first.arena.tokens, completed, first.arena.children⟩ :
        Arena Reach).view = first.view ∧
      completed.map StoredNode.parent? = first.parents := by
  have reached : ∀ node ∈ first.arena.nodes, node.reach.isSome := by
    intro node member
    obtain ⟨index, found⟩ := List.mem_iff_getElem?.mp member
    exact simulates.numbered.reached index node found (by simp [numbers, opened])
  obtain ⟨completed, accepted, same⟩ := mapM_complete reached
  refine ⟨completed, accepted, ?_, List.ext_getElem? fun index => ?_⟩
  · simp only [Arena.view, ArenaBuilder.view, numbers, opened, List.map_nil, List.not_mem_nil,
      if_false]
    congr 1
    · exact funext fun index => StoredNode.getElem?_of_bare same StoredNode.kind index
    · exact funext fun index =>
        StoredNode.getElem?_of_bare same (fun node => (node.start, node.count)) index
  · rw [parents, List.getElem?_map, List.getElem?_map]
    exact StoredNode.getElem?_of_bare same StoredNode.parent? index

/-- Both builders finish, or find the same fault. -/
theorem finish : Agree Arena.Holds first.finish second.finish := by
  have size := simulates.size_text
  rw [ArenaBuilder.finish, Builder.finish]
  rcases simulates.opened_cases with ⟨opened, also⟩ | ⟨_, _, _, _, _, opened, also⟩
  · rw [opened, also, simulates.isEmpty_roots opened]
    cases nodes : first.arena.nodes.isEmpty with
    | true => exact .refused _
    | false =>
        by_cases covered : second.rest = []
        · obtain ⟨completed, accepted, view, sameParents⟩ := simulates.complete opened
          have some : first.parents ≠ [] := by simpa [parents] using nodes
          have holds : Arena.Holds ⟨first.arena.text, first.arena.tokens, completed,
              first.arena.children⟩ ⟨second.roots.reverse⟩ := by
            refine ⟨?_, ?_⟩
            · rw [view, sameParents]
              exact simulates.roots_of_closed opened
            · rw [sameParents]
              exact simulates.numbered.origin some
          rw [covered, Text.size_nil, Nat.add_zero] at size
          simp only [size, covered, accepted, List.isEmpty_nil, Bool.not_true,
            Bool.false_eq_true, if_false, ne_eq, not_true_eq_false]
          exact .accepted holds
        · have short : first.offset ≠ Text.size first.arena.text := by
            have positive := Nat.pos_of_ne_zero (mt Text.size_eq_zero_iff.mp covered)
            omega
          rw [simulates.aligned.pushed, ← size]
          simpa [short, covered] using Agree.refused _
  · rw [opened, also]
    exact .refused _

end Simulates

end ArenaBuilder

/-- Calls build an arena exactly when they build a tree, which it then holds. -/
theorem Arena.build_agree
    (text : Text)
    (calls : List Call) :
    Agree Arena.Holds (Arena.build text calls) (SyntaxTree.build text calls) :=
  ((ArenaBuilder.Simulates.new text).foldlM calls).bind fun _ _ simulates => simulates.finish

/-- The number of root nodes can be told from the parents. -/
theorem Arena.length_rootNodes
    {Known : Type}
    (arena : Arena Known) :
    arena.rootNodes.length = (rootIndices (arena.nodes.map StoredNode.parent?)).length := by
  have placed := List.filter_map (p := Option.isNone)
    (f := Prod.fst) (l := (arena.nodes.map StoredNode.parent?).zipIdx)
  rw [List.zipIdx_map_fst, List.filter_map] at placed
  simpa [rootNodes, rootIndices, Function.comp_def] using congrArg List.length placed

/--
Calls that build an arena with one root node are remembered exactly.  The walk from the first
node emits them again, what it emits builds the same arena over the same text, and so it is for
the tree of elements that these calls build.
-/
theorem Arena.build_remembers_calls
    {text : Text}
    {calls : List Call}
    {arena : Arena Reach}
    (built : Arena.build text calls = .ok arena)
    (single : arena.rootNodes.length = 1) :
    arena.calls? = some calls ∧
      (∀ emitted, arena.calls? = some emitted → Arena.build text emitted = .ok arena) ∧
      ∃ root, SyntaxTree.build text calls = .ok ⟨[root]⟩ ∧
        SyntaxTree.calls ⟨[root]⟩ = calls ∧
        SyntaxTree.build text (SyntaxTree.calls ⟨[root]⟩) = .ok ⟨[root]⟩ := by
  obtain ⟨tree, isTree, holds⟩ := (built ▸ Arena.build_agree text calls).exists_of_ok
  rw [Arena.length_rootNodes] at single
  obtain ⟨number, numbers⟩ := List.length_eq_one_iff.mp single
  obtain ⟨stored, origin⟩ := holds
  rw [numbers] at stored origin
  cases origin
  obtain ⟨roots⟩ := tree
  have length := stored.length_eq
  obtain ⟨root, rfl⟩ := List.length_eq_one_iff.mp length
  have remembered : SyntaxTree.calls ⟨[root]⟩ = calls := SyntaxTree.calls_of_build isTree
  have emitted : arena.calls? = some calls := by
    rw [Arena.calls?, Arena.callsAt?_of_storedAs root stored.1, ← remembered,
      SyntaxTree.calls_eq]
    simp
  refine ⟨emitted, fun other same => ?_, root, isTree, remembered, by rw [remembered, isTree]⟩
  cases emitted.symm.trans same
  exact built

theorem Arena.build_remembers_calls_nested :
    let text := " xy".toList
    let calls : List Call :=
      [.start .chunk, .token [⟨.whitespace, 1⟩] .name 1 [⟨.newline, 0⟩], .start .block, .finish,
        .start .block, .token [] .whitespace 0 [], .finish, .token [] .eof 1 [], .finish]
    let arena : Arena Reach :=
      ⟨text,
        [⟨.tombstone, 0, 0, 0, 0⟩, ⟨.whitespace, 1, 0, 0, 0⟩, ⟨.name, 2, 0, 1, 1⟩,
          ⟨.newline, 2, 0, 0, 0⟩, ⟨.whitespace, 2, 2, 0, 0⟩, ⟨.eof, 3, 0, 0, 0⟩],
        [⟨none, .chunk, 1, 4, ⟨1, 5⟩⟩, ⟨some 0, .block, 0, 0, ⟨4, 3⟩⟩,
          ⟨some 0, .block, 0, 1, ⟨4, 4⟩⟩],
        [.token 4, .token 2, .node 1, .node 2, .token 5]⟩
    Arena.build text calls = .ok arena ∧ arena.rootNodes.length = 1 ∧
      arena.calls? = some calls := by
  intro text calls arena
  have built : Arena.build text calls = .ok arena := by rfl
  have single : arena.rootNodes.length = 1 := by decide
  exact ⟨built, single, (Arena.build_remembers_calls built single).1⟩

end LuaFold
