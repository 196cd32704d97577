import LuaFold.Proofs.Grammar.Abreast.Statement

/-!
# Chunks that a semicolon joins

The statements of a text do not depend on what was parsed before them, so they are decided on and
reported alike behind another text, with the faults further on.  Nor do they depend on what comes
behind a semicolon, provided that no fault is reported in them.  The semicolon itself becomes an
empty statement, unless the last statement of the text is a `return` without one, which takes it.

So the parse of two texts with a semicolon between them is made of the parses of the two.
-/

namespace LuaFold.Grammar

open State

/-- The state behind the statements of a text, from a state in front of them. -/
def behindStatements (state : State) : State :=
  (level maximalDepth).statements .empty state

/-- The state behind the statements of a text on its own. -/
def bodyOf (kinds : List Kind) : State :=
  behindStatements (State.initial (kinds ++ [.eof]))

/-- The actions of a chunk around those of its statements. -/
def chunkActions (inside : List Action) : List Action :=
  .start :: .start :: (inside ++ [.complete .block, .advance, .complete .chunk])

namespace Surroundings

/-- What a text that ends as before has in front of it. -/
def past
    (distance : Nat)
    (actions : List Action)
    (faults : List (SyntaxFault × Nat)) :
    Surroundings :=
  ⟨[.eof], distance, actions, faults, ⟨[], rfl, by simp⟩, Or.inl rfl⟩

/-- A semicolon and another text, with nothing in front. -/
def future {kinds : List Kind} (absent : Kind.eof ∉ kinds) : Surroundings :=
  ⟨.semicolon :: (kinds ++ [.eof]), 0, [], [], ⟨.semicolon :: kinds, rfl, by simpa using absent⟩,
    Or.inr rfl⟩

end Surroundings

open Surroundings

variable {kinds first second : List Kind}

/-- The statements of a text do not depend on what was parsed before them. -/
theorem beside_past
    (absent : Kind.eof ∉ kinds)
    (distance : Nat)
    (actions : List Action)
    (faults : List (SyntaxFault × Nat)) :
    (past distance actions faults).Beside (bodyOf kinds)
      (behindStatements ⟨kinds ++ [.eof], distance, actions, faults⟩) := by
  have start : (past distance actions faults).Beside (State.initial (kinds ++ [.eof]))
      ⟨kinds ++ [.eof], distance, actions, faults⟩ :=
    ⟨⟨kinds, rfl, rfl, absent⟩, by simp [State.initial, past], rfl, rfl⟩
  have follows := (keeping_level (past distance actions faults) maximalDepth).statements .empty
    (State.initial (kinds ++ [.eof])) ⟨kinds ++ [.eof], distance, actions, faults⟩
  rcases follows.outcome start fun faulty => faulty.1 rfl with beside | spent
  · exact beside
  · exact absurd rfl spent.1

/-- A chunk is made of the actions of its statements, and reports their faults. -/
theorem run_eq_bodyOf (absent : Kind.eof ∉ kinds) :
    run (kinds ++ [.eof]) =
      (chunkActions (bodyOf kinds).actions.reverse, (bodyOf kinds).faults.reverse) := by
  have beside := beside_past absent 0 [.start, .start] []
  have block : blockOf (kinds ++ [.eof]) =
      (behindStatements ⟨kinds ++ [.eof], 0, [.start, .start], []⟩).complete .block :=
    rfl
  have same (faults : List (SyntaxFault × Nat)) : faults.map (further 0) = faults :=
    List.map_id'' (fun _ => rfl) faults
  have actions : (blockOf (kinds ++ [.eof])).actions =
      .complete .block :: ((bodyOf kinds).actions ++ [.start, .start]) := by
    rw [block]
    exact congrArg (List.cons _) beside.actions
  have faults : (blockOf (kinds ++ [.eof])).faults = (bodyOf kinds).faults := by
    have reported := beside.faults
    simp only [past, List.append_nil, same] at reported
    rw [block, ← reported]
    rfl
  rw [run_eq, actions, faults]
  simp [chunkActions]

/-- The statements of a text take all of it, and build formed shapes over its tokens. -/
theorem bodyOf_builds (absent : Kind.eof ∉ kinds) :
    (bodyOf kinds).ahead = [.eof] ∧
      (bodyOf kinds).position = kinds.length ∧
      ∃ shapes, Action.Builds (bodyOf kinds).actions.reverse shapes ∧
        (∀ shape ∈ shapes, shape.Formed) ∧ shapes.flatMap Shape.leaves = kinds := by
  have ended : (State.initial (kinds ++ [.eof])).Ended := ⟨kinds, rfl, absent⟩
  have ahead : (bodyOf kinds).ahead = [.eof] :=
    statements_ahead (sound_level (maximalDepth - 1)) ended
  obtain ⟨word, shapes, extended, builds, formed, _⟩ :=
    (sound_level maximalDepth).statements .empty (State.initial (kinds ++ [.eof])) ended
  have taken : kinds = shapes.flatMap Shape.leaves := by
    have front : kinds ++ [.eof] = shapes.flatMap Shape.leaves ++ (bodyOf kinds).ahead :=
      extended.ahead
    rw [ahead] at front
    exact List.append_cancel_right front
  have actions : (bodyOf kinds).actions = word.reverse ++ [] := extended.actions
  have position : (bodyOf kinds).position = 0 + (shapes.flatMap Shape.leaves).length :=
    extended.position
  refine ⟨ahead, ?_, shapes, ?_, formed, taken.symm⟩
  · rw [position, ← taken, Nat.zero_add]
  · rw [actions, List.append_nil, List.reverse_reverse]
    exact builds

/-! ## The semicolon -/

/-- How the actions of a text go on with a semicolon. -/
inductive Continues : List Action → List Action → Prop where
  | statement (word : List Action) :
      Continues word (word ++ [.start, .advance, .complete .emptyStmt])
  | returned (word : List Action) :
      Continues (word ++ [.complete .returnStmt]) (word ++ [.advance, .complete .returnStmt])

theorem behindStatements_next
    {state : State}
    (ended : state.Ended)
    (more : state.current ≠ .eof) :
    behindStatements state =
      behindStatements (statement (level (maximalDepth - 1)) state) := by
  have goesOn : (if state.isAt .eof || state.isIn .empty then Turn.last state
      else .next (statement (level (maximalDepth - 1)) state)) =
        .next (statement (level (maximalDepth - 1)) state) := by
    simp [isAt, more, isIn]
  exact iterate_next (shrinks_statements (maximalDepth - 1) .empty) ended goesOn

theorem behindStatements_last
    {state : State}
    (isEnd : state.current = .eof) :
    behindStatements state = state := by
  refine Follows.loop_stays ?_
  simp [isAt, isEnd]

/-- The statements of a text end in both parses, in the other one before it goes on. -/
theorem exists_reached
    {around : Surroundings}
    {one other : State}
    (beside : around.Beside one other)
    (sound : ¬ around.Faulty (behindStatements one)) :
    ∃ reached, behindStatements other = behindStatements reached ∧
      (around.Beside (behindStatements one) reached ∨
        around.Returned (behindStatements one) reached) := by
  -- statements take tokens, so there are fewer of them behind each
  induction count : one.ahead.length using Nat.strong_induction_on generalizing one other with
  | _ count ih =>
      subst count
      by_cases isEnd : one.current = .eof
      · rw [behindStatements_last isEnd]
        exact ⟨other, rfl, Or.inl beside⟩
      · have moreOther : other.current ≠ .eof := by
          rwa [beside.current_eq fun spent => isEnd spent.2]
        have grows := grows_statement (sound_level (maximalDepth - 1)) isEnd
        have shorter := grows.ahead_length_lt carries_statement beside.ended
        have behind := ((keeping_level around maximalDepth).statements .empty
          (statement (level (maximalDepth - 1)) one) other).onward
        rw [behindStatements_next beside.ended isEnd] at sound ⊢
        rw [behindStatements_next beside.ended_other moreOther]
        have soundHere := not_faulty_of_onward behind (grows.ended beside.ended) sound
        have kept := (Follows.statement (keeping_level around (maximalDepth - 1)) isEnd).outcome
          beside soundHere
        rcases kept with besideNow | returned
        · exact ih _ shorter besideNow sound rfl
        · rw [behindStatements_last returned.spent.2]
          exact ⟨_, rfl, Or.inr returned⟩

/-- What the other parse stands before where a text ends. -/
theorem eq_of_beside_future
    {absent : Kind.eof ∉ kinds}
    {one other : State}
    (beside : (future absent).Beside one other)
    (ahead : one.ahead = [.eof])
    (silent : one.faults = []) :
    other = ⟨.semicolon :: (kinds ++ [.eof]), one.position, one.actions, []⟩ := by
  obtain ⟨left, aheadOne, aheadOther, _⟩ := beside.ahead
  have none : left = [] := by
    rw [ahead] at aheadOne
    simpa using aheadOne.symm
  subst none
  have position := beside.position
  have actions := beside.actions
  have faults := beside.faults
  obtain ⟨kindsOther, positionOther, actionsOther, faultsOther⟩ := other
  simp only [future, List.nil_append, Nat.add_zero, List.append_nil, silent, List.map_nil] at *
  simp [aheadOther, position, actions, faults]

theorem exists_continued
    (absentFirst : Kind.eof ∉ first)
    (absentSecond : Kind.eof ∉ second)
    (silent : (bodyOf first).faults = []) :
    ∃ actions, Continues (bodyOf first).actions.reverse actions.reverse ∧
      behindStatements (State.initial (first ++ .semicolon :: (second ++ [.eof]))) =
        behindStatements ⟨second ++ [.eof], first.length + 1, actions, []⟩ := by
  have start : (future absentSecond).Beside (State.initial (first ++ [.eof]))
      (State.initial (first ++ .semicolon :: (second ++ [.eof]))) :=
    ⟨⟨first, rfl, rfl, absentFirst⟩, rfl, rfl, rfl⟩
  have sound : ¬ (future absentSecond).Faulty (bodyOf first) := fun faulty => faulty.2 silent
  obtain ⟨ahead, position, _⟩ := bodyOf_builds absentFirst
  obtain ⟨reached, same, beside | returned⟩ := exists_reached start sound
  · -- the semicolon is a statement of its own
    have here : reached = ⟨.semicolon :: (second ++ [.eof]), (bodyOf first).position,
        (bodyOf first).actions, []⟩ := eq_of_beside_future beside ahead silent
    have ended : reached.Ended := beside.ended_other
    refine ⟨.complete .emptyStmt :: .advance :: .start :: (bodyOf first).actions, ?_, ?_⟩
    · simpa using Continues.statement (bodyOf first).actions.reverse
    · have more : reached.current ≠ .eof := by simp [here, current]
      rw [same, behindStatements_next ended more, here, position]
      rfl
  · -- the semicolon belongs to a `return`
    obtain ⟨before, beforeOther, _, beside, isOne, rfl⟩ := returned
    have aheadBefore : before.ahead = [.eof] := by
      rw [← ahead]
      exact (congrArg State.ahead isOne).symm
    have silentBefore : before.faults = [] := by
      rw [← silent]
      exact (congrArg State.faults isOne).symm
    have positionBefore : before.position = first.length := by
      rw [← position]
      exact (congrArg State.position isOne).symm
    have actions : (bodyOf first).actions = .complete .returnStmt :: before.actions :=
      congrArg State.actions isOne
    have here := eq_of_beside_future beside aheadBefore silentBefore
    refine ⟨.complete .returnStmt :: .advance :: before.actions, ?_, ?_⟩
    · simpa [actions] using Continues.returned before.actions.reverse
    · rw [same, here, positionBefore]
      rfl

/-- The parse of two texts with a semicolon between them, the first one without faults. -/
theorem run_semicolon
    (absentFirst : Kind.eof ∉ first)
    (absentSecond : Kind.eof ∉ second)
    (silent : (bodyOf first).faults = []) :
    ∃ joined, Continues (bodyOf first).actions.reverse joined ∧
      run (first ++ .semicolon :: (second ++ [.eof])) =
        (chunkActions (joined ++ (bodyOf second).actions.reverse),
          (bodyOf second).faults.reverse.map (further (first.length + 1))) := by
  obtain ⟨actions, continues, same⟩ := exists_continued absentFirst absentSecond silent
  have beside := beside_past absentSecond (first.length + 1) actions []
  have joined : bodyOf (first ++ .semicolon :: second) =
      behindStatements ⟨second ++ [.eof], first.length + 1, actions, []⟩ := by
    rw [← same, bodyOf]
    simp
  have absent : Kind.eof ∉ first ++ .semicolon :: second := by
    simp [absentFirst, absentSecond]
  have whole := run_eq_bodyOf absent
  rw [joined, beside.actions, beside.faults] at whole
  exact ⟨actions.reverse, continues, by simpa [past] using whole⟩

end LuaFold.Grammar
