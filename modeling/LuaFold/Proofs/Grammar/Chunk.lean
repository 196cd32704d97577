import LuaFold.Proofs.Grammar.Statement

/-!
# Chunks

The statements of a whole text are closed by no kind, so their loop ends only at the end of the
text.  It does end there: every round takes a token.  A chunk is therefore one formed node over
all kinds of its text, a block and the end of the text, and every fault stands at a token.
-/

namespace LuaFold.Grammar

open scoped Computability
open Form State

variable {deeper : Deeper}

/-- At the end of the text nothing else is ahead. -/
theorem State.Ended.ahead_of_current
    {state : State}
    (ended : state.Ended)
    (isEnd : state.current = .eof) :
    state.ahead = [.eof] := by
  obtain ⟨kinds, ahead, absent⟩ := ended
  cases kinds with
  | nil => exact ahead
  | cons kind others =>
      have first : kind = .eof := by simpa [current, ahead] using isEnd
      exact absurd (by simp [first]) absent

/-- Statements that nothing closes go on to the end of the text. -/
theorem statements_ahead
    (sound : Sound deeper)
    {state : State}
    (ended : state.Ended) :
    (statements deeper .empty state).ahead = [.eof] := by
  obtain ⟨final, grown, found⟩ :=
    loop_ends (fun _ _ => grows_statements_next sound) carries_statement ended
  rw [statements]
  split at found
  · next isEnd =>
    injection found with same
    rw [← same]
    refine (grown.ended ended).ahead_of_current ?_
    simpa [isAt, isIn] using isEnd
  · cases found

/-- The rules for a chunk apply to texts that the end of the text closes. -/
theorem ended_initial
    {kinds : List Kind}
    (absent : Kind.eof ∉ kinds) :
    (State.initial (kinds ++ [.eof])).start.Ended :=
  ⟨kinds, rfl, absent⟩

/-- The state behind the block of a whole text. -/
def blockOf (kinds : List Kind) : State :=
  (level maximalDepth).block .empty (State.initial kinds).start

theorem run_eq (kinds : List Kind) :
    run kinds = ((blockOf kinds).actions.reverse ++ [.advance, .complete .chunk],
      (blockOf kinds).faults.reverse) := by
  simp [run, chunk, takeEnd, State.complete, record, blockOf]

/-- The end of the text is taken where it is all that is ahead. -/
theorem ahead_blockOf
    {kinds : List Kind}
    (absent : Kind.eof ∉ kinds) :
    (blockOf (kinds ++ [.eof])).ahead = [.eof] :=
  statements_ahead (sound_level (maximalDepth - 1)) (ended_initial absent)

/-- The actions of a whole text form a chunk over its kinds, and faults stand at tokens. -/
theorem run_forms
    {kinds : List Kind}
    (absent : Kind.eof ∉ kinds) :
    ∃ block, Action.Forms (run (kinds ++ [.eof])).1
        (.node .chunk [.node .block block, .leaf .eof]) ∧
      (Shape.node .chunk [.node .block block, .leaf .eof]).Formed ∧
      (Shape.node .chunk [.node .block block, .leaf .eof]).leaves = kinds ++ [.eof] ∧
      ∀ fault ∈ (run (kinds ++ [.eof])).2, fault.2 < (kinds ++ [Kind.eof]).length := by
  have forms : State.Forms .block (State.initial (kinds ++ [.eof])).start
      (blockOf (kinds ++ [.eof])) := forms_block (sound_level maximalDepth) .empty _
  obtain ⟨word, block, extended, formedWord, formed⟩ := forms (ended_initial absent)
  have taken : (Shape.node .block block).leaves ++ [.eof] = kinds ++ [.eof] := by
    have ahead := extended.ahead
    rw [ahead_blockOf absent] at ahead
    exact ahead.symm
  refine ⟨block, ?_, ?_, by simpa using taken, ?_⟩
  · have inside : Action.Builds (word ++ [.advance]) [.node .block block, .leaf .eof] :=
      formedWord.builds.advance .eof
    have completed := Action.Forms.complete inside (by decide : Kind.chunk ≠ .tombstone)
    rw [run_eq, extended.actions]
    simpa [State.start, record, initial] using completed
  · refine .node ?_ (Language.append_mem_mul (mem_node.mpr rfl) (mem_token.mpr rfl))
    intro child member
    rcases List.mem_cons.mp member with rfl | last
    · exact formed
    · rw [List.mem_singleton.mp last]
      exact .leaf .eof
  · intro fault member
    obtain ⟨reported, faults, placed, _⟩ := extended.faults
    have inside : fault ∈ reported := by
      rw [run_eq, faults] at member
      simpa [State.start, record, initial] using member
    have bound := (placed fault inside).2
    have position := extended.position
    have start : (State.initial (kinds ++ [.eof])).start.position = 0 := rfl
    have lengths := congrArg List.length taken
    simp only [List.length_append, List.length_singleton] at lengths ⊢
    omega

/-- The faults of a whole text are reported one after the other. -/
theorem pairwise_run
    {kinds : List Kind}
    (absent : Kind.eof ∉ kinds) :
    (run (kinds ++ [.eof])).2.Pairwise fun earlier later => earlier.2 ≤ later.2 := by
  have forms : State.Forms .block (State.initial (kinds ++ [.eof])).start
      (blockOf (kinds ++ [.eof])) := forms_block (sound_level maximalDepth) .empty _
  obtain ⟨_, _, extended, _⟩ := forms (ended_initial absent)
  obtain ⟨reported, faults, _, ordered⟩ := extended.faults
  have all : (blockOf (kinds ++ [.eof])).faults = reported := by
    rw [faults]
    exact List.append_nil reported
  rw [run_eq, all]
  exact List.pairwise_reverse.mpr ordered

end LuaFold.Grammar
