import LuaFold.Proofs.Grammar.Machine.Termination
import LuaFold.Proofs.Parse.Lossless

/-!
# Recursion of a parse

The rules run to their end on every text, and end with the state that the parse is made from.  On
the way no loop goes round without taking a token, every rule leaves the depth as it found it, and
the depth and the number of calls stay below a limit that does not depend on the text.
-/

namespace LuaFold.Grammar.Machine

open Config

/--
On every text the run of the rules ends, with the state of the chunk.  The depth never exceeds the
limit, nor do the calls that have not returned exceed a multiple of it; a rule returns at the depth
at which it was called; a round of a loop that is followed by another has taken a token.  No chain
of calls leads from a rule back to it, whatever the arguments, except through a nesting level.
-/
theorem recursion_bounded (text : Text) :
    let kinds := (tokenize text).map Token.kind
    (∃ final,
        (Config.initial kinds).Reaches final ∧
        final.step = none ∧
        final.depth = 0 ∧
        final.state = chunk kinds) ∧
      (∀ config, (Config.initial kinds).Reaches config →
        config.depth ≤ maximalDepth ∧ config.stack.calls ≤ 12 * maximalDepth) ∧
      (∀ {Value : Type}
          (rule : Rule)
          (before : Nat)
          (rest : rule.Result → Code Value)
          (below : Stack Value)
          (result : rule.Result)
          (state : State)
          (depth : Nat),
        (Config.initial kinds).Reaches
            ⟨.give result, .returning rule before rest below, state, depth⟩ →
          depth = before) ∧
      (∀ {Value Carried : Type}
          (round : Carried → Code (Turn Carried))
          (before : State)
          (rest : Carried → Code Value)
          (below : Stack Value)
          (carried : Carried)
          (state : State)
          (depth : Nat),
        (Config.initial kinds).Reaches
            ⟨.give (.next carried), .looping round before rest below, state, depth⟩ →
          before.position < state.position) ∧
      ∀ caller callee, Relation.TransGen Rule.Calls caller callee →
        caller.general ≠ callee.general := by
  intro kinds
  obtain ⟨others, tokenKinds, absent⟩ := map_kind_tokenize text
  have split : kinds = others ++ [.eof] := tokenKinds
  rw [split]
  have lawful {config : Config} (reached : (Config.initial (others ++ [.eof])).Reaches config) :=
    (lawful_initial _).reaches reached
  refine ⟨⟨_, reaches_final absent, rfl, rfl, rfl⟩, fun config reached => ?_, ?_, ?_, ?_⟩
  · have bounded := (lawful reached).bounded
    have calls := (lawful reached).stack.calls_add_room_le
    rw [← (lawful reached).depth] at calls
    refine ⟨bounded, ?_⟩
    simp only [maximalDepth] at bounded ⊢
    omega
  · intro Value rule before rest below result state depth reached
    obtain ⟨kept, _⟩ := (lawful reached).stack
    exact (lawful reached).depth.trans kept.symm
  · intro Value Carried round before rest below carried state depth reached
    exact progresses_of_reaches absent reached
  · intro caller callee chain same
    have lower := Rule.height_lt_of_chain chain
    rw [← caller.height_general, ← callee.height_general, same] at lower
    exact lower.false

end LuaFold.Grammar.Machine
