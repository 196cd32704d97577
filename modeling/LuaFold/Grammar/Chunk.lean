import LuaFold.Grammar.Statement

/-!
# Chunks

A chunk is a block and the end of the text.  Blocks and expressions may be nested to a fixed
number of levels.  The rules of each level are made from those of the next deeper one; below
the deepest level the rest of a construct is skipped.
-/

namespace LuaFold.Grammar

/-- The number of levels to which blocks and expressions may be nested. -/
def maximalDepth : Nat :=
  200

/-- The rules where a number of levels is left. -/
def level : Nat → Deeper
  | 0 => ⟨fun _ state => state.skip, fun _ state => state.skip⟩
  | remaining + 1 =>
    let deeper := level remaining
    ⟨statements deeper, operations deeper⟩

/-- The state behind a whole chunk. -/
def chunk (kinds : List Kind) : State :=
  let opened := (State.initial kinds).start
  (((level maximalDepth).block .empty opened).takeEnd).complete .chunk

/-- The actions and the faults of a chunk, in order. -/
def run (kinds : List Kind) : List Action × List (SyntaxFault × Nat) :=
  let final := chunk kinds
  (final.actions.reverse, final.faults.reverse)

end LuaFold.Grammar
