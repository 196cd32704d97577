import LuaFold.Proofs.Grammar.Machine.Code
import Mathlib.Logic.Relation

/-!
# Runs of the rules

A run takes the code of the rules one step after another.  What is left to do behind the code that
is running waits on a stack: a rule that has called another one, a nesting level that is still to
be left, a loop with a round that is not over.  The depth is counted as the rules count it, and at
the maximal depth the rest of a construct is skipped.

A call also keeps the depth at which it was made, and a loop the state in which the round began.
No step reads what is kept.
-/

namespace LuaFold.Grammar.Machine

/-- What waits for a piece of code to end, innermost first. -/
inductive Stack : Type → Type 1 where
  | empty : Stack Unit
  | returning
      {Value : Type}
      (rule : Rule)
      (before : Nat)
      (rest : rule.Result → Code Value)
      (below : Stack Value) :
      Stack rule.Result
  | lowering {Value : Type} (rest : Code Value) (below : Stack Value) : Stack Unit
  | looping
      {Value Carried : Type}
      (round : Carried → Code (Turn Carried))
      (before : State)
      (rest : Carried → Code Value)
      (below : Stack Value) :
      Stack (Turn Carried)

/-- A moment of a run: the code that is running, what waits for it, the state and the depth. -/
structure Config where
  {Value : Type}
  code : Code Value
  stack : Stack Value
  state : State
  depth : Nat

namespace Stack

/-- The number of calls that have not returned, those of nesting levels among them. -/
def calls : {Value : Type} → Stack Value → Nat
  | _, .empty => 0
  | _, .returning _ _ _ below => below.calls + 1
  | _, .lowering _ below => below.calls + 1
  | _, .looping _ _ _ below => below.calls

/-- The number of nesting levels that have not been left. -/
def depth : {Value : Type} → Stack Value → Nat
  | _, .empty => 0
  | _, .returning _ _ _ below => below.depth
  | _, .lowering _ below => below.depth + 1
  | _, .looping _ _ _ below => below.depth

/-- Go on behind code that has ended with a value. -/
def resume {Value : Type} : Stack Value → Value → State → Nat → Option Config
  | .empty, _, _, _ => none
  | .returning _ _ rest below, result, state, depth => some ⟨rest result, below, state, depth⟩
  | .lowering rest below, _, state, depth => some ⟨rest, below, state, depth - 1⟩
  | .looping round _ rest below, .next carried, state, depth =>
    some ⟨round carried, .looping round state rest below, state, depth⟩
  | .looping _ _ rest below, .last carried, state, depth =>
    some ⟨rest carried, below, state, depth⟩

end Stack

namespace Config

/-- Before the first token of a text. -/
def initial (kinds : List Kind) : Config :=
  ⟨Code.visit .chunk, .empty, State.initial kinds, 0⟩

/-- The next moment, unless the run has ended. -/
def step : Config → Option Config
  | ⟨.give value, stack, state, depth⟩ => stack.resume value state depth
  | ⟨.perform operation rest, stack, state, depth⟩ =>
    some ⟨rest, stack, operation.perform state, depth⟩
  | ⟨.look rest, stack, state, depth⟩ => some ⟨rest state, stack, state, depth⟩
  | ⟨.call rule rest, stack, state, depth⟩ =>
    some ⟨rule.body, .returning rule depth rest stack, state, depth⟩
  | ⟨.deeper construct rest, stack, state, depth⟩ =>
    if depth = maximalDepth then some ⟨.call .skip fun _ => rest, stack, state, depth⟩
    else some ⟨Code.visit (.inside construct), .lowering rest stack, state, depth + 1⟩
  | ⟨.loop round start rest, stack, state, depth⟩ =>
    some ⟨round start, .looping round state rest stack, state, depth⟩

/-- From one moment of a run to a later one. -/
def Reaches : Config → Config → Prop :=
  Relation.ReflTransGen fun config next => config.step = some next

end Config

end LuaFold.Grammar.Machine
