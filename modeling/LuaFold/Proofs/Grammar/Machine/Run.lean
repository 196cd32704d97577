import LuaFold.Proofs.Grammar.Machine.Configuration
import LuaFold.Proofs.Grammar.Machine.Height

/-!
# Depth and calls of a run

Every call on the stack is lower than the one that it was made from, unless a nesting level stands
between them.  As the depth counts the nesting levels on the stack, and goes up to a limit only, the
number of calls is limited as well.
-/

namespace LuaFold.Grammar.Machine

namespace Stack

variable {Value : Type}

/-- The height below which the code on top of a stack may call. -/
def room : {Value : Type} → Stack Value → Nat
  | _, .empty => 3
  | _, .returning rule _ _ _ => rule.height
  | _, .lowering _ _ => 10
  | _, .looping _ _ _ below => below.room

/-- What waits is lawful, and every call has kept the depth at which it was made. -/
def Lawful : {Value : Type} → Stack Value → Prop
  | _, .empty => True
  | _, .returning rule before rest below =>
    before = below.depth ∧ rule.height < below.room ∧
      (∀ result, (rest result).Lawful below.room) ∧ below.Lawful
  | _, .lowering rest below => rest.Lawful below.room ∧ below.Lawful
  | _, .looping round _ rest below =>
    (∀ carried, (round carried).Lawful below.room) ∧
      (∀ carried, (rest carried).Lawful below.room) ∧ below.Lawful

/-- Calls get lower within a nesting level, so there are only so many at each. -/
theorem Lawful.calls_add_room_le
    {stack : Stack Value}
    (lawful : stack.Lawful) :
    stack.calls + stack.room ≤ 11 * stack.depth + 3 := by
  induction stack with
  | empty => decide
  | returning rule before rest below ih =>
      obtain ⟨_, lower, _, lawfulBelow⟩ := lawful
      have bound := ih lawfulBelow
      simp only [calls, room, depth]
      omega
  | lowering rest below ih =>
      have bound := ih lawful.2
      simp only [calls, room, depth]
      omega
  | looping round before rest below ih => exact ih lawful.2.2

end Stack

/-- A lawful moment of a run: calls get lower, and the depth counts nesting levels up to a limit. -/
structure Config.Lawful (config : Config) : Prop where
  code : config.code.Lawful config.stack.room
  stack : config.stack.Lawful
  depth : config.depth = config.stack.depth
  bounded : config.depth ≤ maximalDepth

namespace Config

theorem lawful_initial (kinds : List Kind) : (initial kinds).Lawful :=
  ⟨by simp [initial, Stack.room, Rule.height], trivial, rfl, Nat.zero_le _⟩

theorem Lawful.step
    {config next : Config}
    (lawful : config.Lawful)
    (stepped : config.step = some next) :
    next.Lawful := by
  obtain ⟨code, stack, state, depth⟩ := config
  obtain ⟨lawfulCode, lawfulStack, counted, bounded⟩ := lawful
  simp only at lawfulCode lawfulStack counted bounded
  cases code with
  | give value =>
      cases stack with
      | empty => cases stepped
      | returning rule before rest below =>
          cases stepped
          obtain ⟨_, _, lawfulRest, lawfulBelow⟩ := lawfulStack
          exact ⟨lawfulRest value, lawfulBelow, counted, bounded⟩
      | lowering rest below =>
          cases stepped
          obtain ⟨lawfulRest, lawfulBelow⟩ := lawfulStack
          exact ⟨lawfulRest, lawfulBelow, by simp [counted, Stack.depth],
            (Nat.sub_le depth 1).trans bounded⟩
      | looping round before rest below =>
          obtain ⟨lawfulRound, lawfulRest, lawfulBelow⟩ := lawfulStack
          cases value with
          | next carried =>
              cases stepped
              exact ⟨lawfulRound carried, ⟨lawfulRound, lawfulRest, lawfulBelow⟩, counted,
                bounded⟩
          | last carried =>
              cases stepped
              exact ⟨lawfulRest carried, lawfulBelow, counted, bounded⟩
  | perform operation rest =>
      cases stepped
      exact ⟨lawfulCode, lawfulStack, counted, bounded⟩
  | look rest =>
      cases stepped
      exact ⟨lawfulCode state, lawfulStack, counted, bounded⟩
  | call rule rest =>
      cases stepped
      obtain ⟨lower, lawfulRest⟩ := lawfulCode
      exact ⟨rule.lawful_body, ⟨counted, lower, lawfulRest, lawfulStack⟩, counted, bounded⟩
  | deeper construct rest =>
      obtain ⟨positive, lawfulRest⟩ := lawfulCode
      rw [Config.step] at stepped
      -- at the limit only the rule for skipping is called, which is the lowest
      split at stepped
      · cases stepped
        exact ⟨⟨positive, fun _ => lawfulRest⟩, lawfulStack, counted, bounded⟩
      · next shallow =>
        cases stepped
        have low : (Rule.inside construct).height < 10 := by cases construct <;> simp [Rule.height]
        refine ⟨(Code.lawful_visit _).mpr low, ⟨lawfulRest, lawfulStack⟩, ?_, ?_⟩
        · rw [Stack.depth, ← counted]
        · exact Nat.lt_of_le_of_ne bounded shallow
  | loop round start rest =>
      cases stepped
      obtain ⟨_, lawfulRound, lawfulRest⟩ := lawfulCode
      exact ⟨lawfulRound start, ⟨lawfulRound, lawfulRest, lawfulStack⟩, counted, bounded⟩

theorem Lawful.reaches
    {config later : Config}
    (lawful : config.Lawful)
    (reached : config.Reaches later) :
    later.Lawful := by
  induction reached with
  | refl => exact lawful
  | tail _ stepped ih => exact ih.step stepped

end Config
end LuaFold.Grammar.Machine
