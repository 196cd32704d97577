import LuaFold.Proofs.Grammar.Chunk
import LuaFold.Proofs.Grammar.Machine.Run

/-!
# Termination of runs

Code finishes when it runs to its end at every depth where so many levels are left, with what it
makes of the state.  This is so for the code of every rule.  The induction is on the levels that
are left, for constructs that are one level deeper; then on the height, for rules that are called;
then on the code; and for a loop on the number of tokens ahead, as every round that is followed by
another takes one.

A run that ends passes every moment that it can reach, so what is shown for the steps on the way
holds at each of them.
-/

namespace LuaFold.Grammar

namespace State

/-- The end of the text stays ahead, and what is no longer ahead has been taken. -/
def Passes (before after : State) : Prop :=
  after.Ended ∧ after.position + after.ahead.length = before.position + before.ahead.length

theorem Passes.trans
    {first second third : State}
    (before : Passes first second)
    (after : Passes second third) :
    Passes first third :=
  ⟨after.1, after.2.trans before.2⟩

end State

namespace Machine

open State

theorem Operation.passes
    (operation : Operation)
    {state : State}
    (ended : state.Ended) :
    state.Passes (operation.perform state) := by
  cases operation with
  | record action => exact ⟨ended, rfl⟩
  | report fault => exact ⟨ended, rfl⟩
  | advance =>
      by_cases isEnd : state.current = .eof
      · have kept : state.advance = state := by simp [State.advance, isAt, isEnd]
        rw [perform, kept]
        exact ⟨ended, rfl⟩
      · have taken := Extends.advance isEnd
        refine ⟨taken.ended ended, ?_⟩
        rw [perform, taken.position, taken.ahead, List.length_append]
        omega

/-- A round that is followed by another has taken a token. -/
def Stack.Progresses {Value : Type} : Stack Value → Value → State → Prop
  | .looping _ before _ _, .next _, state => before.position < state.position
  | _, _, _ => True

/-- The code that ends, if it is a round that is followed by another, has taken a token. -/
def Config.Progresses : Config → Prop
  | ⟨.give value, stack, state, _⟩ => stack.Progresses value state
  | _ => True

/-- A step, with a token taken where it is from a round to the next one. -/
def Config.Advances (config next : Config) : Prop :=
  config.step = some next ∧ config.Progresses

variable {Value Carried : Type} {remaining : Nat}

namespace Code

/-- Code that ends with what it makes of the state, at the depth where it began. -/
def Finishes (remaining : Nat) (code : Code Value) : Prop :=
  ∀ (stack : Stack Value) (state : State) (depth : Nat),
    state.Ended → depth + remaining = maximalDepth →
      state.Passes (code.denote (level remaining) state).2 ∧
        Relation.ReflTransGen Config.Advances ⟨code, stack, state, depth⟩
          ⟨.give (code.denote (level remaining) state).1, stack,
            (code.denote (level remaining) state).2, depth⟩

namespace Finishes

theorem give (value : Value) : Finishes remaining (.give value) :=
  fun _ _ _ ended _ => ⟨⟨ended, rfl⟩, .refl⟩

theorem perform
    {operation : Operation}
    {rest : Code Value}
    (finishes : Finishes remaining rest) :
    Finishes remaining (.perform operation rest) := by
  intro stack state depth ended within
  have passed := operation.passes ended
  obtain ⟨passes, path⟩ := finishes stack (operation.perform state) depth passed.1 within
  exact ⟨passed.trans passes, .head ⟨rfl, trivial⟩ path⟩

theorem look
    {rest : State → Code Value}
    (finishes : ∀ state, Finishes remaining (rest state)) :
    Finishes remaining (.look rest) := by
  intro stack state depth ended within
  obtain ⟨passes, path⟩ := finishes state stack state depth ended within
  exact ⟨passes, .head ⟨rfl, trivial⟩ path⟩

theorem call
    {rule : Rule}
    {rest : rule.Result → Code Value}
    (body : Finishes remaining rule.body)
    (finishes : ∀ result, Finishes remaining (rest result)) :
    Finishes remaining (.call rule rest) := by
  intro stack state depth ended within
  obtain ⟨passed, inside⟩ := body (.returning rule depth rest stack) state depth ended within
  rw [rule.denote_body remaining ended] at passed inside
  obtain ⟨passes, path⟩ := finishes _ stack _ depth passed.1 within
  refine ⟨passed.trans passes, .head ⟨rfl, trivial⟩ (inside.trans ?_)⟩
  exact .head ⟨rfl, trivial⟩ path

/-- At the maximal depth the rest of a construct is skipped. -/
theorem skipped
    {construct : Construct}
    {rest : Code Value}
    (body : Finishes 0 (Rule.body .skip))
    (finishes : Finishes 0 rest) :
    Finishes 0 (.deeper construct rest) := by
  intro stack state depth ended deepest
  have called : Finishes 0 (.call .skip fun _ => rest) := .call body fun _ => finishes
  obtain ⟨passes, path⟩ := called stack state depth ended deepest
  have same : construct.meaning (level 0) state = state.skip := by cases construct <;> rfl
  have stepped : Config.step ⟨.deeper construct rest, stack, state, depth⟩ =
      some ⟨.call .skip fun _ => rest, stack, state, depth⟩ := if_pos deepest
  simp only [denote, Rule.meaning] at passes path
  simp only [denote, same]
  exact ⟨passes, .head ⟨stepped, trivial⟩ path⟩

theorem deeper
    {construct : Construct}
    {rest : Code Value}
    (body : Finishes remaining (Rule.body (.inside construct)))
    (finishes : Finishes (remaining + 1) rest) :
    Finishes (remaining + 1) (.deeper construct rest) := by
  intro stack state depth ended shallow
  have called : Finishes remaining (visit (.inside construct)) := .call body fun _ => .give ()
  obtain ⟨passed, inside⟩ := called (.lowering rest stack) state (depth + 1) ended (by omega)
  obtain ⟨passes, path⟩ := finishes stack _ depth passed.1 shallow
  have same : construct.meaning (level (remaining + 1)) state =
      ((Rule.inside construct).meaning (level remaining) state).2 := by cases construct <;> rfl
  have stepped : Config.step ⟨.deeper construct rest, stack, state, depth⟩ =
      some ⟨visit (.inside construct), .lowering rest stack, state, depth + 1⟩ :=
    if_neg (by omega)
  simp only [denote, same]
  refine ⟨passed.trans passes, .head ⟨stepped, trivial⟩ (inside.trans ?_)⟩
  exact .head ⟨rfl, trivial⟩ path

/-- The rounds of a loop end, as each that is followed by another leaves less ahead. -/
theorem around
    {round : Carried → Code (Turn Carried)}
    {depth : Nat}
    (shrinks : Shrinks Prod.snd (rounds (level remaining) round))
    (body : ∀ carried, Finishes remaining (round carried))
    (within : depth + remaining = maximalDepth)
    (rest : Carried → Code Value)
    (stack : Stack Value)
    (carried : Carried)
    {state : State}
    (ended : state.Ended) :
    let reached := iterate (rounds (level remaining) round) state.ahead (carried, state)
    state.Passes reached.2 ∧
      Relation.ReflTransGen Config.Advances
        ⟨round carried, .looping round state rest stack, state, depth⟩
        ⟨rest reached.1, stack, reached.2, depth⟩ := by
  induction size : state.ahead.length using Nat.strong_induction_on
    generalizing carried state with
  | h size ih =>
      obtain ⟨passed, inside⟩ :=
        body carried (.looping round state rest stack) state depth ended within
      have turned : rounds (level remaining) round (carried, state) =
        Turn.carrying ((round carried).denote (level remaining) state) := rfl
      generalize (round carried).denote (level remaining) state = turn at passed inside turned
      obtain ⟨turn, later⟩ := turn
      cases turn with
      | next following =>
          obtain ⟨_, shorter⟩ := shrinks (carried, state) (following, later) ended turned
          obtain ⟨passes, path⟩ := ih _ (size ▸ shorter) following passed.1 rfl
          have moved : state.position < later.position := by
            have counted := passed.2
            simp only at shorter counted
            omega
          have again : iterate (rounds (level remaining) round) state.ahead (carried, state) =
              iterate (rounds (level remaining) round) later.ahead (following, later) :=
            iterate_next shrinks ended turned
          simp only [again]
          exact ⟨passed.trans passes, inside.trans (.head ⟨rfl, moved⟩ path)⟩
      | last final =>
          have settled : iterate (rounds (level remaining) round) state.ahead (carried, state) =
              (final, later) := iterate_last Prod.snd ended turned
          simp only [settled]
          exact ⟨passed, inside.tail ⟨rfl, trivial⟩⟩

theorem loop
    {round : Carried → Code (Turn Carried)}
    {start : Carried}
    {rest : Carried → Code Value}
    (shrinks : Shrinks Prod.snd (rounds (level remaining) round))
    (body : ∀ carried, Finishes remaining (round carried))
    (finishes : ∀ carried, Finishes remaining (rest carried)) :
    Finishes remaining (.loop round start rest) := by
  intro stack state depth ended within
  obtain ⟨passed, path⟩ := around shrinks body within rest stack start ended
  obtain ⟨passes, behind⟩ := finishes _ stack _ depth passed.1 within
  exact ⟨passed.trans passes, .head ⟨rfl, trivial⟩ (path.trans behind)⟩

end Finishes

/-- Lawful code finishes where its constructs do. -/
theorem Lawful.finishes_of
    (inside : ∀ {Value : Type} (construct : Construct) (rest : Code Value),
      Finishes remaining (Rule.body .skip) → Finishes remaining rest →
        Finishes remaining (.deeper construct rest))
    (height : Nat) :
    ∀ {Value : Type} {code : Code Value}, code.Lawful height → Finishes remaining code := by
  induction height using Nat.strong_induction_on with
  | h height lower =>
      intro Value code lawful
      induction code with
      | give value => exact .give value
      | perform operation rest ih => exact .perform (ih lawful)
      | look rest ih => exact .look fun state => ih state (lawful state)
      | call rule rest ih =>
          obtain ⟨below, lawfulRest⟩ := lawful
          exact .call (lower _ below rule.lawful_body) fun result => ih result (lawfulRest result)
      | deeper construct rest ih =>
          obtain ⟨positive, lawfulRest⟩ := lawful
          exact inside construct rest (lower _ positive (Rule.lawful_body .skip)) (ih lawfulRest)
      | loop round start rest ihRound ihRest =>
          obtain ⟨shrinks, lawfulRound, lawfulRest⟩ := lawful
          exact .loop (shrinks remaining) (fun carried => ihRound carried (lawfulRound carried))
            fun carried => ihRest carried (lawfulRest carried)

/-- Lawful code finishes, as there are only so many levels to go deeper. -/
theorem Lawful.finishes
    (remaining : Nat)
    {height : Nat}
    {code : Code Value}
    (lawful : code.Lawful height) :
    Finishes remaining code := by
  induction remaining generalizing Value height with
  | zero => exact lawful.finishes_of fun construct rest skip finishes => .skipped skip finishes
  | succ remaining ih =>
      exact lawful.finishes_of fun construct rest _ finishes =>
        .deeper (ih (Rule.lawful_body (.inside construct))) finishes

end Code

namespace Config

/-- A run that ends passes every moment that it can reach. -/
theorem advances_of_reaches
    {start config final : Config}
    (path : Relation.ReflTransGen Advances start final)
    (done : final.step = none)
    (reached : start.Reaches config) :
    Relation.ReflTransGen Advances config final := by
  induction reached with
  | refl => exact path
  | tail _ stepped ih =>
      rcases ih.cases_head with rfl | ⟨next, ⟨advanced, _⟩, rest⟩
      · rw [done] at stepped
        cases stepped
      · rw [stepped] at advanced
        cases advanced
        exact rest

/-- Behind the last token of a text. -/
def final (kinds : List Kind) : Config :=
  ⟨.give (), .empty, chunk kinds, 0⟩

theorem advances_final
    {kinds : List Kind}
    (absent : Kind.eof ∉ kinds) :
    Relation.ReflTransGen Advances (initial (kinds ++ [.eof])) (final (kinds ++ [.eof])) := by
  have ended : (State.initial (kinds ++ [.eof])).Ended := ended_initial absent
  have lawful := (lawful_initial (kinds ++ [.eof])).code
  exact (lawful.finishes maximalDepth .empty _ 0 ended (Nat.zero_add _)).2

/-- The run over a text ends with what the rules make of it. -/
theorem reaches_final
    {kinds : List Kind}
    (absent : Kind.eof ∉ kinds) :
    (initial (kinds ++ [.eof])).Reaches (final (kinds ++ [.eof])) :=
  Relation.ReflTransGen.mono (fun _ _ advances => advances.1) _ _ (advances_final absent)

/-- Everywhere in the run over a text, a round that is followed by another has taken a token. -/
theorem progresses_of_reaches
    {kinds : List Kind}
    (absent : Kind.eof ∉ kinds)
    {config : Config}
    (reached : (initial (kinds ++ [.eof])).Reaches config) :
    config.Progresses := by
  have path := advances_of_reaches (advances_final absent) rfl reached
  rcases path.cases_head with rfl | ⟨_, ⟨_, progresses⟩, _⟩
  · trivial
  · exact progresses

end Config

end Machine

end LuaFold.Grammar
