import LuaFold.Proofs.Grammar.Round

/-!
# Reading a word

A rule reads a word when it takes just the kinds of the word and reports nothing.  It does so
where enough nesting levels are left; where the word is nested more deeply, the first fault that
it reports is that the nesting is too deep.  Both are one statement about the depth of the word,
which composes along words: behind a part that was read the next one stands, and behind a part
that was cut short nothing takes the fault back.

What stands behind a word is arbitrary here.  The rules of the grammar say what it must not be.
-/

namespace LuaFold.Grammar

open State

/-! ## Reading along a word -/

/--
How a word of a depth was read where a number of levels was left.  With enough levels just the
word was taken; with fewer, the first new fault is that the nesting is too deep.
-/
structure Outcome (levels depth : Nat) (rest : List Kind) (before after : State) : Prop where
  ended : after.Ended
  reads : depth ≤ levels → after.ahead = rest ∧ after.faults = before.faults
  cuts : levels < depth →
    ∃ position, (.nestingTooDeep, position) :: before.faults <:+ after.faults

/-- Between two states a word is read wherever it is ahead. -/
structure Consumes
    (levels depth : Nat)
    (word rest : List Kind)
    (before after : State) :
    Prop where
  onward : Onward before after
  outcome : before.Ended → before.ahead = word ++ rest →
    Outcome levels depth rest before after

theorem Outcome.refl
    {levels : Nat}
    {rest : List Kind}
    {state : State}
    (ended : state.Ended)
    (ahead : state.ahead = rest) :
    Outcome levels 0 rest state state :=
  ⟨ended, fun _ => ⟨ahead, rfl⟩, by simp⟩

/-- The second part matters only if the first was read. -/
theorem Outcome.trans
    {levels firstDepth depth : Nat}
    {middle rest : List Kind}
    {first second third : State}
    (before : Outcome levels firstDepth middle first second)
    (onward : Onward second third)
    (after : firstDepth ≤ levels → second.ahead = middle →
      Outcome levels depth rest second third) :
    Outcome levels (max firstDepth depth) rest first third := by
  obtain ⟨ended, kept⟩ := onward before.ended
  refine ⟨ended, fun enough => ?_, fun short => ?_⟩
  · have enoughFirst : firstDepth ≤ levels := by omega
    obtain ⟨ahead, faults⟩ := before.reads enoughFirst
    obtain ⟨aheadAfter, faultsAfter⟩ := (after enoughFirst ahead).reads (by omega)
    exact ⟨aheadAfter, faultsAfter.trans faults⟩
  · by_cases enough : firstDepth ≤ levels
    · obtain ⟨ahead, faults⟩ := before.reads enough
      rw [← faults]
      exact (after enough ahead).cuts (by omega)
    · obtain ⟨position, cut⟩ := before.cuts (by omega)
      exact ⟨position, cut.trans kept⟩

/-- Behind a part that was cut short nothing else matters. -/
theorem Outcome.short
    {levels firstDepth : Nat}
    {middle : List Kind}
    {before after : State}
    (outcome : Outcome levels firstDepth middle before after)
    (short : levels < firstDepth)
    (depth : Nat)
    (rest : List Kind) :
    Outcome levels (max firstDepth depth) rest before after :=
  ⟨outcome.ended, fun enough => absurd enough (by omega), fun _ => outcome.cuts short⟩

/-- What is read with a number of levels needs one more a level further up. -/
theorem Outcome.deeper
    {levels depth : Nat}
    {rest : List Kind}
    {before after : State}
    (outcome : Outcome levels depth rest before after) :
    Outcome (levels + 1) (depth + 1) rest before after :=
  ⟨outcome.ended, fun enough => outcome.reads (by omega), fun short => outcome.cuts (by omega)⟩

/-- Nothing changes for what is ahead and for the faults when an action is decided on. -/
theorem Outcome.record
    {levels depth : Nat}
    {rest : List Kind}
    {before after : State}
    (outcome : Outcome levels depth rest before after)
    (action : Action) :
    Outcome levels depth rest before (after.record action) :=
  ⟨outcome.ended, outcome.reads, outcome.cuts⟩

namespace Consumes

variable {levels firstDepth depth : Nat} {first word rest : List Kind}
  {before middle after : State}

theorem refl
    (levels : Nat)
    (rest : List Kind)
    (state : State) :
    Consumes levels 0 [] rest state state :=
  ⟨.refl state, .refl⟩

/-- What a rule does may be looked up in the tokens that it stands before. -/
theorem assume
    (onward : Onward before after)
    (consumes : before.Ended → before.ahead = word ++ rest →
      Consumes levels depth word rest before after) :
    Consumes levels depth word rest before after :=
  ⟨onward, fun ended ahead => (consumes ended ahead).outcome ended ahead⟩

theorem append
    (consumed : Consumes levels firstDepth first (word ++ rest) before middle)
    (behind : Consumes levels depth word rest middle after) :
    Consumes levels (max firstDepth depth) (first ++ word) rest before after := by
  refine ⟨consumed.onward.trans behind.onward, fun ended ahead => ?_⟩
  have outcome := consumed.outcome ended (by rw [ahead, List.append_assoc])
  exact outcome.trans behind.onward fun _ found => behind.outcome outcome.ended found

/-- Tokens behind a part do not add to the depth. -/
theorem closed
    (consumed : Consumes levels depth first (word ++ rest) before middle)
    (behind : Consumes levels 0 word rest middle after) :
    Consumes levels depth (first ++ word) rest before after := by
  simpa using consumed.append behind

/-- Nor do tokens in front of it. -/
theorem leading
    (consumed : Consumes levels 0 first (word ++ rest) before middle)
    (behind : Consumes levels depth word rest middle after) :
    Consumes levels depth (first ++ word) rest before after := by
  simpa using consumed.append behind

theorem advance
    (levels : Nat)
    {kind : Kind}
    (notEnd : kind ≠ .eof)
    (rest : List Kind)
    (state : State) :
    Consumes levels 0 [kind] rest state state.advance := by
  refine ⟨.advance state, fun ended ahead =>
    ⟨(Onward.advance state ended).1, fun _ => ?_, by simp⟩⟩
  have here : state.current = kind := by simp [current, ahead]
  simp [State.advance, isAt, here, notEnd, ahead]

theorem expect
    (levels : Nat)
    {kind : Kind}
    (notEnd : kind ≠ .eof)
    (rest : List Kind)
    (state : State) :
    Consumes levels 0 [kind] rest state (state.expect kind) := by
  refine assume (Grows.expect state notEnd).onward fun _ ahead => ?_
  have here : state.current = kind := by simp [current, ahead]
  have taken : state.expect kind = state.advance := by simp [State.expect, isAt, here]
  rw [taken]
  exact advance levels notEnd rest state

theorem taking
    {kind : Kind}
    (notEnd : kind ≠ .eof)
    (behind : Consumes levels depth word rest before.advance after) :
    Consumes levels depth (kind :: word) rest before after :=
  (advance levels notEnd (word ++ rest) before).leading behind

theorem expecting
    {kind : Kind}
    (notEnd : kind ≠ .eof)
    (behind : Consumes levels depth word rest (before.expect kind) after) :
    Consumes levels depth (kind :: word) rest before after :=
  (expect levels notEnd (word ++ rest) before).leading behind

theorem recorded
    {action : Action}
    (behind : Consumes levels depth word rest (before.record action) after) :
    Consumes levels depth word rest before after :=
  ⟨(Onward.record before action).trans behind.onward, fun ended ahead =>
    ⟨(behind.outcome ended ahead).ended, (behind.outcome ended ahead).reads,
      (behind.outcome ended ahead).cuts⟩⟩

theorem record
    (consumed : Consumes levels depth word rest before after)
    (action : Action) :
    Consumes levels depth word rest before (after.record action) :=
  ⟨consumed.onward.trans (.record after action), fun ended ahead =>
    (consumed.outcome ended ahead).record action⟩

/-- A node around a word. -/
theorem node
    (inside : Consumes levels depth word rest before.start after)
    (kind : Kind) :
    Consumes levels depth word rest before (after.complete kind) :=
  recorded (inside.record _)

/-- A node around an element that stands before a word. -/
theorem around
    (inside : Consumes levels depth word rest before.precede after)
    (kind : Kind) :
    Consumes levels depth word rest before (after.complete kind) :=
  recorded (inside.record _)

/-- Where no level is left nothing is read. -/
theorem skip
    (depth : Nat)
    (word rest : List Kind)
    (state : State) :
    Consumes 0 (depth + 1) word rest state state.skip := by
  refine ⟨(grows_skip state).onward, fun ended _ => ⟨((grows_skip state).onward ended).1,
    by simp, fun _ => ⟨state.position, ?_⟩⟩⟩
  have kept := ((grows_skipBalanced (state.start.report .nestingTooDeep)).onward ended).2
  simp only [State.skip]
  split <;> exact kept

/-! ## Optional parts -/

/-- What was read stays read where no further token is taken. -/
theorem settled
    (consumed : Consumes levels depth word rest before middle)
    (behind : Consumes levels 0 [] rest middle after) :
    Consumes levels depth word rest before after := by
  have whole : Consumes levels depth (word ++ []) rest before after := consumed.closed behind
  rwa [List.append_nil] at whole

theorem optional_taken
    {kind : Kind}
    (consumed : Consumes levels depth (kind :: word) rest before after) :
    Consumes levels depth (kind :: word) rest before
      (if before.isAt kind then after else before) := by
  refine assume ?_ fun _ ahead => ?_
  · split
    · exact consumed.onward
    · exact .refl before
  · have here : before.isAt kind = true := by simp [isAt, current, ahead]
    rwa [if_pos here]

theorem optional_omitted
    (levels : Nat)
    {kind : Kind}
    (onward : Onward before after)
    (other : rest.headD .eof ≠ kind) :
    Consumes levels 0 [] rest before (if before.isAt kind then after else before) := by
  refine assume ?_ fun _ ahead => ?_
  · split
    · exact onward
    · exact .refl before
  · have elsewhere : ¬ before.isAt kind = true := by
      rw [isAt_iff, current, ahead]
      exact other
    rw [if_neg elsewhere]
    exact refl levels rest before

/-! ## Loops -/

theorem loop_next
    {round : State → Turn State}
    {later : State}
    (shrinks : Shrinks id round)
    (onward : Onward before (before.loop round))
    (found : before.Ended → before.ahead = word ++ rest → round before = .next later)
    (behind : Consumes levels depth word rest before (later.loop round)) :
    Consumes levels depth word rest before (before.loop round) := by
  refine assume onward fun ended ahead => ?_
  have same : before.loop round = later.loop round :=
    iterate_next shrinks ended (found ended ahead)
  rwa [same]

theorem loop_last
    {round : State → Turn State}
    (onward : Onward before (before.loop round))
    (found : before.Ended → before.ahead = word ++ rest → round before = .last after)
    (behind : Consumes levels depth word rest before after) :
    Consumes levels depth word rest before (before.loop round) := by
  refine assume onward fun ended ahead => ?_
  have same : before.loop round = after := iterate_last id ended (found ended ahead)
  rwa [same]

section Separated

variable {separator : Kind} {item : State → State} {form : Form}

theorem separated_done
    (levels : Nat)
    (notEnd : separator ≠ .eof)
    (grows : ∀ state, Grows form state (item state))
    (other : rest.headD .eof ≠ separator)
    (state : State) :
    Consumes levels 0 [] rest state (state.separated separator item) := by
  refine loop_last (Grows.separated state notEnd grows).onward (fun _ ahead => ?_)
    (refl levels rest state)
  have here : state.current ≠ separator := by simpa [current, ahead] using other
  simp [isAt, here]

theorem separated_more
    (notEnd : separator ≠ .eof)
    (grows : ∀ state, Grows form state (item state))
    (consumed : Consumes levels firstDepth first (word ++ rest) before.advance
      (item before.advance))
    (behind : Consumes levels depth word rest (item before.advance)
      ((item before.advance).separated separator item)) :
    Consumes levels (max firstDepth depth) (separator :: (first ++ word)) rest before
      (before.separated separator item) := by
  refine loop_next (shrinks_separated notEnd grows)
    (Grows.separated before notEnd grows).onward (fun _ ahead => ?_)
    (taking notEnd (consumed.append behind))
  have here : before.current = separator := by simp [current, ahead]
  simp [isAt, here]

end Separated

end Consumes

end LuaFold.Grammar
