import LuaFold.Proofs.Grammar.Statement

/-!
# Rounds of loops

Whatever a rule does, the end of the text stays ahead and no fault is taken back.  Every round of
a loop but the last leaves less ahead, so how often a round may be repeated does not matter: the
loop in front of a round that is not the last is the loop behind it, and what the rounds keep
holds in front of the last one.  This is so for every loop of the grammar.
-/

namespace LuaFold.Grammar

open scoped Computability

namespace State

/-- The end of the text stays ahead, and no fault is taken back. -/
def Onward (before after : State) : Prop :=
  before.Ended → after.Ended ∧ before.faults <:+ after.faults

namespace Onward

theorem refl (state : State) : Onward state state :=
  fun ended => ⟨ended, List.suffix_refl _⟩

theorem trans
    {first second third : State}
    (before : Onward first second)
    (after : Onward second third) :
    Onward first third := by
  intro ended
  obtain ⟨middle, kept⟩ := before ended
  obtain ⟨last, moreKept⟩ := after middle
  exact ⟨last, kept.trans moreKept⟩

theorem record (state : State) (action : Action) : Onward state (state.record action) :=
  fun ended => ⟨ended, List.suffix_refl _⟩

theorem advance (state : State) : Onward state state.advance := by
  intro ended
  by_cases isEnd : state.current = .eof
  · have kept : state.advance = state := by simp [State.advance, isAt, isEnd]
    rw [kept]
    exact refl state ended
  · obtain ⟨_, faults, _⟩ := (Extends.advance isEnd).faults
    exact ⟨(Extends.advance isEnd).ended ended, _, faults.symm⟩

end Onward

theorem Grows.onward
    {form : Form}
    {before after : State}
    (grows : Grows form before after) :
    Onward before after := by
  intro ended
  obtain ⟨_, _, extended, _⟩ := grows ended
  obtain ⟨reported, faults, _⟩ := extended.faults
  exact ⟨extended.ended ended, reported, faults.symm⟩

theorem Forms.onward
    {kind : Kind}
    {before after : State}
    (forms : Forms kind before after) :
    Onward before after :=
  (Grows.ofForms forms).onward

/-- Where less is ahead than before, the parse has moved on. -/
theorem Grows.position_ne
    {form : Form}
    {before after : State}
    (grows : Grows form before after)
    (ended : before.Ended)
    (shorter : after.ahead.length < before.ahead.length) :
    after.position ≠ before.position := by
  obtain ⟨_, shapes, extended, _⟩ := grows ended
  have lengths := congrArg List.length extended.ahead
  have moved := extended.position
  rw [List.length_append] at lengths
  omega

/-! ## Rounds of a loop -/

/-- Every round but the last leaves less ahead. -/
def Shrinks {Value : Type} (stateOf : Value → State) (round : Value → Turn Value) : Prop :=
  ∀ value later, (stateOf value).Ended → round value = .next later →
    (stateOf later).Ended ∧ (stateOf later).ahead.length < (stateOf value).ahead.length

theorem shrinks_of_grows
    {form : Form}
    {round : State → Turn State}
    (next : ∀ state later, round state = .next later → Grows form state later)
    (carries : Form.Carries (fun kind => kind.isSolid = true) form) :
    Shrinks id round := by
  intro state later ended found
  have grows := next state later found
  exact ⟨grows.ended ended, grows.ahead_length_lt carries ended⟩

section Rounds

variable {Value : Type} {stateOf : Value → State} {round : Value → Turn Value}

/-- How many rounds are allowed does not matter where each takes a token. -/
theorem iterate_congr
    (shrinks : Shrinks stateOf round)
    (tokens others : List Kind)
    {value : Value}
    (ended : (stateOf value).Ended)
    (enough : (stateOf value).ahead.length ≤ tokens.length)
    (enoughOthers : (stateOf value).ahead.length ≤ others.length) :
    iterate round tokens value = iterate round others value := by
  induction tokens generalizing others value with
  | nil =>
      have positive := ended.ahead_length_pos
      simp only [List.length_nil] at enough
      omega
  | cons token tokens ih =>
      cases others with
      | nil =>
          have positive := ended.ahead_length_pos
          simp only [List.length_nil] at enoughOthers
          omega
      | cons other others =>
          simp only [List.length_cons] at enough enoughOthers
          cases found : round value with
          | next later =>
              obtain ⟨kept, smaller⟩ := shrinks value later ended found
              simp only [iterate, found]
              exact ih others kept (by omega) (by omega)
          | last later => simp only [iterate, found]

theorem iterate_next
    (shrinks : Shrinks stateOf round)
    {value later : Value}
    (ended : (stateOf value).Ended)
    (found : round value = .next later) :
    iterate round (stateOf value).ahead value = iterate round (stateOf later).ahead later := by
  obtain ⟨kept, smaller⟩ := shrinks value later ended found
  cases ahead : (stateOf value).ahead with
  | nil => simp [ahead] at smaller
  | cons kind kinds =>
      rw [ahead, List.length_cons] at smaller
      simp only [iterate, found]
      exact iterate_congr shrinks kinds _ kept (by omega) le_rfl

theorem iterate_last
    (stateOf : Value → State)
    {value later : Value}
    (ended : (stateOf value).Ended)
    (found : round value = .last later) :
    iterate round (stateOf value).ahead value = later := by
  have positive := ended.ahead_length_pos
  cases ahead : (stateOf value).ahead with
  | nil => simp [ahead] at positive
  | cons kind kinds => simp only [iterate, found]

/-- What rounds keep holds in front of the last round. -/
theorem iterate_keeps
    (shrinks : Shrinks stateOf round)
    {kept : Value → Prop}
    (next : ∀ value later, kept value → round value = .next later → kept later)
    {value : Value}
    (start : kept value)
    (ended : (stateOf value).Ended) :
    ∃ final, kept final ∧ round final = .last (iterate round (stateOf value).ahead value) := by
  have step : ∀ value later, kept value ∧ (stateOf value).Ended → round value = .next later →
      (kept later ∧ (stateOf later).Ended) ∧
        (stateOf later).ahead.length < (stateOf value).ahead.length := by
    rintro value later ⟨held, ended⟩ found
    obtain ⟨laterEnded, smaller⟩ := shrinks value later ended found
    exact ⟨⟨next value later held found, laterEnded⟩, smaller⟩
  obtain ⟨final, ⟨held, _⟩, found⟩ := iterate_ends round _ _ step
    (fun _ reached => reached.2.ahead_length_pos) (stateOf value).ahead ⟨start, ended⟩ le_rfl
  exact ⟨final, held, found⟩

/-- Rounds that keep the faults make a loop that does. -/
theorem onward_iterate
    (stateOf : Value → State)
    (next : ∀ value later, round value = .next later → Onward (stateOf value) (stateOf later))
    (last : ∀ value later, round value = .last later → Onward (stateOf value) (stateOf later))
    (tokens : List Kind)
    (value : Value) :
    Onward (stateOf value) (stateOf (iterate round tokens value)) := by
  induction tokens generalizing value with
  | nil => exact .refl _
  | cons token tokens ih =>
      rw [iterate]
      cases found : round value with
      | next later => exact (next value later found).trans (ih later)
      | last later => exact last value later found

end Rounds

end State

open Form State

/-! ## Loops of the grammar -/

theorem shrinks_separated
    {separator : Kind}
    {item : State → State}
    {form : Form}
    (notEnd : separator ≠ .eof)
    (grows : ∀ state, Grows form state (item state)) :
    Shrinks id fun state =>
      if state.isAt separator then Turn.next (item state.advance) else .last state := by
  refine shrinks_of_grows (fun state later found => ?_) ((carries_token separator).mul form)
  split at found
  · next here =>
    cases found
    exact (Grows.take (isAt_iff.mp here) notEnd).trans (grows _)
  · cases found

theorem shrinks_parameter : Shrinks id parameter :=
  shrinks_of_grows (fun _ _ => grows_parameter_next) ((carries_token .comma).behind _)

theorem onward_parameters (state : State) : Onward state (state.loop parameter) :=
  (Grows.loop state (fun _ _ => grows_parameter_next) ((carries_token .comma).behind _)
    (fun _ _ => grows_parameter_last)).onward

theorem shrinks_field (levels : Nat) : Shrinks id (field (level levels)) :=
  shrinks_of_grows (fun _ _ => grows_field_next (sound_level levels))
    (((carries_token .comma).add (carries_token .semicolon)).behind _)

theorem onward_fields
    (levels : Nat)
    (state : State) :
    Onward state (state.loop (field (level levels))) :=
  (Grows.loop state (fun _ _ => grows_field_next (sound_level levels))
    (((carries_token .comma).add (carries_token .semicolon)).behind _)
    (fun _ _ => grows_field_last (sound_level levels))).onward

/-- All further suffixes. -/
def suffixes (deeper : Deeper) (reached : Kind × State) : Kind × State :=
  iterate (suffix deeper) reached.2.ahead reached

theorem shrinks_suffix (levels : Nat) : Shrinks Prod.snd (suffix (level levels)) := by
  intro reached later ended found
  obtain ⟨_, after, stepped, _, _, grows, shorter⟩ := suffix_cases (sound_level levels) found
  rw [stepped]
  exact ⟨grows.ended ended, shorter ended⟩

theorem onward_suffix
    {levels : Nat}
    {reached later : Kind × State}
    (found : suffix (level levels) reached = .next later) :
    Onward reached.2 later.2 := by
  obtain ⟨_, after, stepped, _, _, grows, _⟩ := suffix_cases (sound_level levels) found
  rw [stepped]
  exact ((Onward.record reached.2 .precede).trans grows.onward).trans (.record after _)

theorem onward_suffixes
    (levels : Nat)
    (reached : Kind × State) :
    Onward reached.2 (suffixes (level levels) reached).2 := by
  refine onward_iterate Prod.snd (fun _ _ found => onward_suffix found) ?_ _ reached
  intro before later found
  rw [suffix_last found]
  exact .refl before.2

theorem shrinks_operation (levels limit : Nat) :
    Shrinks id (operation (level levels) limit) := by
  intro state later ended found
  obtain ⟨after, rfl, grows⟩ := operation_cases (sound_level levels) found
  exact ⟨grows.ended ended, grows.ahead_length_lt ((carries_someToken _).mul _) ended⟩

theorem onward_operations
    (levels limit : Nat)
    (state : State) :
    Onward state (state.loop (operation (level levels) limit)) := by
  refine onward_iterate id (fun before later found => ?_) (fun before later found => ?_) _ state
  · obtain ⟨after, rfl, grows⟩ := operation_cases (sound_level levels) found
    exact ((Onward.record before .precede).trans grows.onward).trans (.record after _)
  · rw [operation_last found]
    exact .refl before

theorem shrinks_elseIfClause (levels : Nat) : Shrinks id (elseIfClause (level levels)) :=
  shrinks_of_grows (fun _ _ => grows_elseIfClause_next (sound_level levels)) (carries_node rfl)

theorem grows_suffixed
    (levels : Nat)
    (state : State) :
    Grows attempt state (suffixed (level levels) state).2 :=
  (reads_suffixed (sound_level levels) state).attempts.grows

theorem shrinks_statements
    (levels : Nat)
    (terminators : KindSet) :
    Shrinks id fun state =>
      if state.isAt .eof || state.isIn terminators then Turn.last state
      else .next (statement (level levels) state) :=
  shrinks_of_grows (fun _ _ => grows_statements_next (sound_level levels)) carries_statement

end LuaFold.Grammar
