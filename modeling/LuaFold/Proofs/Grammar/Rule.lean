import LuaFold.Grammar.Chunk
import LuaFold.Proofs.Grammar.Growth

/-!
# Growth by recovery, by blocks and by functions

Recovery from a fault leaves one error node around tokens, or nothing.  The rules of a nesting
level are sound when they add statements and at most one expression, whatever tokens are
ahead.  Blocks, lists and function bodies then have their forms, also where a fault cuts them
short.
-/

namespace LuaFold.Grammar

open scoped Computability
open Form

/-- What a round leads to. -/
def Turn.reached {Value : Type} : Turn Value → Value
  | .next value | .last value => value

namespace State

@[simp]
theorem current_start (state : State) : state.start.current = state.current :=
  rfl

theorem isAt_iff
    {state : State}
    {kind : Kind} :
    state.isAt kind = true ↔ state.current = kind := by
  simp [isAt]

/-- Behind a token that is taken stands the one that followed it. -/
theorem current_advance
    {state : State}
    (notEnd : state.current ≠ .eof) :
    state.advance.current = state.following := by
  have stepped := (Extends.advance notEnd).ahead
  simp only [following, stepped]
  rfl

/-- Only a token that is not the end of the text is followed by another. -/
theorem Ended.current_ne_eof
    {state : State}
    (ended : state.Ended)
    (more : state.following ≠ .eof) :
    state.current ≠ .eof := by
  obtain ⟨kinds, ahead, absent⟩ := ended
  cases kinds with
  | nil => simp [following, ahead] at more
  | cons kind others =>
      intro isEnd
      simp only [current, ahead, List.cons_append, List.headD_cons] at isEnd
      exact absent (by simp [isEnd])

/-- A growth may use that the end of the text is ahead. -/
theorem Grows.ofEnded
    {form : Form}
    {before after : State}
    (grows : before.Ended → Grows form before after) :
    Grows form before after :=
  fun ended => grows ended ended

end State

open State

/-! ## Recovery from faults -/

theorem grows_reportAndAdvance
    {state : State}
    (fault : SyntaxFault)
    (notEnd : state.current ≠ .eof) :
    Forms .error state (state.reportAndAdvance fault) := by
  have wrapped : state.reportAndAdvance fault =
      ((state.start.report fault).advance).complete .error := by
    simp [reportAndAdvance, isAt, notEnd]
  rw [wrapped]
  have grown : Grows (1 * token state.current) state.start (state.start.report fault).advance :=
    (Grows.report state.start fault).trans (Grows.advance notEnd)
  refine Forms.complete (grown.mono ?_)
  calc
    1 * token state.current = token state.current * 1 := by rw [one_mul, mul_one]
    _ ≤ anyToken * anyToken∗ :=
        mul_le_mul' (token_le_someToken notEnd) (one_le_kstar anyToken)
    _ ≤ Kind.form .error := le_right _ _

theorem grows_recover
    (state : State)
    (fault : SyntaxFault)
    (usable : KindSet) :
    Grows (optional (node .error)) state (state.recover fault usable) := by
  unfold recover reportAndAdvance
  split
  · exact (Grows.report state fault).omitted _
  · split
    · exact (Grows.report state fault).omitted _
    · next notUsable notEnd =>
      have forms := grows_reportAndAdvance fault (mt isAt_iff.mpr notEnd)
      rw [reportAndAdvance, if_neg notEnd] at forms
      exact (Grows.ofForms forms).optional

/-- A round of skipping that is not the last takes a token. -/
theorem skipToken_next
    {inside later : Nat × State}
    (found : skipToken inside = .next later) :
    inside.2.current ≠ .eof ∧ later.2 = inside.2.advance := by
  simp only [skipToken] at found
  split at found
  · cases found
  · next notEnd =>
    refine ⟨mt isAt_iff.mpr notEnd, ?_⟩
    repeat' split at found
    all_goals first
      | (cases found; rfl)
      | cases found

theorem skipToken_last
    {inside later : Nat × State}
    (found : skipToken inside = .last later) :
    later = inside := by
  simp only [skipToken] at found
  repeat' split at found
  all_goals first
    | (cases found; rfl)
    | cases found

/-- What is skipped is tokens, up to one that closes the construct. -/
theorem grows_skipBalanced (state : State) : Grows anyToken∗ state state.skipBalanced := by
  refine Grows.ofEnded fun ended => ?_
  have start : Grows anyToken∗ state ((0, state) : Nat × State).2 :=
    (Grows.refl state).mono (one_le_kstar _)
  have next : ∀ inside later : Nat × State, Grows anyToken∗ state inside.2 →
      skipToken inside = .next later →
      Grows anyToken∗ state later.2 ∧ later.2.ahead.length < inside.2.ahead.length := by
    intro inside later grown found
    obtain ⟨notEnd, stepped⟩ := skipToken_next found
    have token : Grows anyToken inside.2 inside.2.advance :=
      (Grows.advance notEnd).mono (token_le_someToken notEnd)
    rw [stepped]
    exact ⟨grown.repeated token,
      token.ahead_length_lt (carries_someToken _) (grown.ended ended)⟩
  obtain ⟨final, grown, found⟩ := iterate_ends skipToken
    (fun inside => Grows anyToken∗ state inside.2) (fun inside => inside.2.ahead.length) next
    (fun inside grown => (grown.ended ended).ahead_length_pos) state.ahead start le_rfl
  rw [skipBalanced, skipToken_last found]
  exact grown

/-- Skipping the rest of a construct leaves one error node, or nothing. -/
theorem grows_skip (state : State) : Grows (optional (node .error)) state state.skip := by
  have skipped : Grows (1 * anyToken∗) state.start
      (state.start.report .nestingTooDeep).skipBalanced :=
    (Grows.report state.start _).trans (grows_skipBalanced _)
  rw [one_mul] at skipped
  simp only [skip]
  split
  · next stuck =>
    have nothing := skipped.nothing (holds_someToken _).kstar stuck
    exact Grows.omitted nothing.abandon _
  · next moved =>
    rw [← Language.one_add_self_mul_kstar_eq_kstar] at skipped
    refine (Grows.ofForms (Forms.complete ?_)).optional
    exact (skipped.something moved).mono (le_right _ _)

/-! ## Blocks and lists -/

/-- The rules of a nesting level add statements and at most one expression. -/
structure Sound (deeper : Deeper) : Prop where
  statements (terminators : KindSet) (state : State) :
    Grows Form.statement∗ state (deeper.statements terminators state)
  expression (limit : Nat) (state : State) :
    Grows attempt state (deeper.expression limit state)

variable {deeper : Deeper}

theorem forms_block
    (sound : Sound deeper)
    (terminators : KindSet)
    (state : State) :
    Forms .block state (deeper.block terminators state) :=
  .complete (sound.statements terminators state.start)

theorem grows_nestedBlock
    (sound : Sound deeper)
    (state : State) :
    Grows (node .block) state (deeper.nestedBlock state) :=
  .ofForms (forms_block sound blockEnd state)

theorem grows_anyExpression
    (sound : Sound deeper)
    (state : State) :
    Grows attempt state (deeper.anyExpression state) :=
  sound.expression 0 state

theorem grows_expressionList
    (sound : Sound deeper)
    (state : State) :
    Grows (node .exprList) state (deeper.expressionList state) := by
  refine .ofForms (.complete ?_)
  exact (grows_anyExpression sound state.start).trans
    (.separated _ (by decide) (grows_anyExpression sound))

/-! ## Functions -/

theorem grows_parameter_next
    {state later : State}
    (found : parameter state = .next later) :
    Grows (node .param * token .comma) state later := by
  simp only [parameter] at found
  split at found
  · cases found
  split at found
  · next named =>
    split at found
    · next comma =>
      cases found
      have name : Forms .param state (state.start.advance.complete .param) :=
        .single (isAt_iff.mp named) (by decide) (le_left _ _)
      exact (Grows.ofForms name).trans (.take (isAt_iff.mp comma) (by decide))
    · cases found
  split at found
  · cases found
  · cases found

theorem grows_parameter_last
    {state later : State}
    (found : parameter state = .last later) :
    Grows (optional (node .param)) state later := by
  simp only [parameter] at found
  split at found
  · cases found
    exact (Grows.refl state).omitted _
  split at found
  · next named =>
    split at found
    · cases found
    · cases found
      have name : Forms .param state (state.start.advance.complete .param) :=
        .single (isAt_iff.mp named) (by decide) (le_left _ _)
      exact (Grows.ofForms name).optional
  split at found
  · next dots =>
    cases found
    have rest : Forms .param state (state.start.advance.complete .param) :=
      .single (isAt_iff.mp dots) (by decide) (le_right _ _)
    exact (Grows.ofForms rest).optional
  · cases found
    exact (Grows.report state _).omitted _

theorem grows_parameters
    {state : State}
    (found : state.current = .leftParen) :
    Grows (node .paramList) state (parameters state) := by
  refine .ofForms (.complete ?_)
  have opened : Grows (token .leftParen) state.start state.start.advance :=
    .take found (by decide)
  have listed := Grows.loop state.start.advance (fun _ _ => grows_parameter_next)
    ((carries_token .comma).behind _) (fun _ _ => grows_parameter_last)
  exact (opened.trans listed).trans (.expect _ (by decide))

/-- A function body holds its parameters, its block and its `end` and nothing else. -/
theorem forms_functionBody
    (sound : Sound deeper)
    (state : State) :
    Forms .funcBody state (functionBody deeper state) := by
  have headed : Grows (optional (node .paramList)) state.start
      (if state.start.isAt .leftParen then parameters state.start
        else state.start.report (.expected .leftParen)) := by
    split
    · next found => exact (grows_parameters (isAt_iff.mp found)).optional
    · exact (Grows.report state.start _).omitted _
  exact .complete ((headed.trans (grows_nestedBlock sound _)).trans (.expect _ (by decide)))

end LuaFold.Grammar
