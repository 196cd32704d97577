import LuaFold.Proofs.Grammar.Rule

/-!
# Growth by expressions

Where an expression is found, it is one formed node of an expression kind, and suffixes and
operators start further ones around it.  Where none is found, an error node is left or nothing.
-/

namespace LuaFold.Grammar

open scoped Computability
open Form State

variable {deeper : Deeper}

/-- One formed expression between two states. -/
def FormsExpression (before after : State) : Prop :=
  before.Ended → ∃ kind, kind.isExpression = true ∧ Forms kind before after

/-- What an attempt at an expression leaves, which knows whether it found one. -/
def Attempts (before : State) (found : Bool) (after : State) : Prop :=
  if found then FormsExpression before after
  else Grows (optional (node .error)) before after

theorem FormsExpression.grows
    {before after : State}
    (forms : FormsExpression before after) :
    Grows Form.expression before after := by
  refine Grows.ofEnded fun ended => ?_
  obtain ⟨kind, isExpression, formsKind⟩ := forms ended
  exact (Grows.ofForms formsKind).mono (node_le_someNode isExpression)

theorem Attempts.grows
    {before after : State}
    {found : Bool}
    (attempts : Attempts before found after) :
    Grows attempt before after := by
  cases found with
  | true =>
      refine ((FormsExpression.grows attempts).mono ?_).optional
      exact someNode_le fun kind isExpression => Or.inl isExpression
  | false =>
      refine Grows.mono attempts ?_
      exact add_le_add le_rfl (node_le_someNode (Or.inr rfl))

theorem FormsExpression.around
    {before middle after : State}
    {kind : Kind}
    {form : Form}
    (forms : FormsExpression before middle)
    (isExpression : kind.isExpression = true)
    (grows : Grows form middle.precede after)
    (fits : kind.form = Form.expression * form) :
    FormsExpression before (after.complete kind) := by
  intro ended
  obtain ⟨inner, isInner, formsInner⟩ := forms ended
  refine ⟨kind, isExpression, formsInner.around grows ?_⟩
  rw [fits]
  exact mul_le_mul' (node_le_someNode isInner) le_rfl

/-! ## Tables and arguments -/

theorem grows_fieldContent
    (sound : Sound deeper)
    (state : State) :
    Grows (Kind.form .tableField) state (fieldContent deeper state) := by
  simp only [fieldContent]
  split
  · next bracket =>
    have key := ((Grows.take (isAt_iff.mp bracket) (by decide)).trans
      (grows_anyExpression sound _)).trans (.expect _ (by decide : Kind.rightBracket ≠ .eof))
    have value := (key.trans (.expect _ (by decide : Kind.eq ≠ .eof)))
    refine ((value.mono (le_left _ _)).optional).trans (grows_anyExpression sound _)
  split
  · next named =>
    simp only [Bool.and_eq_true, decide_eq_true_eq] at named
    obtain ⟨isName, isEq⟩ := named
    have here : state.current ≠ .eof := by
      rw [isAt_iff.mp isName]
      decide
    have name := Grows.take (isAt_iff.mp isName) (by decide)
    have equals := name.trans
      (Grows.take ((current_advance here).trans isEq) (by decide))
    exact ((equals.mono (le_right _ _)).optional).trans (grows_anyExpression sound _)
  · exact ((Grows.refl state).omitted _).trans (grows_anyExpression sound _)

/-- Whatever stands in a table field holds a token. -/
theorem holds_tableField :
    Holds (fun kind => kind.isSolid = true) (Kind.form .tableField) := by
  have tried : Holds (fun kind => kind.isSolid = true) attempt := by
    refine (holds_someNode fun kind passed => ?_).optional
    rcases passed with isExpression | rfl
    · simp [Kind.isSolid, isExpression]
    · rfl
  have key := (((holds_token .leftBracket).mul tried).mul
    (holds_token .rightBracket).optional).mul (holds_token .eq).optional
  have name : Holds (fun kind => kind.isSolid = true) (token .name * token .eq) :=
    (holds_token .name).mul (holds_token .eq)
  exact ((key.add name).optional).mul tried

theorem grows_field_next
    (sound : Sound deeper)
    {state later : State}
    (found : field deeper state = .next later) :
    Grows (node .tableField * (token .comma + token .semicolon)) state later := by
  simp only [field] at found
  split at found
  · cases found
  split at found
  · cases found
  have content : Forms .tableField state
      ((fieldContent deeper state.start).complete .tableField) :=
    .complete (grows_fieldContent sound state.start)
  split at found
  · next separated =>
    cases found
    refine (Grows.ofForms content).trans ?_
    rcases Bool.or_eq_true _ _ |>.mp separated with comma | semicolon
    · exact (Grows.take (isAt_iff.mp comma) (by decide)).mono (le_left _ _)
    · exact (Grows.take (isAt_iff.mp semicolon) (by decide)).mono (le_right _ _)
  · cases found

theorem grows_field_last
    (sound : Sound deeper)
    {state later : State}
    (found : field deeper state = .last later) :
    Grows (optional (node .tableField)) state later := by
  simp only [field] at found
  split at found
  · cases found
    exact (Grows.refl state).omitted _
  split at found
  · next stuck =>
    cases found
    have nothing := (grows_fieldContent sound state.start).nothing holds_tableField stuck
    exact Grows.omitted nothing.abandon _
  split at found
  · cases found
  · cases found
    exact (Grows.ofForms (.complete (grows_fieldContent sound state.start))).optional

theorem forms_table
    (sound : Sound deeper)
    {state : State}
    (found : state.current = .leftBrace) :
    Forms .tableExpr state (table deeper state) := by
  have opened : Grows (token .leftBrace) state.start state.start.advance :=
    .take found (by decide)
  have listed := Grows.loop state.start.advance (fun _ _ => grows_field_next sound)
    (((carries_token .comma).add (carries_token .semicolon)).behind _)
    (fun _ _ => grows_field_last sound)
  exact .complete ((opened.trans listed).trans (.expect _ (by decide)))

/-- What stands in the arguments of a call that are not missing. -/
def filledArguments : Form :=
  token .leftParen * optional (node .exprList) * optional (token .rightParen)
    + node .tableExpr + token .string

theorem carries_filledArguments :
    Carries (fun kind => kind.isSolid = true) filledArguments := by
  have list : Carries (fun kind => kind.isSolid = true)
      (token .leftParen * optional (node .exprList) * optional (token .rightParen)) :=
    ((carries_token .leftParen).mul _).mul _
  have table : Carries (fun kind => kind.isSolid = true) (node .tableExpr) := carries_node rfl
  exact (list.add table).add (carries_token .string)

/-- Whether one of the tokens that begin the arguments of a call is current. -/
def beginsArguments (state : State) : Bool :=
  state.isAt .leftParen || state.isAt .string || state.isAt .leftBrace

/-- Arguments are missing only where none of the tokens that begin them is current. -/
theorem arguments_cases
    (sound : Sound deeper)
    (state : State) :
    ∃ filled, arguments deeper state = filled.complete .argList ∧
      (Grows filledArguments state.start filled ∨
        beginsArguments state = false ∧ Grows 1 state.start filled) := by
  refine ⟨_, rfl, ?_⟩
  split
  · next parenthesis =>
    have opened : Grows (token .leftParen) state.start state.start.advance :=
      .take (isAt_iff.mp parenthesis) (by decide)
    have inside : Grows (optional (node .exprList)) state.start.advance
        (if state.start.advance.isAt .rightParen then state.start.advance
          else deeper.expressionList state.start.advance) := by
      split
      · exact (Grows.refl _).omitted _
      · exact (grows_expressionList sound _).optional
    have closed := (opened.trans inside).trans
      (.expect _ (by decide : Kind.rightParen ≠ .eof))
    exact Or.inl ((closed.mono (le_left _ _)).mono (le_left _ _))
  split
  · next brace =>
    have constructed := Grows.ofForms (forms_table sound (isAt_iff.mp brace))
    exact Or.inl ((constructed.mono (le_right _ _)).mono (le_left _ _))
  split
  · next quoted =>
    exact Or.inl ((Grows.take (isAt_iff.mp quoted) (by decide)).mono (le_right _ _))
  · next noParenthesis noBrace noString =>
    refine Or.inr ⟨?_, .report state.start _⟩
    simp only [isAt_iff, current_start] at noParenthesis noBrace noString
    simp [beginsArguments, isAt, noParenthesis, noBrace, noString]

theorem grows_arguments
    (sound : Sound deeper)
    (state : State) :
    Grows (node .argList) state (arguments deeper state) := by
  obtain ⟨filled, same, grows | ⟨_, grows⟩⟩ := arguments_cases sound state
  · rw [same]
    exact .ofForms (.complete grows.optional)
  · rw [same]
    exact .ofForms (.complete (grows.omitted _))

/-- Arguments that are not missing take a token. -/
theorem arguments_ahead_lt
    (sound : Sound deeper)
    {state : State}
    (begins : beginsArguments state = true)
    (ended : state.Ended) :
    (arguments deeper state).ahead.length < state.ahead.length := by
  obtain ⟨filled, same, grows | ⟨missing, _⟩⟩ := arguments_cases sound state
  · rw [same]
    exact grows.ahead_length_lt carries_filledArguments ended
  · rw [begins] at missing
    cases missing

/-! ## Suffixes -/

/-- An expression of a known kind, or what is left where there is none. -/
def Reads (before : State) (result : Option Kind × State) : Prop :=
  before.Ended →
    (∃ kind, result.1 = some kind ∧ kind.isExpression = true ∧ Forms kind before result.2) ∨
      (result.1 = none ∧ Grows (optional (node .error)) before result.2)

theorem Reads.attempts
    {before : State}
    {result : Option Kind × State}
    (reads : Reads before result) :
    Attempts before result.1.isSome result.2 := by
  obtain ⟨kind?, after⟩ := result
  cases kind? with
  | none =>
      refine Grows.ofEnded fun ended => ?_
      rcases reads ended with ⟨kind, found, _⟩ | ⟨_, grows⟩
      · cases found
      · exact grows
  | some kind =>
      intro ended
      rcases reads ended with ⟨kind, _, isExpression, forms⟩ | ⟨missed, _⟩
      · exact ⟨kind, isExpression, forms⟩
      · cases missed

theorem reads_primary
    (sound : Sound deeper)
    (state : State) :
    Reads state (primary deeper state) := by
  intro _
  simp only [primary]
  split
  · next name =>
    exact Or.inl ⟨.nameRef, rfl, rfl, .single (isAt_iff.mp name) (by decide) le_rfl⟩
  split
  · next parenthesis =>
    have opened : Grows (token .leftParen) state.start state.start.advance :=
      .take (isAt_iff.mp parenthesis) (by decide)
    exact Or.inl ⟨.parenExpr, rfl, rfl, .complete
      ((opened.trans (grows_anyExpression sound _)).trans (.expect _ (by decide)))⟩
  · exact Or.inr ⟨rfl, grows_recover state _ _⟩

/-- One formed expression of the kind that is known. -/
def Reaches (before : State) (reached : Kind × State) : Prop :=
  reached.1.isExpression = true ∧ Forms reached.1 before reached.2

/-- A suffix adds the rest of its node behind the expression before it, and takes a token. -/
theorem suffix_cases
    (sound : Sound deeper)
    {reached later : Kind × State}
    (found : suffix deeper reached = .next later) :
    ∃ form after,
      later.2 = after.complete later.1 ∧
      later.1.isExpression = true ∧
      later.1.form = Form.expression * form ∧
      Grows form reached.2.precede after ∧
      (reached.2.Ended → after.ahead.length < reached.2.ahead.length) := by
  obtain ⟨kind, state⟩ := reached
  simp only [suffix] at found
  split at found
  · next dot =>
    cases found
    have opened : Grows (token .dot) state.precede state.precede.advance :=
      .take (isAt_iff.mp dot) (by decide)
    have named := opened.trans (.expect _ (by decide : Kind.name ≠ .eof))
    exact ⟨_, _, rfl, rfl, rfl, named, named.ahead_length_lt ((carries_token .dot).mul _)⟩
  split at found
  · next bracket =>
    cases found
    have opened : Grows (token .leftBracket) state.precede state.precede.advance :=
      .take (isAt_iff.mp bracket) (by decide)
    have closed := (opened.trans (grows_anyExpression sound _)).trans
      (.expect _ (by decide : Kind.rightBracket ≠ .eof))
    exact ⟨_, _, rfl, rfl, rfl, closed,
      closed.ahead_length_lt (((carries_token .leftBracket).mul _).mul _)⟩
  split at found
  · next colon =>
    cases found
    have opened : Grows (token .colon) state.precede state.precede.advance :=
      .take (isAt_iff.mp colon) (by decide)
    have called := (opened.trans (.expect _ (by decide : Kind.name ≠ .eof))).trans
      (grows_arguments sound _)
    exact ⟨_, _, rfl, rfl, rfl, called,
      called.ahead_length_lt (((carries_token .colon).mul _).mul _)⟩
  split at found
  · next begins =>
    cases found
    exact ⟨_, _, rfl, rfl, rfl, grows_arguments sound _,
      fun ended => arguments_ahead_lt sound begins ended⟩
  · cases found

/-- A suffix starts an expression around the one before it, and takes a token. -/
theorem suffix_next
    (sound : Sound deeper)
    {base : State}
    {reached later : Kind × State}
    (reaches : Reaches base reached)
    (found : suffix deeper reached = .next later)
    (ended : base.Ended) :
    Reaches base later ∧ later.2.ahead.length < reached.2.ahead.length := by
  obtain ⟨kind, state⟩ := reached
  obtain ⟨isExpression, forms⟩ := reaches
  obtain ⟨form, after, stepped, isOuter, outerForm, grows, shorter⟩ := suffix_cases sound found
  have fits : node kind * form ≤ later.1.form := by
    rw [outerForm]
    exact mul_le_mul' (node_le_someNode isExpression) le_rfl
  have outer : Forms later.1 base later.2 := by
    rw [stepped]
    exact forms.around grows fits
  refine ⟨⟨isOuter, outer⟩, ?_⟩
  rw [stepped]
  exact shorter (forms.ended ended)

theorem suffix_last
    {reached later : Kind × State}
    (found : suffix deeper reached = .last later) :
    later = reached := by
  simp only [suffix] at found
  repeat' split at found
  all_goals first
    | (cases found; rfl)
    | cases found

theorem reads_suffixed
    (sound : Sound deeper)
    (state : State) :
    Reads state (suffixed deeper state) := by
  intro ended
  have start := reads_primary sound state ended
  unfold suffixed
  generalize primary deeper state = first at start ⊢
  obtain ⟨result, behind⟩ := first
  rcases start with ⟨kind, found, isExpression, forms⟩ | ⟨missed, grows⟩
  · cases found
    have begun : Reaches state (kind, behind) := ⟨isExpression, forms⟩
    obtain ⟨final, reached, found⟩ := iterate_ends (suffix deeper) (Reaches state)
      (fun reached => reached.2.ahead.length)
      (fun _ _ reached found => suffix_next sound reached found ended)
      (fun _ reached => (Forms.ended reached.2 ended).ahead_length_pos) behind.ahead
      begun le_rfl
    simp only [suffix_last found]
    exact Or.inl ⟨_, rfl, reached.1, reached.2⟩
  · cases missed
    exact Or.inr ⟨rfl, grows⟩

/-! ## Operands and operators -/

theorem attempts_simpleExpression
    (sound : Sound deeper)
    (state : State) :
    Attempts state (simpleExpression deeper state).1 (simpleExpression deeper state).2 := by
  have literal : ∀ kind, state.current = kind → kind ≠ .eof →
      (kind = .number ∨ kind = .string ∨ kind = .nilKw ∨ kind = .trueKw ∨ kind = .falseKw) →
      Attempts state true (state.start.advance.complete .literal) := by
    intro kind found notEnd isLiteral
    exact fun _ => ⟨.literal, rfl, .single found notEnd (token_le_someToken isLiteral)⟩
  unfold simpleExpression
  split
  · next found => exact literal .number found (by decide) (by simp)
  · next found => exact literal .string found (by decide) (by simp)
  · next found => exact literal .nilKw found (by decide) (by simp)
  · next found => exact literal .trueKw found (by decide) (by simp)
  · next found => exact literal .falseKw found (by decide) (by simp)
  · next found => exact fun _ => ⟨.varargExpr, rfl, .single found (by decide) le_rfl⟩
  · next found => exact fun _ => ⟨.tableExpr, rfl, forms_table sound found⟩
  · next found =>
    have opened : Grows (token .functionKw) state.start state.start.advance :=
      .take found (by decide)
    exact fun _ => ⟨.functionExpr, rfl,
      .complete (opened.trans (.ofForms (forms_functionBody sound _)))⟩
  · exact (reads_suffixed sound state).attempts

theorem attempts_operand
    (sound : Sound deeper)
    (state : State) :
    Attempts state (operand deeper state).1 (operand deeper state).2 := by
  have unary : ∀ kind, state.current = kind → kind ≠ .eof →
      (kind = .notKw ∨ kind = .minus ∨ kind = .hash ∨ kind = .tilde) →
      Attempts state true
        ((deeper.expression unaryPower state.start.advance).complete .prefixExpr) := by
    intro kind found notEnd isUnary
    have sign : Grows (token kind) state.start state.start.advance := .take found notEnd
    exact fun _ => ⟨.prefixExpr, rfl,
      .complete ((sign.mono (token_le_someToken isUnary)).trans (sound.expression _ _))⟩
  unfold operand
  split
  · next found => exact unary .notKw found (by decide) (by simp)
  · next found => exact unary .minus found (by decide) (by simp)
  · next found => exact unary .hash found (by decide) (by simp)
  · next found => exact unary .tilde found (by decide) (by simp)
  · exact attempts_simpleExpression sound state

/-- An operation adds its operator and its right operand behind the operand before it. -/
theorem operation_cases
    (sound : Sound deeper)
    {limit : Nat}
    {state later : State}
    (found : operation deeper limit state = .next later) :
    ∃ after, later = after.complete .binaryExpr ∧
      Grows (someToken (fun kind => binaryPower? kind ≠ none) * attempt) state.precede after := by
  simp only [operation] at found
  split at found
  · cases found
  · next right isOperator =>
    split at found
    · cases found
    · cases found
      have binary : binaryPower? state.current ≠ none := by simp [isOperator]
      have notEnd : state.current ≠ .eof := by
        intro isEnd
        exact binary (by rw [isEnd]; rfl)
      have sign : Grows (token state.current) state.precede state.precede.advance :=
        .take rfl notEnd
      exact ⟨_, rfl, (sign.mono (token_le_someToken binary)).trans (sound.expression right _)⟩

/-- An operation starts an expression around the operand before it, and takes a token. -/
theorem operation_next
    (sound : Sound deeper)
    {limit : Nat}
    {base state later : State}
    (forms : FormsExpression base state)
    (found : operation deeper limit state = .next later)
    (ended : base.Ended) :
    FormsExpression base later ∧ later.ahead.length < state.ahead.length := by
  obtain ⟨after, rfl, grows⟩ := operation_cases sound found
  have here : state.Ended := forms.grows.ended ended
  exact ⟨forms.around rfl grows rfl, grows.ahead_length_lt ((carries_someToken _).mul _) here⟩

theorem operation_last
    {limit : Nat}
    {state later : State}
    (found : operation deeper limit state = .last later) :
    later = state := by
  simp only [operation] at found
  repeat' split at found
  all_goals first
    | (cases found; rfl)
    | cases found

theorem grows_operations
    (sound : Sound deeper)
    (limit : Nat)
    (state : State) :
    Grows attempt state (operations deeper limit state) := by
  refine Grows.ofEnded fun ended => ?_
  have start := attempts_operand sound state
  unfold operations
  generalize operand deeper state = first at start ⊢
  obtain ⟨found, behind⟩ := first
  cases found with
  | false => exact Attempts.grows start
  | true =>
      obtain ⟨final, reached, found⟩ := iterate_ends (operation deeper limit)
        (FormsExpression state) (fun state => state.ahead.length)
        (fun _ _ reached found => operation_next sound reached found ended)
        (fun _ reached => (reached.grows.ended ended).ahead_length_pos) behind.ahead start le_rfl
      have looped : Attempts state true (behind.loop (operation deeper limit)) := by
        rw [State.loop, operation_last found]
        exact reached
      exact looped.grows

end LuaFold.Grammar
