import LuaFold.Grammar.Statement
import LuaFold.Proofs.Grammar.Expression

/-!
# Growth by statements

Every token but the end of the text begins a statement or is put into an error node, so a round
of a block that is not its last takes a token and adds exactly one node.
-/

namespace LuaFold.Grammar

open scoped Computability
open Form State

variable {deeper : Deeper}

/-! ## Conditions and loops -/

theorem grows_elseIfClause_next
    (sound : Sound deeper)
    {state later : State}
    (found : elseIfClause deeper state = .next later) :
    Grows (node .elseIfClause) state later := by
  simp only [elseIfClause] at found
  split at found
  · next isElseif =>
    cases found
    have opened : Grows (token .elseifKw) state.start state.start.advance :=
      .take (isAt_iff.mp isElseif) (by decide)
    have condition := (opened.trans (grows_anyExpression sound _)).trans
      (.expect _ (by decide : Kind.thenKw ≠ .eof))
    exact .ofForms (.complete (condition.trans (grows_nestedBlock sound _)))
  · cases found

theorem grows_elseIfClause_last
    {state later : State}
    (found : elseIfClause deeper state = .last later) :
    Grows 1 state later := by
  simp only [elseIfClause] at found
  split at found
  · cases found
  · cases found
    exact .refl state

theorem grows_elseClause
    (sound : Sound deeper)
    (state : State) :
    Grows (optional (node .elseClause)) state (elseClause deeper state) := by
  unfold elseClause
  split
  · next isElse =>
    have opened : Grows (token .elseKw) state.start state.start.advance :=
      .take (isAt_iff.mp isElse) (by decide)
    have clause : Forms .elseClause state _ :=
      .complete (opened.trans (grows_nestedBlock sound _))
    exact (Grows.ofForms clause).optional
  · exact (Grows.refl state).omitted _

theorem forms_ifStatement
    (sound : Sound deeper)
    {state : State}
    (found : state.current = .ifKw) :
    Forms .ifStmt state (ifStatement deeper state) := by
  have opened : Grows (token .ifKw) state.start state.start.advance :=
    .take found (by decide)
  have condition := (opened.trans (grows_anyExpression sound _)).trans
    (.expect _ (by decide : Kind.thenKw ≠ .eof))
  have body := condition.trans (grows_nestedBlock sound _)
  have clauses := body.trans (Grows.loop _
    (fun _ _ => grows_elseIfClause_next sound) (carries_node rfl)
    (fun _ _ => grows_elseIfClause_last))
  rw [mul_one] at clauses
  exact .complete ((clauses.trans (grows_elseClause sound _)).trans (.expect _ (by decide)))

theorem grows_nameList (state : State) : Grows (node .nameList) state (nameList state) := by
  refine .ofForms (.complete ?_)
  exact (Grows.expect state.start (by decide)).trans
    (.separated _ (by decide) fun state => .expect state (by decide))

theorem grows_numericRange
    (sound : Sound deeper)
    {state : State}
    (found : state.following = .eq) :
    Grows (anyToken * token .eq * attempt * optional (token .comma) * attempt
      * optional (token .comma * attempt)) state (numericRange deeper state) := by
  refine Grows.ofEnded fun ended => ?_
  have notEnd : state.current ≠ .eof := ended.current_ne_eof (by simp [found])
  have name : Grows anyToken state state.advance :=
    (Grows.advance notEnd).mono (token_le_someToken notEnd)
  have equals : Grows (token .eq) state.advance state.advance.advance :=
    .take ((current_advance notEnd).trans found) (by decide)
  have first := (name.trans equals).trans (grows_anyExpression sound _)
  have second := (first.trans (.expect _ (by decide : Kind.comma ≠ .eof))).trans
    (grows_anyExpression sound _)
  simp only [numericRange]
  refine second.trans ?_
  split
  · next comma =>
    have separator := Grows.take (isAt_iff.mp comma) (by decide)
    exact (separator.trans (grows_anyExpression sound _)).optional
  · exact (Grows.refl _).omitted _

theorem forms_forStatement
    (sound : Sound deeper)
    {state : State}
    (found : state.current = .forKw) :
    ∃ kind, kind.isStatement = true ∧ Forms kind state (forStatement deeper state) := by
  have opened : Grows (token .forKw) state.start state.start.advance :=
    .take found (by decide)
  by_cases numeric : state.start.advance.following = .eq
  · refine ⟨.numericForStmt, rfl, ?_⟩
    simp only [forStatement, numeric, ↓reduceIte]
    have headed := opened.trans (grows_numericRange sound numeric)
    have body := (headed.trans (.expect _ (by decide : Kind.doKw ≠ .eof))).trans
      (grows_nestedBlock sound _)
    exact .complete (body.trans (.expect _ (by decide)))
  · refine ⟨.genericForStmt, rfl, ?_⟩
    simp only [forStatement, numeric, ↓reduceIte]
    have names := (grows_nameList state.start.advance).trans
      (.expect _ (by decide : Kind.inKw ≠ .eof))
    have headed := opened.trans (names.trans (grows_expressionList sound _))
    have body := (headed.trans (.expect _ (by decide : Kind.doKw ≠ .eof))).trans
      (grows_nestedBlock sound _)
    exact .complete (body.trans (.expect _ (by decide)))

/-! ## Function definitions -/

theorem grows_functionName (state : State) :
    Grows (optional (node .funcName)) state (functionName state) := by
  simp only [functionName]
  split
  · next named =>
    refine (Grows.ofForms (.complete ?_)).optional
    have name : Grows (token .name) state.start state.start.advance :=
      .take (isAt_iff.mp named) (by decide)
    have dotted := name.trans (.separated state.start.advance (by decide : Kind.dot ≠ .eof)
      fun state => .expect state (by decide : Kind.name ≠ .eof))
    refine dotted.trans ?_
    split
    · next colon =>
      exact ((Grows.take (isAt_iff.mp colon) (by decide)).trans
        (.expect _ (by decide))).optional
    · exact (Grows.refl _).omitted _
  · exact (Grows.report state _).omitted _

/-- A definition under a global name holds `function`, the name and the body, nothing else. -/
theorem forms_functionStatement
    (sound : Sound deeper)
    {state : State}
    (found : state.current = .functionKw) :
    Forms .functionStmt state (functionStatement deeper state) := by
  have opened : Grows (token .functionKw) state.start state.start.advance :=
    .take found (by decide)
  exact .complete ((opened.trans (grows_functionName _)).trans
    (.ofForms (forms_functionBody sound _)))

theorem forms_localFunctionStatement
    (sound : Sound deeper)
    {state : State}
    (found : state.current = .localKw)
    (more : state.following = .functionKw) :
    Forms .localFunctionStmt state (localFunctionStatement deeper state) := by
  have notEnd : state.start.current ≠ .eof := by simp [found]
  have opened : Grows (token .localKw) state.start state.start.advance :=
    .take found (by decide)
  have keyword : Grows (token .functionKw) state.start.advance state.start.advance.advance :=
    .take ((current_advance notEnd).trans more) (by decide)
  have named := (opened.trans keyword).trans (.expect _ (by decide : Kind.name ≠ .eof))
  exact .complete (named.trans (.ofForms (forms_functionBody sound _)))

/-! ## Declarations and simple statements -/

theorem grows_localName (state : State) : Grows (node .localName) state (localName state) := by
  refine .ofForms (.complete ?_)
  refine (Grows.expect state.start (by decide)).trans ?_
  split
  · next less =>
    refine (Grows.ofForms (.complete ?_)).optional
    have opened : Grows (token .lt) (state.start.expect .name).start
        (state.start.expect .name).start.advance :=
      .take (isAt_iff.mp less) (by decide)
    exact (opened.trans (.expect _ (by decide))).trans (.expect _ (by decide))
  · exact (Grows.refl _).omitted _

theorem forms_localStatement
    (sound : Sound deeper)
    {state : State}
    (found : state.current = .localKw) :
    Forms .localStmt state (localStatement deeper state) := by
  have opened : Grows (token .localKw) state.start state.start.advance :=
    .take found (by decide)
  have names := (opened.trans (grows_localName _)).trans
    (.separated _ (by decide : Kind.comma ≠ .eof) grows_localName)
  refine .complete (names.trans ?_)
  split
  · next equals =>
    exact ((Grows.take (isAt_iff.mp equals) (by decide)).trans
      (grows_expressionList sound _)).optional
  · exact (Grows.refl _).omitted _

theorem forms_returnStatement
    (sound : Sound deeper)
    {state : State}
    (found : state.current = .returnKw) :
    Forms .returnStmt state (returnStatement deeper state) := by
  have opened : Grows (token .returnKw) state.start state.start.advance :=
    .take found (by decide)
  refine .complete (Grows.trans (opened.trans ?_) (.accept _ (by decide)))
  split
  · exact (Grows.refl _).omitted _
  · exact (grows_expressionList sound _).optional

/-! ## Assignments and calls -/

theorem forms_assignment
    (sound : Sound deeper)
    {kind : Kind}
    {base state : State}
    (isExpression : kind.isExpression = true)
    (forms : Forms kind base state) :
    Forms .assignStmt base (assignment deeper state) := by
  have others : Grows (token .comma * attempt)∗ state.precede
      (state.precede.separated .comma fun state => (suffixed deeper state).2) :=
    .separated _ (by decide) fun state => (reads_suffixed sound state).attempts.grows
  have targets : Forms .varList base _ :=
    forms.around others (mul_le_mul' (node_le_someNode isExpression) le_rfl)
  exact targets.around
    ((Grows.expect _ (by decide)).trans (grows_expressionList sound _)) le_rfl

/-- A name or a parenthesis begins an expression. -/
theorem suffixed_isSome
    {state : State}
    (found : state.current = .name ∨ state.current = .leftParen) :
    (suffixed deeper state).1 ≠ none := by
  unfold suffixed primary
  rcases found with name | parenthesis
  · simp [isAt, name]
  · simp [isAt, parenthesis]

theorem forms_expressionStatement
    (sound : Sound deeper)
    {state : State}
    (ended : state.Ended)
    (found : state.current = .name ∨ state.current = .leftParen) :
    ∃ kind, (kind.isStatement = true ∨ kind = .error) ∧
      Forms kind state (expressionStatement deeper state) := by
  have reads := reads_suffixed sound state ended
  have some : (suffixed deeper state).1 ≠ none := suffixed_isSome found
  unfold expressionStatement
  generalize suffixed deeper state = first at reads some ⊢
  obtain ⟨result, behind⟩ := first
  rcases reads with ⟨kind, same, isExpression, forms⟩ | ⟨missed, _⟩
  · cases same
    simp only
    split
    · exact ⟨.assignStmt, Or.inl rfl, forms_assignment sound isExpression forms⟩
    split
    · next isCall =>
      refine ⟨.callStmt, Or.inl rfl, forms.around (.refl _) ?_⟩
      rw [mul_one]
      rcases Bool.or_eq_true _ _ |>.mp isCall with call | method
      · rw [of_decide_eq_true call]
        exact le_left _ _
      · rw [of_decide_eq_true method]
        exact le_right _ _
    · refine ⟨.error, Or.inr rfl, (forms.report _).around (.refl _) ?_⟩
      rw [mul_one]
      exact (node_le_someNode isExpression).trans (le_left _ _)
  · exact absurd missed some

/-! ## Statements and blocks -/

/-- One statement, or an error node, where the text is not at its end. -/
theorem forms_statement
    (sound : Sound deeper)
    {state : State}
    (ended : state.Ended)
    (notEnd : state.current ≠ .eof) :
    ∃ kind, (kind.isStatement = true ∨ kind = .error) ∧
      Forms kind state (statement deeper state) := by
  have known : ∀ {kind : Kind} {later : State}, kind.isStatement = true →
      Forms kind state later →
      ∃ kind, (kind.isStatement = true ∨ kind = .error) ∧ Forms kind state later :=
    fun isStatement forms => ⟨_, Or.inl isStatement, forms⟩
  have first : ∀ kind, state.current = kind → kind ≠ .eof →
      Grows (token kind) state.start state.start.advance :=
    fun kind found notEnd => .take found notEnd
  unfold statement
  split
  · next found => exact known rfl (.single found (by decide) le_rfl)
  · next found =>
    have name := (first .doubleColon found (by decide)).trans
      (.expect _ (by decide : Kind.name ≠ .eof))
    exact known rfl (.complete (name.trans (.expect _ (by decide))))
  · next found => exact known rfl (.single found (by decide) le_rfl)
  · next found =>
    exact known rfl (.complete
      ((first .gotoKw found (by decide)).trans (.expect _ (by decide))))
  · next found =>
    have body := (first .doKw found (by decide)).trans (grows_nestedBlock sound _)
    exact known rfl (.complete (body.trans (.expect _ (by decide))))
  · next found =>
    have condition := (first .whileKw found (by decide)).trans (grows_anyExpression sound _)
    have body := (condition.trans (.expect _ (by decide : Kind.doKw ≠ .eof))).trans
      (grows_nestedBlock sound _)
    exact known rfl (.complete (body.trans (.expect _ (by decide))))
  · next found =>
    have body := (first .repeatKw found (by decide)).trans (grows_nestedBlock sound _)
    have closed := body.trans (.expect _ (by decide : Kind.untilKw ≠ .eof))
    exact known rfl (.complete (closed.trans (grows_anyExpression sound _)))
  · next found => exact known rfl (forms_ifStatement sound found)
  · next found =>
    obtain ⟨kind, isStatement, forms⟩ := forms_forStatement sound found
    exact known isStatement forms
  · next found => exact known rfl (forms_functionStatement sound found)
  · next found =>
    split
    · next more => exact known rfl (forms_localFunctionStatement sound found more)
    · exact known rfl (forms_localStatement sound found)
  · next found => exact known rfl (forms_returnStatement sound found)
  · next found => exact forms_expressionStatement sound ended (Or.inl found)
  · next found => exact forms_expressionStatement sound ended (Or.inr found)
  · exact ⟨.error, Or.inr rfl, grows_reportAndAdvance _ notEnd⟩

theorem grows_statement
    (sound : Sound deeper)
    {state : State}
    (notEnd : state.current ≠ .eof) :
    Grows Form.statement state (statement deeper state) := by
  refine Grows.ofEnded fun ended => ?_
  obtain ⟨kind, isStatement, forms⟩ := forms_statement sound ended notEnd
  exact (Grows.ofForms forms).mono (node_le_someNode isStatement)

/-- A statement, or an error node in its place, holds a token. -/
theorem carries_statement :
    Carries (fun kind => kind.isSolid = true) Form.statement := by
  refine carries_someNode fun kind tested => ?_
  rcases tested with isStatement | rfl
  · simp [Kind.isSolid, isStatement]
  · rfl

/-- A round of a block that is not its last. -/
theorem grows_statements_next
    (sound : Sound deeper)
    {terminators : KindSet}
    {state later : State}
    (found : (if state.isAt .eof || state.isIn terminators then Turn.last state
      else .next (statement deeper state)) = .next later) :
    Grows Form.statement state later := by
  split at found
  · cases found
  · next more =>
    cases found
    refine grows_statement sound fun isEnd => more ?_
    simp [isAt, isEnd]

theorem grows_statements
    (sound : Sound deeper)
    (terminators : KindSet)
    (state : State) :
    Grows Form.statement∗ state (statements deeper terminators state) := by
  rw [← mul_one Form.statement∗]
  refine Grows.loop state (fun _ _ => grows_statements_next sound) carries_statement ?_
  intro before later found
  split at found
  · cases found
    exact .refl before
  · cases found

/-- The rules of every nesting level are sound. -/
theorem sound_level (remaining : Nat) : Sound (level remaining) := by
  induction remaining with
  | zero =>
      -- at the deepest level a block or an expression is skipped, which leaves an error node
      refine ⟨fun _ state => ?_, fun _ state => ?_⟩
      · refine (grows_skip state).mono ?_
        rw [← Language.one_add_self_mul_kstar_eq_kstar, Form.optional]
        refine add_le_add le_rfl ?_
        calc
          node .error = node .error * 1 := (mul_one _).symm
          _ ≤ Form.statement * Form.statement∗ :=
              mul_le_mul' (node_le_someNode (Or.inr rfl)) (one_le_kstar _)
      · refine (grows_skip state).mono ?_
        exact add_le_add le_rfl (node_le_someNode (Or.inr rfl))
  | succ remaining ih =>
      exact ⟨grows_statements ih, grows_operations ih⟩

end LuaFold.Grammar
