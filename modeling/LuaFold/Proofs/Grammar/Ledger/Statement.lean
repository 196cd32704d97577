import LuaFold.Proofs.Grammar.Chunk
import LuaFold.Proofs.Grammar.Ledger.Expression

/-!
# The ledger of statements

What the clauses, names and lists of statements save, then every statement.  None spends more than
its tokens are worth.  The tightest is a loop over the values of an iterator of which only its
first token is there, in front of a token at which skipping stops: this token is worth nine
entries, the two it is lent are used as well, and there are eleven.
-/

namespace LuaFold.Grammar

open State

variable {deeper : Deeper}

/-! ## Conditionals and loops -/

/-- A clause begins with a token at which skipping stops, so that what it has lent is lost. -/
theorem saves_elseIfClause
    (thrifty : Thrifty deeper)
    {state later : State}
    (found : elseIfClause deeper state = .next later) :
    Saves 2 2 state later := by
  simp only [elseIfClause] at found
  split at found
  · next clause =>
    cases found
    have notEnd : state.current ≠ .eof := current_ne_eof_of_isAt clause (by decide)
    have opened := (Saves.refl state).start.take notEnd
    have condition : Saves 5 1 state (deeper.anyExpression state.start.advance) :=
      opened.pay (thrifty.anyExpression _) (by omega) (by omega)
    have separated : Saves 5 1 state ((deeper.anyExpression state.start.advance).expect .thenKw) :=
      condition.keep (.expect _ (by decide)) (by omega)
    have body : Saves 3 2 state
        (deeper.nestedBlock ((deeper.anyExpression state.start.advance).expect .thenKw)) :=
      separated.pay (thrifty.nestedBlock _) (by omega) (by omega)
    exact (body.complete .elseIfClause).mono (by omega)
  · cases found

theorem elseIfClause_last
    {state later : State}
    (found : elseIfClause deeper state = .last later) :
    later = state := by
  simp only [elseIfClause] at found
  split at found
  · cases found
  · cases found
    rfl

theorem pays_elseIfClauses
    (thrifty : Thrifty deeper)
    (state : State) :
    Pays 0 0 2 state (state.loop (elseIfClause deeper)) := by
  refine Pays.loop 2 (fun _ _ => saves_elseIfClause thrifty) ?_ (by omega) (by omega) state
  intro before later found
  rw [elseIfClause_last found]
  exact .refl before 2

theorem pays_elseClause
    (thrifty : Thrifty deeper)
    (state : State) :
    Pays 0 0 2 state (elseClause deeper state) := by
  simp only [elseClause]
  split
  · next clause =>
    have notEnd : state.current ≠ .eof := current_ne_eof_of_isAt clause (by decide)
    have opened := (Saves.refl state).start.take notEnd
    have body : Saves 3 2 state (deeper.nestedBlock state.start.advance) :=
      opened.pay (thrifty.nestedBlock _) (by omega) (by omega)
    exact Or.inr (body.complete .elseClause)
  · exact .refl state 2

theorem saves_ifStatement
    (thrifty : Thrifty deeper)
    {state : State}
    (moving : state.margin = 0) :
    Saves 0 2 state (ifStatement deeper state) := by
  have condition : Saves 7 1 state (deeper.anyExpression state.start.advance) :=
    (Saves.opened moving).pay (thrifty.anyExpression _) (by omega) (by omega)
  have separated : Saves 7 1 state ((deeper.anyExpression state.start.advance).expect .thenKw) :=
    condition.keep (.expect _ (by decide)) (by omega)
  have body : Saves 5 2 state _ :=
    separated.pay (thrifty.nestedBlock _) (by omega) (by omega)
  have clauses : Saves 5 2 state _ := body.pay (pays_elseIfClauses thrifty _) (by omega) (by omega)
  have alternative : Saves 5 2 state _ :=
    clauses.pay (pays_elseClause thrifty _) (by omega) (by omega)
  have closed : Saves 5 2 state _ :=
    alternative.keep (.expect _ (by decide : Kind.endKw ≠ .eof)) (by omega)
  exact (closed.complete .ifStmt).mono (by omega)

theorem pays_nameList (state : State) : Pays 2 0 4 state (nameList state) := by
  have name := Pays.expect state.start (by decide : Kind.name ≠ .eof)
  have others : Pays 0 0 8 (state.start.expect .name) _ :=
    Pays.separated (by decide : Kind.comma.isStop = false)
      (fun state => Pays.expect state (by decide : Kind.name ≠ .eof)) _ (by omega) (by omega)
      (by omega)
  have listed : Pays 0 0 6 state.start _ := name.trans others (by omega) (by omega) (by omega)
  exact listed.node .nameList (by omega)

/-- The block and the end of a loop, whose head has saved enough. -/
theorem saves_loopBody
    (thrifty : Thrifty deeper)
    {state headed : State}
    (saved : Saves 3 1 state headed)
    (kind : Kind) :
    Saves 0 2 state
      (((deeper.nestedBlock (headed.expect .doKw)).expect .endKw).complete kind) := by
  have head : Saves 3 1 state (headed.expect .doKw) :=
    saved.keep (.expect _ (by decide)) (by omega)
  have body : Saves 1 2 state (deeper.nestedBlock (headed.expect .doKw)) :=
    head.pay (thrifty.nestedBlock _) (by omega) (by omega)
  have closed : Saves 1 2 state ((deeper.nestedBlock (headed.expect .doKw)).expect .endKw) :=
    body.keep (.expect _ (by decide)) (by omega)
  exact closed.complete kind

theorem saves_numericRange
    (thrifty : Thrifty deeper)
    {state opened : State}
    (saved : Saves 7 0 state opened) :
    Saves 3 1 state (numericRange deeper opened) := by
  have named : Saves 7 0 state opened.advance := saved.keep (.advance _) (by omega)
  have counter : Saves 7 0 state opened.advance.advance :=
    named.keep (.advance _) (by omega)
  have first : Saves 7 1 state (deeper.anyExpression opened.advance.advance) :=
    counter.pay (thrifty.anyExpression _) (by omega) (by omega)
  have separated : Saves 7 1 state
      ((deeper.anyExpression opened.advance.advance).expect .comma) :=
    first.keep (.expect _ (by decide)) (by omega)
  have second : Saves 7 2 state _ :=
    separated.pay (thrifty.anyExpression _) (by omega) (by omega)
  simp only [numericRange]
  split
  · next comma =>
    have step : Saves 7 2 state _ := second.keep (.advance _) (by omega)
    exact step.pay (thrifty.anyExpression _) (by omega) (by omega)
  · exact second.mono (by omega)

theorem saves_forStatement
    (thrifty : Thrifty deeper)
    {state : State}
    (moving : state.margin = 0) :
    Saves 0 2 state (forStatement deeper state) := by
  have opened := Saves.opened moving
  simp only [forStatement]
  split
  · exact saves_loopBody thrifty (saves_numericRange thrifty opened) _
  · have names : Saves 5 0 state (nameList state.start.advance) :=
      opened.pay (pays_nameList _) (by omega) (by omega)
    have separated : Saves 5 0 state ((nameList state.start.advance).expect .inKw) :=
      names.keep (.expect _ (by decide)) (by omega)
    exact saves_loopBody thrifty (separated.pay (thrifty.expressionList _) (by omega) (by omega)) _

/-! ## Function definitions -/

theorem pays_functionName (state : State) : Pays 0 0 6 state (functionName state) := by
  simp only [functionName]
  split
  · next found =>
    have still := margin_eq_zero (isAt_iff.mp found) rfl
    have others : Pays 0 0 8 state.start.advance _ :=
      Pays.separated (by decide : Kind.dot.isStop = false)
        (fun state => Pays.expect state (by decide : Kind.name ≠ .eof)) _ (by omega) (by omega)
        (by omega)
    have dotted : Saves 7 0 state
        (state.start.advance.separated .dot fun state => state.expect .name) :=
      (Saves.opened still).pay others (by omega) (by omega)
    suffices closed : Saves 7 0 state _ from
      Or.inr ((closed.complete .funcName).mono (by omega))
    split
    · have colon : Saves 7 0 state _ := dotted.keep (.advance _) (by omega)
      exact colon.keep (.expect _ (by decide)) (by omega)
    · exact dotted
  · exact (Rests.report state _).pays 6

theorem saves_functionStatement
    (thrifty : Thrifty deeper)
    {state : State}
    (moving : state.margin = 0) :
    Saves 0 2 state (functionStatement deeper state) := by
  have named : Saves 7 0 state (functionName state.start.advance) :=
    (Saves.opened moving).keep (pays_functionName _) (by omega)
  have body : Saves 3 2 state (functionBody deeper (functionName state.start.advance)) :=
    named.pay (pays_functionBody thrifty _) (by omega) (by omega)
  exact (body.complete .functionStmt).mono (by omega)

theorem saves_localFunctionStatement
    (thrifty : Thrifty deeper)
    {state : State}
    (moving : state.margin = 0) :
    Saves 0 2 state (localFunctionStatement deeper state) := by
  have keyword : Saves 7 0 state state.start.advance.advance :=
    (Saves.opened moving).keep (.advance _) (by omega)
  have named : Saves 7 0 state (state.start.advance.advance.expect .name) :=
    keyword.keep (.expect _ (by decide)) (by omega)
  have body : Saves 3 2 state
      (functionBody deeper (state.start.advance.advance.expect .name)) :=
    named.pay (pays_functionBody thrifty _) (by omega) (by omega)
  exact (body.complete .localFunctionStmt).mono (by omega)

/-! ## Declarations and simple statements -/

theorem pays_localName (state : State) : Pays 2 0 4 state (localName state) := by
  have name := Pays.expect state.start (by decide : Kind.name ≠ .eof)
  suffices attributed : Pays 0 0 6 state.start _ from attributed.node .localName (by omega)
  split
  · next less =>
    have still := margin_eq_zero (isAt_iff.mp less) rfl
    have first : Saves 7 0 (state.start.expect .name) _ :=
      (Saves.opened still).keep (.expect _ (by decide : Kind.name ≠ .eof)) (by omega)
    have second : Saves 7 0 (state.start.expect .name) _ :=
      first.keep (.expect _ (by decide : Kind.gt ≠ .eof)) (by omega)
    have attributed : Pays 0 0 6 (state.start.expect .name) _ :=
      (second.complete .attrib).pays 0 0 (by omega)
    exact name.trans attributed (by omega) (by omega) (by omega)
  · exact name

theorem saves_localStatement
    (thrifty : Thrifty deeper)
    {state : State}
    (moving : state.margin = 0) :
    Saves 0 2 state (localStatement deeper state) := by
  have first : Saves 5 0 state (localName state.start.advance) :=
    (Saves.opened moving).pay (pays_localName _) (by omega) (by omega)
  have others : Pays 0 0 6 (localName state.start.advance) _ :=
    Pays.separated (by decide : Kind.comma.isStop = false) pays_localName _ (by omega) (by omega)
      (by omega)
  have names : Saves 5 0 state
      ((localName state.start.advance).separated .comma localName) :=
    first.pay others (by omega) (by omega)
  suffices valued : Saves 1 2 state _ from (valued.complete .localStmt).mono (by omega)
  split
  · have sign : Saves 5 0 state _ := names.keep (.advance _) (by omega)
    exact sign.pay (thrifty.expressionList _) (by omega) (by omega)
  · exact names.mono (by omega)

theorem saves_returnStatement
    (thrifty : Thrifty deeper)
    {state : State}
    (moving : state.margin = 0) :
    Saves 0 2 state (returnStatement deeper state) := by
  have opened := Saves.opened moving
  have valued : Saves 5 1 state
      (if state.start.advance.isIn (blockEnd.union (.ofList [.semicolon, .eof]))
        then state.start.advance else deeper.expressionList state.start.advance) := by
    split
    · exact opened.mono (by omega)
    · exact opened.pay (thrifty.expressionList _) (by omega) (by omega)
  have ended : Saves 5 1 state _ :=
    valued.keep (.accept _ (by decide : Kind.semicolon ≠ .eof)) (by omega)
  exact (ended.complete .returnStmt).mono (by omega)

/-! ## Assignments and calls -/

theorem saves_assignment
    (thrifty : Thrifty deeper)
    {base state : State}
    (saved : Saves 6 1 base state) :
    Saves 0 2 base (assignment deeper state) := by
  have others : Pays 0 0 8 state.precede _ :=
    Pays.separated (by decide : Kind.comma.isStop = false) (pays_suffixed thrifty) _ (by omega)
      (by omega) (by omega)
  have targets : Saves 5 1 base _ := saved.precede.pay others (by omega) (by omega)
  have sign : Saves 3 1 base _ :=
    (targets.complete .varList).precede.keep (.expect _ (by decide : Kind.eq ≠ .eof)) (by omega)
  have values : Saves 1 2 base _ := sign.pay (thrifty.expressionList _) (by omega) (by omega)
  exact values.complete .assignStmt

theorem pays_expressionStatement
    (thrifty : Thrifty deeper)
    (state : State) :
    Pays 0 0 0 state (expressionStatement deeper state) := by
  unfold expressionStatement
  split
  · next behind missed =>
    have first := pays_suffixed thrifty state
    rw [missed] at first
    exact first.mono (by omega) (by omega) (by omega)
  · next kind behind found =>
    have first := saves_suffixed thrifty found
    split
    · exact Or.inr (saves_assignment thrifty first)
    split
    · exact Or.inr ((first.precede.complete .callStmt).mono (by omega))
    · have wrapped := (first.report .expectedAssignmentOrCall).precede.complete .error
      exact Or.inr (wrapped.mono (by omega))

/-! ## Statements and blocks -/

/-- No statement spends more than its tokens are worth. -/
theorem pays_statement
    (thrifty : Thrifty deeper)
    (state : State) :
    Pays 0 0 0 state (statement deeper state) := by
  unfold statement
  split
  · next found =>
    have opened := Saves.opened (margin_eq_zero found rfl)
    exact Or.inr ((opened.complete .emptyStmt).mono (by omega))
  · next found =>
    have opened := Saves.opened (margin_eq_zero found rfl)
    have name : Saves 7 0 state _ :=
      opened.keep (.expect _ (by decide : Kind.name ≠ .eof)) (by omega)
    have closed : Saves 7 0 state _ :=
      name.keep (.expect _ (by decide : Kind.doubleColon ≠ .eof)) (by omega)
    exact Or.inr ((closed.complete .labelStmt).mono (by omega))
  · next found =>
    have opened := Saves.opened (margin_eq_zero found rfl)
    exact Or.inr ((opened.complete .breakStmt).mono (by omega))
  · next found =>
    have opened := Saves.opened (margin_eq_zero found rfl)
    have name : Saves 7 0 state _ :=
      opened.keep (.expect _ (by decide : Kind.name ≠ .eof)) (by omega)
    exact Or.inr ((name.complete .gotoStmt).mono (by omega))
  · next found =>
    have opened := Saves.opened (margin_eq_zero found rfl)
    have body : Saves 5 2 state _ := opened.pay (thrifty.nestedBlock _) (by omega) (by omega)
    have closed : Saves 5 2 state _ :=
      body.keep (.expect _ (by decide : Kind.endKw ≠ .eof)) (by omega)
    exact Or.inr ((closed.complete .doStmt).mono (by omega))
  · next found =>
    have opened := Saves.opened (margin_eq_zero found rfl)
    have condition : Saves 3 1 state _ :=
      opened.pay (thrifty.anyExpression _) (by omega) (by omega)
    exact Or.inr (saves_loopBody thrifty condition .whileStmt)
  · next found =>
    have opened := Saves.opened (margin_eq_zero found rfl)
    have body : Saves 5 2 state _ := opened.pay (thrifty.nestedBlock _) (by omega) (by omega)
    have closed : Saves 5 2 state _ :=
      body.keep (.expect _ (by decide : Kind.untilKw ≠ .eof)) (by omega)
    have condition : Saves 4 2 state _ :=
      closed.pay (thrifty.anyExpression _) (by omega) (by omega)
    exact Or.inr ((condition.complete .repeatStmt).mono (by omega))
  · next found => exact Or.inr (saves_ifStatement thrifty (margin_eq_zero found rfl))
  · next found => exact Or.inr (saves_forStatement thrifty (margin_eq_zero found rfl))
  · next found => exact Or.inr (saves_functionStatement thrifty (margin_eq_zero found rfl))
  · next found =>
    have still := margin_eq_zero found rfl
    split
    · exact Or.inr (saves_localFunctionStatement thrifty still)
    · exact Or.inr (saves_localStatement thrifty still)
  · next found => exact Or.inr (saves_returnStatement thrifty (margin_eq_zero found rfl))
  · exact pays_expressionStatement thrifty state
  · exact pays_expressionStatement thrifty state
  · exact (pays_reportAndAdvance state _).mono (by omega) (by omega) (by omega)

theorem pays_statements
    (thrifty : Thrifty deeper)
    (terminators : KindSet)
    (state : State) :
    Pays 0 0 0 state (statements deeper terminators state) := by
  refine Pays.loop 0 ?_ ?_ (by omega) (by omega) state
  · intro before later found
    split at found
    · cases found
    · cases found
      exact (Saves.refl before).pay (pays_statement thrifty before) (by omega) (by omega)
  · intro before later found
    split at found
    · cases found
      exact .refl before 0
    · cases found

/-- The rules of every nesting level spend little where they take nothing, and save otherwise. -/
theorem thrifty_level (levels : Nat) : Thrifty (level levels) := by
  induction levels with
  | zero =>
      refine ⟨fun _ state => ?_, fun _ state => ?_⟩
      · exact (pays_skip state).mono (by omega) (by omega) (by omega)
      · exact (pays_skip state).mono (by omega) (by omega) (by omega)
  | succ levels ih =>
      refine ⟨fun terminators state => ?_, fun limit state => ?_⟩
      · exact (pays_statements ih terminators state).mono (by omega) (by omega) (by omega)
      · exact (pays_operations ih limit state).mono (by omega) (by omega) (by omega)

/-! ## Whole texts -/

/-- The block of a text takes all of its tokens but the last. -/
theorem position_blockOf
    {kinds : List Kind}
    (absent : Kind.eof ∉ kinds) :
    (blockOf (kinds ++ [.eof])).position = kinds.length := by
  have forms : State.Forms .block (State.initial (kinds ++ [.eof])).start
      (blockOf (kinds ++ [.eof])) := forms_block (sound_level maximalDepth) .empty _
  obtain ⟨_, block, extended, _, _⟩ := forms (ended_initial absent)
  have taken : kinds ++ [.eof] = (Shape.node .block block).leaves ++ [.eof] := by
    have ahead := extended.ahead
    rw [ahead_blockOf absent] at ahead
    exact ahead
  have position := extended.position
  rw [← List.append_cancel_right taken] at position
  exact position.trans (Nat.zero_add _)

/-- The actions of a text add at most nine entries to a log for each of its tokens. -/
theorem countP_run_le
    {kinds : List Kind}
    (absent : Kind.eof ∉ kinds) :
    (run (kinds ++ [.eof])).1.countP Action.isEntry ≤ 9 * (kinds ++ [Kind.eof]).length := by
  have block := (thrifty_level maximalDepth).block .empty (State.initial (kinds ++ [.eof])).start
  have position := position_blockOf absent
  have spent : (blockOf (kinds ++ [.eof])).entries ≤ 9 * kinds.length + 5 := by
    have lent := (State.initial (kinds ++ [.eof])).start.margin_le_one
    have left := (blockOf (kinds ++ [.eof])).margin_le_one
    have begun : (State.initial (kinds ++ [.eof])).start.entries = 1 := rfl
    have start : (State.initial (kinds ++ [.eof])).start.position = 0 := rfl
    rcases block with rests | saves
    · have added : (blockOf (kinds ++ [.eof])).entries ≤ _ := rests.entries
      omega
    · have saved : 9 * ((State.initial (kinds ++ [.eof])).start.position : Int) + _ +
          (blockOf (kinds ++ [.eof])).entries + -2 ≤
            9 * (blockOf (kinds ++ [.eof])).position + _ +
              ((2 : Nat) : Int) * (blockOf (kinds ++ [.eof])).margin := saves
      omega
  have whole : (run (kinds ++ [.eof])).1.countP Action.isEntry =
      (blockOf (kinds ++ [.eof])).entries + 2 := by
    rw [run_eq, List.countP_append, List.countP_reverse]
    rfl
  rw [whole, List.length_append, List.length_singleton]
  omega

end LuaFold.Grammar
