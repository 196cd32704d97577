import LuaFold.Proofs.Grammar.Expression
import LuaFold.Proofs.Grammar.Ledger

/-!
# The ledger of expressions

What recovery, blocks and lists spend and save, then function bodies and expressions.  A rule of a
nesting level may stop without taking anything, and where it takes something it may not spend more
than that is worth; of an expression two entries have to be left for a table field around it.
-/

namespace LuaFold.Grammar

open State

/-! ## Recovery from faults -/

theorem pays_reportAndAdvance
    (state : State)
    (fault : SyntaxFault) :
    Pays 0 0 4 state (state.reportAndAdvance fault) := by
  unfold reportAndAdvance
  split
  · exact (Rests.report state fault).pays 4
  · next notEnd =>
    have begun := (Saves.refl state).start.report fault
    exact Or.inr ((begun.take (mt isAt_iff.mpr notEnd)).complete .error |>.mono (by omega))

theorem pays_recover
    (state : State)
    (fault : SyntaxFault)
    (usable : KindSet) :
    Pays 0 0 4 state (state.recover fault usable) := by
  unfold recover
  split
  · exact (Rests.report state fault).pays 4
  · exact pays_reportAndAdvance state fault

/-- Tokens that are skipped save what they are worth. -/
theorem pays_skipToken
    (tokens : List Kind)
    (inside : Nat × State) :
    Pays 0 0 6 inside.2 (iterate skipToken tokens inside).2 := by
  refine Pays.iterate Prod.snd 6 ?_ ?_ (by omega) (by omega) tokens inside
  · intro before later found
    obtain ⟨notEnd, taken⟩ := skipToken_next found
    rw [taken]
    exact ((Saves.refl before.2).take notEnd).mono (by omega)
  · intro before later found
    rw [skipToken_last found]
    exact .refl before.2 6

theorem skipToken_of_isStop
    {state : State}
    (stopped : state.current.isStop = true) :
    skipToken (0, state) = .last (0, state) := by
  simp only [skipToken, isAt, isIn]
  generalize state.current = kind at stopped ⊢
  cases kind
  all_goals first
    | rfl
    | exact absurd stopped (by decide)

theorem skipToken_of_moving
    {state : State}
    (moving : state.current.isStop = false) :
    ∃ depth, skipToken (0, state) = .next (depth, state.advance) := by
  simp only [skipToken, isAt, isIn]
  generalize state.current = kind at moving ⊢
  cases kind
  all_goals first
    | exact ⟨0, rfl⟩
    | exact ⟨1, rfl⟩
    | exact absurd moving (by decide)

/-- Where skipping stops, nothing is skipped. -/
theorem skipBalanced_of_isStop
    {state : State}
    (stopped : state.current.isStop = true) :
    state.skipBalanced = state := by
  unfold skipBalanced
  cases state.ahead with
  | nil => rfl
  | cons kind kinds => rw [iterate, skipToken_of_isStop stopped]

/-- Where skipping goes on, a token is skipped. -/
theorem saves_skipBalanced
    {state : State}
    (moving : state.current.isStop = false) :
    Saves 8 0 state state.skipBalanced := by
  have still := margin_eq_zero rfl moving
  have taken := (Saves.ofMoving still).take (current_ne_eof still)
  obtain ⟨depth, first⟩ := skipToken_of_moving moving
  unfold skipBalanced
  cases ahead : state.ahead with
  | nil => exact absurd (by simp [current, ahead]) (current_ne_eof still)
  | cons kind kinds =>
      rw [iterate, first]
      exact taken.keep (pays_skipToken kinds (depth, state.advance)) (by omega)

/-- Skipping spends an entry only where it stops at once. -/
theorem pays_skip (state : State) : Pays 0 1 6 state state.skip := by
  have opened : Rests 1 0 state (state.start.report .nestingTooDeep) :=
    (Rests.start state).trans (.report state.start _)
  simp only [skip]
  cases stopped : (state.start.report .nestingTooDeep).current.isStop with
  | false =>
      have skipped : Saves 7 0 state (state.start.report .nestingTooDeep).skipBalanced :=
        (opened.save (saves_skipBalanced stopped)).mono (by omega)
      split
      · exact Or.inr (skipped.abandon.mono (by omega))
      · exact Or.inr ((skipped.complete .error).mono (by omega))
  | true =>
      have lent : state.margin = 1 := if_pos stopped
      have kept : (state.start.report .nestingTooDeep).position = state.position := rfl
      rw [skipBalanced_of_isStop stopped, if_pos kept]
      refine Or.inl ⟨rfl, rfl, ?_⟩
      have spent := opened.entries
      rw [entries_abandon, lent]
      omega

/-! ## Blocks and lists -/

/-- The rules of a nesting level spend little where they take nothing, and save otherwise. -/
structure Thrifty (deeper : Deeper) : Prop where
  statements (terminators : KindSet) (state : State) :
    Pays 0 1 0 state (deeper.statements terminators state)
  expression (limit : Nat) (state : State) : Pays 0 1 2 state (deeper.expression limit state)

variable {deeper : Deeper}

theorem Thrifty.block
    (thrifty : Thrifty deeper)
    (terminators : KindSet)
    (state : State) :
    Pays 2 1 (-2) state (deeper.block terminators state) :=
  (thrifty.statements terminators state.start).node .block (by omega)

theorem Thrifty.nestedBlock
    (thrifty : Thrifty deeper)
    (state : State) :
    Pays 2 1 (-2) state (deeper.nestedBlock state) :=
  thrifty.block blockEnd state

theorem Thrifty.anyExpression
    (thrifty : Thrifty deeper)
    (state : State) :
    Pays 0 1 2 state (deeper.anyExpression state) :=
  thrifty.expression 0 state

theorem Thrifty.expressionList
    (thrifty : Thrifty deeper)
    (state : State) :
    Pays 2 1 0 state (deeper.expressionList state) := by
  have first := thrifty.anyExpression state.start
  have others : Pays 0 0 7 (deeper.anyExpression state.start) _ :=
    Pays.separated (by decide : Kind.comma.isStop = false) thrifty.anyExpression _ (by omega)
      (by omega) (by omega)
  have listed : Pays 0 1 2 state.start _ := first.trans others (by omega) (by omega) (by omega)
  exact listed.node .exprList (by omega)

/-! ## Function bodies -/

theorem saves_parameter_next
    {state later : State}
    (found : parameter state = .next later) :
    Saves 6 2 state later := by
  simp only [parameter] at found
  split at found
  · cases found
  split at found
  · next named =>
    have still : state.margin = 0 := margin_eq_zero (isAt_iff.mp named) rfl
    have name := (Saves.opened still).complete .param
    split at found
    · next comma =>
      cases found
      exact (name.take (current_ne_eof_of_isAt comma (by decide))).mono (by omega)
    · cases found
  split at found
  · cases found
  · cases found

theorem pays_parameter_last
    {state later : State}
    (found : parameter state = .last later) :
    Pays 0 0 6 state later := by
  simp only [parameter] at found
  split at found
  · cases found
    exact .refl state 6
  split at found
  · next named =>
    have still : state.margin = 0 := margin_eq_zero (isAt_iff.mp named) rfl
    split at found
    · cases found
    · cases found
      exact Or.inr (((Saves.opened still).complete .param).mono (by omega))
  split at found
  · next dots =>
    have still : state.margin = 0 := margin_eq_zero (isAt_iff.mp dots) rfl
    cases found
    exact Or.inr (((Saves.opened still).complete .param).mono (by omega))
  · cases found
    exact (Rests.report state _).pays 6

theorem saves_parameters
    {state : State}
    (found : state.current = .leftParen) :
    Saves 6 0 state (parameters state) := by
  have still := margin_eq_zero found rfl
  have listed : Saves 7 0 state (state.start.advance.loop parameter) :=
    (Saves.opened still).pay (Pays.loop 6 (fun _ _ => saves_parameter_next)
      (fun _ _ => pays_parameter_last) (by omega) (by omega) _) (by omega) (by omega)
  have closed : Saves 7 0 state ((state.start.advance.loop parameter).expect .rightParen) :=
    listed.keep (.expect _ (by decide)) (by omega)
  exact closed.complete .paramList

/-- A body without its parameters, its statements and its `end` is two empty nodes. -/
theorem pays_functionBody
    (thrifty : Thrifty deeper)
    (state : State) :
    Pays 4 1 (-4) state (functionBody deeper state) := by
  have headed : Pays 0 0 6 state.start
      (if state.start.isAt .leftParen then parameters state.start
        else state.start.report (.expected .leftParen)) := by
    split
    · next found => exact Or.inr ((saves_parameters (isAt_iff.mp found)).mono (by omega))
    · exact (Rests.report state.start _).pays 6
  have block : Pays 2 1 (-2) state.start _ :=
    headed.trans (thrifty.nestedBlock _) (by omega) (by omega) (by omega)
  have closed : Pays 2 1 (-2) state.start _ :=
    block.trans (.expect _ (by decide : Kind.endKw ≠ .eof)) (by omega) (by omega) (by omega)
  exact closed.node .funcBody (by omega)

/-! ## Tables and arguments -/

theorem pays_fieldContent
    (thrifty : Thrifty deeper)
    (state : State) :
    Pays 0 1 2 state (fieldContent deeper state) := by
  simp only [fieldContent]
  split
  · next bracket =>
    have still : state.margin = 0 := margin_eq_zero (isAt_iff.mp bracket) rfl
    have opened := (Saves.ofMoving still).take (current_ne_eof still)
    have key : Saves 8 1 state (deeper.anyExpression state.advance) :=
      opened.pay (thrifty.anyExpression _) (by omega) (by omega)
    have closed : Saves 8 1 state ((deeper.anyExpression state.advance).expect .rightBracket) :=
      key.keep (.expect _ (by decide)) (by omega)
    have assigned : Saves 8 1 state
        (((deeper.anyExpression state.advance).expect .rightBracket).expect .eq) :=
      closed.keep (.expect _ (by decide)) (by omega)
    exact Or.inr (assigned.pay (thrifty.anyExpression _) (by omega) (by omega))
  split
  · next named =>
    have isName : state.current = .name := isAt_iff.mp (Bool.and_eq_true_iff.mp named).1
    have still := margin_eq_zero isName rfl
    have name := (Saves.ofMoving still).take (current_ne_eof still)
    have assigned : Saves 8 0 state state.advance.advance :=
      name.keep (.advance _) (by omega)
    exact Or.inr (assigned.pay (thrifty.anyExpression _) (by omega) (by omega))
  · exact thrifty.anyExpression state

/-- A field that is kept holds a token. -/
theorem saves_tableField
    (thrifty : Thrifty deeper)
    {state : State}
    (moved : (fieldContent deeper state.start).position ≠ state.position) :
    Saves 0 2 state ((fieldContent deeper state.start).complete .tableField) := by
  rcases pays_fieldContent thrifty state.start with rests | saves
  · exact absurd rests.position moved
  · exact ((((Rests.start state).save saves)).complete .tableField).mono (by omega)

theorem saves_field_next
    (thrifty : Thrifty deeper)
    {state later : State}
    (found : field deeper state = .next later) :
    Saves 6 2 state later := by
  simp only [field] at found
  split at found
  · cases found
  split at found
  · cases found
  · next moved =>
    have kept := saves_tableField thrifty moved
    split at found
    · next separated =>
      cases found
      have notEnd : ((fieldContent deeper state.start).complete .tableField).current ≠ .eof := by
        rcases Bool.or_eq_true_iff.mp separated with comma | semicolon
        · exact current_ne_eof_of_isAt comma (by decide)
        · exact current_ne_eof_of_isAt semicolon (by decide)
      exact (kept.take notEnd).mono (by omega)
    · cases found

theorem pays_field_last
    (thrifty : Thrifty deeper)
    {state later : State}
    (found : field deeper state = .last later) :
    Pays 1 1 0 state later := by
  simp only [field] at found
  split at found
  · cases found
    exact ((Rests.refl state).mono (by omega) (by omega)).pays 0
  split at found
  · cases found
    rcases pays_fieldContent thrifty state.start with rests | saves
    · exact Or.inl (((Rests.start state).trans rests).abandon.mono (by omega) (by omega))
    · exact Or.inr (((Rests.start state).save saves).abandon.mono (by omega))
  · next moved =>
    split at found
    · cases found
    · cases found
      exact Or.inr (saves_tableField thrifty moved)

theorem saves_table
    (thrifty : Thrifty deeper)
    {state : State}
    (moving : state.margin = 0) :
    Saves 5 1 state (table deeper state) := by
  have fields : Saves 6 1 state (state.start.advance.loop (field deeper)) :=
    (Saves.opened moving).pay (Pays.loop 6 (fun _ _ => saves_field_next thrifty)
      (fun _ _ => pays_field_last thrifty) (by omega) (by omega) _) (by omega) (by omega)
  have closed : Saves 6 1 state ((state.start.advance.loop (field deeper)).expect .rightBrace) :=
    fields.keep (.expect _ (by decide)) (by omega)
  exact closed.complete .tableExpr

theorem saves_arguments
    (thrifty : Thrifty deeper)
    {state : State}
    (found : (state.isAt .leftParen || state.isAt .string || state.isAt .leftBrace) = true) :
    Saves 3 1 state (arguments deeper state) := by
  simp only [Bool.or_eq_true, isAt_iff] at found
  simp only [arguments]
  split
  · next paren =>
    have still : state.margin = 0 := margin_eq_zero (isAt_iff.mp paren) rfl
    have inside : Saves 5 1 state (if state.start.advance.isAt .rightParen
        then state.start.advance else deeper.expressionList state.start.advance) := by
      split
      · exact (Saves.opened still).mono (by omega)
      · exact (Saves.opened still).pay (thrifty.expressionList _) (by omega) (by omega)
    have closed : Saves 5 1 state ((if state.start.advance.isAt .rightParen
        then state.start.advance else deeper.expressionList state.start.advance).expect
          .rightParen) := inside.keep (.expect _ (by decide)) (by omega)
    exact (closed.complete .argList).mono (by omega)
  split
  · next brace =>
    have still : state.start.margin = 0 := margin_eq_zero (isAt_iff.mp brace) rfl
    have constructed := (Rests.start state).save (saves_table thrifty still)
    exact (constructed.complete .argList).mono (by omega)
  split
  · next string =>
    have still : state.margin = 0 := margin_eq_zero (isAt_iff.mp string) rfl
    exact ((Saves.opened still).complete .argList).mono (by omega)
  · next notParen notBrace notString =>
    rcases found with (paren | string) | brace
    · exact absurd (isAt_iff.mpr paren) notParen
    · exact absurd (isAt_iff.mpr string) notString
    · exact absurd (isAt_iff.mpr brace) notBrace

/-- Where there are no arguments an empty node stands for them. -/
theorem pays_arguments
    (thrifty : Thrifty deeper)
    (state : State) :
    Pays 2 0 3 state (arguments deeper state) := by
  cases found : state.start.isAt .leftParen || state.start.isAt .string ||
      state.start.isAt .leftBrace with
  | true =>
      have called : Saves 3 1 state _ := saves_arguments thrifty found
      exact Or.inr (called.mono (by omega))
  | false =>
      simp only [Bool.or_eq_false_iff] at found
      obtain ⟨⟨notParen, notString⟩, notBrace⟩ := found
      have missing : arguments deeper state =
          (state.start.report .expectedArguments).complete .argList := by
        simp only [arguments]
        rw [if_neg (Bool.eq_false_iff.mp notParen), if_neg (Bool.eq_false_iff.mp notBrace),
          if_neg (Bool.eq_false_iff.mp notString)]
      rw [missing]
      exact (((Rests.start state).trans (.report state.start _)).record rfl).pays 3

/-! ## Operands -/

theorem saves_primary
    (thrifty : Thrifty deeper)
    {state reached : State}
    {kind : Kind}
    (found : primary deeper state = (some kind, reached)) :
    Saves 6 1 state reached := by
  simp only [primary] at found
  split at found
  · next name =>
    have still : state.margin = 0 := margin_eq_zero (isAt_iff.mp name) rfl
    cases found
    exact ((Saves.opened still).complete .nameRef).mono (by omega)
  split at found
  · next paren =>
    have still : state.margin = 0 := margin_eq_zero (isAt_iff.mp paren) rfl
    cases found
    have inside : Saves 7 1 state (deeper.anyExpression state.start.advance) :=
      (Saves.opened still).pay (thrifty.anyExpression _) (by omega) (by omega)
    have closed : Saves 7 1 state ((deeper.anyExpression state.start.advance).expect .rightParen) :=
      inside.keep (.expect _ (by decide)) (by omega)
    exact closed.complete .parenExpr
  · cases found

theorem pays_primary_none
    {state reached : State}
    (found : primary deeper state = (none, reached)) :
    Pays 0 0 4 state reached := by
  simp only [primary] at found
  split at found
  · cases found
  split at found
  · cases found
  · cases found
    exact pays_recover state _ _

theorem saves_suffix
    (thrifty : Thrifty deeper)
    {reached later : Kind × State}
    (found : suffix deeper reached = .next later) :
    Saves 1 2 reached.2 later.2 := by
  obtain ⟨kind, state⟩ := reached
  have opened : ∀ {sign : Kind}, state.isAt sign = true → sign.isStop = false →
      Saves 7 0 state state.precede.advance := by
    intro sign here moving
    have still := margin_eq_zero (isAt_iff.mp here) moving
    exact ((Saves.ofMoving still).precede.take (current_ne_eof still)).mono (by omega)
  simp only [suffix] at found
  split at found
  · next dot =>
    cases found
    have named : Saves 7 0 state (state.precede.advance.expect .name) :=
      (opened dot rfl).keep (.expect _ (by decide)) (by omega)
    exact (named.complete .fieldExpr).mono (by omega)
  split at found
  · next bracket =>
    cases found
    have inside : Saves 7 1 state (deeper.anyExpression state.precede.advance) :=
      (opened bracket rfl).pay (thrifty.anyExpression _) (by omega) (by omega)
    have closed : Saves 7 1 state
        ((deeper.anyExpression state.precede.advance).expect .rightBracket) :=
      inside.keep (.expect _ (by decide)) (by omega)
    exact (closed.complete .indexExpr).mono (by omega)
  split at found
  · next colon =>
    cases found
    have named : Saves 7 0 state (state.precede.advance.expect .name) :=
      (opened colon rfl).keep (.expect _ (by decide)) (by omega)
    have called : Saves 5 0 state (arguments deeper (state.precede.advance.expect .name)) :=
      named.pay (pays_arguments thrifty _) (by omega) (by omega)
    exact (called.complete .methodCallExpr).mono (by omega)
  split at found
  · next argument =>
    cases found
    have preceded : Rests 1 0 state state.precede := (Rests.refl state).record rfl
    have listed : Saves 3 1 state.precede _ := saves_arguments thrifty argument
    exact ((preceded.save listed).complete .callExpr).mono (by omega)
  · cases found

theorem pays_suffixes
    (thrifty : Thrifty deeper)
    (tokens : List Kind)
    (reached : Kind × State) :
    Pays 0 0 1 reached.2 (iterate (suffix deeper) tokens reached).2 := by
  refine Pays.iterate Prod.snd 1 (fun _ _ => saves_suffix thrifty) ?_ (by omega)
    (by omega) tokens reached
  intro before later found
  rw [suffix_last found]
  exact .refl before.2 1

theorem saves_suffixed
    (thrifty : Thrifty deeper)
    {state reached : State}
    {kind : Kind}
    (found : suffixed deeper state = (some kind, reached)) :
    Saves 6 1 state reached := by
  unfold suffixed at found
  split at found
  · cases found
  · next first behind isFirst =>
    cases found
    exact (saves_primary thrifty isFirst).pay (pays_suffixes thrifty behind.ahead (first, behind))
      (by omega) (by omega)

theorem pays_suffixed
    (thrifty : Thrifty deeper)
    (state : State) :
    Pays 0 0 4 state (suffixed deeper state).2 := by
  cases reached : suffixed deeper state with
  | mk kind? behind =>
      cases kind? with
      | some kind => exact Or.inr ((saves_suffixed thrifty reached).mono (by omega))
      | none =>
          unfold suffixed at reached
          split at reached
          · next missed =>
            cases reached
            exact pays_primary_none missed
          · cases reached

theorem pays_simpleExpression
    (thrifty : Thrifty deeper)
    (state : State) :
    Pays 0 0 2 state (simpleExpression deeper state).2 := by
  have single : ∀ {taken kind : Kind}, state.current = taken → taken.isStop = false →
      Pays 0 0 2 state (state.start.advance.complete kind) := fun found moving =>
    Or.inr (((Saves.opened (margin_eq_zero found moving)).complete _).mono (by omega))
  unfold simpleExpression
  split
  · next found => exact single found rfl
  · next found => exact single found rfl
  · next found => exact single found rfl
  · next found => exact single found rfl
  · next found => exact single found rfl
  · next found => exact single found rfl
  · next found =>
    have still := margin_eq_zero found rfl
    exact Or.inr ((saves_table thrifty still).mono (by omega))
  · next found =>
    have still := margin_eq_zero found rfl
    have body : Saves 3 2 state (functionBody deeper state.start.advance) :=
      (Saves.opened still).pay (pays_functionBody thrifty _) (by omega) (by omega)
    exact Or.inr (body.complete .functionExpr)
  · exact (pays_suffixed thrifty state).mono (by omega) (by omega) (by omega)

theorem pays_operand
    (thrifty : Thrifty deeper)
    (state : State) :
    Pays 0 0 2 state (operand deeper state).2 := by
  have prefixed : ∀ {sign : Kind}, state.current = sign → sign.isStop = false →
      Pays 0 0 2 state
        ((deeper.expression unaryPower state.start.advance).complete .prefixExpr) := by
    intro sign found moving
    have still := margin_eq_zero found moving
    have inside : Saves 7 1 state (deeper.expression unaryPower state.start.advance) :=
      (Saves.opened still).pay (thrifty.expression _ _) (by omega) (by omega)
    exact Or.inr ((inside.complete .prefixExpr).mono (by omega))
  unfold operand
  split
  · next found => exact prefixed found rfl
  · next found => exact prefixed found rfl
  · next found => exact prefixed found rfl
  · next found => exact prefixed found rfl
  · exact pays_simpleExpression thrifty state

/-! ## Operations -/

theorem isStop_of_binaryPower?
    {kind : Kind}
    {powers : Nat × Nat}
    (found : binaryPower? kind = some powers) :
    kind.isStop = false := by
  cases kind
  all_goals first
    | rfl
    | cases found

theorem saves_operation
    (thrifty : Thrifty deeper)
    (limit : Nat)
    {state later : State}
    (found : operation deeper limit state = .next later) :
    Saves 6 2 state later := by
  unfold operation at found
  split at found
  · cases found
  · next left right powers =>
    split at found
    · cases found
    · cases found
      have still := margin_eq_zero rfl (isStop_of_binaryPower? powers)
      have sign := (Saves.ofMoving still).precede.take (current_ne_eof still)
      have inside : Saves 7 1 state (deeper.expression right state.precede.advance) :=
        sign.pay (thrifty.expression _ _) (by omega) (by omega)
      exact (inside.complete .binaryExpr).mono (by omega)

theorem pays_operations
    (thrifty : Thrifty deeper)
    (limit : Nat)
    (state : State) :
    Pays 0 0 2 state (operations deeper limit state) := by
  have first := pays_operand thrifty state
  have last : ∀ before later, operation deeper limit before = .last later →
      Pays 0 0 6 before later := by
    intro before later found
    unfold operation at found
    split at found
    · cases found
      exact .refl before 6
    · split at found
      · cases found
        exact .refl before 6
      · cases found
  have rounds := Pays.loop 6 (fun _ _ => saves_operation thrifty limit) last (by omega) (by omega)
    (operand deeper state).2
  simp only [operations]
  split
  · exact first.trans rounds (by omega) (by omega) (by omega)
  · exact first

end LuaFold.Grammar
