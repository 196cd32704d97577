import LuaFold.Proofs.Grammar.Machine.Code
import LuaFold.Proofs.Grammar.Round

/-!
# What the code of a rule does

Code makes one state out of another once it is known what the rules that it calls do.  With the
rules as they are defined for the levels that are left, the code of every rule does what that rule
does, where the end of the text is ahead.  A loop carries a value beside the state; where there is
nothing to carry its rounds are rounds over states alone.

Local names are read with the comma behind each, which is the same as one name and further ones with
a comma before each.
-/

namespace LuaFold.Grammar

/-! ## Loops -/

/-- Carry a value along with a state from round to round. -/
def Turn.carrying {Carried State : Type} : Turn Carried × State → Turn (Carried × State)
  | (.next carried, state) => .next (carried, state)
  | (.last carried, state) => .last (carried, state)

/-- A turn with everything in it changed. -/
def Turn.map {First Second : Type} (change : First → Second) : Turn First → Turn Second
  | .next first => .next (change first)
  | .last first => .last (change first)

theorem iterate_map
    {First Second : Type}
    {round : First → Turn First}
    {other : Second → Turn Second}
    (change : First → Second)
    (same : ∀ first, other (change first) = (round first).map change)
    (tokens : List Kind)
    (first : First) :
    iterate other tokens (change first) = change (iterate round tokens first) := by
  induction tokens generalizing first with
  | nil => rfl
  | cons token tokens ih =>
      rw [iterate, iterate, same]
      cases round first with
      | next later => exact ih later
      | last later => rfl

/-- A round that takes an item and the separator behind it. -/
theorem shrinks_separatedBehind
    {separator : Kind}
    {item : State → State}
    {form : Form}
    (notEnd : separator ≠ .eof)
    (grows : ∀ state, State.Grows form state (item state)) :
    State.Shrinks id fun state =>
      if (item state).isAt separator then Turn.next (item state).advance
      else .last (item state) := by
  refine State.shrinks_of_grows (fun state later found => ?_)
    ((Form.carries_token separator).behind form)
  split at found
  · next here =>
    cases found
    exact (grows state).trans (.take (State.isAt_iff.mp here) notEnd)
  · cases found

/-- Items with a separator behind each are one item and more with a separator before each. -/
theorem loop_separatedBehind
    {separator : Kind}
    {item : State → State}
    {form : Form}
    (notEnd : separator ≠ .eof)
    (grows : ∀ state, State.Grows form state (item state))
    {state : State}
    (ended : state.Ended) :
    (state.loop fun state =>
      if (item state).isAt separator then .next (item state).advance else .last (item state)) =
      (item state).separated separator item := by
  have behind := shrinks_separatedBehind notEnd grows
  have before := shrinks_separated notEnd grows
  induction remaining : state.ahead.length using Nat.strong_induction_on generalizing state with
  | h remaining ih =>
      have itemEnded := (grows state).ended ended
      by_cases here : (item state).isAt separator
      · obtain ⟨laterEnded, shorter⟩ := behind state _ ended (if_pos here)
        have unfolded := State.iterate_next behind ended (if_pos here)
        have again := ih _ (remaining ▸ shorter) laterEnded rfl
        have folded := State.iterate_next before itemEnded (if_pos here)
        exact (unfolded.trans again).trans folded.symm
      · have last : (state.loop fun state =>
            if (item state).isAt separator then .next (item state).advance
            else .last (item state)) = item state :=
          State.iterate_last id ended (if_neg here)
        have none : (item state).separated separator item = item state :=
          State.iterate_last id itemEnded (if_neg here)
        exact last.trans none.symm

/-! ## Code -/

namespace Machine

/-- What a construct is one nesting level deeper. -/
def Construct.meaning (deeper : Deeper) : Construct → State → State
  | .statements terminators => deeper.statements terminators
  | .operations limit => deeper.expression limit

/-- A table field, and whether it took a token. -/
def filledField (deeper : Deeper) (state : State) : Bool × State :=
  let content := fieldContent deeper state.start
  if content.position = state.position then (false, content.abandon)
  else (true, content.complete .tableField)

/-- What a rule makes of a state, and what it tells its caller. -/
def Rule.meaning (deeper : Deeper) : (rule : Rule) → State → rule.Result × State
  | .chunk, state => ((), ((deeper.block .empty state.start).takeEnd).complete .chunk)
  | .block terminators, state => ((), deeper.block terminators state)
  | .nestedBlock, state => ((), deeper.nestedBlock state)
  | .functionBody, state => ((), Grammar.functionBody deeper state)
  | .parameters, state => ((), Grammar.parameters state)
  | .nameList, state => ((), Grammar.nameList state)
  | .expressionList, state => ((), deeper.expressionList state)
  | .anyExpression, state => ((), deeper.anyExpression state)
  | .expression limit, state => ((), deeper.expression limit state)
  | .simpleExpression, state => Grammar.simpleExpression deeper state
  | .suffixed, state => Grammar.suffixed deeper state
  | .primary, state => Grammar.primary deeper state
  | .arguments, state => ((), Grammar.arguments deeper state)
  | .table, state => ((), Grammar.table deeper state)
  | .field, state => filledField deeper state
  | .statement, state => ((), Grammar.statement deeper state)
  | .ifStatement, state => ((), Grammar.ifStatement deeper state)
  | .forStatement, state => ((), Grammar.forStatement deeper state)
  | .functionStatement, state => ((), Grammar.functionStatement deeper state)
  | .localFunctionStatement, state => ((), Grammar.localFunctionStatement deeper state)
  | .localStatement, state => ((), Grammar.localStatement deeper state)
  | .returnStatement, state => ((), Grammar.returnStatement deeper state)
  | .expressionStatement, state => ((), Grammar.expressionStatement deeper state)
  | .skip, state => ((), state.skip)
  | .inside (.statements terminators), state => ((), Grammar.statements deeper terminators state)
  | .inside (.operations limit), state => ((), Grammar.operations deeper limit state)

namespace Code

variable {Value Next Carried : Type} (deeper : Deeper)

/-- What code makes of a state, where the rules that it calls are known. -/
def denote : {Value : Type} → Code Value → State → Value × State
  | _, .give value, state => (value, state)
  | _, .perform operation rest, state => rest.denote (operation.perform state)
  | _, .look rest, state => (rest state).denote state
  | _, .call rule rest, state =>
    let result := rule.meaning deeper state
    (rest result.1).denote result.2
  | _, .deeper construct rest, state => rest.denote (construct.meaning deeper state)
  | _, .loop round start rest, state =>
    let result := iterate (fun carried => Turn.carrying ((round carried.1).denote carried.2))
      state.ahead (start, state)
    (rest result.1).denote result.2

/-- The rounds of a loop, with the value that they carry beside the state. -/
def rounds
    (round : Carried → Code (Turn Carried))
    (carried : Carried × State) :
    Turn (Carried × State) :=
  Turn.carrying ((round carried.1).denote deeper carried.2)

theorem denote_bind
    (code : Code Value)
    (next : Value → Code Next)
    (state : State) :
    (code >>= next).denote deeper state =
      (next (code.denote deeper state).1).denote deeper (code.denote deeper state).2 := by
  change (code.andThen next).denote deeper state = _
  induction code generalizing state with
  | give value => rfl
  | perform operation rest ih => exact ih next _
  | look rest ih => exact ih state next state
  | call rule rest ih => exact ih _ next _
  | deeper construct rest ih => exact ih next _
  | loop round start rest _ ih => exact ih _ next _

@[simp]
theorem denote_pure_bind
    (value : Value)
    (next : Value → Code Next)
    (state : State) :
    (pure value >>= next).denote deeper state = (next value).denote deeper state :=
  rfl

@[simp]
theorem denote_get_bind
    (next : State → Code Next)
    (state : State) :
    (get >>= next).denote deeper state = (next state).denote deeper state :=
  rfl

@[simp]
theorem denote_start_bind
    (next : Unit → Code Next)
    (state : State) :
    (start >>= next).denote deeper state = (next ()).denote deeper state.start :=
  rfl

@[simp]
theorem denote_precede_bind
    (next : Unit → Code Next)
    (state : State) :
    (precede >>= next).denote deeper state = (next ()).denote deeper state.precede :=
  rfl

@[simp]
theorem denote_advance_bind
    (next : Unit → Code Next)
    (state : State) :
    (advance >>= next).denote deeper state = (next ()).denote deeper state.advance :=
  rfl

@[simp]
theorem denote_complete_bind
    (kind : Kind)
    (next : Unit → Code Next)
    (state : State) :
    (complete kind >>= next).denote deeper state = (next ()).denote deeper (state.complete kind) :=
  rfl

@[simp]
theorem denote_report_bind
    (fault : SyntaxFault)
    (next : Unit → Code Next)
    (state : State) :
    (report fault >>= next).denote deeper state = (next ()).denote deeper (state.report fault) :=
  rfl

theorem denote_visit
    (rule : Rule)
    (state : State) :
    (visit rule).denote deeper state = ((), (rule.meaning deeper state).2) :=
  rfl

@[simp]
theorem denote_visit_bind
    (rule : Rule)
    (next : Unit → Code Next)
    (state : State) :
    (visit rule >>= next).denote deeper state =
      (next ()).denote deeper (rule.meaning deeper state).2 :=
  rfl

@[simp]
theorem denote_ask_bind
    (rule : Rule)
    (next : rule.Result → Code Next)
    (state : State) :
    (ask rule >>= next).denote deeper state =
      (next (rule.meaning deeper state).1).denote deeper (rule.meaning deeper state).2 :=
  rfl

theorem denote_unit_bind
    {code : Code Unit}
    {plain : State → State}
    (same : ∀ state, code.denote deeper state = ((), plain state))
    (next : Unit → Code Next)
    (state : State) :
    (code >>= next).denote deeper state = (next ()).denote deeper (plain state) := by
  rw [denote_bind, same]

theorem denote_expect
    (kind : Kind)
    (state : State) :
    (expect kind).denote deeper state = ((), state.expect kind) := by
  rw [expect, denote_get_bind, State.expect]
  split <;> rfl

@[simp]
theorem denote_expect_bind
    (kind : Kind)
    (next : Unit → Code Next)
    (state : State) :
    (expect kind >>= next).denote deeper state = (next ()).denote deeper (state.expect kind) :=
  denote_unit_bind deeper (denote_expect deeper kind) next state

theorem denote_accept
    (kind : Kind)
    (state : State) :
    (accept kind).denote deeper state = ((), state.accept kind) := by
  simp only [accept, denote_get_bind, State.accept]
  split <;> rfl

@[simp]
theorem denote_accept_bind
    (kind : Kind)
    (next : Unit → Code Next)
    (state : State) :
    (accept kind >>= next).denote deeper state = (next ()).denote deeper (state.accept kind) :=
  denote_unit_bind deeper (denote_accept deeper kind) next state

theorem denote_reportAndAdvance
    (fault : SyntaxFault)
    (state : State) :
    (reportAndAdvance fault).denote deeper state = ((), state.reportAndAdvance fault) := by
  rw [reportAndAdvance, denote_get_bind, State.reportAndAdvance]
  split <;> rfl

theorem denote_recover
    (fault : SyntaxFault)
    (usable : KindSet)
    (state : State) :
    (recover fault usable).denote deeper state = ((), state.recover fault usable) := by
  rw [recover, denote_get_bind, State.recover]
  split
  · rfl
  · exact denote_reportAndAdvance deeper fault state

theorem denote_repeated
    (start : Carried)
    (round : Carried → Code (Turn Carried))
    (state : State) :
    (repeated start round).denote deeper state =
      iterate (rounds deeper round) state.ahead (start, state) :=
  rfl

/-- A round that carries nothing beside the state. -/
theorem denote_repeated_unit
    {round : Unit → Code (Turn Unit)}
    {plain : State → Turn State}
    (same : ∀ state, rounds deeper round ((), state) = (plain state).map (Prod.mk ()))
    (state : State) :
    (repeated () round).denote deeper state = ((), state.loop plain) := by
  rw [denote_repeated, State.loop]
  exact iterate_map (Prod.mk ()) same state.ahead state

theorem rounds_separated
    {separator : Kind}
    {item : Code Unit}
    {plain : State → State}
    (same : ∀ state, item.denote deeper state = ((), plain state))
    (state : State) :
    rounds deeper (fun _ => separatedRound separator item) ((), state) =
      Turn.map (Prod.mk ())
        (if state.isAt separator then .next (plain state.advance) else .last state) := by
  simp only [rounds, separatedRound, denote_get_bind]
  split
  · rw [denote_advance_bind, denote_unit_bind deeper same]
    rfl
  · rfl

theorem denote_separated
    {separator : Kind}
    {item : Code Unit}
    {plain : State → State}
    (same : ∀ state, item.denote deeper state = ((), plain state))
    (state : State) :
    (separated separator item).denote deeper state = ((), state.separated separator plain) :=
  denote_repeated_unit deeper (rounds_separated deeper same) state

@[simp]
theorem denote_separated_expect_bind
    (separator kind : Kind)
    (next : Unit → Code Next)
    (state : State) :
    (separated separator (expect kind) >>= next).denote deeper state =
      (next ()).denote deeper (state.separated separator fun state => state.expect kind) :=
  denote_unit_bind deeper (denote_separated deeper (denote_expect deeper kind)) next state

end Code

open Code

variable (deeper : Deeper)

/-! ## Rounds and parts of rules -/

theorem rounds_parameter (state : State) :
    rounds deeper (fun _ => parameterRound) ((), state) =
      (parameter state).map (Prod.mk ()) := by
  simp only [rounds, parameterRound, parameter, denote_get_bind]
  split
  · rfl
  split
  · simp only [denote_start_bind, denote_advance_bind, denote_complete_bind, denote_get_bind]
    split <;> rfl
  split <;> rfl

theorem denote_functionName (state : State) :
    functionNameCode.denote deeper state = ((), functionName state) := by
  simp only [functionNameCode, functionName, denote_get_bind]
  split
  · simp only [denote_start_bind, denote_advance_bind, denote_separated_expect_bind,
      denote_get_bind]
    split
    · simp only [denote_advance_bind, denote_expect_bind]
      rfl
    · rfl
  · rfl

theorem denote_fieldContent (state : State) :
    fieldContentCode.denote deeper state = ((), fieldContent deeper state) := by
  simp only [fieldContentCode, fieldContent, denote_get_bind]
  split
  · simp only [denote_advance_bind, denote_visit_bind, denote_expect_bind]
    rfl
  · split <;> rfl

theorem rounds_field (state : State) :
    rounds deeper (fun _ => fieldRound) ((), state) = (field deeper state).map (Prod.mk ()) := by
  simp only [rounds, fieldRound, field, denote_get_bind]
  split
  · rfl
  rw [denote_ask_bind, Rule.meaning, filledField]
  split
  · rfl
  simp only [if_true, denote_get_bind]
  split <;> rfl

theorem rounds_suffix (reached : Kind × State) :
    rounds deeper suffixRound reached = suffix deeper reached := by
  simp only [rounds, suffixRound, suffix, denote_get_bind]
  split
  · simp only [denote_precede_bind, denote_advance_bind, denote_expect_bind]
    rfl
  split
  · simp only [denote_precede_bind, denote_advance_bind, denote_visit_bind, denote_expect_bind]
    rfl
  split
  · simp only [denote_precede_bind, denote_advance_bind, denote_visit_bind, denote_expect_bind]
    rfl
  split <;> rfl

theorem denote_operand (state : State) :
    operandCode.denote deeper state = operand deeper state := by
  simp only [operandCode, operand, denote_get_bind]
  generalize state.current = kind
  cases kind <;> rfl

theorem rounds_operation
    (limit : Nat)
    (state : State) :
    rounds deeper (fun _ => operationRound limit) ((), state) =
      (operation deeper limit state).map (Prod.mk ()) := by
  simp only [rounds, operationRound, operation, denote_get_bind]
  cases binaryPower? state.current with
  | none => rfl
  | some powers =>
      simp only
      split <;> rfl

theorem rounds_elseIf (state : State) :
    rounds deeper (fun _ => elseIfRound) ((), state) =
      (elseIfClause deeper state).map (Prod.mk ()) := by
  simp only [rounds, elseIfRound, elseIfClause, denote_get_bind]
  split
  · simp only [denote_start_bind, denote_advance_bind, denote_visit_bind, denote_expect_bind]
    rfl
  · rfl

theorem denote_elseClause (state : State) :
    elseClauseCode.denote deeper state = ((), elseClause deeper state) := by
  simp only [elseClauseCode, elseClause, denote_get_bind]
  split <;> rfl

theorem denote_numericRange (state : State) :
    numericRangeCode.denote deeper state = ((), numericRange deeper state) := by
  simp only [numericRangeCode, numericRange, denote_advance_bind, denote_visit_bind,
    denote_expect_bind, denote_get_bind, Rule.meaning]
  split <;> rfl

theorem denote_localName (state : State) :
    localNameCode.denote deeper state = ((), localName state) := by
  simp only [localNameCode, localName, denote_start_bind, denote_expect_bind, denote_get_bind]
  split
  · simp only [denote_start_bind, denote_advance_bind, denote_expect_bind]
    rfl
  · rfl

theorem denote_assignment (state : State) :
    assignmentCode.denote deeper state = ((), assignment deeper state) := by
  simp only [assignmentCode, assignment, denote_precede_bind,
    denote_unit_bind deeper (denote_separated deeper (denote_visit deeper .suffixed)),
    denote_complete_bind,
    denote_expect_bind]
  rfl

theorem rounds_statement
    (terminators : KindSet)
    (state : State) :
    rounds deeper (fun _ => statementRound terminators) ((), state) =
      Turn.map (Prod.mk ())
        (if state.isAt .eof || state.isIn terminators then .last state
          else .next (statement deeper state)) := by
  simp only [rounds, statementRound, denote_get_bind]
  split <;> rfl

theorem rounds_skip (inside : Nat × State) :
    rounds deeper skipRound inside = State.skipToken inside := by
  simp only [rounds, skipRound, State.skipToken, denote_get_bind]
  split
  · rfl
  split
  · rfl
  split
  · split <;> rfl
  split <;> rfl

/-! ## Rules -/

theorem denote_functionBody (state : State) :
    (Rule.body .functionBody).denote deeper state = ((), functionBody deeper state) := by
  simp only [Rule.body, functionBody, denote_start_bind, denote_get_bind]
  split
  · simp only [denote_visit_bind, denote_expect_bind]
    rfl
  · simp only [denote_report_bind, denote_visit_bind, denote_expect_bind]
    rfl

theorem denote_parameters (state : State) :
    (Rule.body .parameters).denote deeper state = ((), parameters state) := by
  simp only [Rule.body, parameters, denote_start_bind, denote_advance_bind,
    denote_unit_bind deeper (denote_repeated_unit deeper (rounds_parameter deeper)),
    denote_expect_bind]
  rfl

theorem denote_nameList (state : State) :
    (Rule.body .nameList).denote deeper state = ((), nameList state) := by
  simp only [Rule.body, nameList, denote_start_bind, denote_expect_bind,
    denote_separated_expect_bind]
  rfl

theorem denote_expressionList (state : State) :
    (Rule.body .expressionList).denote deeper state = ((), deeper.expressionList state) := by
  simp only [Rule.body, Deeper.expressionList, denote_start_bind, denote_visit_bind,
    denote_unit_bind deeper (denote_separated deeper (denote_visit deeper .anyExpression))]
  rfl

theorem denote_simpleExpression (state : State) :
    (Rule.body .simpleExpression).denote deeper state = simpleExpression deeper state := by
  simp only [Rule.body, simpleExpression, denote_get_bind]
  generalize state.current = kind
  cases kind <;> rfl

theorem denote_suffixed (state : State) :
    (Rule.body .suffixed).denote deeper state = suffixed deeper state := by
  simp only [Rule.body, suffixed]
  rw [denote_ask_bind, Rule.meaning]
  generalize primary deeper state = read
  obtain ⟨kind?, behind⟩ := read
  cases kind? with
  | none => rfl
  | some kind =>
      simp only
      rw [denote_bind, denote_repeated, funext (rounds_suffix deeper)]
      rfl

theorem denote_primary (state : State) :
    (Rule.body .primary).denote deeper state = primary deeper state := by
  simp only [Rule.body, primary, denote_get_bind]
  split
  · rfl
  split
  · simp only [denote_start_bind, denote_advance_bind, denote_visit_bind, denote_expect_bind]
    rfl
  · rw [denote_unit_bind deeper (denote_recover deeper _ _)]
    rfl

theorem denote_arguments (state : State) :
    (Rule.body .arguments).denote deeper state = ((), arguments deeper state) := by
  simp only [Rule.body, arguments, denote_start_bind, denote_get_bind]
  split
  · simp only [denote_advance_bind, denote_get_bind]
    split
    · simp only [denote_expect_bind]
      rfl
    · simp only [denote_visit_bind, denote_expect_bind]
      rfl
  split
  · rfl
  split <;> rfl

theorem denote_table (state : State) :
    (Rule.body .table).denote deeper state = ((), table deeper state) := by
  simp only [Rule.body, table, denote_start_bind, denote_advance_bind,
    denote_unit_bind deeper (denote_repeated_unit deeper (rounds_field deeper)),
    denote_expect_bind]
  rfl

theorem denote_field (state : State) :
    (Rule.body .field).denote deeper state = filledField deeper state := by
  simp only [Rule.body, filledField, denote_start_bind, denote_get_bind,
    denote_unit_bind deeper (denote_fieldContent deeper)]
  split <;> rfl

theorem denote_statement (state : State) :
    (Rule.body .statement).denote deeper state = ((), statement deeper state) := by
  simp only [Rule.body, statement, denote_get_bind]
  generalize state.current = kind
  cases kind
  case localKw =>
    simp only
    split <;> rfl
  case doubleColon | gotoKw | doKw | whileKw | repeatKw =>
    simp only [denote_start_bind, denote_advance_bind, denote_visit_bind, denote_expect_bind]
    rfl
  case semicolon | breakKw | ifKw | forKw | functionKw | returnKw | name | leftParen => rfl
  all_goals exact denote_reportAndAdvance deeper _ state

theorem denote_ifStatement (state : State) :
    (Rule.body .ifStatement).denote deeper state = ((), ifStatement deeper state) := by
  simp only [Rule.body, ifStatement, denote_start_bind, denote_advance_bind, denote_visit_bind,
    denote_expect_bind,
    denote_unit_bind deeper (denote_repeated_unit deeper (rounds_elseIf deeper)),
    denote_unit_bind deeper (denote_elseClause deeper)]
  rfl

theorem denote_forStatement (state : State) :
    (Rule.body .forStatement).denote deeper state = ((), forStatement deeper state) := by
  simp only [Rule.body, forStatement, denote_start_bind, denote_advance_bind, denote_get_bind]
  split
  · simp only [denote_unit_bind deeper (denote_numericRange deeper), denote_pure_bind,
      denote_expect_bind, denote_visit_bind]
    rfl
  · simp only [denote_visit_bind, denote_expect_bind, denote_pure_bind]
    rfl

theorem denote_functionStatement (state : State) :
    (Rule.body .functionStatement).denote deeper state = ((), functionStatement deeper state) := by
  simp only [Rule.body, functionStatement, denote_start_bind, denote_advance_bind,
    denote_unit_bind deeper (denote_functionName deeper), denote_visit_bind]
  rfl

theorem denote_localFunctionStatement (state : State) :
    (Rule.body .localFunctionStatement).denote deeper state =
      ((), localFunctionStatement deeper state) := by
  simp only [Rule.body, localFunctionStatement, denote_start_bind, denote_advance_bind,
    denote_expect_bind, denote_visit_bind]
  rfl

theorem denote_returnStatement (state : State) :
    (Rule.body .returnStatement).denote deeper state = ((), returnStatement deeper state) := by
  simp only [Rule.body, returnStatement, denote_start_bind, denote_advance_bind, denote_get_bind]
  split
  · simp only [denote_accept_bind]
    rfl
  · simp only [denote_visit_bind, denote_accept_bind]
    rfl

theorem denote_expressionStatement (state : State) :
    (Rule.body .expressionStatement).denote deeper state =
      ((), expressionStatement deeper state) := by
  simp only [Rule.body, expressionStatement]
  rw [denote_ask_bind, Rule.meaning]
  generalize suffixed deeper state = read
  obtain ⟨kind?, behind⟩ := read
  cases kind? with
  | none => rfl
  | some kind =>
      simp only [denote_get_bind]
      split
      · exact denote_assignment deeper behind
      split <;> rfl

theorem denote_skip (state : State) :
    (Rule.body .skip).denote deeper state = ((), state.skip) := by
  simp only [Rule.body, State.skip, denote_start_bind, denote_get_bind, denote_report_bind]
  rw [denote_bind, denote_repeated, funext (rounds_skip deeper), denote_get_bind]
  change Code.denote deeper (if (State.skipBalanced _).position = _ then abandon else _)
    (State.skipBalanced _) = _
  generalize (state.start.report .nestingTooDeep).skipBalanced = skipped
  split <;> rfl

theorem rounds_localName (state : State) :
    rounds deeper (fun _ => localNameRound) ((), state) =
      Turn.map (Prod.mk ())
        (if (localName state).isAt .comma then .next (localName state).advance
          else .last (localName state)) := by
  simp only [rounds, localNameRound, denote_unit_bind deeper (denote_localName deeper),
    denote_get_bind]
  split <;> rfl

theorem denote_localStatement
    {state : State}
    (ended : state.Ended) :
    (Rule.body .localStatement).denote deeper state = ((), localStatement deeper state) := by
  have opened : state.start.advance.Ended := (State.Onward.advance state.start ended).1
  have listed := loop_separatedBehind (by decide : Kind.comma ≠ .eof) grows_localName opened
  simp only [Rule.body, localStatement, denote_start_bind, denote_advance_bind,
    denote_unit_bind deeper (denote_repeated_unit deeper (rounds_localName deeper)),
    denote_get_bind]
  -- both sides read the names now with a comma before each
  rw [listed]
  split
  · simp only [denote_advance_bind, denote_visit_bind]
    rfl
  · rfl

theorem denote_operations
    (limit : Nat)
    (state : State) :
    (Rule.body (.inside (.operations limit))).denote deeper state =
      ((), operations deeper limit state) := by
  simp only [Rule.body, operations]
  rw [denote_bind, denote_operand]
  generalize operand deeper state = read
  obtain ⟨found, behind⟩ := read
  cases found with
  | false => rfl
  | true => exact denote_repeated_unit deeper (rounds_operation deeper limit) behind

/-- The code of a rule does what the rule does. -/
theorem Rule.denote_body
    (levels : Nat)
    (rule : Rule)
    {state : State}
    (ended : state.Ended) :
    rule.body.denote (level levels) state = rule.meaning (level levels) state := by
  cases rule with
  | chunk | block | nestedBlock | anyExpression | expression => rfl
  | functionBody => exact denote_functionBody _ state
  | parameters => exact denote_parameters _ state
  | nameList => exact denote_nameList _ state
  | expressionList => exact denote_expressionList _ state
  | simpleExpression => exact denote_simpleExpression _ state
  | suffixed => exact denote_suffixed _ state
  | primary => exact denote_primary _ state
  | arguments => exact denote_arguments _ state
  | table => exact denote_table _ state
  | field => exact denote_field _ state
  | statement => exact denote_statement _ state
  | ifStatement => exact denote_ifStatement _ state
  | forStatement => exact denote_forStatement _ state
  | functionStatement => exact denote_functionStatement _ state
  | localFunctionStatement => exact denote_localFunctionStatement _ state
  | localStatement => exact denote_localStatement _ ended
  | returnStatement => exact denote_returnStatement _ state
  | expressionStatement => exact denote_expressionStatement _ state
  | skip => exact denote_skip _ state
  | inside construct =>
      cases construct with
      | statements terminators =>
          exact denote_repeated_unit _ (rounds_statement _ terminators) state
      | operations limit => exact denote_operations _ limit state

end Machine

end LuaFold.Grammar
