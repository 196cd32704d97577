import LuaFold.Proofs.Grammar.Acceptance.Expression
import LuaFold.Proofs.Grammar.Chunk

/-!
# Accepting statements

A statement without faults is derived by the production that its first token calls for.  Four
rules accept more than the manual has: the name of a loop over numbers is any token, a comma may
end a list of parameters, any reference is a target, and statements may follow a `return`.

The rules of each nesting level accept blocks and expressions one level deeper than those below.
A chunk that is parsed without faults is therefore derived, and is not nested too deeply.
-/

namespace LuaFold.Grammar

open scoped Computability
open State

variable {levels : Nat}

/-! ## Conditions -/

theorem accepts_elseIfClause_next
    (accepting : Accepting levels)
    {state later : State}
    (found : elseIfClause (level levels) state = .next later) :
    Accepts (just .elseifKw * ((Phrase.expression loosest).within levels *
      (just .thenKw * Phrase.block.within levels))) state later := by
  simp only [elseIfClause] at found
  split at found
  · next isElseif =>
    cases found
    have opened : Accepts (just .elseifKw) state.start state.start.advance :=
      .take (isAt_iff.mp isElseif) (by decide)
    exact .node (opened.trans ((accepts_anyExpression accepting _).trans
      (.trans (.expect _ (by decide)) (accepts_block accepting _ _)))) .elseIfClause
  · cases found

theorem accepts_elseIfClause_last
    {state later : State}
    (found : elseIfClause (level levels) state = .last later) :
    Accepts 1 state later :=
  .ofGrows (grows_elseIfClause_last found)

theorem accepts_elseClause
    (accepting : Accepting levels)
    (state : State) :
    Accepts (1 + just .elseKw * Phrase.block.within levels) state
      (elseClause (level levels) state) := by
  refine .optional fun found => ?_
  have opened : Accepts (just .elseKw) state.start state.start.advance :=
    .take found (by decide)
  exact .node (opened.trans (accepts_block accepting _ _)) .elseClause

theorem clauses_le :
    (just .elseifKw * ((Phrase.expression loosest).within levels *
        (just .thenKw * Phrase.block.within levels)))∗ *
      ((1 + just .elseKw * Phrase.block.within levels) * just .endKw) ≤
        Phrase.clauses.within levels := by
  refine kstar_mul_le ?_ ?_
  · rintro _ ⟨_, rfl | ⟨_, rfl, body, ⟨depth, enough, inside⟩, rfl⟩, _, rfl, rfl⟩
    · exact ⟨0, by omega, .closed⟩
    · exact ⟨depth, enough, .otherwise inside⟩
  · rintro _ ⟨_, ⟨_, rfl, _, ⟨test, ⟨first, _, condition⟩, _,
      ⟨_, rfl, body, ⟨second, _, inside⟩, rfl⟩, rfl⟩, rfl⟩, others, ⟨depth, _, clauses⟩, rfl⟩
    have derives : Derives .lenient .clauses _ _ := .elseIf condition inside clauses
    exact ⟨max first (max second depth), by omega, by simpa using derives⟩

theorem accepts_ifStatement
    (accepting : Accepting levels)
    {state : State}
    (found : state.current = .ifKw) :
    Accepts (Phrase.statement.within levels) state (ifStatement (level levels) state) := by
  have opened : Accepts (just .ifKw) state.start state.start.advance :=
    .take found (by decide)
  have clauses (state : State) := (Accepts.loop (shrinks_elseIfClause levels)
    (fun _ _ => accepts_elseIfClause_next accepting)
    (fun _ _ => accepts_elseIfClause_last) state).trans
      ((accepts_elseClause accepting _).trans (.expect _ (by decide : Kind.endKw ≠ .eof)))
  refine .node (Accepts.mono (opened.trans ((accepts_anyExpression accepting _).trans
    (.trans (.expect _ (by decide : Kind.thenKw ≠ .eof))
      ((accepts_block accepting blockEnd _).trans (clauses _))))) ?_) .ifStmt
  rintro _ ⟨_, rfl, _, ⟨test, ⟨first, _, condition⟩, _, ⟨_, rfl, _,
    ⟨body, ⟨second, _, inside⟩, _, others, rfl⟩, rfl⟩, rfl⟩, rfl⟩
  rw [mul_one] at others
  obtain ⟨depth, _, clauses⟩ := clauses_le others
  have derives : Derives .lenient .statement _ _ := .conditional condition inside clauses
  exact ⟨max first (max second depth), by omega, by simpa using derives⟩

/-! ## Loops -/

theorem accepts_loopBody
    (accepting : Accepting levels)
    (state : State) :
    Accepts (just .doKw * (Phrase.block.within levels * just .endKw)) state
      (((level levels).nestedBlock (state.expect .doKw)).expect .endKw) :=
  .trans (.expect _ (by decide))
    ((accepts_block accepting _ _).trans (.expect _ (by decide)))

/-- The name of the loop is taken whatever it is. -/
theorem accepts_numericRange
    (accepting : Accepting levels)
    {state : State}
    (notEnd : state.current ≠ .eof)
    (found : state.following = .eq) :
    Accepts (just state.current * (just .eq * Phrase.range.within levels)) state
      (numericRange (level levels) state) := by
  have value := accepts_anyExpression accepting
  have equals : state.advance.current = .eq := (current_advance notEnd).trans found
  refine .trans (.advance notEnd) (.trans (.take equals (by decide)) ?_)
  refine Accepts.mono ((value _).trans (.trans (.expect _ (by decide : Kind.comma ≠ .eof))
    ((value _).trans (.optional fun comma => (Accepts.take comma (by decide)).trans (value _))))) ?_
  rintro _ ⟨low, ⟨first, _, lowest⟩, _, ⟨_, rfl, _, ⟨high, ⟨second, _, highest⟩, _,
    rfl | ⟨_, rfl, step, ⟨depth, _, third⟩, rfl⟩, rfl⟩, rfl⟩, rfl⟩
  · have derives : Derives .lenient .range _ _ := .bounds lowest highest
    exact ⟨max first second, by omega, by simpa using derives⟩
  · exact ⟨max first (max second depth), by omega, .stepped lowest highest third⟩

theorem nameTail_le {separator : Kind} :
    (just separator * just .name)∗ ≤ words (NameTail separator) := by
  refine kstar_le_of_mul_le_right ?_ ?_
  · rintro _ rfl
    exact .done
  · rintro _ ⟨_, ⟨_, rfl, _, rfl, rfl⟩, names, others, rfl⟩
    exact .more others

theorem accepts_names
    {separator : Kind}
    (notEnd : separator ≠ .eof)
    (state : State) :
    Accepts (words (NameTail separator)) state
      (state.separated separator fun state => state.expect .name) :=
  (Accepts.separated notEnd (fun state => Grows.expect state (by decide : Kind.name ≠ .eof))
    (fun state => .expect state (by decide)) state).mono nameTail_le

theorem accepts_nameList (state : State) :
    Accepts (just .name * words (NameTail .comma)) state (nameList state) :=
  .node (.trans (.expect _ (by decide)) (accepts_names (by decide) _)) .nameList

theorem accepts_forStatement
    (accepting : Accepting levels)
    {state : State}
    (ended : state.Ended)
    (found : state.current = .forKw) :
    Accepts (Phrase.statement.within levels) state (forStatement (level levels) state) := by
  have opened : Accepts (just .forKw) state.start state.start.advance :=
    .take found (by decide)
  have endedBehind : state.start.advance.Ended := (opened.onward ended).1
  have body := accepts_loopBody accepting
  by_cases numeric : state.start.advance.following = .eq
  · have notEnd : state.start.advance.current ≠ .eof :=
      endedBehind.current_ne_eof (by simp [numeric])
    simp only [forStatement, numeric, ↓reduceIte]
    refine .node (Accepts.mono (opened.trans
      ((accepts_numericRange accepting notEnd numeric).trans (body _))) ?_) .numericForStmt
    rintro _ ⟨_, rfl, _, ⟨_, ⟨_, rfl, _, ⟨_, rfl, range, ⟨first, _, limits⟩, rfl⟩, rfl⟩, _,
      ⟨_, rfl, _, ⟨word, ⟨depth, _, inside⟩, _, rfl, rfl⟩, rfl⟩, rfl⟩, rfl⟩
    exact ⟨max first depth, by omega, .numericLoop (Or.inr ⟨rfl, notEnd⟩) limits inside⟩
  · simp only [forStatement, numeric, ↓reduceIte]
    refine .node (Accepts.mono (opened.trans ((accepts_nameList _).trans
      (.trans (.expect _ (by decide : Kind.inKw ≠ .eof))
        ((accepts_expressionList accepting _).trans (body _))))) ?_) .genericForStmt
    rintro _ ⟨_, rfl, _, ⟨_, ⟨_, rfl, names, others, rfl⟩, _, ⟨_, rfl, _, ⟨values,
      ⟨first, _, valued⟩, _, ⟨_, rfl, _, ⟨word, ⟨depth, _, inside⟩, _, rfl, rfl⟩, rfl⟩, rfl⟩,
      rfl⟩, rfl⟩, rfl⟩
    exact ⟨max first depth, by omega, .genericLoop others valued inside⟩

/-! ## Function definitions -/

theorem accepts_functionName (state : State) :
    Accepts (words FunctionName) state (functionName state) := by
  simp only [functionName]
  split
  · next named =>
    have first : Accepts (just .name) state.start state.start.advance :=
      .take (isAt_iff.mp named) (by decide)
    refine .node (Accepts.mono (first.trans ((accepts_names (by decide : Kind.dot ≠ .eof) _).trans
      (.optional fun colon => (Accepts.take colon (by decide)).trans
        (.expect _ (by decide : Kind.name ≠ .eof))))) ?_) .funcName
    rintro _ ⟨_, rfl, _, ⟨fields, others, _, rfl | ⟨_, rfl, _, rfl, rfl⟩, rfl⟩, rfl⟩
    · have plain : FunctionName (.name :: (fields ++ [])) := by
        rw [List.append_nil]
        exact .plain others
      exact plain
    · exact .method others
  · exact .report (.refl (state.report _))

theorem accepts_functionStatement
    (accepting : Accepting levels)
    {state : State}
    (found : state.current = .functionKw) :
    Accepts (Phrase.statement.within levels) state (functionStatement (level levels) state) := by
  have opened : Accepts (just .functionKw) state.start state.start.advance :=
    .take found (by decide)
  refine .node (Accepts.mono (opened.trans ((accepts_functionName _).trans
    (accepts_functionBody accepting _))) ?_) .functionStmt
  rintro _ ⟨_, rfl, _, ⟨name, named, body, ⟨depth, enough, inside⟩, rfl⟩, rfl⟩
  have derives : Derives .lenient .statement depth _ := .function named inside
  exact ⟨depth, enough, by simpa using derives⟩

theorem accepts_localFunctionStatement
    (accepting : Accepting levels)
    {state : State}
    (found : state.current = .localKw)
    (more : state.following = .functionKw) :
    Accepts (Phrase.statement.within levels) state
      (localFunctionStatement (level levels) state) := by
  have notEnd : state.start.current ≠ .eof := by simp [found]
  have opened : Accepts (just .localKw) state.start state.start.advance :=
    .take found (by decide)
  have keyword : Accepts (just .functionKw) state.start.advance state.start.advance.advance :=
    .take ((current_advance notEnd).trans more) (by decide)
  refine .node (Accepts.mono (opened.trans (keyword.trans
    (.trans (.expect _ (by decide : Kind.name ≠ .eof)) (accepts_functionBody accepting _)))) ?_)
      .localFunctionStmt
  rintro _ ⟨_, rfl, _, ⟨_, rfl, _, ⟨_, rfl, body, ⟨depth, enough, inside⟩, rfl⟩, rfl⟩, rfl⟩
  exact ⟨depth, enough, .localFunction inside⟩

/-! ## Declarations and simple statements -/

theorem accepts_localName (state : State) :
    Accepts (words LocalName) state (localName state) := by
  have attributed (named : State) (less : named.current = .lt) :
      Accepts (just .lt * (just .name * just .gt)) named
        (((named.start.advance.expect .name).expect .gt).complete .attrib) := by
    have opened : Accepts (just .lt) named.start named.start.advance := .take less (by decide)
    exact .node (opened.trans (.trans (.expect _ (by decide)) (.expect _ (by decide)))) .attrib
  refine .node (Accepts.mono (.trans (.expect _ (by decide : Kind.name ≠ .eof))
    (.optional (attributed _))) ?_) .localName
  rintro _ ⟨_, rfl, _, rfl | ⟨_, rfl, _, ⟨_, rfl, _, rfl, rfl⟩, rfl⟩, rfl⟩
  · exact .plain
  · exact .attributed

theorem localTail_le : (just .comma * words LocalName)∗ ≤ words LocalTail := by
  refine kstar_le_of_mul_le_right ?_ ?_
  · rintro _ rfl
    exact .done
  · rintro _ ⟨_, ⟨_, rfl, name, first, rfl⟩, names, others, rfl⟩
    exact .more first others

theorem accepts_localStatement
    (accepting : Accepting levels)
    {state : State}
    (found : state.current = .localKw) :
    Accepts (Phrase.statement.within levels) state (localStatement (level levels) state) := by
  have opened : Accepts (just .localKw) state.start state.start.advance :=
    .take found (by decide)
  have names := (accepts_localName state.start.advance).trans
    ((Accepts.separated (by decide) grows_localName accepts_localName _).mono localTail_le)
  refine .node (Accepts.mono (opened.trans (names.trans (.optional fun equals =>
    (Accepts.take equals (by decide)).trans (accepts_expressionList accepting _)))) ?_) .localStmt
  rintro _ ⟨_, rfl, _, ⟨_, ⟨name, first, names, others, rfl⟩, _,
    rfl | ⟨_, rfl, values, ⟨depth, enough, valued⟩, rfl⟩, rfl⟩, rfl⟩
  · have derives : Derives .lenient .statement _ _ := .localNames first others
    exact ⟨0, by omega, by simpa using derives⟩
  · have derives : Derives .lenient .statement _ _ := .localValues first others valued
    exact ⟨depth, enough, by simpa using derives⟩

theorem accepts_returnStatement
    (accepting : Accepting levels)
    {state : State}
    (found : state.current = .returnKw) :
    Accepts (Phrase.leave.within levels) state (returnStatement (level levels) state) := by
  have opened : Accepts (just .returnKw) state.start state.start.advance :=
    .take found (by decide)
  have values (valueless : Bool) : Accepts (1 + Phrase.expressions.within levels)
      state.start.advance (if valueless = true then state.start.advance
        else (level levels).expressionList state.start.advance) := by
    split
    · exact (Accepts.refl _).mono fun _ => Or.inl
    · exact (accepts_expressionList accepting _).mono fun _ => Or.inr
  refine .node (Accepts.mono (opened.trans ((values _).trans (.optional fun semicolon =>
    .take semicolon (by decide)))) ?_) .returnStmt
  rintro _ ⟨_, rfl, _, ⟨values, valued, stop, stops, rfl⟩, rfl⟩
  rcases valued with rfl | ⟨depth, enough, valued⟩
  · exact ⟨0, by omega, .leaveNothing stops⟩
  · have derives : Derives .lenient .leave depth _ := .leaveValues valued stops
    exact ⟨depth, enough, by simpa using derives⟩

/-! ## Assignments and calls -/

/-- The words that can stand in front of the `=` of an assignment. -/
def targetWords (levels : Nat) : Language Kind :=
  words fun word => ∃ role, word ∈ (Phrase.reference role).within levels

theorem accepts_target
    (accepting : Accepting levels)
    (state : State) :
    Accepts (targetWords levels) state (suffixed (level levels) state).2 := by
  refine .assume fun ended => ?_
  have reference := accepts_suffixed accepting ended
  generalize suffixed (level levels) state = reached at reference ⊢
  obtain ⟨_ | kind, after⟩ := reached
  · exact reference _
  · obtain ⟨role, _, accepts⟩ := reference
    exact accepts.mono fun _ member => ⟨role, member⟩

theorem targetTail_le :
    (just .comma * targetWords levels)∗ ≤ Phrase.targetTail.within levels := by
  refine kstar_le_of_mul_le_right ?_ ?_
  · rintro _ rfl
    exact ⟨0, by omega, .noTarget⟩
  · rintro _ ⟨_, ⟨_, rfl, _, ⟨role, first, _, target⟩, rfl⟩, others, ⟨depth, _, tail⟩, rfl⟩
    exact ⟨max first depth, by omega, .moreTargets nofun target tail⟩

theorem accepts_assignment
    (accepting : Accepting levels)
    {state : State} :
    Accepts (Phrase.targetTail.within levels * (just .eq * Phrase.expressions.within levels))
      state (assignment (level levels) state) := by
  have others := (Accepts.separated (by decide) (grows_suffixed levels)
    (accepts_target accepting) state.precede).mono targetTail_le
  have values (targets : State) : Accepts (just .eq * Phrase.expressions.within levels) targets
      ((level levels).expressionList (targets.expect .eq)) :=
    .trans (.expect _ (by decide)) (accepts_expressionList accepting _)
  exact (others.around .varList).trans ((values _).around .assignStmt)

theorem accepts_expressionStatement
    (accepting : Accepting levels)
    (state : State) :
    Accepts (Phrase.statement.within levels) state
      (expressionStatement (level levels) state) := by
  refine .assume fun ended => ?_
  have reference := accepts_suffixed accepting ended
  unfold expressionStatement
  generalize suffixed (level levels) state = reached at reference ⊢
  obtain ⟨_ | kind, behind⟩ := reached
  · exact reference _
  · obtain ⟨role, shown, accepts⟩ := reference
    simp only
    split
    · refine (accepts.trans (accepts_assignment accepting)).mono ?_
      rintro _ ⟨word, ⟨first, _, target⟩, _, ⟨others, ⟨second, _, tail⟩, _,
        ⟨_, rfl, values, ⟨depth, _, valued⟩, rfl⟩, rfl⟩, rfl⟩
      have derives : Derives .lenient .statement _ _ :=
        .assignment (.targets nofun target tail) valued
      exact ⟨max (max first second) depth, by omega, by simpa using derives⟩
    split
    · next isCall =>
      simp only [Bool.or_eq_true, decide_eq_true_eq] at isCall
      obtain rfl : role = .call := shown.mp isCall
      refine (accepts.record _).record _ |>.mono ?_
      rintro _ ⟨depth, enough, called⟩
      exact ⟨depth, enough, .callStatement called⟩
    · have onward : Onward (behind.report .expectedAssignmentOrCall)
          ((behind.report .expectedAssignmentOrCall).precede.complete .error) :=
        (Onward.record _ .precede).trans (.record _ (.complete .error))
      have missed : Accepts 0 behind _ := .report onward
      refine (accepts.trans missed).mono ?_
      rw [mul_zero]
      exact zero_le

/-! ## Statements and blocks -/

/-- What one round of a block takes: a statement, a semicolon or a `return`. -/
def roundWords (levels : Nat) : Language Kind :=
  Phrase.statement.within levels + just .semicolon + Phrase.leave.within levels

theorem accepts_statement
    (accepting : Accepting levels)
    (state : State) :
    Accepts (roundWords levels) state (statement (level levels) state) := by
  have value := accepts_anyExpression accepting
  have body := accepts_block accepting blockEnd
  have known {later : State} (accepts : Accepts (Phrase.statement.within levels) state later) :
      Accepts (roundWords levels) state later :=
    accepts.mono fun _ member => Or.inl (Or.inl member)
  have first (kind : Kind) (found : state.current = kind) (notEnd : kind ≠ .eof) :
      Accepts (just kind) state.start state.start.advance :=
    .take found notEnd
  refine .assume fun ended => ?_
  unfold statement
  split
  · next found =>
    exact ((first .semicolon found (by decide)).node .emptyStmt).mono
      fun _ member => Or.inl (Or.inr member)
  · next found =>
    refine known (.node (Accepts.mono ((first .doubleColon found (by decide)).trans
      (.trans (.expect _ (by decide : Kind.name ≠ .eof))
        (.expect _ (by decide : Kind.doubleColon ≠ .eof)))) ?_) .labelStmt)
    rintro _ ⟨_, rfl, _, ⟨_, rfl, _, rfl, rfl⟩, rfl⟩
    exact ⟨0, by omega, .label⟩
  · next found =>
    refine known (.node ((first .breakKw found (by decide)).mono ?_) .breakStmt)
    rintro _ rfl
    exact ⟨0, by omega, .leaveLoop⟩
  · next found =>
    refine known (.node (Accepts.mono ((first .gotoKw found (by decide)).trans
      (.expect _ (by decide : Kind.name ≠ .eof))) ?_) .gotoStmt)
    rintro _ ⟨_, rfl, _, rfl, rfl⟩
    exact ⟨0, by omega, .jump⟩
  · next found =>
    refine known (.node (Accepts.mono ((first .doKw found (by decide)).trans
      ((body _).trans (.expect _ (by decide : Kind.endKw ≠ .eof)))) ?_) .doStmt)
    rintro _ ⟨_, rfl, _, ⟨word, ⟨depth, enough, inside⟩, _, rfl, rfl⟩, rfl⟩
    exact ⟨depth, enough, .doBlock inside⟩
  · next found =>
    refine known (.node (Accepts.mono ((first .whileKw found (by decide)).trans
      ((value _).trans (accepts_loopBody accepting _))) ?_) .whileStmt)
    rintro _ ⟨_, rfl, _, ⟨test, ⟨first, _, condition⟩, _,
      ⟨_, rfl, _, ⟨word, ⟨depth, _, inside⟩, _, rfl, rfl⟩, rfl⟩, rfl⟩, rfl⟩
    exact ⟨max first depth, by omega, .whileLoop condition inside⟩
  · next found =>
    refine known (.node (Accepts.mono ((first .repeatKw found (by decide)).trans
      ((body _).trans (.trans (.expect _ (by decide : Kind.untilKw ≠ .eof)) (value _)))) ?_)
        .repeatStmt)
    rintro _ ⟨_, rfl, _, ⟨word, ⟨first, _, inside⟩, _, ⟨_, rfl, test, ⟨depth, _, condition⟩,
      rfl⟩, rfl⟩, rfl⟩
    exact ⟨max first depth, by omega, .repeatLoop inside condition⟩
  · next found => exact known (accepts_ifStatement accepting found)
  · next found => exact known (accepts_forStatement accepting ended found)
  · next found => exact known (accepts_functionStatement accepting found)
  · next found =>
    split
    · next more => exact known (accepts_localFunctionStatement accepting found more)
    · exact known (accepts_localStatement accepting found)
  · next found =>
    exact (accepts_returnStatement accepting found).mono fun _ member => Or.inr member
  · exact known (accepts_expressionStatement accepting state)
  · exact known (accepts_expressionStatement accepting state)
  · exact .reportAndAdvance state _

/-- What stands in front of a statement matters to careful texts only. -/
theorem Derives.statements_fresh
    {dialect : Dialect}
    (careless : dialect.careful = false)
    {fresh : Bool}
    {depth : Nat}
    {word : List Kind}
    (derives : Derives dialect (.statements fresh) depth word)
    (other : Bool) :
    Derives dialect (.statements other) depth word := by
  cases derives with
  | nothing => exact .nothing other
  | semicolon others => exact .semicolon others
  | next statement others =>
      refine .next statement others fun careful => ?_
      rw [careless] at careful
      cases careful
  | last leave => exact .last leave
  | early loose leave others => exact .early loose leave others

theorem statements_le :
    (roundWords levels)∗ ≤ (Phrase.statements true).within levels := by
  refine kstar_le_of_mul_le_right ?_ ?_
  · rintro _ rfl
    exact ⟨0, by omega, .nothing true⟩
  · rintro _ ⟨_, (⟨first, _, statement⟩ | rfl) | ⟨first, _, leave⟩, word,
      ⟨depth, enough, others⟩, rfl⟩
    · exact ⟨max first depth, by omega, .next statement (others.statements_fresh rfl false) nofun⟩
    · exact ⟨depth, enough, .semicolon others⟩
    · exact ⟨max first depth, by omega, .early rfl leave (others.statements_fresh rfl false)⟩

theorem accepts_statements
    (accepting : Accepting levels)
    (terminators : KindSet)
    (state : State) :
    Accepts ((Phrase.statements true).within levels) state
      (statements (level levels) terminators state) := by
  have looped : Accepts ((roundWords levels)∗ * 1) state
      (statements (level levels) terminators state) := by
    refine .loop (shrinks_statements levels terminators) ?_ ?_ state
    · intro value later found
      split at found
      · cases found
      · cases found
        exact accepts_statement accepting value
    · intro value later found
      split at found
      · cases found
        exact .refl value
      · cases found
  rw [mul_one] at looped
  exact looped.mono statements_le

/-- The rules of every nesting level accept blocks and expressions within the level. -/
theorem accepting_level (levels : Nat) : Accepting levels := by
  induction levels with
  | zero => exact ⟨fun _ => .skip, fun _ => .skip⟩
  | succ levels ih =>
      refine ⟨fun terminators state => (accepts_statements ih terminators state).mono ?_,
        fun limit state => (accepts_operations ih limit state).mono ?_⟩
      · rintro _ ⟨depth, enough, inside⟩
        exact ⟨depth + 1, by omega, .block inside⟩
      · rintro _ ⟨depth, enough, inside⟩
        exact ⟨depth + 1, by omega, .expression inside⟩

/-- A text that is parsed without faults is derived, within the limit. -/
theorem derives_of_run_eq_nil
    {kinds : List Kind}
    (absent : Kind.eof ∉ kinds)
    (silent : (run (kinds ++ [.eof])).2 = []) :
    ∃ depth, depth ≤ maximalDepth ∧ Derives .lenient .block depth kinds := by
  have accepts : Accepts (Phrase.block.within maximalDepth)
      (State.initial (kinds ++ [.eof])).start (blockOf (kinds ++ [.eof])) :=
    accepts_block (accepting_level maximalDepth) .empty _
  have faults : (blockOf (kinds ++ [.eof])).faults = [] := by
    rwa [run_eq, List.reverse_eq_nil_iff] at silent
  obtain ⟨word, derivable, taken⟩ := accepts.takes (ended_initial absent) faults
  rw [ahead_blockOf absent] at taken
  have same : kinds = word := List.append_cancel_right taken
  rwa [same]

end LuaFold.Grammar
