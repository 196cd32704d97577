import LuaFold.Proofs.Grammar.Abreast.Expression
import LuaFold.Proofs.Grammar.Chunk

/-!
# Statements of two parses abreast

Behind a nested block a closing token is expected, so a text that ends in the block has a fault.
Of all statements only a `return` takes a semicolon that it does not need: where it is the last
statement of one text, it takes the semicolon behind the text in the other parse.
-/

namespace LuaFold.Grammar

open Form State

namespace Surroundings

variable {around : Surroundings} {levels : Nat} {one other : State}

variable (around) in
/--
The last statement of one text is a `return`, which takes the semicolon behind the text in the
other parse.
-/
def Returned (one other : State) : Prop :=
  ∃ before beforeOther, around.Spent before ∧ around.Beside before beforeOther ∧
    one = before.complete .returnStmt ∧ other = beforeOther.advance.complete .returnStmt

theorem Returned.spent (returned : around.Returned one other) : around.Spent one := by
  obtain ⟨before, _, spent, _, rfl, _⟩ := returned
  exact spent

namespace Follows

/-- Behind a fault in front of further tokens anything may be the case. -/
theorem missed
    {middle after : State}
    {result : Prop}
    (faulty : around.Faulty middle)
    (before : Onward one middle)
    (behind : Onward middle after) :
    around.Follows one other after result :=
  ⟨before.trans behind, fun beside sound =>
    absurd faulty (not_faulty_of_onward behind (before beside.ended).1 sound)⟩

/-! ## Conditionals and loops -/

theorem elseIfClause
    (keeping : around.Keeping levels)
    (one other : State) :
    around.Follows one other (Grammar.elseIfClause (level levels) one).reached
      (around.Rounds around.Spent (Grammar.elseIfClause (level levels) one)
        (Grammar.elseIfClause (level levels) other)) := by
  refine choice Turn.reached (around.Rounds _) (by decide) (fun isElseIf => ?_)
    fun _ => last (refl one other)
  have opened := takeFirst around other isElseIf (by decide)
  have condition := opened.trans ((anyExpression keeping _ _).trans
    (expect (by decide : Certain .thenKw) _ _))
  exact (node_abreast (condition.trans (block keeping _ _)) .elseIfClause).mono
    fun abreast => abreast.imp .next id

theorem elseClause
    (keeping : around.Keeping levels)
    (one other : State) :
    around.Follows one other (Grammar.elseClause (level levels) one)
      (around.Abreast (Grammar.elseClause (level levels) one)
        (Grammar.elseClause (level levels) other)) := by
  refine choice id around.Abreast (by decide) (fun isElse => ?_)
    fun _ => (refl one other).mono Or.inl
  have opened := takeFirst around other isElse (by decide)
  exact node_abreast (opened.trans (block keeping _ _)) .elseClause

/-- A loop that ends at once leaves everything as it is. -/
theorem loop_stays
    {round : State → Turn State}
    {state : State}
    (found : round state = .last state) :
    state.loop round = state := by
  rw [State.loop]
  cases state.ahead with
  | nil => rfl
  | cons kind kinds => simp only [Grammar.iterate, found]

theorem ifStatement
    (keeping : around.Keeping levels)
    (found : one.current = .ifKw) :
    around.Follows one other (Grammar.ifStatement (level levels) one)
      (around.Beside (Grammar.ifStatement (level levels) one)
        (Grammar.ifStatement (level levels) other)) := by
  have opened := takeFirst around other found (by decide)
  have condition := opened.trans ((anyExpression keeping _ _).trans
    (expect (by decide : Certain .thenKw) _ _))
  have body := condition.trans (block keeping _ _)
  have stops (state : State) (isEnd : state.current = .eof) :
      Grammar.elseIfClause (level levels) state = .last state := by
    simp [Grammar.elseIfClause, isAt, isEnd]
  have clauses := body.beyond (loop around.Spent (shrinks_elseIfClause levels)
    (fun state spent => stops state spent.2) (elseIfClause keeping) _ _)
    fun isEnd => loop_stays (stops _ isEnd)
  have whole := clauses.beyond (elseClause keeping _ _) fun isEnd => by
    simp [Grammar.elseClause, isAt, isEnd]
  exact .node (whole.close (by decide)) .ifStmt

theorem nameList (one other : State) :
    around.Follows one other (Grammar.nameList one)
      (around.Beside (Grammar.nameList one) (Grammar.nameList other)) :=
  .node ((expect (by decide) one.start other.start).trans
    (separated (by decide) (fun state => Grows.expect state (by decide : Kind.name ≠ .eof))
      (expect (by decide)) _ _)) .nameList

theorem numericRange
    (keeping : around.Keeping levels)
    (one other : State)
    (more : one.current ≠ .eof)
    (found : one.following = .eq) :
    around.Follows one other (Grammar.numericRange (level levels) one)
      (around.Beside (Grammar.numericRange (level levels) one)
        (Grammar.numericRange (level levels) other)) := by
  have value := anyExpression keeping
  have equals : one.advance.current = .eq := (current_advance more).trans found
  have first := (advance other more).trans
    ((take other.advance equals (by decide)).trans (value _ _))
  have second := first.trans ((expect (by decide : Certain .comma) _ _).trans (value _ _))
  exact second.trans (choice id around.Beside (by decide)
    (fun comma => (take _ comma (by decide)).trans (value _ _)) fun _ => refl _ _)

/-- Behind the head of a loop stand its block and the closing `end`. -/
theorem loopBody
    (keeping : around.Keeping levels)
    {head headOther : State}
    (headed : around.Follows one other head (around.Beside head headOther)) :
    around.Follows one other
      (((level levels).nestedBlock (head.expect .doKw)).expect .endKw)
      (around.Beside (((level levels).nestedBlock (head.expect .doKw)).expect .endKw)
        (((level levels).nestedBlock (headOther.expect .doKw)).expect .endKw)) :=
  .close (headed.trans ((expect (by decide) _ _).trans (block keeping _ _))) (by decide)

/-- Where a text ends behind `for`, the name of a variable is missing. -/
theorem faulty_nameList
    {state : State}
    (spent : around.Spent state)
    (ended : state.Ended) :
    around.Faulty (Grammar.nameList state) := by
  have reported : state.start.expect .name = state.start.report (.expected .name) := by
    simp [State.expect, isAt, spent.2]
  have behind : Onward (state.start.report (.expected .name)) (Grammar.nameList state) := by
    rw [Grammar.nameList, reported]
    have names := Grows.separated (state.start.report (.expected .name))
      (by decide : Kind.comma ≠ .eof)
      fun state => Grows.expect state (by decide : Kind.name ≠ .eof)
    exact names.onward.trans (.record _ _)
  by_contra sound
  exact not_faulty_of_onward behind ended sound ⟨spent.1, by simp [State.report]⟩

theorem forStatement
    (keeping : around.Keeping levels)
    (found : one.current = .forKw) :
    around.Follows one other (Grammar.forStatement (level levels) one)
      (around.Beside (Grammar.forStatement (level levels) one)
        (Grammar.forStatement (level levels) other)) := by
  have opened := takeFirst around other found (by decide)
  have generic (other : State) := loopBody keeping
    ((expect (by decide : Certain .inKw) (Grammar.nameList one.start.advance)
      (Grammar.nameList other.start.advance)).trans (expressionList keeping _ _))
  obtain ⟨_, _, forms⟩ := forms_forStatement (sound_level levels) found
  refine assume forms.onward fun beside => ?_
  have besideStarted : around.Beside one.start other.start := beside.record .start
  have besideOpened : around.Beside one.start.advance other.start.advance :=
    besideStarted.advance (by simp [found])
  unfold Grammar.forStatement
  by_cases numeric : one.start.advance.following = .eq
  · have more : one.start.advance.current ≠ .eof :=
      besideOpened.ended.current_ne_eof (by simp [numeric])
    have numericOther : other.start.advance.following = .eq :=
      (besideOpened.following_iff (by decide) fun spent => more spent.2).mpr numeric
    simp only [numeric, numericOther, ↓reduceIte]
    exact .node (loopBody keeping (opened.trans (numericRange keeping _ _ more numeric)))
      .numericForStmt
  simp only [numeric, ↓reduceIte]
  by_cases spent : around.Spent one.start.advance
  · have named : Onward one (Grammar.nameList one.start.advance) :=
      ((Onward.record one .start).trans opened.onward).trans (grows_nameList _).onward
    exact missed (faulty_nameList spent besideOpened.ended) named
      ((generic one).onward.trans (.record _ _))
  · have genericOther : ¬ other.start.advance.following = .eq :=
      mt (besideOpened.following_iff (by decide) spent).mp numeric
    simp only [genericOther, ↓reduceIte]
    exact .node (opened.trans ((nameList _ _).trans (generic other))) .genericForStmt

/-! ## Function definitions -/

theorem functionName : around.Keeps Grammar.functionName := by
  intro one other
  refine choice id around.Beside (by decide) (fun isName => ?_)
    fun _ => report .expectedFunctionName one other
  have named := takeFirst around other isName (by decide)
  have dotted := named.trans (separated (by decide : Certain .dot)
    (fun state => Grows.expect state (by decide : Kind.name ≠ .eof))
    (expect (by decide)) _ _)
  exact .node (dotted.trans (choice id around.Beside (by decide)
    (fun colon => (take _ colon (by decide)).trans (expect (by decide) _ _))
    fun _ => refl _ _)) .funcName

theorem functionStatement
    (keeping : around.Keeping levels)
    (found : one.current = .functionKw) :
    around.Follows one other (Grammar.functionStatement (level levels) one)
      (around.Beside (Grammar.functionStatement (level levels) one)
        (Grammar.functionStatement (level levels) other)) := by
  have opened := takeFirst around other found (by decide)
  exact .node (opened.trans ((functionName _ _).trans (functionBody keeping _ _))) .functionStmt

theorem localFunctionStatement
    (keeping : around.Keeping levels)
    (found : one.current = .localKw)
    (more : one.following = .functionKw) :
    around.Follows one other (Grammar.localFunctionStatement (level levels) one)
      (around.Beside (Grammar.localFunctionStatement (level levels) one)
        (Grammar.localFunctionStatement (level levels) other)) := by
  have opened := takeFirst around other found (by decide)
  have keyword : one.start.advance.current = .functionKw :=
    (current_advance (by simp [found])).trans more
  exact .node (opened.trans ((take _ keyword (by decide)).trans
    ((expect (by decide : Certain .name) _ _).trans (functionBody keeping _ _))))
    .localFunctionStmt

/-! ## Declarations and simple statements -/

theorem localName : around.Keeps Grammar.localName := by
  intro one other
  refine .node ((expect (by decide) one.start other.start).trans
    (choice id around.Beside (by decide) (fun less => ?_) fun _ => refl _ _)) .localName
  have opened : around.Follows (one.start.expect .name).start (other.start.expect .name).start _
      (around.Beside _ _) := take _ less (by decide)
  exact .node (opened.trans ((expect (by decide : Certain .name) _ _).trans
    (expect (by decide) _ _))) .attrib

theorem localStatement
    (keeping : around.Keeping levels)
    (found : one.current = .localKw) :
    around.Follows one other (Grammar.localStatement (level levels) one)
      (around.Beside (Grammar.localStatement (level levels) one)
        (Grammar.localStatement (level levels) other)) := by
  have opened := takeFirst around other found (by decide)
  have names := opened.trans ((localName _ _).trans
    (separated (by decide : Certain .comma) grows_localName localName _ _))
  exact .node (names.trans (choice id around.Beside (by decide)
    (fun equals => (take _ equals (by decide)).trans (expressionList keeping _ _))
    fun _ => refl _ _)) .localStmt

/-- The semicolon of a `return` stands behind its values. -/
theorem acceptSemicolon (one other : State) :
    around.Follows one other ((one.accept .semicolon).complete .returnStmt)
      (around.Beside ((one.accept .semicolon).complete .returnStmt)
          ((other.accept .semicolon).complete .returnStmt) ∨
        around.Returned ((one.accept .semicolon).complete .returnStmt)
          ((other.accept .semicolon).complete .returnStmt)) := by
  have accepted : Onward one (one.accept .semicolon) :=
    (Grows.accept one (by decide : Kind.semicolon ≠ .eof)).onward
  refine ⟨accepted.trans (.record _ _), fun beside _ => ?_⟩
  by_cases spent : around.Spent one
  · have left : one.accept .semicolon = one := by simp [State.accept, isAt, spent.2]
    have taken : other.accept .semicolon = other.advance := by
      simp [State.accept, isAt, beside.current_of_spent spent]
    rw [left, taken]
    exact Or.inr ⟨one, other, spent, beside, rfl, rfl⟩
  · have same : other.current = one.current := beside.current_eq spent
    simp only [State.accept, isAt, same, decide_eq_true_eq]
    refine Or.inl (Beside.record ?_ _)
    split
    · next found => exact beside.advance (by simp [found])
    · exact beside

theorem returnStatement
    (keeping : around.Keeping levels)
    (found : one.current = .returnKw) :
    around.Follows one other (Grammar.returnStatement (level levels) one)
      (around.Beside (Grammar.returnStatement (level levels) one)
          (Grammar.returnStatement (level levels) other) ∨
        around.Returned (Grammar.returnStatement (level levels) one)
          (Grammar.returnStatement (level levels) other)) := by
  have opened := takeFirst around other found (by decide)
  refine recorded (opened.trans (.trans (agreed id around.Beside (fun beside => ?_)
    (fun _ => refl _ _) fun _ => expressionList keeping _ _) (acceptSemicolon _ _)))
  by_cases spent : around.Spent one.start.advance
  · simp only [isIn, spent.2, beside.current_of_spent spent]
    decide
  · rw [isIn, beside.current_eq spent, isIn]

/-! ## Assignments and calls -/

theorem assignment (keeping : around.Keeping levels) :
    around.Keeps (Grammar.assignment (level levels)) := by
  intro one other
  have target : around.Keeps fun state => (Grammar.suffixed (level levels) state).2 :=
    fun one other => (suffixed keeping one other).mono (·.2)
  have targets := separated (by decide : Certain .comma) (grows_suffixed levels) target
    one.precede other.precede
  exact (targets.wrap .varList).trans
    (.wrap ((expect (by decide : Certain .eq) _ _).trans (expressionList keeping _ _)) .assignStmt)

/-- The rest of an assignment or a call, behind a first expression of a kind. -/
def behindFirst (deeper : Deeper) (kind : Kind) (state : State) : State :=
  if state.isAt .eq || state.isAt .comma then Grammar.assignment deeper state
  else if kind = .callExpr || kind = .methodCallExpr then state.precede.complete .callStmt
  else (state.report .expectedAssignmentOrCall).precede.complete .error

theorem follows_behindFirst
    (keeping : around.Keeping levels)
    (kind : Kind) :
    around.Keeps (behindFirst (level levels) kind) := by
  intro one other
  refine agreed id around.Beside (fun beside => ?_) (fun _ => assignment keeping one other)
    fun _ => agreed id around.Beside (fun _ => Iff.rfl) (fun _ => ?_) fun _ => ?_
  · rw [beside.isAt_eq (by decide), beside.isAt_eq (by decide)]
  · exact ((refl one other).record .precede).record (.complete .callStmt)
  · exact ((report .expectedAssignmentOrCall one other).record .precede).record (.complete .error)

theorem expressionStatement (keeping : around.Keeping levels) :
    around.Keeps (Grammar.expressionStatement (level levels)) := by
  intro one other
  have first := suffixed keeping one other
  have rest := follows_behindFirst keeping
  unfold Grammar.expressionStatement
  generalize Grammar.suffixed (level levels) one = found at first ⊢
  generalize Grammar.suffixed (level levels) other = foundOther at first ⊢
  obtain ⟨_ | kind, behind⟩ := found
  · refine knowingly first (.refl behind) ?_
    rintro state rfl
    exact refl behind state
  · refine knowingly first (rest kind behind behind).onward ?_
    rintro state rfl
    exact rest kind behind state

/-! ## Statements and blocks -/

theorem statement
    (keeping : around.Keeping levels)
    (more : one.current ≠ .eof) :
    around.Follows one other (Grammar.statement (level levels) one)
      (around.Beside (Grammar.statement (level levels) one)
          (Grammar.statement (level levels) other) ∨
        around.Returned (Grammar.statement (level levels) one)
          (Grammar.statement (level levels) other)) := by
  have value := anyExpression keeping
  have known {after afterOther : State}
      (follows : around.Follows one other after (around.Beside after afterOther)) :
      around.Follows one other after
        (around.Beside after afterOther ∨ around.Returned after afterOther) :=
    follows.mono Or.inl
  refine assume (grows_statement (sound_level levels) more).onward fun beside => ?_
  have same : other.current = one.current := beside.current_eq fun spent => more spent.2
  unfold Grammar.statement
  rw [same]
  split
  · next found => exact known (.node (takeFirst around other found (by decide)) .emptyStmt)
  · next found =>
    exact known (.node ((takeFirst around other found (by decide)).trans
      ((expect (by decide : Certain .name) _ _).trans
        (expect (by decide : Certain .doubleColon) _ _))) .labelStmt)
  · next found => exact known (.node (takeFirst around other found (by decide)) .breakStmt)
  · next found =>
    exact known (.node ((takeFirst around other found (by decide)).trans
      (expect (by decide : Certain .name) _ _)) .gotoStmt)
  · next found =>
    have body := (takeFirst around other found (by decide)).trans (block keeping _ _)
    exact known (.node (body.close (by decide : Certain .endKw)) .doStmt)
  · next found =>
    have condition := (takeFirst around other found (by decide)).trans (value _ _)
    exact known (.node (loopBody keeping condition) .whileStmt)
  · next found =>
    have body := (takeFirst around other found (by decide)).trans (block keeping _ _)
    exact known (.node ((body.close (by decide : Certain .untilKw)).trans (value _ _)) .repeatStmt)
  · next found => exact known (ifStatement keeping found)
  · next found => exact known (forStatement keeping found)
  · next found => exact known (functionStatement keeping found)
  · next found =>
    refine known (agreed id around.Beside (fun beside => ?_) (fun next => ?_) fun _ => ?_)
    · exact beside.following_iff (by decide) fun spent => more spent.2
    · exact localFunctionStatement keeping found next
    · exact localStatement keeping found
  · next found => exact returnStatement keeping found
  · exact known (expressionStatement keeping one other)
  · exact known (expressionStatement keeping one other)
  · exact known (reportAndAdvance .expectedStatement one other)

theorem statements
    (keeping : around.Keeping levels)
    (terminators : KindSet)
    (one other : State) :
    around.Follows one other (Grammar.statements (level levels) terminators one)
      (around.Abreast (Grammar.statements (level levels) terminators one)
        (Grammar.statements (level levels) terminators other)) := by
  refine loop around.Spent (shrinks_statements levels terminators) (fun state spent => ?_)
    (fun one other => ?_) one other
  · simp [isAt, spent.2]
  · refine guarded (fun kind => kind = .eof || terminators.contains kind) rfl fun more => ?_
    exact (statement keeping more).mono fun kept => kept.imp .next Returned.spent

end Follows

/-- The rules of every nesting level keep parses side by side. -/
theorem keeping_level (around : Surroundings) (levels : Nat) : around.Keeping levels := by
  induction levels with
  | zero =>
      exact ⟨fun _ one other => (Follows.skip one other).mono Or.inl,
        fun _ => Follows.skip⟩
  | succ levels ih => exact ⟨Follows.statements ih, Follows.operations ih⟩

end Surroundings

end LuaFold.Grammar
