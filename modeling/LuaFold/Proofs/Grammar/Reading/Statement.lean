import LuaFold.Proofs.Grammar.Reading.Expression

/-!
# Reading statements and blocks

The first token of a statement says which rule reads it, and what stands behind it is the next
statement or what closes the block.  Names and parameters have no depth: they are read with any
number of levels left.
-/

namespace LuaFold.Grammar

open scoped Computability
open Form State

/-! ## Names and parameters -/

section Names

variable {name names rest : List Kind}

theorem NameTail.front
    {separator : Kind}
    (tail : NameTail separator names) :
    ∀ kind ∈ names.head?, kind = separator := by
  cases tail <;> simp

theorem NameTail.reads
    {separator : Kind}
    (tail : NameTail separator names)
    (notEnd : separator ≠ .eof)
    (other : rest.headD .eof ≠ separator)
    (levels : Nat)
    (state : State) :
    Consumes levels 0 names rest state
      (state.separated separator fun state => state.expect .name) := by
  have grows : ∀ state : State, Grows (optional (token .name)) state (state.expect .name) :=
    fun state => .expect state (by decide)
  induction tail generalizing state with
  | done => exact .separated_done levels notEnd grows other state
  | more _ ih =>
      exact .separated_more notEnd grows (.expect levels (by decide) _ _) (ih _)

theorem reads_nameList
    (tail : NameTail .comma names)
    (other : rest.headD .eof ≠ .comma)
    (levels : Nat)
    (state : State) :
    Consumes levels 0 (.name :: names) rest state (nameList state) :=
  .node (.expecting (by decide) (tail.reads (by decide) other levels _)) .nameList

theorem reads_functionName
    (named : FunctionName name)
    (isBody : rest.headD .eof = .leftParen)
    (levels : Nat)
    (state : State) :
    Consumes levels 0 name rest state (functionName state) := by
  refine .assume (grows_functionName state).onward fun _ ahead => ?_
  have here : state.isAt .name = true := by
    cases named <;> simp [isAt, current, ahead]
  simp only [functionName, here, ↓reduceIte]
  cases named with
  | plain fieldNames =>
      have noField : rest.headD .eof ≠ .dot := by
        rw [isBody]
        decide
      have fields := fieldNames.reads (by decide) noField levels state.start.advance
      have plain : rest.headD .eof ≠ .colon := by
        rw [isBody]
        decide
      have method (dotted : State) : Onward dotted (dotted.advance.expect .name) :=
        (Onward.advance dotted).trans (Grows.expect _ (by decide)).onward
      exact .node (.taking (by decide) (fields.settled
        (.optional_omitted levels (method _) plain))) .funcName
  | method fieldNames =>
      have noField : (Kind.colon :: .name :: rest).headD .eof ≠ .dot := by simp
      have fields := fieldNames.reads (by decide) noField levels state.start.advance
      exact .node (.taking (by decide) (fields.closed (.optional_taken
        (.taking (by decide) (.expect levels (by decide) rest _))))) .funcName

theorem reads_localName
    (named : LocalName name)
    (other : rest.headD .eof ≠ .lt)
    (levels : Nat)
    (state : State) :
    Consumes levels 0 name rest state (localName state) := by
  cases named with
  | plain =>
      have attrib : Onward (state.start.expect .name)
          (((state.start.expect .name).start.advance.expect .name).expect .gt) := by
        refine ((Onward.record _ .start).trans (.advance _)).trans ?_
        exact (Grows.expect _ (by decide)).onward.trans (Grows.expect _ (by decide)).onward
      have noAttribute := Consumes.optional_omitted levels
        (attrib.trans (.record _ (.complete .attrib))) other
      exact .node (.settled (.expect levels (by decide) rest _) noAttribute) .localName
  | attributed =>
      have attrib (named : State) : Consumes levels 0 [.lt, .name, .gt] rest named
          (((named.start.advance.expect .name).expect .gt).complete .attrib) :=
        .node (.taking (by decide) (.expecting (by decide) (.expect levels (by decide) rest _)))
          .attrib
      exact .node (.expecting (by decide) (.optional_taken (attrib _))) .localName

theorem LocalTail.front (tail : LocalTail names) : ∀ kind ∈ names.head?, kind = .comma := by
  cases tail <;> simp

theorem LocalTail.reads
    (tail : LocalTail names)
    (other : rest.headD .eof ≠ .comma)
    (plain : rest.headD .eof ≠ .lt)
    (levels : Nat)
    (state : State) :
    Consumes levels 0 names rest state (state.separated .comma localName) := by
  induction tail generalizing state with
  | done => exact .separated_done levels (by decide) grows_localName other state
  | @more name names first others ih =>
      have stop : (names ++ rest).headD .eof ≠ .lt := by
        refine @behind_append (· ≠ .lt) names rest (fun kind found => ?_) plain
        simp [others.front kind found]
      exact .separated_more (by decide) grows_localName (reads_localName first stop levels _)
        (ih _)

theorem Parameters.reads
    {strict : Bool}
    (parameters : Parameters strict names)
    (isEnd : rest.headD .eof = .rightParen)
    (levels : Nat)
    (state : State) :
    Consumes levels 0 names rest state (state.loop parameter) := by
  induction parameters generalizing state with
  | none =>
      refine .loop_last (onward_parameters state) (fun _ ahead => ?_) (.refl levels rest state)
      have here : state.current = .rightParen := by
        rw [current, ahead]
        exact isEnd
      simp [parameter, isAt, here]
  | rest =>
      refine .loop_last (onward_parameters state) (fun _ ahead => ?_)
        (.node (.advance levels (by decide) rest _) .param)
      simp [parameter, isAt, current, ahead]
  | single =>
      refine .loop_last (onward_parameters state) (fun _ ahead => ?_)
        (.node (.advance levels (by decide) rest _) .param)
      have behind : (state.start.advance.complete .param).current = .rightParen := by
        rw [current, ← isEnd]
        simp [State.complete, record, State.start, State.advance, isAt, current, ahead]
      simp [parameter, isAt, behind]
      simp [current, ahead]
  | @more names others _ ih =>
      have named : Consumes levels 0 [.name] (.comma :: (names ++ rest)) state
          (state.start.advance.complete .param) := .node (.advance levels (by decide) _ _) .param
      refine .loop_next shrinks_parameter (onward_parameters state) (fun ended ahead => ?_)
        (named.append (.taking (by decide) (ih (state.start.advance.complete .param).advance)))
      have behind := ((named.outcome ended ahead).reads (Nat.zero_le levels)).1
      have here : state.current = .name := by simp [current, ahead]
      have comma : (state.start.advance.complete .param).current = .comma := by
        rw [current, behind]
        rfl
      simp [parameter, isAt, here, comma]

end Names

/-! ## Blocks -/

/-- The sets of kinds that a block goes up to: a whole text has none, a nested block its own. -/
def Terminates (terminators : KindSet) : Prop :=
  terminators = .empty ∨ terminators = blockEnd

/-- What stands behind a block. -/
def Closes (terminators : KindSet) (kind : Kind) : Prop :=
  kind = .eof ∨ terminators.contains kind = true

theorem Terminates.closesBlock
    {terminators : KindSet}
    (terminates : Terminates terminators)
    {kind : Kind}
    (closes : Closes terminators kind) :
    closesBlock kind = true := by
  rcases closes with rfl | member
  · rfl
  · rcases terminates with rfl | rfl
    · simp at member
    · simp [Grammar.closesBlock, member]

theorem endsStatement_of_closesBlock
    {kind : Kind}
    (closes : closesBlock kind = true) :
    endsStatement kind = true := by
  simp [endsStatement, closes]

/-- Statements up to what closes their block. -/
def ReadsStatements (depth : Nat) (word : List Kind) : Prop :=
  ∀ terminators, Terminates terminators →
    Readable (Closes terminators) (fun deeper => statements deeper terminators) depth word

/-- A block of its own, up to what closes it. -/
def ReadsBlock (depth : Nat) (word : List Kind) : Prop :=
  ∀ terminators, Terminates terminators →
    Readable (Closes terminators) (fun deeper => deeper.block terminators) depth word

def ReadsStatement (depth : Nat) (word : List Kind) : Prop :=
  Readable (endsStatement · = true) statement depth word

/-- A statement behind which the block is closed. -/
def ReadsLeave (depth : Nat) (word : List Kind) : Prop :=
  Readable (closesBlock · = true) statement depth word

theorem onward_statements
    (levels : Nat)
    (terminators : KindSet)
    (state : State) :
    Onward state (statements (level levels) terminators state) :=
  (grows_statements (sound_level levels) terminators state).onward

theorem onward_statement
    (levels : Nat)
    (state : State) :
    Onward state (statement (level levels) state) := by
  by_cases isEnd : state.current = .eof
  · have kept : statement (level levels) state = state.report .expectedStatement := by
      simp [statement, reportAndAdvance, isAt, isEnd]
    rw [kept]
    exact (Grows.report state _).onward
  · exact (grows_statement (sound_level levels) isEnd).onward

theorem ReadsStatements.block
    {depth : Nat}
    {word : List Kind}
    (inside : ReadsStatements depth word) :
    ReadsBlock (depth + 1) word := by
  intro terminators terminates levels rest state closes
  refine .node ?_ .block
  cases levels with
  | zero => exact .skip depth word rest state.start
  | succ levels =>
      refine ⟨onward_statements levels terminators state.start, fun ended ahead => ?_⟩
      have outcome := (inside terminators terminates levels rest state.start closes).outcome
        ended ahead
      exact outcome.deeper

theorem ReadsBlock.nested
    {depth : Nat}
    {word : List Kind}
    (inside : ReadsBlock depth word) :
    Readable (closesBlock · = true) Deeper.nestedBlock depth word := by
  intro levels rest state closes
  refine inside blockEnd (Or.inr rfl) levels rest state ?_
  simpa [closesBlock, Closes] using closes

/-- A block with the `end` behind it. -/
theorem ReadsBlock.closed
    {depth : Nat}
    {body : List Kind}
    (inside : ReadsBlock depth body)
    (levels : Nat)
    (rest : List Kind)
    (state : State) :
    Consumes levels depth (body ++ [.endKw]) rest state
      (((level levels).nestedBlock state).expect .endKw) := by
  have closer : closesBlock .endKw = true := by decide
  exact (inside.nested levels (.endKw :: rest) state closer).closed
    (.expect levels (by decide) rest _)

/-- The block of a loop, from its `do` to its `end`. -/
theorem ReadsBlock.looped
    {depth : Nat}
    {body : List Kind}
    (inside : ReadsBlock depth body)
    (levels : Nat)
    (rest : List Kind)
    (state : State) :
    Consumes levels depth (.doKw :: (body ++ [.endKw])) rest state
      (((level levels).nestedBlock (state.expect .doKw)).expect .endKw) :=
  .expecting (by decide) (inside.closed levels rest _)

theorem readsStatements_done : ReadsStatements 0 [] := by
  intro terminators _ levels rest state closes
  refine .loop_last (onward_statements levels terminators state) (fun _ ahead => ?_)
    (.refl levels rest state)
  have here : state.current = rest.headD .eof := by
    rw [current, ahead]
    rfl
  rw [if_pos]
  rcases closes with isEnd | member
  · simp only [isAt_iff.mpr (here.trans isEnd), Bool.true_or]
  · simp only [isIn, here, member, Bool.or_true]

section Statements

variable {firstDepth depth : Nat} {first word : List Kind}

/-- In front of a statement that is read, the others are read behind it. -/
theorem reads_statements_next
    {terminators : KindSet}
    {levels : Nat}
    {rest : List Kind}
    {state : State}
    (terminates : Terminates terminators)
    (open_ : ∀ kind ∈ first.head?, closesBlock kind = false)
    (some : first ≠ [])
    (consumed : Consumes levels firstDepth first (word ++ rest) state
      (statement (level levels) state))
    (others : Consumes levels depth word rest (statement (level levels) state)
      (statements (level levels) terminators (statement (level levels) state))) :
    Consumes levels (max firstDepth depth) (first ++ word) rest state
      (statements (level levels) terminators state) := by
  refine .loop_next (shrinks_statements levels terminators)
    (onward_statements levels terminators state) (fun _ ahead => ?_) (consumed.append others)
  obtain ⟨kind, more, rfl⟩ := List.exists_cons_of_ne_nil some
  have here : state.current = kind := by simp [current, ahead]
  have notClosed := open_ kind rfl
  have notEnd : kind ≠ .eof := by
    rintro rfl
    cases notClosed
  have notTerminator : terminators.contains kind = false := by
    by_contra member
    rw [terminates.closesBlock (Or.inr (by simpa using member))] at notClosed
    cases notClosed
  simp [isAt, isIn, here, notEnd, notTerminator]

theorem readsStatements_semicolon (others : ReadsStatements depth word) :
    ReadsStatements depth (.semicolon :: word) := by
  intro terminators terminates levels rest state closes
  have empty : Consumes levels 0 [.semicolon] (word ++ rest) state
      (statement (level levels) state) := by
    refine .assume (onward_statement levels state) fun _ ahead => ?_
    have same : statement (level levels) state = state.start.advance.complete .emptyStmt := by
      simp [statement, current, ahead]
    rw [same]
    exact .node (.advance levels (by decide) _ _) .emptyStmt
  have whole := reads_statements_next terminates (by simp; rfl) (by simp) empty
    (others terminators terminates levels rest _ closes)
  simpa using whole

theorem readsStatements_next
    (begins : ∃ kind others, first = kind :: others ∧ beginsStatement kind = true)
    (apart : ∀ kind ∈ word.head?, endsStatement kind = true)
    (read : ReadsStatement firstDepth first)
    (others : ReadsStatements depth word) :
    ReadsStatements (max firstDepth depth) (first ++ word) := by
  intro terminators terminates levels rest state closes
  obtain ⟨kind, more, rfl, isFirst⟩ := begins
  have ends : endsStatement ((word ++ rest).headD .eof) = true :=
    behind_append apart (endsStatement_of_closesBlock (terminates.closesBlock closes))
  refine reads_statements_next terminates ?_ (by simp) (read levels _ _ ends)
    (others terminators terminates levels rest _ closes)
  rintro _ ⟨⟩
  exact not_closesBlock_of_beginsStatement isFirst

theorem readsStatements_last
    (begins : ∃ others, first = .returnKw :: others)
    (read : ReadsLeave firstDepth first) :
    ReadsStatements firstDepth first := by
  intro terminators terminates levels rest state closes
  obtain ⟨more, rfl⟩ := begins
  have whole := reads_statements_next terminates (by simp; rfl) (by simp)
    (read levels ([] ++ rest) state (terminates.closesBlock closes))
    (readsStatements_done terminators terminates levels rest _ closes)
  simpa using whole

end Statements

/-! ## Simple statements -/

/-- A statement is read by the rule that its first tokens select. -/
theorem readable_statement
    {behind : Kind → Prop}
    {depth : Nat}
    {word : List Kind}
    (rule : Deeper → State → State)
    (same : ∀ deeper state rest, state.ahead = word ++ rest →
      statement deeper state = rule deeper state)
    (reads : Readable behind rule depth word) :
    Readable behind statement depth word := by
  intro levels rest state ends
  refine .assume (onward_statement levels state) fun _ ahead => ?_
  rw [same _ _ _ ahead]
  exact reads levels rest state ends

theorem readsStatement_label : ReadsStatement 0 [.doubleColon, .name, .doubleColon] := by
  refine readable_statement (fun _ state =>
      ((state.start.advance.expect .name).expect .doubleColon).complete .labelStmt)
    (fun _ _ _ ahead => by simp [statement, current, ahead]) fun levels rest state _ => ?_
  exact .node (.taking (by decide) (.expecting (by decide)
    (.expect levels (by decide) rest _))) .labelStmt

theorem readsStatement_leaveLoop : ReadsStatement 0 [.breakKw] := by
  refine readable_statement (fun _ state => state.start.advance.complete .breakStmt)
    (fun _ _ _ ahead => by simp [statement, current, ahead]) fun levels rest state _ => ?_
  exact .node (.advance levels (by decide) rest _) .breakStmt

theorem readsStatement_jump : ReadsStatement 0 [.gotoKw, .name] := by
  refine readable_statement (fun _ state => (state.start.advance.expect .name).complete .gotoStmt)
    (fun _ _ _ ahead => by simp [statement, current, ahead]) fun levels rest state _ => ?_
  exact .node (.taking (by decide) (.expect levels (by decide) rest _)) .gotoStmt

/-! ## Loops and conditions -/

section Bodies

variable {testDepth depth otherDepth : Nat} {test body others : List Kind}

theorem readsStatement_doBlock (inside : ReadsBlock depth body) :
    ReadsStatement depth (.doKw :: (body ++ [.endKw])) := by
  refine readable_statement (fun deeper state =>
      ((deeper.nestedBlock state.start.advance).expect .endKw).complete .doStmt)
    (fun _ _ _ ahead => by simp [statement, current, ahead]) fun levels rest state _ => ?_
  exact .node (.taking (by decide) (inside.closed levels rest _)) .doStmt

theorem readsStatement_whileLoop
    (condition : ReadsExpression testDepth test)
    (inside : ReadsBlock depth body) :
    ReadsStatement (max testDepth depth) (.whileKw :: (test ++ .doKw :: (body ++ [.endKw]))) := by
  refine readable_statement (fun deeper state =>
      ((deeper.nestedBlock ((deeper.anyExpression state.start.advance).expect .doKw)).expect
        .endKw).complete .whileStmt)
    (fun _ _ _ ahead => by simp [statement, current, ahead]) fun levels rest state _ => ?_
  have stop : EndsExpression 0 .doKw := by decide
  have head := condition levels (.doKw :: ((body ++ [.endKw]) ++ rest)) state.start.advance stop
  exact .node (.taking (by decide) (head.append (inside.looped levels rest _))) .whileStmt

theorem readsStatement_repeatLoop
    (inside : ReadsBlock depth body)
    (condition : ReadsExpression testDepth test) :
    ReadsStatement (max depth testDepth) (.repeatKw :: (body ++ .untilKw :: test)) := by
  refine readable_statement (fun deeper state =>
      (deeper.anyExpression ((deeper.nestedBlock state.start.advance).expect .untilKw)).complete
        .repeatStmt)
    (fun _ _ _ ahead => by simp [statement, current, ahead]) fun levels rest state ends => ?_
  have closer : closesBlock .untilKw = true := by decide
  have block := inside.nested levels (.untilKw :: (test ++ rest)) state.start.advance closer
  exact .node (.taking (by decide) (block.append (.expecting (by decide)
    (condition levels rest _ (.of_endsStatement ends))))) .repeatStmt

/-- The clauses behind the first block of a conditional statement, with its `end`. -/
def ReadsClauses (depth : Nat) (word : List Kind) : Prop :=
  Readable Anything (fun deeper state =>
    (elseClause deeper (state.loop (elseIfClause deeper))).expect .endKw) depth word

theorem onward_clauses
    (levels : Nat)
    (state : State) :
    Onward state ((elseClause (level levels)
      (state.loop (elseIfClause (level levels)))).expect .endKw) := by
  have sound := sound_level levels
  have clauses := Grows.loop state (fun _ _ => grows_elseIfClause_next sound) (carries_node rfl)
    (fun _ _ => grows_elseIfClause_last)
  exact ((clauses.trans (grows_elseClause sound _)).trans (.expect _ (by decide))).onward

/-- Where no `elseif` stands the loop over these clauses is over. -/
theorem loop_elseIfClause
    {deeper : Deeper}
    {state : State}
    (ended : state.Ended)
    (other : state.current ≠ .elseifKw) :
    state.loop (elseIfClause deeper) = state := by
  refine iterate_last id ended ?_
  simp [elseIfClause, isAt, other]

theorem readsClauses_closed : ReadsClauses 0 [.endKw] := by
  intro levels rest state _
  refine .assume (onward_clauses levels state) fun ended ahead => ?_
  have here : state.current = .endKw := by simp [current, ahead]
  have same : elseClause (level levels) (state.loop (elseIfClause (level levels))) = state := by
    rw [loop_elseIfClause ended (by simp [here])]
    simp [elseClause, isAt, here]
  simp only [same]
  exact .expect levels (by decide) rest state

theorem readsClauses_otherwise (inside : ReadsBlock depth body) :
    ReadsClauses depth (.elseKw :: (body ++ [.endKw])) := by
  intro levels rest state _
  refine .assume (onward_clauses levels state) fun ended ahead => ?_
  have here : state.current = .elseKw := by simp [current, ahead]
  have same : elseClause (level levels) (state.loop (elseIfClause (level levels))) =
      ((level levels).nestedBlock state.start.advance).complete .elseClause := by
    rw [loop_elseIfClause ended (by simp [here])]
    simp [elseClause, isAt, here]
  simp only [same]
  have closer : closesBlock .endKw = true := by decide
  have block := inside.nested levels (.endKw :: rest) state.start.advance closer
  have clause := Consumes.node (.taking (by decide : Kind.elseKw ≠ .eof) block) .elseClause
  exact clause.closed (.expect levels (by decide) rest _)

theorem ends_before_clauses
    {rest : List Kind}
    (begins : ∃ kind more, others = kind :: more ∧ blockEnd.contains kind = true) :
    closesBlock ((others ++ rest).headD .eof) = true := by
  obtain ⟨kind, more, rfl, closes⟩ := begins
  simp [closesBlock, closes]

theorem readsClauses_elseIf
    (begins : ∃ kind more, others = kind :: more ∧ blockEnd.contains kind = true)
    (condition : ReadsExpression testDepth test)
    (inside : ReadsBlock depth body)
    (clauses : ReadsClauses otherDepth others) :
    ReadsClauses (max testDepth (max depth otherDepth))
      (.elseifKw :: (test ++ .thenKw :: (body ++ others))) := by
  intro levels rest state _
  refine .assume (onward_clauses levels state) fun ended ahead => ?_
  have stepped : elseIfClause (level levels) state =
      .next (((level levels).nestedBlock
        (((level levels).anyExpression state.start.advance).expect .thenKw)).complete
          .elseIfClause) := by
    simp [elseIfClause, isAt, current, ahead]
  have same : state.loop (elseIfClause (level levels)) =
      (((level levels).nestedBlock
        (((level levels).anyExpression state.start.advance).expect .thenKw)).complete
          .elseIfClause).loop (elseIfClause (level levels)) :=
    iterate_next (shrinks_elseIfClause levels) ended stepped
  simp only [same]
  have stop : EndsExpression 0 .thenKw := by decide
  have head := condition levels (.thenKw :: ((body ++ others) ++ rest)) state.start.advance stop
  have block := inside.nested levels (others ++ rest)
    (((level levels).anyExpression state.start.advance).expect .thenKw)
    (ends_before_clauses begins)
  exact .recorded (.taking (by decide) (head.append (.expecting (by decide)
    ((block.record _).append (clauses levels rest _ trivial)))))

theorem readsStatement_conditional
    (begins : ∃ kind more, others = kind :: more ∧ blockEnd.contains kind = true)
    (condition : ReadsExpression testDepth test)
    (inside : ReadsBlock depth body)
    (clauses : ReadsClauses otherDepth others) :
    ReadsStatement (max testDepth (max depth otherDepth))
      (.ifKw :: (test ++ .thenKw :: (body ++ others))) := by
  refine readable_statement ifStatement (fun _ _ _ ahead => by simp [statement, current, ahead])
    fun levels rest state _ => ?_
  have stop : EndsExpression 0 .thenKw := by decide
  have head := condition levels (.thenKw :: ((body ++ others) ++ rest)) state.start.advance stop
  have block := inside.nested levels (others ++ rest)
    (((level levels).anyExpression state.start.advance).expect .thenKw)
    (ends_before_clauses begins)
  exact .node (.taking (by decide) (head.append (.expecting (by decide)
    (block.append (clauses levels rest _ trivial))))) .ifStmt

end Bodies

/-! ## Loops over numbers and values -/

section Ranges

variable {lowDepth highDepth stepDepth depth : Nat} {low high step body : List Kind}

/-- The limits of a loop behind its variable and `=`. -/
def ReadsRange (depth : Nat) (word : List Kind) : Prop :=
  Readable (· = .doKw) (fun deeper state =>
    let second := deeper.anyExpression ((deeper.anyExpression state).expect .comma)
    if second.isAt .comma then deeper.anyExpression second.advance else second) depth word

theorem readsRange_bounds
    (first : ReadsExpression lowDepth low)
    (second : ReadsExpression highDepth high) :
    ReadsRange (max lowDepth highDepth) (low ++ .comma :: high) := by
  intro levels rest state isDo
  have stop : EndsExpression 0 .comma := by decide
  have stopDo : EndsExpression 0 (rest.headD .eof) := by
    rw [isDo]
    decide
  have noStep : rest.headD .eof ≠ .comma := by
    rw [isDo]
    decide
  have further (reached : State) :
      Onward reached ((level levels).anyExpression reached.advance) :=
    (Onward.advance reached).trans (grows_anyExpression (sound_level levels) _).onward
  have lower := first levels (.comma :: (high ++ rest)) state stop
  have upper := second levels rest (((level levels).anyExpression state).expect .comma) stopDo
  exact lower.append (.expecting (by decide)
    (upper.settled (.optional_omitted levels (further _) noStep)))

theorem readsRange_stepped
    (first : ReadsExpression lowDepth low)
    (second : ReadsExpression highDepth high)
    (third : ReadsExpression stepDepth step) :
    ReadsRange (max lowDepth (max highDepth stepDepth))
      (low ++ .comma :: (high ++ .comma :: step)) := by
  intro levels rest state isDo
  have stop : EndsExpression 0 .comma := by decide
  have stopDo : EndsExpression 0 (rest.headD .eof) := by
    rw [isDo]
    decide
  have lower := first levels (.comma :: ((high ++ .comma :: step) ++ rest)) state stop
  have upper := second levels (.comma :: (step ++ rest))
    (((level levels).anyExpression state).expect .comma) stop
  exact lower.append (.expecting (by decide) (upper.append (.optional_taken
    (.taking (by decide) (third levels rest _ stopDo)))))

theorem readsStatement_numericLoop
    {counter : Kind}
    (binds : counter ≠ .eof)
    (limits : ReadsRange lowDepth low)
    (inside : ReadsBlock depth body) :
    ReadsStatement (max lowDepth depth)
      (.forKw :: counter :: .eq :: (low ++ .doKw :: (body ++ [.endKw]))) := by
  refine readable_statement (fun deeper state =>
      ((deeper.nestedBlock ((numericRange deeper state.start.advance).expect .doKw)).expect
        .endKw).complete .numericForStmt)
    (fun deeper state rest ahead => ?_) fun levels rest state _ => ?_
  · have numeric : state.start.advance.following = .eq := by
      simp [following, State.advance, isAt, current, State.start, record, ahead]
    simp [statement, forStatement, current, ahead, numeric]
  · have range := limits levels (.doKw :: ((body ++ [.endKw]) ++ rest))
      state.start.advance.advance.advance rfl
    exact .node (.taking (by decide) (.taking binds (.taking (by decide)
      (range.append (inside.looped levels rest _))))) .numericForStmt

theorem readsStatement_genericLoop
    {names values : List Kind}
    (others : NameTail .comma names)
    (valued : ReadsExpressions lowDepth values)
    (inside : ReadsBlock depth body) :
    ReadsStatement (max lowDepth depth)
      (.forKw :: .name :: (names ++ .inKw :: (values ++ .doKw :: (body ++ [.endKw])))) := by
  refine readable_statement (fun deeper state =>
      ((deeper.nestedBlock ((deeper.expressionList
        ((nameList state.start.advance).expect .inKw)).expect .doKw)).expect .endKw).complete
          .genericForStmt)
    (fun deeper state rest ahead => ?_) fun levels rest state _ => ?_
  · have generic : state.start.advance.following ≠ .eq := by
      cases others <;>
        simp [following, State.advance, isAt, current, State.start, record, ahead]
    simp [statement, forStatement, current, ahead, generic]
  · have stop : EndsList .doKw := by decide
    have noName : (Kind.inKw :: ((values ++ .doKw :: (body ++ [.endKw])) ++ rest)).headD .eof ≠
        .comma := by simp
    have list := reads_nameList others noName levels state.start.advance
    have given := valued levels (.doKw :: ((body ++ [.endKw]) ++ rest))
      ((nameList state.start.advance).expect .inKw) stop
    have content := given.append (inside.looped levels rest _)
    have behind := Consumes.expecting (by decide : Kind.inKw ≠ .eof) content
    exact .node (.taking (by decide : Kind.forKw ≠ .eof) (list.leading behind)) .genericForStmt

end Ranges

/-! ## Functions and declarations -/

section Functions

variable {depth : Nat} {name names body values : List Kind}

theorem readable_functionBody
    {strict : Bool}
    (parameters : Parameters strict names)
    (inside : ReadsBlock depth body) :
    Readable Anything functionBody depth
      (.leftParen :: (names ++ .rightParen :: (body ++ [.endKw]))) := by
  intro levels rest state _
  refine .assume (forms_functionBody (sound_level levels) state).onward fun _ ahead => ?_
  have here : state.start.isAt .leftParen = true := by
    simp [isAt, current, State.start, record, ahead]
  simp only [functionBody, here, ↓reduceIte]
  have isEnd : (Kind.rightParen :: ((body ++ [.endKw]) ++ rest)).headD .eof = .rightParen := rfl
  have list := parameters.reads isEnd levels state.start.start.advance
  have behind := inside.closed levels rest (Grammar.parameters state.start)
  have head : Consumes levels 0 (.leftParen :: (names ++ [.rightParen]))
      ((body ++ [.endKw]) ++ rest) state.start (Grammar.parameters state.start) :=
    .node (.taking (by decide) (list.closed (.expect levels (by decide) _ _))) .paramList
  have same : Kind.leftParen :: (names ++ .rightParen :: (body ++ [.endKw])) =
      .leftParen :: (names ++ [.rightParen]) ++ (body ++ [.endKw]) := by simp
  rw [same]
  exact .node (head.leading behind) .funcBody

theorem readsStatement_function
    (named : FunctionName name)
    (begins : ∃ others, body = .leftParen :: others)
    (inside : Readable Anything functionBody depth body) :
    ReadsStatement depth (.functionKw :: (name ++ body)) := by
  refine readable_statement functionStatement
    (fun _ _ _ ahead => by simp [statement, current, ahead]) fun levels rest state _ => ?_
  have isBody : (body ++ rest).headD .eof = .leftParen := by
    obtain ⟨others, rfl⟩ := begins
    rfl
  have head := reads_functionName named isBody levels state.start.advance
  exact .node (.taking (by decide) (head.leading (inside levels rest _ trivial))) .functionStmt

theorem readsStatement_localFunction (inside : Readable Anything functionBody depth body) :
    ReadsStatement depth (.localKw :: .functionKw :: .name :: body) := by
  refine readable_statement localFunctionStatement
    (fun _ _ _ ahead => by simp [statement, current, following, ahead])
    fun levels rest state _ => ?_
  exact .node (.taking (by decide) (.taking (by decide) (.expecting (by decide)
    (inside levels rest _ trivial)))) .localFunctionStmt

/-- A declaration begins with a name, so it is no local function. -/
theorem statement_local
    {deeper : Deeper}
    {state : State}
    {rest : List Kind}
    (first : LocalName name)
    (ahead : state.ahead = .localKw :: (name ++ rest)) :
    statement deeper state = localStatement deeper state := by
  cases first <;> simp [statement, current, following, ahead]

theorem readsStatement_localNames
    (first : LocalName name)
    (others : LocalTail names) :
    ReadsStatement 0 (.localKw :: (name ++ names)) := by
  refine readable_statement localStatement
    (fun _ _ _ ahead => statement_local first (by simpa using ahead))
    fun levels rest state ends => ?_
  have list := endsList_of_endsStatement ends
  have plain : rest.headD .eof ≠ .lt := by
    intro isLess
    rw [isLess] at ends
    cases ends
  have unassigned : rest.headD .eof ≠ .eq := by
    intro isEq
    rw [isEq] at ends
    cases ends
  have stop : (names ++ rest).headD .eof ≠ .lt := by
    refine @behind_append (· ≠ .lt) names rest (fun kind found => ?_) plain
    simp [others.front kind found]
  have values (named : State) : Onward named ((level levels).expressionList named.advance) :=
    (Onward.advance named).trans (grows_expressionList (sound_level levels) _).onward
  have name := reads_localName first stop levels state.start.advance
  have tail := others.reads list.2 plain levels (localName state.start.advance)
  exact .node (.taking (by decide) ((name.closed tail).settled
    (.optional_omitted levels (values _) unassigned))) .localStmt

theorem readsStatement_localValues
    (first : LocalName name)
    (others : LocalTail names)
    (valued : ReadsExpressions depth values) :
    ReadsStatement depth (.localKw :: (name ++ (names ++ .eq :: values))) := by
  refine readable_statement localStatement
    (fun _ _ _ ahead => statement_local first (by simpa using ahead))
    fun levels rest state ends => ?_
  have list := endsList_of_endsStatement ends
  have noName : (Kind.eq :: (values ++ rest)).headD .eof ≠ .comma := by simp
  have plain : (Kind.eq :: (values ++ rest)).headD .eof ≠ .lt := by simp
  have stop : ((names ++ .eq :: values) ++ rest).headD .eof ≠ .lt := by
    rw [List.append_assoc]
    refine @behind_append (· ≠ .lt) names _ (fun kind found => ?_) plain
    simp [others.front kind found]
  have name := reads_localName first stop levels state.start.advance
  have tail := others.reads noName plain levels (localName state.start.advance)
  have given (named : State) : Consumes levels depth (.eq :: values) rest named
      (if named.isAt .eq then (level levels).expressionList named.advance else named) :=
    .optional_taken (.taking (by decide) (valued levels rest _ list))
  have content := tail.leading (given _)
  exact .node (.taking (by decide) (name.leading content)) .localStmt

end Functions

/-! ## Leaving a function -/

section Leave

variable {depth : Nat} {stop values rest : List Kind}

/-- What a `return` without values is followed by. -/
theorem contains_valueless (kind : Kind) :
    (blockEnd.union (.ofList [.semicolon, .eof])).contains kind = true ↔
      closesBlock kind = true ∨ kind = .semicolon := by
  cases kind <;> decide

theorem reads_stop
    (stops : stop = [] ∨ stop = [.semicolon])
    (closes : closesBlock (rest.headD .eof) = true)
    (levels : Nat)
    (state : State) :
    Consumes levels 0 stop rest state (state.accept .semicolon) := by
  have other : rest.headD .eof ≠ .semicolon := by
    intro isSemicolon
    rw [isSemicolon] at closes
    cases closes
  rcases stops with rfl | rfl
  · exact .optional_omitted levels (.advance state) other
  · exact .optional_taken (.advance levels (by decide) rest state)

theorem ends_before_stop
    (stops : stop = [] ∨ stop = [.semicolon])
    (closes : closesBlock (rest.headD .eof) = true) :
    EndsList ((stop ++ rest).headD .eof) := by
  rcases stops with rfl | rfl
  · exact endsList_of_endsStatement (endsStatement_of_closesBlock closes)
  · exact (by decide : EndsList .semicolon)

theorem readsLeave_nothing (stops : stop = [] ∨ stop = [.semicolon]) :
    ReadsLeave 0 (.returnKw :: stop) := by
  intro levels rest state closes
  refine .assume (onward_statement levels state) fun _ ahead => ?_
  have here : state.start.advance.ahead = stop ++ rest := by
    simp [State.advance, isAt, current, State.start, record, ahead]
  have valueless : state.start.advance.isIn (blockEnd.union (.ofList [.semicolon, .eof])) =
      true := by
    rw [isIn, contains_valueless, current, here]
    rcases stops with rfl | rfl
    · exact Or.inl closes
    · exact Or.inr rfl
  have same : statement (level levels) state =
      (state.start.advance.accept .semicolon).complete .returnStmt := by
    simp only [statement, current, ahead, List.cons_append, List.headD_cons, returnStatement,
      valueless, ↓reduceIte]
  rw [same]
  exact .node (.taking (by decide) (reads_stop stops closes levels _)) .returnStmt

theorem readsLeave_values
    (stops : stop = [] ∨ stop = [.semicolon])
    (begins : Begins beginsExpression values)
    (valued : ReadsExpressions depth values) :
    ReadsLeave depth (.returnKw :: (values ++ stop)) := by
  intro levels rest state closes
  refine .assume (onward_statement levels state) fun _ ahead => ?_
  obtain ⟨kind, others, rfl, isFirst, _⟩ := begins
  have here : state.start.advance.current = kind := by
    simp [State.advance, isAt, current, State.start, record, ahead]
  have valuable : ¬ state.start.advance.isIn (blockEnd.union (.ofList [.semicolon, .eof])) =
      true := by
    rw [isIn, contains_valueless, here]
    cases kind <;> first | decide | cases isFirst
  have same : statement (level levels) state =
      (((level levels).expressionList state.start.advance).accept .semicolon).complete
        .returnStmt := by
    simp only [statement, current, ahead, List.cons_append, List.headD_cons, returnStatement,
      if_neg valuable]
  rw [same]
  have given := valued levels (stop ++ rest) state.start.advance (ends_before_stop stops closes)
  exact .node (.taking (by decide) (given.closed (reads_stop stops closes levels _))) .returnStmt

end Leave

/-! ## Assignments and calls -/

section Targets

variable {firstDepth depth : Nat} {role : Role} {first others word values : List Kind}

/-- Further targets of an assignment. -/
def ReadsTargetTail (depth : Nat) (word : List Kind) : Prop :=
  Readable (· = .eq) (fun deeper state =>
    state.separated .comma fun state => (suffixed deeper state).2) depth word

theorem readsTargetTail_done : ReadsTargetTail 0 [] := by
  intro levels rest state isEq
  refine .separated_done levels (by decide) (grows_suffixed levels) ?_ state
  rw [isEq]
  decide

/-- In front of further targets stands a comma or `=`. -/
theorem ends_before_targets
    {rest : List Kind}
    (front : ∀ kind ∈ others.head?, kind = .comma)
    (isEq : rest.headD .eof = .eq) :
    (others ++ rest).headD .eof = .comma ∨ (others ++ rest).headD .eof = .eq :=
  @behind_append (fun kind => kind = .comma ∨ kind = .eq) others rest
    (fun kind found => Or.inl (front kind found)) (Or.inr isEq)

theorem beginsSuffix_before_values
    {kind : Kind}
    (ends : kind = .comma ∨ kind = .eq) :
    beginsSuffix kind = false := by
  rcases ends with rfl | rfl <;> rfl

theorem readsTargetTail_more
    (front : ∀ kind ∈ others.head?, kind = .comma)
    (target : ReadsReference role firstDepth first)
    (tail : ReadsTargetTail depth others) :
    ReadsTargetTail (max firstDepth depth) (.comma :: (first ++ others)) := by
  intro levels rest state isEq
  refine .separated_more (by decide) (grows_suffixed levels) ?_ (tail levels rest _ isEq)
  refine ⟨(grows_suffixed levels _).onward, fun ended ahead => ?_⟩
  have ends := beginsSuffix_before_values (ends_before_targets front isEq)
  obtain ⟨_, _, outcome, _⟩ := target.whole ends ended ahead
  exact outcome

/-- What a statement becomes behind its first expression. -/
def conclude (deeper : Deeper) (kind : Kind) (state : State) : State :=
  if state.isAt .eq || state.isAt .comma then assignment deeper state
  else if kind = .callExpr || kind = .methodCallExpr then state.precede.complete .callStmt
  else (state.report .expectedAssignmentOrCall).precede.complete .error

theorem onward_conclude
    (levels : Nat)
    (kind : Kind)
    (state : State) :
    Onward state (conclude (level levels) kind state) := by
  unfold conclude
  split
  · have targets := (Grows.separated state.precede (by decide : Kind.comma ≠ .eof)
      (grows_suffixed levels)).onward
    have values (state : State) :=
      (grows_expressionList (sound_level levels) (state.expect .eq)).onward
    have equals (state : State) := (Grows.expect state (by decide : Kind.eq ≠ .eof)).onward
    refine Onward.trans ?_ (.record _ (.complete .assignStmt))
    refine Onward.trans ?_ (values _)
    refine Onward.trans ?_ (equals _)
    exact (((Onward.record state .precede).trans targets).trans (.record _ _)).trans (.record _ _)
  split
  · exact (Onward.record state .precede).trans (.record _ _)
  · exact ((Grows.report state _).onward.trans (.record _ .precede)).trans (.record _ _)

theorem statement_of_suffixed
    {deeper : Deeper}
    {state : State}
    {kind : Kind}
    (isFirst : state.current = .name ∨ state.current = .leftParen)
    (found : (suffixed deeper state).1 = some kind) :
    statement deeper state = conclude deeper kind (suffixed deeper state).2 := by
  have same : statement deeper state = expressionStatement deeper state := by
    rcases isFirst with here | here <;> simp only [statement, here]
  rw [same, expressionStatement]
  generalize suffixed deeper state = first at found ⊢
  obtain ⟨kind?, after⟩ := first
  cases found
  rfl

theorem Begins.current
    {begins : Begins beginsReference word}
    {rest : List Kind}
    {state : State}
    (ahead : state.ahead = word ++ rest) :
    state.current = .name ∨ state.current = .leftParen := by
  obtain ⟨kind, others, rfl, isFirst, _⟩ := begins
  have here : state.current = kind := by simp [State.current, ahead]
  rw [here]
  cases kind <;> simp_all [beginsReference]

theorem readsStatement_call
    (begins : Begins beginsReference word)
    (called : ReadsReference .call depth word) :
    ReadsStatement depth word := by
  intro levels rest state ends
  refine ⟨onward_statement levels state, fun ended ahead => ?_⟩
  obtain ⟨noSuffix, noOperator⟩ := EndsExpression.of_endsStatement ends
  obtain ⟨kind, found, outcome, isOf⟩ := called.whole noSuffix ended ahead
  rw [statement_of_suffixed (begins.current ahead) found]
  have whole : Outcome levels (max depth 0) rest state
      (conclude (level levels) kind (suffixed (level levels) state).2) := by
    refine outcome.trans (onward_conclude levels kind _) fun enough after => ?_
    have isCall : kind = .callExpr ∨ kind = .methodCallExpr := (isOf enough).mpr rfl
    have unassigned : ∀ other, endsStatement other = false →
        (suffixed (level levels) state).2.isAt other = false := by
      intro other absent
      refine decide_eq_false fun here => ?_
      rw [State.current, after] at here
      rw [here, absent] at ends
      cases ends
    have same : conclude (level levels) kind (suffixed (level levels) state).2 =
        (suffixed (level levels) state).2.precede.complete .callStmt := by
      rw [conclude, unassigned .eq rfl, unassigned .comma rfl]
      rcases isCall with rfl | rfl <;> rfl
    rw [same]
    exact ((Outcome.refl outcome.ended after).record .precede).record _
  rwa [Nat.max_zero] at whole

theorem readsStatement_assignment
    {valueDepth : Nat}
    (begins : Begins beginsReference first)
    (front : ∀ kind ∈ others.head?, kind = .comma)
    (target : ReadsReference role firstDepth first)
    (tail : ReadsTargetTail depth others)
    (valued : ReadsExpressions valueDepth values) :
    ReadsStatement (max firstDepth (max depth valueDepth))
      (first ++ (others ++ .eq :: values)) := by
  intro levels rest state ends
  refine ⟨onward_statement levels state, fun ended ahead => ?_⟩
  have separates : ((others ++ .eq :: values) ++ rest).headD .eof = .comma ∨
      ((others ++ .eq :: values) ++ rest).headD .eof = .eq := by
    rw [List.append_assoc]
    exact ends_before_targets front rfl
  rw [List.append_assoc] at ahead
  obtain ⟨kind, found, outcome, _⟩ :=
    target.whole (beginsSuffix_before_values separates) ended ahead
  rw [statement_of_suffixed (begins.current ahead) found]
  refine outcome.trans (onward_conclude levels kind _) fun _ after => ?_
  have here : ((suffixed (level levels) state).2.isAt .eq ||
      (suffixed (level levels) state).2.isAt .comma) = true := by
    rw [Bool.or_eq_true, isAt_iff, isAt_iff, State.current, after]
    exact separates.symm
  rw [conclude, if_pos here]
  have targets := tail levels (.eq :: (values ++ rest)) (suffixed (level levels) state).2.precede
    rfl
  have given (targets : State) : Consumes levels valueDepth (.eq :: values) rest targets
      ((level levels).expressionList (targets.precede.expect .eq)) :=
    .recorded (.expecting (by decide) (valued levels rest _ (endsList_of_endsStatement ends)))
  have content := (targets.record (.complete .varList)).append (given _)
  exact (content.around .assignStmt).outcome outcome.ended after

end Targets

end LuaFold.Grammar
