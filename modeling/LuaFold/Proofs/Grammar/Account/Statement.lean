import LuaFold.Proofs.Grammar.Account.Expression
import LuaFold.Proofs.Grammar.Chunk

/-!
# Accounts of statements

A definition statement without its name and an expression that is no statement owe one fault
each, which their rules report.  All other statements only pass on the accounts of their parts.
The account of a whole text is therefore settled: its shape is arranged, and at least as many
faults are reported as it is in debt.
-/

namespace LuaFold.Grammar

open State Terms

variable {deeper : Deeper}

/-! ## Conditions and loops -/

theorem solvent_elseIfClause
    (settled : Settled deeper)
    (state : State) :
    Solvent state (elseIfClause deeper state).reached := by
  simp only [elseIfClause]
  split
  · have condition := ((Settles.advance state.start).trans (settled.anyExpression _)).trans
      (.expect _ .thenKw)
    exact (SettlesNode.free (condition.trans (settled.nestedBlock _)) rfl).solvent
  · exact .refl state

theorem solvent_elseClause
    (settled : Settled deeper)
    (state : State) :
    Solvent state (elseClause deeper state) := by
  unfold elseClause
  split
  · have clause := (Settles.advance state.start).trans (settled.nestedBlock _)
    exact (SettlesNode.free clause rfl).solvent
  · exact .refl state

theorem solvent_ifStatement
    (settled : Settled deeper)
    (state : State) :
    Solvent state (ifStatement deeper state) := by
  have condition := ((Settles.advance state.start).trans (settled.anyExpression _)).trans
    (.expect _ .thenKw)
  have body := condition.trans (settled.nestedBlock _)
  have clauses := (body.trans (.loop (solvent_elseIfClause settled) _)).trans
    (solvent_elseClause settled _)
  exact (SettlesNode.free (clauses.trans (.expect _ .endKw)) rfl).solvent

theorem solvent_nameList (state : State) : Solvent state (nameList state) := by
  have listed := (Settles.expect state.start .name).trans
    (.separated .comma (fun state => .expect state .name) _)
  exact (SettlesNode.free listed rfl).solvent

theorem solvent_numericRange
    (settled : Settled deeper)
    (state : State) :
    Solvent state (numericRange deeper state) := by
  have first := ((Settles.advance state).trans (.advance _)).trans (settled.anyExpression _)
  have second := (first.trans (.expect _ .comma)).trans (settled.anyExpression _)
  simp only [numericRange]
  split
  · exact second.trans ((Settles.advance _).trans (settled.anyExpression _))
  · exact second

theorem solvent_forStatement
    (settled : Settled deeper)
    (state : State) :
    Solvent state (forStatement deeper state) := by
  have body : ∀ {headed : State} {kind : Kind}, Solvent state.start headed → kind.isFree = true →
      Solvent state
        (((deeper.nestedBlock (headed.expect .doKw)).expect .endKw).complete kind) := by
    intro headed kind head free
    have closed := ((head.trans (.expect _ .doKw)).trans (settled.nestedBlock _)).trans
      (.expect _ .endKw)
    exact (SettlesNode.free closed free).solvent
  have opened := Settles.advance state.start
  simp only [forStatement]
  split
  · exact body (opened.trans (solvent_numericRange settled _)) rfl
  · have names := (solvent_nameList state.start.advance).trans (.expect _ .inKw)
    exact body (opened.trans (names.trans (settled.expressionList _))) rfl

/-! ## Function definitions -/

/-- The name of a function is there, or its absence is reported. -/
theorem settles_functionName (state : State) :
    Settles (offers (.node .funcName)) state (functionName state) := by
  simp only [functionName]
  split
  · have dotted := (Settles.advance state.start).trans
      (Settles.separated .dot (fun state => .expect state .name) _)
    have named : Solvent state.start
        (if (state.start.advance.separated .dot fun state => state.expect .name).isAt .colon
          then (state.start.advance.separated .dot fun state =>
            state.expect .name).advance.expect .name
          else state.start.advance.separated .dot fun state => state.expect .name) := by
      split
      · exact dotted.trans ((Settles.advance _).trans (.expect _ .name))
      · exact dotted
    refine (SettlesNode.free named (rfl : Kind.funcName.isFree = true)).settles.mono ?_
    rintro _ surplus ⟨_, rfl, shapes, rfl⟩
    exact Or.inl (List.mem_singleton_self _)
  · exact (Settles.fault state _).mono fun _ _ left => Or.inr left.2

theorem solvent_functionStatement
    (settled : Settled deeper)
    (state : State) :
    Solvent state (functionStatement deeper state) := by
  have named := ((Settles.advance state.start).trans_offers (settles_functionName _)).offers_trans
    (solvent_functionBody settled _)
  exact SettlesNode.required named rfl

theorem solvent_localFunctionStatement
    (settled : Settled deeper)
    (state : State) :
    Solvent state (localFunctionStatement deeper state) := by
  have opened := (Settles.advance state.start).trans (.advance _)
  have named := (opened.trans_offers (.demand _ (by decide : Kind.name ≠ .eof))).offers_trans
    (solvent_functionBody settled _)
  exact SettlesNode.required named rfl

/-! ## Declarations and simple statements -/

theorem solvent_localName (state : State) : Solvent state (localName state) := by
  have name := Settles.expect state.start .name
  have attributed : Solvent state.start
      (if (state.start.expect .name).isAt .lt then
        (((state.start.expect .name).start.advance.expect .name).expect .gt).complete .attrib
        else state.start.expect .name) := by
    split
    · have between := ((Settles.advance (state.start.expect .name).start).trans
        (.expect _ .name)).trans (.expect _ .gt)
      exact name.trans (SettlesNode.free between rfl).solvent
    · exact name
  exact (SettlesNode.free attributed rfl).solvent

theorem solvent_localStatement
    (settled : Settled deeper)
    (state : State) :
    Solvent state (localStatement deeper state) := by
  have names := ((Settles.advance state.start).trans (solvent_localName _)).trans
    (.separated .comma solvent_localName _)
  refine SettlesNode.solvent (SettlesNode.free (?_ : Solvent state.start _) rfl)
  split
  · exact names.trans ((Settles.advance _).trans (settled.expressionList _))
  · exact names

theorem solvent_returnStatement
    (settled : Settled deeper)
    (state : State) :
    Solvent state (returnStatement deeper state) := by
  have opened := Settles.advance state.start
  have valued : Solvent state.start
      (if state.start.advance.isIn (blockEnd.union (.ofList [.semicolon, .eof]))
        then state.start.advance else deeper.expressionList state.start.advance) := by
    split
    · exact opened
    · exact opened.trans (settled.expressionList _)
  exact (SettlesNode.free (valued.trans (.accept _ .semicolon)) rfl).solvent

/-! ## Assignments and calls -/

theorem solvent_assignment
    (settled : Settled deeper)
    {fits : Shape → Prop}
    {base state : State}
    (node : SettlesNode fits base state) :
    Solvent base (assignment deeper state) := by
  have others : Solvent state.precede
      (state.precede.separated .comma fun state => (suffixed deeper state).2) :=
    .separated .comma (fun state => (settles_suffixed settled state).solvent) _
  have targets := node.freeAround others (rfl : Kind.varList.isFree = true)
  exact (targets.freeAround ((Settles.expect _ .eq).trans (settled.expressionList _)) rfl).solvent

/-- An expression that is no statement is put into an error node, which a fault pays for. -/
theorem solvent_expressionStatement
    (settled : Settled deeper)
    (state : State) :
    Solvent state (expressionStatement deeper state) := by
  have first := settles_suffixed settled state
  unfold expressionStatement
  generalize suffixed deeper state = reached at first ⊢
  obtain ⟨kind?, behind⟩ := reached
  cases kind? with
  | none => exact Settles.solvent first
  | some kind =>
      have node : SettlesNode Shape.IsWhole state behind := first
      simp only
      split
      · exact solvent_assignment settled node
      split
      · exact (node.freeAround (Settles.keep behind.precede) rfl).solvent
      · have reported := Settles.fault behind.precede .expectedAssignmentOrCall
        exact (node.around reported fun shape shapes _ _ left =>
          Kind.Allows.error left.2 (shape :: shapes)).solvent

/-! ## Statements and blocks -/

theorem solvent_statement
    (settled : Settled deeper)
    (state : State) :
    Solvent state (statement deeper state) := by
  have free : ∀ {inside : State} {kind : Kind}, Solvent state.start.advance inside →
      kind.isFree = true → Solvent state (inside.complete kind) :=
    fun rest isFree => (SettlesNode.free ((Settles.advance state.start).trans rest) isFree).solvent
  unfold statement
  split
  · exact free (.refl _) rfl
  · exact free ((Settles.expect _ .name).trans (.expect _ .doubleColon)) rfl
  · exact free (.refl _) rfl
  · exact free (.expect _ .name) rfl
  · exact free ((settled.nestedBlock _).trans (.expect _ .endKw)) rfl
  · have body := ((settled.anyExpression state.start.advance).trans (.expect _ .doKw)).trans
      (settled.nestedBlock _)
    exact free (body.trans (.expect _ .endKw)) rfl
  · have body := (settled.nestedBlock state.start.advance).trans (.expect _ .untilKw)
    exact free (body.trans (settled.anyExpression _)) rfl
  · exact solvent_ifStatement settled state
  · exact solvent_forStatement settled state
  · exact solvent_functionStatement settled state
  · split
    · exact solvent_localFunctionStatement settled state
    · exact solvent_localStatement settled state
  · exact solvent_returnStatement settled state
  · exact solvent_expressionStatement settled state
  · exact solvent_expressionStatement settled state
  · exact (settles_reportAndAdvance state _).solvent

theorem solvent_statements
    (settled : Settled deeper)
    (terminators : KindSet)
    (state : State) :
    Solvent state (statements deeper terminators state) := by
  refine Settles.loop (fun state => ?_) state
  split
  · exact .refl state
  · exact solvent_statement settled state

/-- The rules of every nesting level settle their accounts. -/
theorem settled_level (levels : Nat) : Settled (level levels) := by
  induction levels with
  | zero =>
      refine ⟨fun _ state => (settles_skip state).solvent, fun limit state => ?_⟩
      exact (settles_skip state).mono fun _ _ => tried_of_missed limit _
  | succ levels ih => exact ⟨solvent_statements ih, settles_operations ih⟩

/-- The actions of a whole text form an arranged shape, whose debt the faults cover. -/
theorem run_settles
    {kinds : List Kind}
    (absent : Kind.eof ∉ kinds) :
    ∃ shape,
      Action.Forms (run (kinds ++ [.eof])).1 shape ∧
      shape.leaves = kinds ++ [.eof] ∧
      shape.Arranged ∧ shape.debt ≤ (run (kinds ++ [.eof])).2.length := by
  have node := (settled_level maximalDepth).block .empty
    (State.initial (kinds ++ [.eof])).start
  obtain ⟨word, block, accounts, forms, shapes, rfl⟩ := node (ended_initial absent)
  have extended : Extends (State.initial (kinds ++ [.eof])).start (blockOf (kinds ++ [.eof])) _ _ :=
    accounts.extended
  have taken : (Shape.node .block shapes).leaves ++ [.eof] = kinds ++ [.eof] := by
    have ahead : kinds ++ [.eof] = _ := extended.ahead
    rw [ahead_blockOf absent] at ahead
    simpa using ahead.symm
  refine ⟨.node .chunk [.node .block shapes, .leaf .eof], ?_, by simpa using taken, ?_, ?_⟩
  · have inside := (forms.builds.advance .eof)
    have completed := Action.Forms.complete inside (by decide : Kind.chunk ≠ .tombstone)
    rw [run_eq, extended.actions]
    simpa [State.start, record, initial] using completed
  · refine .node (fun child member => ?_) trivial
    rcases List.mem_cons.mp member with rfl | last
    · exact accounts.arranged _ (List.mem_singleton_self _)
    · rw [List.mem_singleton.mp last]
      exact .leaf .eof
  · have covered : 0 + ((Shape.node .block shapes).debt + 0) + 0 ≤
        (blockOf (kinds ++ [.eof])).faults.length := accounts.covered
    have free : Kind.charge .chunk [.node .block, .token .eof] = 0 := rfl
    rw [run_eq, List.length_reverse, Shape.debt_node]
    simp only [List.map_cons, List.map_nil, List.sum_cons, List.sum_nil, Shape.slot_node,
      Shape.slot_leaf, Shape.debt_leaf, free]
    omega

end LuaFold.Grammar
