import LuaFold.Proofs.Grammar.Chunk
import LuaFold.Proofs.Grammar.Reading.Statement

/-!
# Reading chunks

Every derivation is read by the rule for its phrase, provided that operators are grouped by
their precedence, no statement can be taken for the rest of the one before it, and nothing
follows a `return`.  The induction is on the derivation, with one lemma for each production.  A
chunk is then parsed without faults exactly if it is not nested too deeply.
-/

namespace LuaFold.Grammar

open State

/-- What it means for the rule of a phrase to read a word. -/
def Phrase.Read : Phrase → Nat → List Kind → Prop
  | .block => ReadsBlock
  | .statements _ => ReadsStatements
  | .statement => ReadsStatement
  | .leave => ReadsLeave
  | .clauses => ReadsClauses
  | .range => ReadsRange
  | .targets => fun depth word => ∃ role firstDepth otherDepth first others,
      depth = max firstDepth otherDepth ∧ word = first ++ others ∧
        Begins beginsReference first ∧ (∀ kind ∈ others.head?, kind = .comma) ∧
        ReadsReference role firstDepth first ∧ ReadsTargetTail otherDepth others
  | .targetTail => ReadsTargetTail
  | .expressions => ReadsExpressions
  | .expressionTail => ReadsExpressionTail
  | .expression least => fun depth word =>
      ∃ inner, depth = inner + 1 ∧ ReadsOperations least inner word
  | .operations least => ReadsOperations least
  | .reference role => ReadsReference role
  | .arguments => Readable Anything Grammar.arguments
  | .table => Readable Anything Grammar.table
  | .fields => ReadsFields
  | .field => ReadsField
  | .functionBody => Readable Anything Grammar.functionBody

theorem Phrase.Read.expression
    {depth : Nat}
    {word : List Kind}
    (read : (Phrase.expression loosest).Read depth word) :
    ReadsExpression depth word := by
  obtain ⟨inner, rfl, inside⟩ := read
  exact inside.readable admits_loosest

/-- What may follow a statement of a careful text ends it. -/
theorem endsStatement_of_front
    {dialect : Dialect}
    {word : List Kind}
    (careful : dialect.careful = true)
    (front : (Phrase.statements false).Front dialect word) :
    ∀ kind ∈ word.head?, endsStatement kind = true := by
  intro kind found
  obtain ⟨begins, apart⟩ := front kind found
  rcases begins with rfl | begins
  · rfl
  · simp [endsStatement, begins, apart careful rfl]

/-- Every derivation of a resolved, careful and strict text is read. -/
theorem Derives.read
    {dialect : Dialect}
    (resolved : dialect.resolved = true)
    (careful : dialect.careful = true)
    (strict : dialect.strict = true)
    {phrase : Phrase}
    {depth : Nat}
    {word : List Kind}
    (derives : Derives dialect phrase depth word) :
    phrase.Read depth word := by
  induction derives with
  | block _ ihInside => exact ReadsStatements.block ihInside
  | nothing => exact readsStatements_done
  | semicolon _ ihOthers => exact readsStatements_semicolon ihOthers
  | next statement others _ ihStatement ihOthers =>
      exact readsStatements_next statement.front
        (endsStatement_of_front careful others.front) ihStatement ihOthers
  | last leave ihLeave => exact readsStatements_last leave.front ihLeave
  | early loose =>
      rw [strict] at loose
      cases loose
  | leaveNothing stops => exact readsLeave_nothing stops
  | leaveValues valued stops ihValued => exact readsLeave_values stops valued.front ihValued
  | label => exact readsStatement_label
  | leaveLoop => exact readsStatement_leaveLoop
  | jump => exact readsStatement_jump
  | doBlock _ ihInside => exact readsStatement_doBlock ihInside
  | whileLoop _ _ ihCondition ihInside =>
      exact readsStatement_whileLoop ihCondition.expression ihInside
  | repeatLoop _ _ ihInside ihCondition =>
      exact readsStatement_repeatLoop ihInside ihCondition.expression
  | conditional _ _ clauses ihCondition ihInside ihClauses =>
      exact readsStatement_conditional clauses.front ihCondition.expression ihInside ihClauses
  | numericLoop binds _ _ ihLimits ihInside =>
      refine readsStatement_numericLoop ?_ ihLimits ihInside
      rcases binds with rfl | ⟨_, notEnd⟩
      · decide
      · exact notEnd
  | genericLoop others _ _ ihValued ihInside =>
      exact readsStatement_genericLoop others ihValued ihInside
  | function named inside ihInside => exact readsStatement_function named inside.front ihInside
  | localFunction _ ihInside => exact readsStatement_localFunction ihInside
  | localNames first others => exact readsStatement_localNames first others
  | localValues first others _ ihValued => exact readsStatement_localValues first others ihValued
  | assignment _ _ ihTargets ihValued =>
      obtain ⟨role, firstDepth, depth, first, others, rfl, rfl, begins, front, target, tail⟩ :=
        ihTargets
      rw [max_assoc, List.append_assoc]
      exact readsStatement_assignment begins front target tail ihValued
  | callStatement called ihCalled => exact readsStatement_call called.front ihCalled
  | closed => exact readsClauses_closed
  | otherwise _ ihInside => exact readsClauses_otherwise ihInside
  | elseIf _ _ clauses ihCondition ihInside ihClauses =>
      exact readsClauses_elseIf clauses.front ihCondition.expression ihInside ihClauses
  | bounds _ _ ihFirst ihSecond =>
      exact readsRange_bounds ihFirst.expression ihSecond.expression
  | stepped _ _ _ ihFirst ihSecond ihThird =>
      exact readsRange_stepped ihFirst.expression ihSecond.expression ihThird.expression
  | targets _ target tail ihTarget ihTail =>
      exact ⟨_, _, _, _, _, rfl, rfl, target.front, tail.front, ihTarget, ihTail⟩
  | noTarget => exact readsTargetTail_done
  | moreTargets _ _ tail ihTarget ihTail => exact readsTargetTail_more tail.front ihTarget ihTail
  | functionBody parameters _ ihInside => exact readable_functionBody parameters ihInside
  | expressions _ tail ihValue ihTail => exact readsExpressions tail.front ihValue.expression ihTail
  | noExpression => exact readsExpressionTail_done
  | moreExpressions _ tail ihValue ihTail =>
      exact readsExpressionTail_more tail.front ihValue.expression ihTail
  | expression _ ihInside => exact ⟨_, rfl, ihInside⟩
  | constant isConstant => exact readsOperations_constant isConstant
  | tableValue constructed ihTable => exact readsOperations_table constructed.front ihTable
  | functionValue _ ihInside => exact readsOperations_function ihInside
  | referenceValue referred ihReference =>
      exact readsOperations_reference referred.front ihReference
  | unary isSign _ binds ihOperand =>
      obtain ⟨inner, rfl, inside⟩ := ihOperand
      obtain ⟨loose, tight⟩ := binds resolved
      exact readsOperations_unary isSign inside loose tight
  | binary isSign _ _ binds ihLeft ihRight =>
      obtain ⟨inner, rfl, inside⟩ := ihRight
      obtain ⟨loose, leftTight, rightTight⟩ := binds resolved
      exact readsOperations_binary isSign ihLeft inside loose leftTight rightTight
  | name => exact readsReference_name
  | group _ ihInside => exact readsReference_group ihInside.expression
  | member _ ihOwner => exact readsReference_member ihOwner
  | index _ _ ihOwner ihInside => exact readsReference_index ihOwner ihInside.expression
  | call _ given ihCallee ihGiven => exact readsReference_call given.front ihCallee ihGiven
  | methodCall _ _ ihOwner ihGiven => exact readsReference_methodCall ihOwner ihGiven
  | noArguments => exact readable_noArguments
  | listed valued ihValued => exact readable_listed valued.front ihValued
  | text => exact readable_text
  | record constructed ihTable => exact readable_record constructed.front ihTable
  | table _ ihContent => exact readable_table ihContent
  | noField => exact readsFields_done
  | lastField first ihFirst => exact readsFields_last first.front ihFirst
  | moreFields content separates _ ihContent ihTail =>
      exact readsFields_more content.front ihContent separates ihTail
  | keyed _ _ ihKey ihValue => exact readsField_keyed ihKey.expression ihValue.expression
  | named _ ihValue => exact readsField_named ihValue.expression
  | positional value ihValue => exact readsField_positional value.front ihValue.expression

section Chunks

variable {dialect : Dialect} {depth : Nat} {kinds : List Kind}

/-- How the block of a whole text is read, with any number of levels. -/
theorem Derives.outcome
    (resolved : dialect.resolved = true)
    (careful : dialect.careful = true)
    (strict : dialect.strict = true)
    (derives : Derives dialect .block depth kinds)
    (absent : Kind.eof ∉ kinds)
    (levels : Nat) :
    Outcome levels depth [.eof] (State.initial (kinds ++ [.eof])).start
      ((level levels).block .empty (State.initial (kinds ++ [.eof])).start) := by
  have reads : ReadsBlock depth kinds := derives.read resolved careful strict
  have consumed := reads .empty (Or.inl rfl) levels [.eof]
    (State.initial (kinds ++ [.eof])).start (Or.inl rfl)
  exact consumed.outcome (ended_initial absent) rfl

/-- How deeply a chunk is nested does not depend on its derivation. -/
theorem Derives.depth_le
    (resolved : dialect.resolved = true)
    (careful : dialect.careful = true)
    (strict : dialect.strict = true)
    {other : Nat}
    (derives : Derives dialect .block depth kinds)
    (derivesOther : Derives dialect .block other kinds)
    (absent : Kind.eof ∉ kinds) :
    depth ≤ other := by
  by_contra greater
  have outcome := derives.outcome resolved careful strict absent other
  have otherOutcome := derivesOther.outcome resolved careful strict absent other
  obtain ⟨position, later, faults⟩ := outcome.cuts (by omega)
  rw [(otherOutcome.reads le_rfl).2] at faults
  have lengths := congrArg List.length faults
  simp only [List.length_append, List.length_cons] at lengths
  omega

/-- A chunk within the limit is parsed without faults, and beyond it the first fault says so. -/
theorem Derives.run_faults
    (resolved : dialect.resolved = true)
    (careful : dialect.careful = true)
    (strict : dialect.strict = true)
    (derives : Derives dialect .block depth kinds)
    (absent : Kind.eof ∉ kinds) :
    (depth ≤ maximalDepth → (run (kinds ++ [.eof])).2 = []) ∧
      (maximalDepth < depth →
        ∃ position later, (run (kinds ++ [.eof])).2 = (.nestingTooDeep, position) :: later) := by
  have outcome := derives.outcome resolved careful strict absent maximalDepth
  rw [run_eq]
  refine ⟨fun enough => ?_, fun short => ?_⟩
  · have faults : (blockOf (kinds ++ [.eof])).faults = [] := (outcome.reads enough).2
    simp [faults]
  · obtain ⟨position, later, faults⟩ := outcome.cuts short
    have reported : (blockOf (kinds ++ [.eof])).faults =
        later ++ [(.nestingTooDeep, position)] := faults.symm
    exact ⟨position, later.reverse, by simp [reported]⟩

end Chunks

end LuaFold.Grammar
