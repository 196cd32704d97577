import LuaFold.Proofs.Grammar.Acceptance
import LuaFold.Proofs.Grammar.Lookahead

/-!
# Accepting expressions

What was accepted so far is kept in front of each suffix and each operation: a reference with
the role that its node shows, and operations of any precedence.  How operators are grouped does
not matter to what is accepted, so their limits play no part.
-/

namespace LuaFold.Grammar

open scoped Computability
open State

variable {levels : Nat}

/-! ## Tables and arguments -/

theorem accepts_fieldContent
    (accepting : Accepting levels)
    (state : State) :
    Accepts (Phrase.field.within levels) state (fieldContent (level levels) state) := by
  have value := accepts_anyExpression accepting
  simp only [fieldContent]
  split
  · next bracket =>
    refine Accepts.mono (.trans (.take (isAt_iff.mp bracket) (by decide)) ((value _).trans
      (.trans (.expect _ (by decide)) (.trans (.expect _ (by decide)) (value _))))) ?_
    rintro _ ⟨_, rfl, _, ⟨key, ⟨first, _, inside⟩, _, ⟨_, rfl, _, ⟨_, rfl, word,
      ⟨depth, _, valued⟩, rfl⟩, rfl⟩, rfl⟩, rfl⟩
    exact ⟨max first depth, by omega, .keyed inside valued⟩
  split
  · next named =>
    simp only [Bool.and_eq_true, decide_eq_true_eq] at named
    obtain ⟨isName, isEq⟩ := named
    have here : state.current = .name := isAt_iff.mp isName
    have equals : state.advance.current = .eq :=
      (current_advance (by simp [here])).trans isEq
    refine Accepts.mono (.trans (.take here (by decide))
      (.trans (.take equals (by decide)) (value _))) ?_
    rintro _ ⟨_, rfl, _, ⟨_, rfl, word, ⟨depth, enough, valued⟩, rfl⟩, rfl⟩
    exact ⟨depth, enough, .named valued⟩
  · refine (value state).mono ?_
    rintro _ ⟨depth, enough, valued⟩
    exact ⟨depth, enough, .positional valued⟩

theorem accepts_field_next
    (accepting : Accepting levels)
    {state later : State}
    (found : field (level levels) state = .next later) :
    Accepts (Phrase.field.within levels * (just .comma + just .semicolon)) state later := by
  simp only [field] at found
  split at found
  · cases found
  split at found
  · cases found
  have content : Accepts (Phrase.field.within levels) state
      ((fieldContent (level levels) state.start).complete .tableField) :=
    .node (accepts_fieldContent accepting state.start) .tableField
  split at found
  · next separated =>
    cases found
    refine content.trans ?_
    rcases Bool.or_eq_true _ _ |>.mp separated with comma | semicolon
    · exact (Accepts.take (isAt_iff.mp comma) (by decide)).mono fun _ => Or.inl
    · exact (Accepts.take (isAt_iff.mp semicolon) (by decide)).mono fun _ => Or.inr
  · cases found

theorem accepts_field_last
    (accepting : Accepting levels)
    {state later : State}
    (found : field (level levels) state = .last later) :
    Accepts (1 + Phrase.field.within levels) state later := by
  have sound := sound_level levels
  simp only [field] at found
  split at found
  · cases found
    exact (Accepts.refl state).mono fun _ => Or.inl
  split at found
  · next stuck =>
    cases found
    have nothing := (grows_fieldContent sound state.start).nothing holds_tableField stuck
    exact (Accepts.ofGrows nothing.abandon).mono fun _ => Or.inl
  split at found
  · cases found
  · cases found
    have content := (accepts_fieldContent accepting state.start).node .tableField
    exact content.mono fun _ => Or.inr

theorem fields_le :
    (Phrase.field.within levels * (just .comma + just .semicolon))∗ *
      (1 + Phrase.field.within levels) ≤ Phrase.fields.within levels := by
  refine kstar_mul_le ?_ ?_
  · rintro _ (rfl | ⟨depth, enough, content⟩)
    · exact ⟨0, by omega, .noField⟩
    · exact ⟨depth, enough, .lastField content⟩
  · rintro _ ⟨_, ⟨word, ⟨first, _, content⟩, _, separator, rfl⟩, others, ⟨depth, _, tail⟩, rfl⟩
    rcases separator with rfl | rfl
    · have derives : Derives .lenient .fields _ _ := .moreFields content (Or.inl rfl) tail
      exact ⟨max first depth, by omega, by simpa using derives⟩
    · have derives : Derives .lenient .fields _ _ := .moreFields content (Or.inr rfl) tail
      exact ⟨max first depth, by omega, by simpa using derives⟩

theorem accepts_table
    (accepting : Accepting levels)
    {state : State}
    (found : state.current = .leftBrace) :
    Accepts (Phrase.table.within levels) state (table (level levels) state) := by
  have opened : Accepts (just .leftBrace) state.start state.start.advance :=
    .take found (by decide)
  have listed := (Accepts.loop (shrinks_field levels) (fun _ _ => accepts_field_next accepting)
    (fun _ _ => accepts_field_last accepting) state.start.advance).mono fields_le
  refine .node (Accepts.mono (opened.trans
    (listed.trans (.expect _ (by decide : Kind.rightBrace ≠ .eof)))) ?_) .tableExpr
  rintro _ ⟨_, rfl, _, ⟨word, ⟨depth, enough, content⟩, _, rfl, rfl⟩, rfl⟩
  exact ⟨depth, enough, .table content⟩

theorem accepts_arguments
    (accepting : Accepting levels)
    (state : State) :
    Accepts (Phrase.arguments.within levels) state (arguments (level levels) state) := by
  refine .node ?_ .argList
  split
  · next parenthesis =>
    have opened : Accepts (just .leftParen) state.start state.start.advance :=
      .take (isAt_iff.mp parenthesis) (by decide)
    have inside : Accepts (1 + Phrase.expressions.within levels) state.start.advance
        (if state.start.advance.isAt .rightParen then state.start.advance
          else (level levels).expressionList state.start.advance) := by
      split
      · exact (Accepts.refl _).mono fun _ => Or.inl
      · exact (accepts_expressionList accepting _).mono fun _ => Or.inr
    refine Accepts.mono (opened.trans
      (inside.trans (.expect _ (by decide : Kind.rightParen ≠ .eof)))) ?_
    rintro _ ⟨_, rfl, _, ⟨values, rfl | ⟨depth, enough, valued⟩, _, rfl, rfl⟩, rfl⟩
    · exact ⟨0, by omega, .noArguments⟩
    · exact ⟨depth, enough, .listed valued⟩
  split
  · next brace =>
    refine (accepts_table accepting (isAt_iff.mp brace)).mono ?_
    rintro _ ⟨depth, enough, constructed⟩
    exact ⟨depth, enough, .record constructed⟩
  split
  · next quoted =>
    refine (Accepts.take (isAt_iff.mp quoted) (by decide)).mono ?_
    rintro _ rfl
    exact ⟨0, by omega, .text⟩
  · exact .report (.refl (state.start.report _))

/-! ## Suffixes -/

/-- A reference is accepted with the role that its kind shows. -/
def AcceptsReference (levels : Nat) (before : State) (reached : Kind × State) : Prop :=
  ∃ role : Role, role.Matches reached.1 ∧
    Accepts ((Phrase.reference role).within levels) before reached.2

/-- Where there is no reference a fault is reported, so anything is accepted. -/
def AcceptsReference? (levels : Nat) (before : State) : Option Kind × State → Prop
  | (some kind, after) => AcceptsReference levels before (kind, after)
  | (none, after) => ∀ language, Accepts language before after

theorem accepts_primary
    (accepting : Accepting levels)
    (state : State) :
    AcceptsReference? levels state (primary (level levels) state) := by
  simp only [primary]
  split
  · next name =>
    have taken : Accepts (just .name) state.start state.start.advance :=
      .take (isAt_iff.mp name) (by decide)
    refine ⟨.place, by simp [Role.Matches], (taken.node .nameRef).mono ?_⟩
    rintro _ rfl
    exact ⟨0, by omega, .name⟩
  split
  · next parenthesis =>
    have opened : Accepts (just .leftParen) state.start state.start.advance :=
      .take (isAt_iff.mp parenthesis) (by decide)
    refine ⟨.group, by simp [Role.Matches], .node (Accepts.mono (opened.trans
      ((accepts_anyExpression accepting _).trans
        (.expect _ (by decide : Kind.rightParen ≠ .eof)))) ?_) .parenExpr⟩
    rintro _ ⟨_, rfl, _, ⟨word, ⟨depth, enough, inside⟩, _, rfl, rfl⟩, rfl⟩
    exact ⟨depth, enough, .group inside⟩
  · exact fun _ => .recover state _ _

theorem accepts_suffix
    (accepting : Accepting levels)
    {base : State}
    {reached later : Kind × State}
    (accepts : AcceptsReference levels base reached)
    (found : suffix (level levels) reached = .next later) :
    AcceptsReference levels base later := by
  obtain ⟨kind, state⟩ := reached
  obtain ⟨role, _, owned⟩ := accepts
  simp only [suffix] at found
  split at found
  · next dot =>
    cases found
    have opened : Accepts (just .dot) state.precede state.precede.advance :=
      .take (isAt_iff.mp dot) (by decide)
    have field := opened.trans (.expect _ (by decide : Kind.name ≠ .eof))
    refine ⟨.place, by simp [Role.Matches], (owned.trans (field.around .fieldExpr)).mono ?_⟩
    rintro _ ⟨word, ⟨depth, enough, owner⟩, _, ⟨_, rfl, _, rfl, rfl⟩, rfl⟩
    exact ⟨depth, enough, .member owner⟩
  split at found
  · next bracket =>
    cases found
    have opened : Accepts (just .leftBracket) state.precede state.precede.advance :=
      .take (isAt_iff.mp bracket) (by decide)
    have key := opened.trans ((accepts_anyExpression accepting _).trans
      (.expect _ (by decide : Kind.rightBracket ≠ .eof)))
    refine ⟨.place, by simp [Role.Matches], (owned.trans (key.around .indexExpr)).mono ?_⟩
    rintro _ ⟨word, ⟨first, _, owner⟩, _,
      ⟨_, rfl, _, ⟨_, ⟨depth, _, inside⟩, _, rfl, rfl⟩, rfl⟩, rfl⟩
    exact ⟨max first depth, by omega, .index owner inside⟩
  split at found
  · next colon =>
    cases found
    have opened : Accepts (just .colon) state.precede state.precede.advance :=
      .take (isAt_iff.mp colon) (by decide)
    have called := opened.trans (.trans (.expect _ (by decide : Kind.name ≠ .eof))
      (accepts_arguments accepting _))
    refine ⟨.call, by simp [Role.Matches],
      (owned.trans (called.around .methodCallExpr)).mono ?_⟩
    rintro _ ⟨word, ⟨first, _, owner⟩, _,
      ⟨_, rfl, _, ⟨_, rfl, _, ⟨depth, _, given⟩, rfl⟩, rfl⟩, rfl⟩
    exact ⟨max first depth, by omega, .methodCall owner given⟩
  split at found
  · cases found
    have called := (accepts_arguments accepting state.precede).around .callExpr
    refine ⟨.call, by simp [Role.Matches], (owned.trans called).mono ?_⟩
    rintro _ ⟨word, ⟨first, _, callee⟩, _, ⟨depth, _, given⟩, rfl⟩
    exact ⟨max first depth, by omega, .call callee given⟩
  · cases found

theorem accepts_suffixed
    (accepting : Accepting levels)
    {state : State}
    (ended : state.Ended) :
    AcceptsReference? levels state (suffixed (level levels) state) := by
  have start := accepts_primary accepting state
  unfold suffixed
  generalize primary (level levels) state = first at start ⊢
  obtain ⟨_ | kind, behind⟩ := first
  · exact start
  · obtain ⟨role, _, owned⟩ := id start
    obtain ⟨final, accepted, found⟩ := iterate_keeps (shrinks_suffix levels)
      (fun _ _ accepts => accepts_suffix accepting accepts) start (owned.onward ended).1
    simp only [suffix_last found]
    exact accepted

/-! ## Operands and operators -/

theorem accepts_simpleExpression
    (accepting : Accepting levels)
    (state : State) :
    Accepts ((Phrase.operations loosest).within levels) state
      (simpleExpression (level levels) state).2 := by
  have constant (kind node : Kind) (found : state.current = kind)
      (constant : isConstant kind = true) :
      Accepts ((Phrase.operations loosest).within levels) state
        (state.start.advance.complete node) := by
    have taken : Accepts (just kind) state.start state.start.advance := by
      refine .take found ?_
      rintro rfl
      cases constant
    refine (taken.node node).mono ?_
    rintro _ rfl
    exact ⟨0, by omega, .constant constant⟩
  unfold simpleExpression
  split
  · next found => exact constant .number .literal found rfl
  · next found => exact constant .string .literal found rfl
  · next found => exact constant .nilKw .literal found rfl
  · next found => exact constant .trueKw .literal found rfl
  · next found => exact constant .falseKw .literal found rfl
  · next found => exact constant .dot3 .varargExpr found rfl
  · next found =>
    refine (accepts_table accepting found).mono ?_
    rintro _ ⟨depth, enough, constructed⟩
    exact ⟨depth, enough, .tableValue constructed⟩
  · next found =>
    have opened : Accepts (just .functionKw) state.start state.start.advance :=
      .take found (by decide)
    refine .node (Accepts.mono (opened.trans (accepts_functionBody accepting _)) ?_)
      .functionExpr
    rintro _ ⟨_, rfl, body, ⟨depth, enough, inside⟩, rfl⟩
    exact ⟨depth, enough, .functionValue inside⟩
  · refine .assume fun ended => ?_
    have reference := accepts_suffixed accepting ended
    generalize suffixed (level levels) state = reached at reference ⊢
    obtain ⟨_ | kind, after⟩ := reached
    · exact reference _
    · obtain ⟨role, _, accepts⟩ := reference
      refine accepts.mono ?_
      rintro _ ⟨depth, enough, referred⟩
      exact ⟨depth, enough, .referenceValue referred⟩

theorem accepts_operand
    (accepting : Accepting levels)
    (state : State) :
    Accepts ((Phrase.operations loosest).within levels) state
      (operand (level levels) state).2 := by
  have unary (sign : Kind) (found : state.current = sign) (isSign : isUnary sign = true) :
      Accepts ((Phrase.operations loosest).within levels) state
        (((level levels).expression unaryPower state.start.advance).complete .prefixExpr) := by
    have taken : Accepts (just sign) state.start state.start.advance := by
      refine .take found ?_
      rintro rfl
      cases isSign
    refine .node (Accepts.mono (taken.trans (accepting.expression _ _)) ?_) .prefixExpr
    rintro _ ⟨_, rfl, word, ⟨depth, enough, inside⟩, rfl⟩
    exact ⟨depth, enough, .unary isSign inside nofun⟩
  unfold operand
  split
  · next found => exact unary .notKw found rfl
  · next found => exact unary .minus found rfl
  · next found => exact unary .hash found rfl
  · next found => exact unary .tilde found rfl
  · exact accepts_simpleExpression accepting state

theorem accepts_operation
    (accepting : Accepting levels)
    {limit : Nat}
    {base state later : State}
    (accepts : Accepts ((Phrase.operations loosest).within levels) base state)
    (found : operation (level levels) limit state = .next later) :
    Accepts ((Phrase.operations loosest).within levels) base later := by
  simp only [operation, binaryPower?_eq] at found
  cases isSign : precedence? state.current with
  | none => simp [isSign] at found
  | some precedence =>
      simp only [isSign, Option.map_some] at found
      split at found
      · cases found
      · cases found
        have taken : Accepts (just state.current) state.precede state.precede.advance := by
          refine .take rfl fun isEnd => ?_
          rw [isEnd] at isSign
          cases isSign
        have right := taken.trans (accepting.expression (rightPower precedence) _)
        refine (accepts.trans (right.around .binaryExpr)).mono ?_
        rintro _ ⟨word, ⟨first, _, left⟩, _, ⟨_, rfl, _, ⟨depth, _, inside⟩, rfl⟩, rfl⟩
        exact ⟨max first depth, by omega,
          .binary isSign left inside fun resolved => absurd resolved (by decide)⟩

theorem accepts_operations
    (accepting : Accepting levels)
    (limit : Nat)
    (state : State) :
    Accepts ((Phrase.operations loosest).within levels) state
      (operations (level levels) limit state) := by
  refine .assume fun ended => ?_
  have start := accepts_operand accepting state
  unfold operations
  generalize operand (level levels) state = first at start ⊢
  obtain ⟨_ | _, behind⟩ := first
  · exact start
  · obtain ⟨final, accepted, found⟩ := iterate_keeps (shrinks_operation levels limit)
      (fun _ _ accepts => accepts_operation accepting accepts) start (start.onward ended).1
    rw [← operation_last found] at accepted
    exact accepted

end LuaFold.Grammar
