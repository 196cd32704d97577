import LuaFold.Proofs.Grammar.Derivation
import LuaFold.Proofs.Grammar.Round

/-!
# Accepting languages

A rule accepts a language when the kinds that it takes form a word of the language, wherever it
reports nothing.  What is taken beside a fault does not matter, so the rules that recover from
faults accept any language.  Accepted languages compose like forms: one after the other is a
product, a choice is a sum, a loop is a star.

The languages are those of the lenient dialect, within the levels that are left.  Each production
is an inclusion between languages, and a list of any length is one by induction over the star.
-/

namespace LuaFold.Grammar

open scoped Computability

/-- The word of a single token. -/
def just (kind : Kind) : Language Kind :=
  {[kind]}

/-- The words with a property. -/
def words (holds : List Kind → Prop) : Language Kind :=
  {word | holds word}

/-- The words derived from a phrase in the lenient dialect, nested within some levels. -/
def Phrase.within (phrase : Phrase) (levels : Nat) : Language Kind :=
  words fun word => ∃ depth, depth ≤ levels ∧ Derives .lenient phrase depth word

namespace State

/-- Between two states a word of a language is taken, unless a fault is reported. -/
structure Accepts (language : Language Kind) (before after : State) : Prop where
  onward : Onward before after
  takes : before.Ended → after.faults = before.faults →
    ∃ word ∈ language, before.ahead = word ++ after.ahead

namespace Accepts

variable {language other : Language Kind} {before middle after : State}

theorem refl (state : State) : Accepts 1 state state :=
  ⟨.refl state, fun _ _ => ⟨[], rfl, rfl⟩⟩

theorem mono
    (accepts : Accepts language before after)
    (smaller : language ≤ other) :
    Accepts other before after := by
  refine ⟨accepts.onward, fun ended silent => ?_⟩
  obtain ⟨word, member, taken⟩ := accepts.takes ended silent
  exact ⟨word, smaller member, taken⟩

/-- A rule may use that the end of the text is ahead. -/
theorem assume (accepts : before.Ended → Accepts language before after) :
    Accepts language before after :=
  ⟨fun ended => (accepts ended).onward ended, fun ended => (accepts ended).takes ended⟩

/-- No fault is taken back, so two parts report nothing only if both do not. -/
theorem trans
    (accepts : Accepts language before middle)
    (behind : Accepts other middle after) :
    Accepts (language * other) before after := by
  refine ⟨accepts.onward.trans behind.onward, fun ended silent => ?_⟩
  obtain ⟨middleEnded, kept⟩ := accepts.onward ended
  obtain ⟨_, moreKept⟩ := behind.onward middleEnded
  rw [silent] at moreKept
  have silentBefore : middle.faults = before.faults :=
    moreKept.sublist.antisymm kept.sublist
  obtain ⟨word, member, taken⟩ := accepts.takes ended silentBefore
  obtain ⟨later, moreMember, moreTaken⟩ :=
    behind.takes middleEnded (silent.trans silentBefore.symm)
  refine ⟨word ++ later, Language.append_mem_mul member moreMember, ?_⟩
  rw [taken, moreTaken, List.append_assoc]

theorem record
    (accepts : Accepts language before after)
    (action : Action) :
    Accepts language before (after.record action) :=
  ⟨accepts.onward.trans (.record after action), accepts.takes⟩

theorem recorded
    {action : Action}
    (accepts : Accepts language (before.record action) after) :
    Accepts language before after :=
  ⟨(Onward.record before action).trans accepts.onward, accepts.takes⟩

/-- A node around a word. -/
theorem node
    (inside : Accepts language before.start after)
    (kind : Kind) :
    Accepts language before (after.complete kind) :=
  recorded (inside.record _)

/-- A node around an element that stands before a word. -/
theorem around
    (inside : Accepts language before.precede after)
    (kind : Kind) :
    Accepts language before (after.complete kind) :=
  recorded (inside.record _)

/-! ## Faults -/

/-- Where a fault is reported any language is accepted. -/
theorem report
    {fault : SyntaxFault}
    (onward : Onward (before.report fault) after) :
    Accepts language before after := by
  have reported : before.Ended →
      after.Ended ∧ (fault, before.position) :: before.faults <:+ after.faults := onward
  refine ⟨fun ended => ?_, fun ended silent => ?_⟩
  · obtain ⟨later, kept⟩ := reported ended
    exact ⟨later, (List.suffix_cons _ _).trans kept⟩
  · have longer := (reported ended).2.length_le
    rw [silent, List.length_cons] at longer
    omega

theorem reportAndAdvance
    (state : State)
    (fault : SyntaxFault) :
    Accepts language state (state.reportAndAdvance fault) := by
  rw [State.reportAndAdvance]
  split
  · exact .report (.refl (state.report fault))
  · have onward : Onward (state.start.report fault)
        ((state.start.report fault).advance.complete .error) :=
      (Onward.advance _).trans (.record _ _)
    exact recorded (.report onward)

theorem recover
    (state : State)
    (fault : SyntaxFault)
    (usable : KindSet) :
    Accepts language state (state.recover fault usable) := by
  rw [State.recover]
  split
  · exact .report (.refl (state.report fault))
  · exact reportAndAdvance state fault

theorem skip (state : State) : Accepts language state state.skip := by
  have skipped := (grows_skipBalanced (state.start.report .nestingTooDeep)).onward
  simp only [State.skip]
  split
  · exact recorded (.report (skipped.trans (.record _ .abandon)))
  · exact recorded (.report (skipped.trans (.record _ (.complete .error))))

/-! ## Tokens -/

theorem advance
    {state : State}
    (notEnd : state.current ≠ .eof) :
    Accepts (just state.current) state state.advance :=
  ⟨.advance state, fun _ _ => ⟨_, rfl, (Extends.advance notEnd).ahead⟩⟩

theorem take
    {state : State}
    {kind : Kind}
    (found : state.current = kind)
    (notEnd : kind ≠ .eof) :
    Accepts (just kind) state state.advance := by
  subst found
  exact advance notEnd

theorem expect
    (state : State)
    {kind : Kind}
    (notEnd : kind ≠ .eof) :
    Accepts (just kind) state (state.expect kind) := by
  rw [State.expect]
  split
  · next found => exact take (isAt_iff.mp found) notEnd
  · exact .report (.refl (state.report _))

/-- A part that begins with a token is there where the token is. -/
theorem optional
    {kind : Kind}
    (taken : before.current = kind → Accepts language before after) :
    Accepts (1 + language) before (if before.isAt kind then after else before) := by
  split
  · next found => exact (taken (isAt_iff.mp found)).mono fun _ member => Or.inr member
  · exact (refl before).mono fun _ member => Or.inl member

/-- Where nothing grew nothing was taken. -/
theorem ofGrows (grows : Grows 1 before after) : Accepts 1 before after := by
  refine ⟨grows.onward, fun ended _ => ?_⟩
  obtain ⟨word, shapes, extended, _, _, slots⟩ := grows ended
  have empty : shapes = [] := List.map_eq_nil_iff.mp slots
  subst empty
  exact ⟨[], rfl, extended.ahead⟩

/-! ## Loops -/

/-- A loop accepts the star of what a round accepts, and then what the last round does. -/
theorem loop
    {round : State → Turn State}
    (shrinks : Shrinks id round)
    (next : ∀ state later, round state = .next later → Accepts language state later)
    (last : ∀ state later, round state = .last later → Accepts other state later)
    (state : State) :
    Accepts (language∗ * other) state (state.loop round) := by
  refine assume fun ended => ?_
  obtain ⟨final, accepted, found⟩ := iterate_keeps shrinks
    (fun value later (accepted : Accepts language∗ state value) found =>
      (accepted.trans (next value later found)).mono kstar_mul_le_kstar)
    ((refl state).mono one_le_kstar) ended
  exact accepted.trans (last final _ found)

theorem separated
    {separator : Kind}
    {item : State → State}
    {form : Form}
    (notEnd : separator ≠ .eof)
    (grows : ∀ state, Grows form state (item state))
    (accepts : ∀ state, Accepts language state (item state))
    (state : State) :
    Accepts (just separator * language)∗ state (state.separated separator item) := by
  rw [← mul_one (just separator * language)∗]
  refine loop (shrinks_separated notEnd grows) ?_ ?_ state
  · intro value later found
    split at found
    · next here =>
      cases found
      exact (take (isAt_iff.mp here) notEnd).trans (accepts _)
    · cases found
  · intro value later found
    split at found
    · cases found
    · cases found
      exact refl value

end Accepts

end State

open State

/-! ## Blocks and lists -/

/-- The rules of a nesting level accept blocks and expressions. -/
structure Accepting (levels : Nat) : Prop where
  statements (terminators : KindSet) (state : State) :
    Accepts (Phrase.block.within levels) state ((level levels).statements terminators state)
  expression (limit : Nat) (state : State) :
    Accepts ((Phrase.expression loosest).within levels) state
      ((level levels).expression limit state)

variable {levels : Nat}

theorem accepts_block
    (accepting : Accepting levels)
    (terminators : KindSet)
    (state : State) :
    Accepts (Phrase.block.within levels) state ((level levels).block terminators state) :=
  .node (accepting.statements terminators state.start) .block

theorem accepts_anyExpression
    (accepting : Accepting levels)
    (state : State) :
    Accepts ((Phrase.expression loosest).within levels) state
      ((level levels).anyExpression state) :=
  accepting.expression 0 state

theorem expressionTail_le :
    (just .comma * (Phrase.expression loosest).within levels)∗ ≤
      Phrase.expressionTail.within levels := by
  refine kstar_le_of_mul_le_right ?_ ?_
  · rintro _ rfl
    exact ⟨0, by omega, .noExpression⟩
  · rintro _ ⟨_, ⟨_, rfl, _, ⟨first, _, value⟩, rfl⟩, _, ⟨depth, _, tail⟩, rfl⟩
    exact ⟨max first depth, by omega, .moreExpressions value tail⟩

theorem accepts_expressionList
    (accepting : Accepting levels)
    (state : State) :
    Accepts (Phrase.expressions.within levels) state ((level levels).expressionList state) := by
  refine .node (Accepts.mono ((accepts_anyExpression accepting _).trans
    (.separated (by decide) (grows_anyExpression (sound_level levels))
      (accepts_anyExpression accepting) _)) ?_) .exprList
  rintro _ ⟨_, ⟨first, _, value⟩, _, others, rfl⟩
  obtain ⟨depth, _, tail⟩ := expressionTail_le others
  exact ⟨max first depth, by omega, .expressions value tail⟩

/-! ## Functions -/

theorem accepts_parameter_next
    {state later : State}
    (found : parameter state = .next later) :
    Accepts (just .name * just .comma) state later := by
  simp only [parameter] at found
  split at found
  · cases found
  split at found
  · next named =>
    split at found
    · next comma =>
      cases found
      have name : Accepts (just .name) state (state.start.advance.complete .param) :=
        .node (.take (isAt_iff.mp named) (by decide)) .param
      exact name.trans (.take (isAt_iff.mp comma) (by decide))
    · cases found
  split at found
  · cases found
  · cases found

/-- The last round may find nothing behind a comma, and takes that for the end of the list. -/
theorem accepts_parameter_last
    {state later : State}
    (found : parameter state = .last later) :
    Accepts (1 + just .name + just .dot3) state later := by
  simp only [parameter] at found
  split at found
  · cases found
    exact (Accepts.refl state).mono fun _ member => Or.inl (Or.inl member)
  split at found
  · next named =>
    split at found
    · cases found
    · cases found
      have name : Accepts (just .name) state (state.start.advance.complete .param) :=
        .node (.take (isAt_iff.mp named) (by decide)) .param
      exact name.mono fun _ member => Or.inl (Or.inr member)
  split at found
  · next dots =>
    cases found
    have rest : Accepts (just .dot3) state (state.start.advance.complete .param) :=
      .node (.take (isAt_iff.mp dots) (by decide)) .param
    exact rest.mono fun _ member => Or.inr member
  · cases found
    exact .report (.refl (state.report _))

theorem parameters_le :
    (just .name * just .comma)∗ * (1 + just .name + just .dot3) ≤ words (Parameters false) := by
  refine kstar_mul_le ?_ ?_
  · rintro _ ((rfl | rfl) | rfl)
    · exact .none
    · exact .single
    · exact .rest
  · rintro _ ⟨_, ⟨_, rfl, _, rfl, rfl⟩, _, others, rfl⟩
    exact .more others nofun

theorem accepts_functionBody
    (accepting : Accepting levels)
    (state : State) :
    Accepts (Phrase.functionBody.within levels) state (functionBody (level levels) state) := by
  have headed : Accepts (just .leftParen * (words (Parameters false) * just .rightParen))
      state.start (if state.start.isAt .leftParen then parameters state.start
        else state.start.report (.expected .leftParen)) := by
    split
    · next found =>
      have opened : Accepts (just .leftParen) state.start.start state.start.start.advance :=
        .take (isAt_iff.mp found) (by decide)
      have listed := (Accepts.loop shrinks_parameter (fun _ _ => accepts_parameter_next)
        (fun _ _ => accepts_parameter_last) state.start.start.advance).mono parameters_le
      exact .node (opened.trans (listed.trans (.expect _ (by decide)))) .paramList
    · exact .report (.refl (state.start.report _))
  refine .node (Accepts.mono (headed.trans ((accepts_block accepting blockEnd _).trans
    (.expect _ (by decide : Kind.endKw ≠ .eof)))) ?_) .funcBody
  rintro _ ⟨_, ⟨_, rfl, _, ⟨names, parameters, _, rfl, rfl⟩, rfl⟩, _,
    ⟨body, ⟨depth, enough, inside⟩, _, rfl, rfl⟩, rfl⟩
  have derives : Derives .lenient .functionBody depth _ := .functionBody parameters inside
  exact ⟨depth, enough, by simpa using derives⟩

end LuaFold.Grammar
