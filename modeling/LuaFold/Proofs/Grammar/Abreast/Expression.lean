import LuaFold.Proofs.Grammar.Abreast

/-!
# Expressions of two parses abreast

Suffixes and operations are taken in loops that no end of a text and no semicolon goes on with.
The fields of a table are separated by semicolons too, so their loop may go on in the other parse;
the closing brace is then missing in the first one.
-/

namespace LuaFold.Grammar

open Form State

namespace Surroundings

variable {around : Surroundings} {levels : Nat} {one other : State}

namespace Follows

/-! ## Tables and arguments -/

theorem fieldContent (keeping : around.Keeping levels) :
    around.Keeps (Grammar.fieldContent (level levels)) := by
  intro one other
  have value := anyExpression keeping
  refine choice id around.Beside (by decide) (fun bracket => ?_) fun _ => ?_
  · exact (take other bracket (by decide)).trans ((value _ _).trans
      ((expect (by decide) _ _).trans
        ((expect (by decide) _ _).trans (value _ _))))
  refine agreed id around.Beside (fun beside => ?_) (fun named => ?_) fun _ => value one other
  · rw [beside.isAt_eq (by decide)]
    by_cases isName : one.isAt .name
    · have more : ¬ around.Spent one := fun spent => by
        simp [isAt, spent.2] at isName
      simp [isName, beside.following_iff (by decide : Certain .eq) more]
    · simp [isName]
  · simp only [Bool.and_eq_true, decide_eq_true_eq] at named
    obtain ⟨isName, isEq⟩ := named
    have here : one.current = .name := isAt_iff.mp isName
    have equals : one.advance.current = .eq := (current_advance (by simp [here])).trans isEq
    exact (take other here (by decide)).trans ((take _ equals (by decide)).trans (value _ _))

theorem onward_field
    (levels : Nat)
    (state : State) :
    Onward state (Grammar.field (level levels) state).reached := by
  cases found : Grammar.field (level levels) state with
  | next later => exact (grows_field_next (sound_level levels) found).onward
  | last later => exact (grows_field_last (sound_level levels) found).onward

theorem field
    (keeping : around.Keeping levels)
    (one other : State) :
    around.Follows one other (Grammar.field (level levels) one).reached
      (around.Rounds around.Spent (Grammar.field (level levels) one)
        (Grammar.field (level levels) other)) := by
  refine assume (onward_field levels one) fun beside => ?_
  refine guarded (fun kind => kind = .rightBrace || kind = .eof) rfl fun _ => ?_
  refine trans (.recorded (fieldContent keeping one.start other.start)) ?_
  refine agreed Turn.reached (around.Rounds _) (fun besideContent => ?_)
    (fun _ => last (.record (refl _ _) .abandon)) fun _ => ?_
  · have before := beside.position
    have behind := besideContent.position
    omega
  · refine trans (.record (refl _ _) (.complete .tableField)) ?_
    refine resumed (fun kind => kind = .comma || kind = .semicolon) rfl fun separates => ?_
    refine advance _ fun isEnd => ?_
    simp [isEnd] at separates

theorem table
    (keeping : around.Keeping levels)
    (one other : State)
    (found : one.current = .leftBrace) :
    around.Follows one other (Grammar.table (level levels) one)
      (around.Beside (Grammar.table (level levels) one) (Grammar.table (level levels) other)) := by
  have opened := takeFirst around other found (by decide)
  have listed := loop around.Spent (shrinks_field levels) (fun state spent => by
    simp [Grammar.field, isAt, spent.2]) (field keeping) one.start.advance other.start.advance
  exact .node (opened.trans (.close listed (by decide))) .tableExpr

theorem arguments (keeping : around.Keeping levels) :
    around.Keeps (Grammar.arguments (level levels)) := by
  intro one other
  refine .node (choice id around.Beside (by decide) (fun parenthesis => ?_) fun _ =>
    choice id around.Beside (by decide) (fun brace => table keeping _ _ brace) fun _ =>
      choice id around.Beside (by decide) (fun quoted => take _ quoted (by decide))
        fun _ => report .expectedArguments _ _) .argList
  have closing : Certain .rightParen := by decide
  exact (take _ parenthesis (by decide)).trans (.trans
    (choice id around.Beside closing (fun _ => refl _ _)
      fun _ => expressionList keeping _ _) (expect closing _ _))

/-! ## Suffixes -/

/-- What a rule knows beside its state does not depend on the parse. -/
theorem knowing
    {Known : Type}
    {after afterOther : State}
    (follows : around.Follows one other after (around.Beside after afterOther))
    (known : Known) :
    around.Follows one other (known, after).2
      (around.Alike (known, after) (known, afterOther)) :=
  follows.mono fun beside => ⟨rfl, beside⟩

/-- What is done behind a rule may depend on what the rule found. -/
theorem knowingly
    {Known : Type}
    {found foundOther : Known × State}
    {after : State}
    {result : Prop}
    (follows : around.Follows one other found.2 (around.Alike found foundOther))
    (onward : Onward found.2 after)
    (behind : ∀ state, foundOther = (found.1, state) →
      around.Follows found.2 state after result) :
    around.Follows one other after result := by
  refine ⟨follows.onward.trans onward, fun beside sound => ?_⟩
  have soundBefore : ¬ around.Faulty found.2 :=
    not_faulty_of_onward onward (follows.onward beside.ended).1 sound
  obtain ⟨same, besideNow⟩ := follows.outcome beside soundBefore
  exact (behind foundOther.2 (by rw [same])).outcome besideNow sound

theorem primary
    (keeping : around.Keeping levels)
    (one other : State) :
    around.Follows one other (Grammar.primary (level levels) one).2
      (around.Alike (Grammar.primary (level levels) one)
        (Grammar.primary (level levels) other)) := by
  refine choice Prod.snd around.Alike (by decide) (fun name => ?_) fun _ =>
    choice Prod.snd around.Alike (by decide) (fun parenthesis => ?_) fun _ =>
      knowing (recover .expectedExpression afterExpression one other) none
  · exact knowing (.node (takeFirst around other name (by decide)) .nameRef) (some Kind.nameRef)
  · have opened := takeFirst around other parenthesis (by decide)
    have inside := opened.trans ((anyExpression keeping _ _).trans
      (expect (by decide : Certain .rightParen) _ _))
    exact knowing (.node inside .parenExpr) (some Kind.parenExpr)

theorem suffix
    (keeping : around.Keeping levels)
    (reached reachedOther : Kind × State)
    (same : reached.1 = reachedOther.1) :
    around.Follows reached.2 reachedOther.2 (Grammar.suffix (level levels) reached).reached.2
      (Turn.Both around.Alike (Grammar.suffix (level levels) reached)
        (Grammar.suffix (level levels) reachedOther)) := by
  obtain ⟨kind, one⟩ := reached
  obtain ⟨_, other⟩ := reachedOther
  obtain rfl : kind = _ := same
  have suffixed {after afterOther : State} (outer : Kind)
      (inside : around.Follows one.precede other.precede after (around.Beside after afterOther)) :
      around.Follows one other (Turn.next (outer, after.complete outer)).reached.2
        (Turn.Both around.Alike (.next (outer, after.complete outer))
          (.next (outer, afterOther.complete outer))) :=
    (wrap inside outer).mono fun beside => .next ⟨rfl, beside⟩
  have opened {token : Kind} (found : one.current = token) (notEnd : token ≠ .eof) :
      around.Follows one.precede other.precede one.precede.advance
        (around.Beside one.precede.advance other.precede.advance) :=
    take other.precede found notEnd
  simp only [Grammar.suffix]
  refine choice (Prod.snd ∘ Turn.reached) (Turn.Both around.Alike) (by decide : Certain .dot)
    (fun dot => ?_) fun _ => ?_
  · exact suffixed .fieldExpr ((opened dot (by decide)).trans
      (expect (by decide : Certain .name) _ _))
  refine choice (Prod.snd ∘ Turn.reached) (Turn.Both around.Alike)
    (by decide : Certain .leftBracket) (fun bracket => ?_) fun _ => ?_
  · exact suffixed .indexExpr ((opened bracket (by decide)).trans
      ((anyExpression keeping _ _).trans (expect (by decide : Certain .rightBracket) _ _)))
  refine choice (Prod.snd ∘ Turn.reached) (Turn.Both around.Alike) (by decide : Certain .colon)
    (fun colon => ?_) fun _ => ?_
  · exact suffixed .methodCallExpr ((opened colon (by decide)).trans
      ((expect (by decide : Certain .name) _ _).trans (arguments keeping _ _)))
  refine agreed (Prod.snd ∘ Turn.reached) (Turn.Both around.Alike) (fun beside => ?_)
    (fun _ => ?_) fun _ => ?_
  · rw [beside.isAt_eq (by decide), beside.isAt_eq (by decide), beside.isAt_eq (by decide)]
  · exact suffixed .callExpr (arguments keeping _ _)
  · exact (refl one other).mono fun beside => .last ⟨rfl, beside⟩

theorem suffixes
    (keeping : around.Keeping levels)
    (kind : Kind)
    (one other : State) :
    around.Follows one other (Grammar.suffixes (level levels) (kind, one)).2
      (around.Alike (Grammar.suffixes (level levels) (kind, one))
        (Grammar.suffixes (level levels) (kind, other))) := by
  have onward (reached : Kind × State) :
      Onward reached.2 (Grammar.suffix (level levels) reached).reached.2 :=
    (suffix keeping reached reached rfl).onward
  refine ⟨onward_suffixes levels (kind, one), fun beside sound => ?_⟩
  have looped := iterate (fun _ => False) (shrinks_suffix levels) onward (fun _ => False.elim)
    (fun _ _ alike => alike.2)
    (fun reached reachedOther alike sound =>
      Or.inl ((suffix keeping reached reachedOther alike.1).outcome alike.2 sound))
    (⟨rfl, beside⟩ : around.Alike (kind, one) (kind, other)) sound
  exact looped.resolve_right id

theorem suffixed
    (keeping : around.Keeping levels)
    (one other : State) :
    around.Follows one other (Grammar.suffixed (level levels) one).2
      (around.Alike (Grammar.suffixed (level levels) one)
        (Grammar.suffixed (level levels) other)) := by
  have first := primary keeping one other
  unfold Grammar.suffixed
  generalize Grammar.primary (level levels) one = found at first ⊢
  generalize Grammar.primary (level levels) other = foundOther at first ⊢
  obtain ⟨_ | kind, behind⟩ := found
  · refine knowingly first (.refl behind) ?_
    rintro state rfl
    exact knowing (refl behind state) none
  · refine knowingly first (onward_suffixes levels (kind, behind)) ?_
    rintro state rfl
    exact (suffixes keeping kind behind state).mono fun ⟨same, beside⟩ =>
      ⟨congrArg some same, beside⟩

/-! ## Operands and operators -/

theorem onward_operand
    (levels : Nat)
    (state : State) :
    Onward state (Grammar.operand (level levels) state).2 :=
  (attempts_operand (sound_level levels) state).grows.onward

theorem simpleExpression
    (keeping : around.Keeping levels)
    (same : other.current = one.current) :
    around.Follows one other (Grammar.simpleExpression (level levels) one).2
      (around.Alike (Grammar.simpleExpression (level levels) one)
        (Grammar.simpleExpression (level levels) other)) := by
  have literal (kind node : Kind) (found : one.current = kind) (notEnd : kind ≠ .eof) :
      around.Follows one other (true, one.start.advance.complete node).2
        (around.Alike (true, one.start.advance.complete node)
          (true, other.start.advance.complete node)) :=
    knowing (.node (takeFirst around other found notEnd) node) true
  unfold Grammar.simpleExpression
  rw [same]
  split
  · next found => exact literal .number .literal found (by decide)
  · next found => exact literal .string .literal found (by decide)
  · next found => exact literal .nilKw .literal found (by decide)
  · next found => exact literal .trueKw .literal found (by decide)
  · next found => exact literal .falseKw .literal found (by decide)
  · next found => exact literal .dot3 .varargExpr found (by decide)
  · next found => exact knowing (table keeping one other found) true
  · next found =>
    have body := (takeFirst around other found (by decide)).trans (functionBody keeping _ _)
    exact knowing (.node body .functionExpr) true
  · exact (suffixed keeping one other).mono fun ⟨same, beside⟩ =>
      ⟨congrArg Option.isSome same, beside⟩

theorem operand
    (keeping : around.Keeping levels)
    (one other : State) :
    around.Follows one other (Grammar.operand (level levels) one).2
      (around.Alike (Grammar.operand (level levels) one)
        (Grammar.operand (level levels) other)) := by
  refine assume (onward_operand levels one) fun beside => ?_
  by_cases spent : around.Spent one
  · have missed : Grammar.operand (level levels) one =
        (false, one.report .expectedExpression) := by
      have usable : afterExpression.contains .eof = true := by decide
      simp [Grammar.operand, Grammar.simpleExpression, Grammar.suffixed, Grammar.primary,
        State.recover, isAt, isIn, spent.2, usable]
    rw [missed]
    exact reported (.refl _) fun alone => absurd alone spent.1
  have same : other.current = one.current := beside.current_eq spent
  have unary (kind : Kind) (found : one.current = kind) (notEnd : kind ≠ .eof) :
      around.Follows one other _ _ :=
    knowing (.node (.trans (takeFirst around other found notEnd)
      (keeping.expression unaryPower _ _)) .prefixExpr) true
  unfold Grammar.operand
  rw [same]
  split
  · next found => exact unary .notKw found (by decide)
  · next found => exact unary .minus found (by decide)
  · next found => exact unary .hash found (by decide)
  · next found => exact unary .tilde found (by decide)
  · exact simpleExpression keeping same

theorem onward_operation
    (levels limit : Nat)
    (state : State) :
    Onward state (Grammar.operation (level levels) limit state).reached := by
  cases found : Grammar.operation (level levels) limit state with
  | next later =>
      obtain ⟨after, rfl, grows⟩ := operation_cases (sound_level levels) found
      exact ((Onward.record state .precede).trans grows.onward).trans (.record after _)
  | last later =>
      rw [operation_last found]
      exact .refl state

theorem operation
    (keeping : around.Keeping levels)
    (limit : Nat)
    (one other : State) :
    around.Follows one other (Grammar.operation (level levels) limit one).reached
      (around.Rounds (fun _ => False) (Grammar.operation (level levels) limit one)
        (Grammar.operation (level levels) limit other)) := by
  refine assume (onward_operation levels limit one) fun beside => ?_
  have same : binaryPower? other.current = binaryPower? one.current := by
    by_cases spent : around.Spent one
    · rw [beside.current_of_spent spent, spent.2]
      rfl
    · rw [beside.current_eq spent]
  unfold Grammar.operation
  rw [same]
  split
  · exact last (refl one other)
  · next left right found =>
    have more : one.precede.current ≠ .eof := by
      intro isEnd
      have none : binaryPower? one.precede.current = none := by rw [isEnd]; rfl
      exact absurd (none.symm.trans found) nofun
    refine agreed Turn.reached (around.Rounds _) (fun _ => Iff.rfl)
      (fun _ => last (refl one other)) fun _ => ?_
    exact next (.wrap (.trans (advance _ more) (keeping.expression _ _ _)) .binaryExpr)

theorem operations
    (keeping : around.Keeping levels)
    (limit : Nat) :
    around.Keeps (Grammar.operations (level levels) limit) := by
  intro one other
  have first := operand keeping one other
  unfold Grammar.operations
  generalize Grammar.operand (level levels) one = found at first ⊢
  generalize Grammar.operand (level levels) other = foundOther at first ⊢
  obtain ⟨_ | _, behind⟩ := found
  · refine knowingly first (.refl behind) ?_
    rintro state rfl
    exact refl behind state
  · refine knowingly first (onward_operations levels limit behind) ?_
    rintro state rfl
    exact (loop (fun _ => False) (shrinks_operation levels limit) (fun _ => False.elim)
      (operation keeping limit) behind state).mono (·.resolve_right id)

end Follows

end Surroundings

end LuaFold.Grammar
