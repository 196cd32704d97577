import LuaFold.Proofs.Grammar.Lookahead

/-!
# Operators grouped by their precedence

A derivation may group the operators of an expression in any way.  Whatever it does, the word is
a chain of operands with operators between them and before them, and every chain has a
derivation in which the operators are grouped by their precedence.

That derivation is found by climbing: from a chain the longest front is split off whose
operators bind tightly enough, and the operator behind it takes this front for its left operand.
-/

namespace LuaFold.Grammar

/-- A word has a resolved derivation whose outer operators have a least precedence. -/
def Resolves (dialect : Dialect) (least : Nat) (word : List Kind) : Prop :=
  ∃ depth, Derives dialect.resolve (.operations least) depth word

/-- A word is an operand, without operators outside of its parts. -/
def IsOperand (dialect : Dialect) (word : List Kind) : Prop :=
  ∀ least, Resolves dialect least word

/-- Operands with operators between them and before them, as many as counted. -/
inductive Chain (dialect : Dialect) : Nat → List Kind → Prop where
  | operand {word : List Kind} (isOperand : IsOperand dialect word) : Chain dialect 0 word
  | unary
      {length : Nat}
      {sign : Kind}
      {word : List Kind}
      (isSign : isUnary sign = true)
      (others : Chain dialect length word) :
      Chain dialect (length + 1) (sign :: word)
  | binary
      {length precedence : Nat}
      {sign : Kind}
      {first word : List Kind}
      (isOperand : IsOperand dialect first)
      (isSign : precedence? sign = some precedence)
      (others : Chain dialect length word) :
      Chain dialect (length + 1) (first ++ sign :: word)

/--
What is left of a chain when its operators above a precedence have been taken: nothing, or a
shorter chain behind an operator that binds too loosely.
-/
def Remains (dialect : Dialect) (least length : Nat) (word : List Kind) : Prop :=
  word = [] ∨ ∃ sign precedence others shorter, word = sign :: others ∧
    precedence? sign = some precedence ∧ precedence < least ∧ shorter < length ∧
    Chain dialect shorter others

/-- A word splits into operations above a precedence and what they leave. -/
def Splits (dialect : Dialect) (least length : Nat) (word : List Kind) : Prop :=
  ∃ front behind, word = front ++ behind ∧ Resolves dialect least front ∧
    Remains dialect least length behind

variable {dialect : Dialect}

/-! ## Precedences -/

theorem rightLeast_le
    {sign : Kind}
    {precedence : Nat}
    (found : precedence? sign = some precedence) :
    rightLeast precedence ≤ unaryPrecedence := by
  have range := precedence?_range found
  simp only [rightLeast, groupsRight, unaryPrecedence, loosest, Bool.or_eq_true,
    decide_eq_true_eq] at range ⊢
  grind

/-- An operator that does not belong to a right operand takes the whole for its left one. -/
theorem leftLeast_le
    {sign other : Kind}
    {precedence outer : Nat}
    (found : precedence? sign = some precedence)
    (foundOuter : precedence? other = some outer)
    (loose : outer < rightLeast precedence) :
    leftLeast outer ≤ precedence := by
  have range := precedence?_range found
  have outerRange := precedence?_range foundOuter
  simp only [rightLeast, leftLeast, groupsRight, unaryPrecedence, loosest, Bool.or_eq_true,
    decide_eq_true_eq] at *
  grind

theorem leftLeast_le_unary
    {precedence : Nat}
    (loose : precedence < unaryPrecedence) :
    leftLeast precedence ≤ unaryPrecedence := by
  simp only [leftLeast, unaryPrecedence] at *
  split <;> omega

theorem leftLeast_le_operand
    {sign : Kind}
    {precedence : Nat}
    (found : precedence? sign = some precedence) :
    leftLeast precedence ≤ 13 := by
  have range := precedence?_range found
  simp only [leftLeast]
  split <;> omega

/-! ## Resolved operations -/

theorem Resolves.mono
    {least greater : Nat}
    {word : List Kind}
    (resolves : Resolves dialect greater word)
    (le : least ≤ greater) :
    Resolves dialect least word := by
  obtain ⟨depth, derives⟩ := resolves
  refine ⟨depth, ?_⟩
  cases derives with
  | constant isConstant => exact .constant isConstant
  | tableValue constructed => exact .tableValue constructed
  | functionValue inside => exact .functionValue inside
  | referenceValue referred => exact .referenceValue referred
  | unary isSign operand binds =>
      refine .unary isSign operand fun resolved => ?_
      exact ⟨Nat.le_trans le (binds resolved).1, (binds resolved).2⟩
  | binary isSign left right binds =>
      refine .binary isSign left right fun resolved => ?_
      exact ⟨Nat.le_trans le (binds resolved).1, (binds resolved).2⟩

theorem Resolves.unary
    {sign : Kind}
    {word : List Kind}
    (isSign : isUnary sign = true)
    (operand : Resolves dialect unaryPrecedence word) :
    Resolves dialect unaryPrecedence (sign :: word) := by
  obtain ⟨depth, derives⟩ := operand
  exact ⟨depth + 1, .unary isSign (.expression derives) fun _ => ⟨Nat.le_refl _, Nat.le_refl _⟩⟩

theorem Resolves.binary
    {sign : Kind}
    {precedence inner : Nat}
    {left right : List Kind}
    (isSign : precedence? sign = some precedence)
    (tight : leftLeast precedence ≤ inner)
    (leftOperand : Resolves dialect inner left)
    (rightOperand : Resolves dialect (rightLeast precedence) right) :
    Resolves dialect precedence (left ++ sign :: right) := by
  obtain ⟨leftDepth, leftDerives⟩ := leftOperand
  obtain ⟨rightDepth, rightDerives⟩ := rightOperand
  exact ⟨max leftDepth (rightDepth + 1), .binary isSign leftDerives (.expression rightDerives)
    fun _ => ⟨Nat.le_refl _, tight, Nat.le_refl _⟩⟩

/-! ## Climbing -/

/--
A left operand takes the operators behind it one after the other, as long as they bind tightly
enough.  Their right operands are split off what follows them, which is shorter each time.
-/
theorem splits_behind
    {bound : Nat}
    (split : ∀ length < bound, ∀ word, Chain dialect length word → ∀ least ≤ unaryPrecedence,
      Splits dialect least length word)
    {least inner precedence length : Nat}
    {sign : Kind}
    {left others : List Kind}
    (leftOperand : Resolves dialect inner left)
    (le : least ≤ inner)
    (isSign : precedence? sign = some precedence)
    (tight : leftLeast precedence ≤ inner)
    (chain : Chain dialect length others)
    (shorter : length < bound) :
    Splits dialect least bound (left ++ sign :: others) := by
  induction length using Nat.strongRecOn generalizing inner precedence sign left others with
  | ind length ih =>
      by_cases loose : precedence < least
      · exact ⟨left, sign :: others, rfl, leftOperand.mono le,
          Or.inr ⟨sign, precedence, others, length, rfl, isSign, loose, shorter, chain⟩⟩
      · obtain ⟨right, behind, rfl, rightOperand, remains⟩ :=
          split length shorter others chain (rightLeast precedence) (rightLeast_le isSign)
        have whole := leftOperand.binary isSign tight rightOperand
        rcases remains with rfl | ⟨next, outer, rest, less, rfl, isNext, below, fewer, remaining⟩
        · exact ⟨left ++ sign :: right, [], by simp, whole.mono (by omega), Or.inl rfl⟩
        · have further := ih less fewer whole (by omega) isNext
            (leftLeast_le isSign isNext below) remaining (by omega)
          simpa using further

/-- Every chain splits at a precedence that a right operand can ask for. -/
theorem Chain.splits
    {length : Nat}
    {word : List Kind}
    (chain : Chain dialect length word)
    {least : Nat}
    (le : least ≤ unaryPrecedence) :
    Splits dialect least length word := by
  induction length using Nat.strongRecOn generalizing word least with
  | ind length ih =>
      have split : ∀ shorter < length, ∀ word, Chain dialect shorter word →
          ∀ least ≤ unaryPrecedence, Splits dialect least shorter word :=
        fun shorter less word chain least le => ih shorter less chain le
      cases chain with
      | operand isOperand => exact ⟨word, [], by simp, isOperand least, Or.inl rfl⟩
      | @unary shorter sign others isSign chain =>
          obtain ⟨front, behind, rfl, operand, remains⟩ :=
            ih shorter (by omega) chain (Nat.le_refl unaryPrecedence)
          have whole := operand.unary isSign
          rcases remains with rfl | ⟨next, outer, rest, less, rfl, isNext, below, fewer, remaining⟩
          · exact ⟨sign :: front, [], by simp, whole.mono le, Or.inl rfl⟩
          · exact splits_behind split whole le isNext (leftLeast_le_unary below) remaining
              (by omega)
      | binary isOperand isSign chain =>
          exact splits_behind split (isOperand 13) (Nat.le_trans le (by decide)) isSign
            (leftLeast_le_operand isSign) chain (by omega)

/-- Every chain has a derivation with its operators grouped by their precedence. -/
theorem Chain.resolves
    {length : Nat}
    {word : List Kind}
    (chain : Chain dialect length word) :
    Resolves dialect loosest word := by
  obtain ⟨front, behind, rfl, resolves, remains⟩ := chain.splits (by decide : loosest ≤ _)
  rcases remains with rfl | ⟨sign, precedence, _, _, _, isSign, below, _⟩
  · simpa using resolves
  · have range := precedence?_range isSign
    omega

theorem Chain.append
    {length shorter precedence : Nat}
    {sign : Kind}
    {left right : List Kind}
    (chain : Chain dialect length left)
    (isSign : precedence? sign = some precedence)
    (others : Chain dialect shorter right) :
    ∃ whole, Chain dialect whole (left ++ sign :: right) := by
  induction chain with
  | operand isOperand => exact ⟨shorter + 1, .binary isOperand isSign others⟩
  | unary isUnary _ ih =>
      obtain ⟨whole, chain⟩ := ih
      exact ⟨whole + 1, .unary isUnary chain⟩
  | binary isOperand isFirst _ ih =>
      obtain ⟨whole, chain⟩ := ih
      refine ⟨whole + 1, ?_⟩
      rw [List.append_assoc]
      exact .binary isOperand isFirst chain

/-! ## Resolving a derivation -/

/-- What a derivation becomes: its operators form chains, all else keeps its place. -/
def Phrase.Resolved (dialect : Dialect) : Phrase → List Kind → Prop
  | .expression _, word | .operations _, word => ∃ length, Chain dialect length word
  | phrase, word => ∃ depth, Derives dialect.resolve phrase depth word

theorem Phrase.Resolved.expression
    {least : Nat}
    {word : List Kind}
    (resolved : (Phrase.expression least).Resolved dialect word) :
    ∃ depth, Derives dialect.resolve (.expression loosest) depth word := by
  obtain ⟨_, chain⟩ := resolved
  obtain ⟨depth, derives⟩ := chain.resolves
  exact ⟨depth + 1, .expression derives⟩

theorem Derives.resolved
    {phrase : Phrase}
    {depth : Nat}
    {word : List Kind}
    (derives : Derives dialect phrase depth word) :
    phrase.Resolved dialect word := by
  have isOperand {word : List Kind} (operand : ∀ least, Resolves dialect least word) :
      ∃ length, Chain dialect length word := ⟨0, .operand operand⟩
  induction derives with
  | block _ ihInside =>
      obtain ⟨_, inside⟩ := ihInside
      exact ⟨_, .block inside⟩
  | nothing fresh => exact ⟨_, .nothing fresh⟩
  | semicolon _ ihOthers =>
      obtain ⟨_, others⟩ := ihOthers
      exact ⟨_, .semicolon others⟩
  | next _ _ apart ihStatement ihOthers =>
      obtain ⟨_, statement⟩ := ihStatement
      obtain ⟨_, others⟩ := ihOthers
      exact ⟨_, .next statement others apart⟩
  | last _ ihLeave =>
      obtain ⟨_, leave⟩ := ihLeave
      exact ⟨_, .last leave⟩
  | early loose _ _ ihLeave ihOthers =>
      obtain ⟨_, leave⟩ := ihLeave
      obtain ⟨_, others⟩ := ihOthers
      exact ⟨_, .early loose leave others⟩
  | leaveNothing stops => exact ⟨_, .leaveNothing stops⟩
  | leaveValues _ stops ihValued =>
      obtain ⟨_, valued⟩ := ihValued
      exact ⟨_, .leaveValues valued stops⟩
  | label => exact ⟨_, .label⟩
  | leaveLoop => exact ⟨_, .leaveLoop⟩
  | jump => exact ⟨_, .jump⟩
  | doBlock _ ihInside =>
      obtain ⟨_, inside⟩ := ihInside
      exact ⟨_, .doBlock inside⟩
  | whileLoop _ _ ihCondition ihInside =>
      obtain ⟨_, condition⟩ := ihCondition.expression
      obtain ⟨_, inside⟩ := ihInside
      exact ⟨_, .whileLoop condition inside⟩
  | repeatLoop _ _ ihInside ihCondition =>
      obtain ⟨_, inside⟩ := ihInside
      obtain ⟨_, condition⟩ := ihCondition.expression
      exact ⟨_, .repeatLoop inside condition⟩
  | conditional _ _ _ ihCondition ihInside ihClauses =>
      obtain ⟨_, condition⟩ := ihCondition.expression
      obtain ⟨_, inside⟩ := ihInside
      obtain ⟨_, clauses⟩ := ihClauses
      exact ⟨_, .conditional condition inside clauses⟩
  | numericLoop binds _ _ ihLimits ihInside =>
      obtain ⟨_, limits⟩ := ihLimits
      obtain ⟨_, inside⟩ := ihInside
      exact ⟨_, .numericLoop binds limits inside⟩
  | genericLoop others _ _ ihValued ihInside =>
      obtain ⟨_, valued⟩ := ihValued
      obtain ⟨_, inside⟩ := ihInside
      exact ⟨_, .genericLoop others valued inside⟩
  | function named _ ihInside =>
      obtain ⟨_, inside⟩ := ihInside
      exact ⟨_, .function named inside⟩
  | localFunction _ ihInside =>
      obtain ⟨_, inside⟩ := ihInside
      exact ⟨_, .localFunction inside⟩
  | localNames first others => exact ⟨_, .localNames first others⟩
  | localValues first others _ ihValued =>
      obtain ⟨_, valued⟩ := ihValued
      exact ⟨_, .localValues first others valued⟩
  | assignment _ _ ihTargets ihValued =>
      obtain ⟨_, assigned⟩ := ihTargets
      obtain ⟨_, valued⟩ := ihValued
      exact ⟨_, .assignment assigned valued⟩
  | callStatement _ ihCalled =>
      obtain ⟨_, called⟩ := ihCalled
      exact ⟨_, .callStatement called⟩
  | closed => exact ⟨_, .closed⟩
  | otherwise _ ihInside =>
      obtain ⟨_, inside⟩ := ihInside
      exact ⟨_, .otherwise inside⟩
  | elseIf _ _ _ ihCondition ihInside ihClauses =>
      obtain ⟨_, condition⟩ := ihCondition.expression
      obtain ⟨_, inside⟩ := ihInside
      obtain ⟨_, clauses⟩ := ihClauses
      exact ⟨_, .elseIf condition inside clauses⟩
  | bounds _ _ ihFirst ihSecond =>
      obtain ⟨_, first⟩ := ihFirst.expression
      obtain ⟨_, second⟩ := ihSecond.expression
      exact ⟨_, .bounds first second⟩
  | stepped _ _ _ ihFirst ihSecond ihThird =>
      obtain ⟨_, first⟩ := ihFirst.expression
      obtain ⟨_, second⟩ := ihSecond.expression
      obtain ⟨_, third⟩ := ihThird.expression
      exact ⟨_, .stepped first second third⟩
  | targets assignable _ _ ihTarget ihTail =>
      obtain ⟨_, target⟩ := ihTarget
      obtain ⟨_, tail⟩ := ihTail
      exact ⟨_, .targets assignable target tail⟩
  | noTarget => exact ⟨_, .noTarget⟩
  | moreTargets assignable _ _ ihTarget ihTail =>
      obtain ⟨_, target⟩ := ihTarget
      obtain ⟨_, tail⟩ := ihTail
      exact ⟨_, .moreTargets assignable target tail⟩
  | functionBody parameters _ ihInside =>
      obtain ⟨_, inside⟩ := ihInside
      exact ⟨_, .functionBody parameters inside⟩
  | expressions _ _ ihValue ihTail =>
      obtain ⟨_, value⟩ := ihValue.expression
      obtain ⟨_, tail⟩ := ihTail
      exact ⟨_, .expressions value tail⟩
  | noExpression => exact ⟨_, .noExpression⟩
  | moreExpressions _ _ ihValue ihTail =>
      obtain ⟨_, value⟩ := ihValue.expression
      obtain ⟨_, tail⟩ := ihTail
      exact ⟨_, .moreExpressions value tail⟩
  | expression _ ihInside => exact ihInside
  | constant found => exact isOperand fun _ => ⟨_, .constant found⟩
  | tableValue _ ihTable =>
      obtain ⟨_, constructed⟩ := ihTable
      exact isOperand fun _ => ⟨_, .tableValue constructed⟩
  | functionValue _ ihInside =>
      obtain ⟨_, inside⟩ := ihInside
      exact isOperand fun _ => ⟨_, .functionValue inside⟩
  | referenceValue _ ihReference =>
      obtain ⟨_, referred⟩ := ihReference
      exact isOperand fun _ => ⟨_, .referenceValue referred⟩
  | unary isSign _ _ ihOperand =>
      obtain ⟨length, chain⟩ := ihOperand
      exact ⟨length + 1, .unary isSign chain⟩
  | binary isSign _ _ _ ihLeft ihRight =>
      obtain ⟨_, left⟩ := ihLeft
      obtain ⟨_, right⟩ := ihRight
      exact left.append isSign right
  | name => exact ⟨_, .name⟩
  | group _ ihInside =>
      obtain ⟨_, inside⟩ := ihInside.expression
      exact ⟨_, .group inside⟩
  | member _ ihOwner =>
      obtain ⟨_, owner⟩ := ihOwner
      exact ⟨_, .member owner⟩
  | index _ _ ihOwner ihInside =>
      obtain ⟨_, owner⟩ := ihOwner
      obtain ⟨_, inside⟩ := ihInside.expression
      exact ⟨_, .index owner inside⟩
  | call _ _ ihCallee ihGiven =>
      obtain ⟨_, callee⟩ := ihCallee
      obtain ⟨_, given⟩ := ihGiven
      exact ⟨_, .call callee given⟩
  | methodCall _ _ ihOwner ihGiven =>
      obtain ⟨_, owner⟩ := ihOwner
      obtain ⟨_, given⟩ := ihGiven
      exact ⟨_, .methodCall owner given⟩
  | noArguments => exact ⟨_, .noArguments⟩
  | listed _ ihValued =>
      obtain ⟨_, valued⟩ := ihValued
      exact ⟨_, .listed valued⟩
  | text => exact ⟨_, .text⟩
  | record _ ihTable =>
      obtain ⟨_, constructed⟩ := ihTable
      exact ⟨_, .record constructed⟩
  | table _ ihContent =>
      obtain ⟨_, content⟩ := ihContent
      exact ⟨_, .table content⟩
  | noField => exact ⟨_, .noField⟩
  | lastField _ ihFirst =>
      obtain ⟨_, first⟩ := ihFirst
      exact ⟨_, .lastField first⟩
  | moreFields _ separates _ ihContent ihTail =>
      obtain ⟨_, content⟩ := ihContent
      obtain ⟨_, tail⟩ := ihTail
      exact ⟨_, .moreFields content separates tail⟩
  | keyed _ _ ihKey ihValue =>
      obtain ⟨_, key⟩ := ihKey.expression
      obtain ⟨_, value⟩ := ihValue.expression
      exact ⟨_, .keyed key value⟩
  | named _ ihValue =>
      obtain ⟨_, value⟩ := ihValue.expression
      exact ⟨_, .named value⟩
  | positional _ ihValue =>
      obtain ⟨_, value⟩ := ihValue.expression
      exact ⟨_, .positional value⟩

/-- Every chunk has a derivation with its operators grouped by their precedence. -/
theorem Derives.exists_resolved
    {depth : Nat}
    {word : List Kind}
    (derives : Derives dialect .block depth word) :
    ∃ depth, Derives dialect.resolve .block depth word :=
  derives.resolved

end LuaFold.Grammar
