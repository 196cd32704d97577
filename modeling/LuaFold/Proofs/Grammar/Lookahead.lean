import LuaFold.Grammar.Statement
import LuaFold.Proofs.Grammar.Derivation

/-!
# What stands at the front of a word and behind it

A parse looks at one or two tokens.  These are enough because of what the words of a phrase
begin with, and because of what can stand behind them: behind a suffixed expression no further
suffix, behind an expression no operator that binds tighter than a limit, behind a statement no
parenthesis.

Precedences are turned into binding powers here, and limits on powers into limits on
precedences.
-/

namespace LuaFold.Grammar

/-! ## Binding powers -/

/-- The binding power of the operators of a precedence towards their left operand. -/
def leftPower (precedence : Nat) : Nat :=
  if precedence ≤ 7 then precedence
  else if precedence ≤ 11 then precedence + 1
  else precedence + 2

/-- The binding power of the operators of a precedence towards their right operand. -/
def rightPower (precedence : Nat) : Nat :=
  if precedence ≤ 8 then precedence else precedence + 1

theorem binaryPower?_eq (kind : Kind) :
    binaryPower? kind =
      (precedence? kind).map fun precedence => (leftPower precedence, rightPower precedence) := by
  cases kind <;> rfl

theorem precedence?_range
    {kind : Kind}
    {precedence : Nat}
    (found : precedence? kind = some precedence) :
    loosest ≤ precedence ∧ precedence ≤ 12 ∧ precedence ≠ unaryPrecedence := by
  cases kind <;> cases found <;> decide

theorem leftPower_mono
    {first second : Nat}
    (le : first ≤ second) :
    leftPower first ≤ leftPower second := by
  simp only [leftPower]
  repeat' split
  all_goals omega

theorem rightPower_mono
    {first second : Nat}
    (le : first ≤ second) :
    rightPower first ≤ rightPower second := by
  simp only [rightPower]
  repeat' split
  all_goals omega

/-- Above a limit a parse takes every operator whose precedence is high enough. -/
def Admits (limit least : Nat) : Prop :=
  ∀ precedence, least ≤ precedence → precedence ≠ unaryPrecedence → limit < leftPower precedence

theorem Admits.mono
    {limit least greater : Nat}
    (admits : Admits limit least)
    (le : least ≤ greater) :
    Admits limit greater :=
  fun precedence above => admits precedence (Nat.le_trans le above)

theorem admits_loosest : Admits 0 loosest := by
  intro precedence above _
  have positive : leftPower loosest ≤ leftPower precedence := leftPower_mono above
  exact positive

theorem admits_unary
    {inner : Nat}
    (above : unaryPrecedence ≤ inner) :
    Admits unaryPower inner := by
  intro precedence high other
  have further : 12 ≤ precedence := by
    simp only [unaryPrecedence] at above other
    omega
  have tight : leftPower 12 ≤ leftPower precedence := leftPower_mono further
  exact Nat.lt_of_lt_of_le (by decide) tight

theorem admits_right
    {precedence inner : Nat}
    (above : rightLeast precedence ≤ inner) :
    Admits (rightPower precedence) inner := by
  intro other high notUnary
  simp only [rightLeast, groupsRight, unaryPrecedence, Bool.or_eq_true, decide_eq_true_eq]
    at above notUnary
  simp only [leftPower, rightPower]
  split at above <;> grind

/-- A parse tells calls from other references by the kinds of their nodes. -/
def Role.Matches (role : Role) (kind : Kind) : Prop :=
  (kind = .callExpr ∨ kind = .methodCallExpr) ↔ role = .call

/-! ## What may stand behind an expression -/

/-- The kinds that begin a suffix of an expression. -/
def beginsSuffix : Kind → Bool
  | .dot | .leftBracket | .colon | .leftParen | .string | .leftBrace => true
  | _ => false

/-- What stands behind an expression whose operators were taken above a limit. -/
def EndsExpression (limit : Nat) (kind : Kind) : Prop :=
  beginsSuffix kind = false ∧
    ∀ precedence, precedence? kind = some precedence → leftPower precedence ≤ limit

instance (limit : Nat) (kind : Kind) : Decidable (EndsExpression limit kind) :=
  inferInstanceAs (Decidable (_ ∧ ∀ precedence ∈ precedence? kind, _))

/-- What may stand behind operations above a precedence: no operator that belongs to them. -/
def Yields (least : Nat) (kind : Kind) : Prop :=
  EndsExpression (rightPower least) kind

theorem EndsExpression.mono
    {limit greater : Nat}
    {kind : Kind}
    (ends : EndsExpression limit kind)
    (le : limit ≤ greater) :
    EndsExpression greater kind :=
  ⟨ends.1, fun precedence found => Nat.le_trans (ends.2 precedence found) le⟩

theorem EndsExpression.yields
    {limit least : Nat}
    {kind : Kind}
    (ends : EndsExpression limit kind)
    (admits : Admits limit least) :
    Yields least kind := by
  refine ⟨ends.1, fun precedence found => ?_⟩
  have below := ends.2 precedence found
  have notUnary := (precedence?_range found).2.2
  by_cases unary : least = unaryPrecedence
  · have tight := admits 12 (by rw [unary]; decide) (by decide)
    simp only [leftPower, rightPower, unaryPrecedence] at *
    grind
  · have tight := admits least (Nat.le_refl least) unary
    simp only [leftPower, rightPower] at *
    grind

/-- An operator may stand behind its left operand. -/
theorem yields_sign
    {sign : Kind}
    {precedence least : Nat}
    (found : precedence? sign = some precedence)
    (le : leftLeast precedence ≤ least) :
    Yields least sign := by
  refine ⟨?_, fun other same => ?_⟩
  · cases sign <;> first | rfl | cases found
  · have range := precedence?_range found
    cases found.symm.trans same
    simp only [leftLeast, groupsRight, Bool.or_eq_true, decide_eq_true_eq] at le
    simp only [leftPower, rightPower]
    grind

/-! ## What may stand behind a statement -/

/-- The end of the text and the kinds that close a nested block. -/
def closesBlock (kind : Kind) : Bool :=
  kind = .eof || blockEnd.contains kind

/-- The kinds that begin a statement, the empty one apart. -/
def beginsStatement : Kind → Bool
  | .doubleColon | .breakKw | .gotoKw | .doKw | .whileKw | .repeatKw | .ifKw | .forKw
  | .functionKw | .localKw | .returnKw | .name | .leftParen => true
  | _ => false

/-- The kinds that may stand behind a statement. -/
def endsStatement (kind : Kind) : Bool :=
  closesBlock kind || kind = .semicolon || beginsStatement kind && kind ≠ .leftParen

theorem EndsExpression.of_endsStatement
    {kind : Kind}
    (ends : endsStatement kind = true) :
    EndsExpression 0 kind := by
  cases kind <;> first | decide | cases ends

theorem not_closesBlock_of_beginsStatement
    {kind : Kind}
    (begins : beginsStatement kind = true) :
    closesBlock kind = false := by
  cases kind <;> first | rfl | cases begins

/-! ## What a word begins with -/

/-- The kinds that begin an expression. -/
def beginsExpression : Kind → Bool
  | .leftBrace | .functionKw | .name | .leftParen => true
  | kind => isConstant kind || isUnary kind

/-- A word begins with a kind that passes a test, and does not begin like a named field. -/
def Begins (test : Kind → Bool) (word : List Kind) : Prop :=
  ∃ kind others, word = kind :: others ∧ test kind = true ∧
    (kind = .name → others.head? ≠ some .eq)

theorem Begins.append
    {test : Kind → Bool}
    {word : List Kind}
    (begins : Begins test word)
    {behind : List Kind}
    (apart : behind.head? ≠ some .eq) :
    Begins test (word ++ behind) := by
  obtain ⟨kind, others, rfl, passed, unassigned⟩ := begins
  refine ⟨kind, others ++ behind, rfl, passed, fun named => ?_⟩
  cases others with
  | nil => exact apart
  | cons other others => exact unassigned named

theorem Begins.mono
    {test other : Kind → Bool}
    {word : List Kind}
    (begins : Begins test word)
    (implies : ∀ kind, test kind = true → other kind = true) :
    Begins other word := by
  obtain ⟨kind, others, same, passed, unassigned⟩ := begins
  exact ⟨kind, others, same, implies kind passed, unassigned⟩

/-- The kinds that begin a name with suffixes, or a group with suffixes. -/
def beginsReference : Kind → Bool
  | .name | .leftParen => true
  | _ => false

theorem beginsStatement_of_beginsReference
    {kind : Kind}
    (begins : beginsReference kind = true) :
    beginsStatement kind = true := by
  cases kind <;> first | rfl | cases begins

/-- What the words of a phrase begin with. -/
def Phrase.Front (dialect : Dialect) : Phrase → List Kind → Prop
  | .statements fresh, word =>
      ∀ kind ∈ word.head?, (kind = .semicolon ∨ beginsStatement kind = true) ∧
        (dialect.careful = true → fresh = false → kind ≠ .leftParen)
  | .statement, word => ∃ kind others, word = kind :: others ∧ beginsStatement kind = true
  | .leave, word => ∃ others, word = .returnKw :: others
  | .clauses, word => ∃ kind others, word = kind :: others ∧ blockEnd.contains kind = true
  | .targets, word | .reference _, word => Begins beginsReference word
  | .expressions, word | .expression _, word | .operations _, word =>
      Begins beginsExpression word
  | .targetTail, word | .expressionTail, word => ∀ kind ∈ word.head?, kind = .comma
  | .arguments, word => ∃ kind others, word = kind :: others ∧
      (kind = .leftParen ∨ kind = .string ∨ kind = .leftBrace)
  | .table, word => ∃ others, word = .leftBrace :: others
  | .field, word => ∃ kind others, word = kind :: others ∧
      (kind = .leftBracket ∨ beginsExpression kind = true)
  | .functionBody, word => ∃ others, word = .leftParen :: others
  | _, _ => True

theorem Derives.front
    {dialect : Dialect}
    {phrase : Phrase}
    {depth : Nat}
    {word : List Kind}
    (derives : Derives dialect phrase depth word) :
    phrase.Front dialect word := by
  induction derives with
  | block | bounds | stepped | noField => trivial
  | nothing => simp [Phrase.Front]
  | semicolon => simp [Phrase.Front]
  | next _ _ apart ihStatement _ =>
      obtain ⟨kind, others, rfl, begins⟩ := ihStatement
      rintro _ ⟨⟩
      refine ⟨Or.inr begins, fun careful stale opened => ?_⟩
      exact apart careful stale (by simp [opened])
  | last _ ihLeave =>
      obtain ⟨others, rfl⟩ := ihLeave
      rintro _ ⟨⟩
      exact ⟨Or.inr rfl, by simp⟩
  | early _ _ _ ihLeave _ =>
      obtain ⟨others, rfl⟩ := ihLeave
      rintro _ ⟨⟩
      exact ⟨Or.inr rfl, by simp⟩
  | leaveNothing | leaveValues => exact ⟨_, rfl⟩
  | label | leaveLoop | jump | doBlock | whileLoop | repeatLoop | conditional | numericLoop
  | genericLoop | function | localFunction | localNames | localValues => exact ⟨_, _, rfl, rfl⟩
  | assignment _ _ ihTargets _ =>
      obtain ⟨kind, others, rfl, begins, _⟩ := ihTargets
      exact ⟨kind, _, rfl, beginsStatement_of_beginsReference begins⟩
  | callStatement _ ihCalled =>
      obtain ⟨kind, others, rfl, begins, _⟩ := ihCalled
      exact ⟨kind, _, rfl, beginsStatement_of_beginsReference begins⟩
  | closed | otherwise | elseIf => exact ⟨_, _, rfl, by decide⟩
  | targets _ _ _ ihTarget ihTail =>
      exact Begins.append ihTarget fun isEq => by cases ihTail _ isEq
  | noTarget | moreTargets | noExpression | moreExpressions => simp [Phrase.Front]
  | functionBody | table => exact ⟨_, rfl⟩
  | expressions _ _ ihValue ihTail =>
      exact Begins.append ihValue fun isEq => by cases ihTail _ isEq
  | expression _ ihInside => exact ihInside
  | constant isConstant =>
      refine ⟨_, [], rfl, ?_, by simp⟩
      unfold beginsExpression
      split <;> simp [isConstant]
  | tableValue _ ihTable =>
      obtain ⟨others, rfl⟩ := ihTable
      exact ⟨_, _, rfl, rfl, by simp⟩
  | functionValue => exact ⟨_, _, rfl, rfl, by simp⟩
  | referenceValue _ ihReference =>
      refine Begins.mono ihReference fun kind begins => ?_
      cases kind <;> first | rfl | cases begins
  | unary isSign _ _ _ =>
      refine ⟨_, _, rfl, ?_, ?_⟩
      · unfold beginsExpression
        split <;> simp [isSign]
      · rintro rfl
        cases isSign
  | binary isSign _ _ _ ihLeft _ =>
      refine Begins.append ihLeft ?_
      rintro ⟨⟩
      cases isSign
  | name => exact ⟨_, [], rfl, rfl, by simp⟩
  | group => exact ⟨_, _, rfl, rfl, by simp⟩
  | member _ ihOwner | index _ _ ihOwner _ | methodCall _ _ ihOwner _ =>
      exact Begins.append ihOwner (by simp)
  | call _ _ ihCallee ihGiven =>
      obtain ⟨kind, others, rfl, begins⟩ := ihGiven
      refine Begins.append ihCallee ?_
      rcases begins with rfl | rfl | rfl <;> simp
  | noArguments | listed | text => exact ⟨_, _, rfl, by simp⟩
  | record _ ihTable =>
      obtain ⟨others, rfl⟩ := ihTable
      exact ⟨_, _, rfl, by simp⟩
  | lastField | moreFields => trivial
  | keyed => exact ⟨_, _, rfl, Or.inl rfl⟩
  | named => exact ⟨_, _, rfl, Or.inr rfl⟩
  | positional _ ihValue =>
      obtain ⟨kind, others, rfl, begins, _⟩ := ihValue
      exact ⟨kind, others, rfl, Or.inr begins⟩

end LuaFold.Grammar
