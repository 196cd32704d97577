import LuaFold.Grammar.Expression
import LuaFold.Proofs.Tree.Shape
import Mathlib.Computability.Language
import Mathlib.Order.CompletePartialOrder

/-!
# Forms of nodes

The children of a node follow a form: a regular language over slots, which says what tokens and
nodes stand directly in a node of a kind, and in which order.  The forms hold for every text.
What a fault leaves out is optional in them, and only error nodes hold arbitrary tokens, apart
from the token that a loop over numbers takes for its name.

A formed shape has children of the right form in every node.  Expressions, statements and error
nodes then hold a token.
-/

namespace LuaFold

open scoped Computability

/-- What may stand in a node, as a language over slots. -/
abbrev Form := Language Slot

namespace Form

/-- One token whose kind passes a test. -/
def someToken (test : Kind → Prop) : Form :=
  (fun kind => [Slot.token kind]) '' {kind | test kind}

/-- One node whose kind passes a test. -/
def someNode (test : Kind → Prop) : Form :=
  (fun kind => [Slot.node kind]) '' {kind | test kind}

def token (kind : Kind) : Form :=
  someToken (· = kind)

def node (kind : Kind) : Form :=
  someNode (· = kind)

def optional (form : Form) : Form :=
  1 + form

def anyToken : Form :=
  someToken (· ≠ .eof)

end Form

namespace Kind

def isExpression : Kind → Bool
  | .literal | .varargExpr | .functionExpr | .nameRef | .parenExpr | .fieldExpr | .indexExpr
  | .callExpr | .methodCallExpr | .tableExpr | .binaryExpr | .prefixExpr => true
  | _ => false

def isStatement : Kind → Bool
  | .emptyStmt | .assignStmt | .callStmt | .labelStmt | .breakStmt | .gotoStmt | .doStmt
  | .whileStmt | .repeatStmt | .ifStmt | .numericForStmt | .genericForStmt | .functionStmt
  | .localFunctionStmt | .localStmt | .returnStmt => true
  | _ => false

end Kind

namespace Form

def expression : Form :=
  someNode fun kind => kind.isExpression

/-- What the attempt to read an expression leaves: an expression, an error node or nothing. -/
def attempt : Form :=
  optional (someNode fun kind => kind.isExpression ∨ kind = .error)

/-- One statement, or an error node in its place. -/
def statement : Form :=
  someNode fun kind => kind.isStatement ∨ kind = .error

end Form

open Form in
/-- The form that the children of a node follow. -/
def Kind.form : Kind → Form
  | .chunk => node .block * token .eof
  | .block => statement∗
  | .emptyStmt => token .semicolon
  | .assignStmt => node .varList * (optional (token .eq) * node .exprList)
  | .callStmt => node .callExpr + node .methodCallExpr
  | .labelStmt =>
      token .doubleColon * optional (token .name) * optional (token .doubleColon)
  | .breakStmt => token .breakKw
  | .gotoStmt => token .gotoKw * optional (token .name)
  | .doStmt => token .doKw * node .block * optional (token .endKw)
  | .whileStmt =>
      token .whileKw * attempt * optional (token .doKw) * node .block
        * optional (token .endKw)
  | .repeatStmt => token .repeatKw * node .block * optional (token .untilKw) * attempt
  | .ifStmt =>
      token .ifKw * attempt * optional (token .thenKw) * node .block
        * (node .elseIfClause)∗ * optional (node .elseClause) * optional (token .endKw)
  | .elseIfClause => token .elseifKw * attempt * optional (token .thenKw) * node .block
  | .elseClause => token .elseKw * node .block
  | .numericForStmt =>
      token .forKw
        * (anyToken * token .eq * attempt * optional (token .comma) * attempt
          * optional (token .comma * attempt))
        * optional (token .doKw) * node .block * optional (token .endKw)
  | .genericForStmt =>
      token .forKw * (node .nameList * optional (token .inKw) * node .exprList)
        * optional (token .doKw) * node .block * optional (token .endKw)
  | .functionStmt => token .functionKw * optional (node .funcName) * node .funcBody
  | .localFunctionStmt =>
      token .localKw * token .functionKw * optional (token .name) * node .funcBody
  | .localStmt =>
      token .localKw * node .localName * (token .comma * node .localName)∗
        * optional (token .eq * node .exprList)
  | .returnStmt =>
      token .returnKw * optional (node .exprList) * optional (token .semicolon)
  | .funcName =>
      token .name * (token .dot * optional (token .name))∗
        * optional (token .colon * optional (token .name))
  | .funcBody => optional (node .paramList) * node .block * optional (token .endKw)
  | .paramList =>
      token .leftParen * ((node .param * token .comma)∗ * optional (node .param))
        * optional (token .rightParen)
  | .param => token .name + token .dot3
  | .localName => optional (token .name) * optional (node .attrib)
  | .attrib => token .lt * optional (token .name) * optional (token .gt)
  | .nameList => optional (token .name) * (token .comma * optional (token .name))∗
  | .varList => expression * (token .comma * attempt)∗
  | .exprList => attempt * (token .comma * attempt)∗
  | .literal =>
      someToken fun kind =>
        kind = .number ∨ kind = .string ∨ kind = .nilKw ∨ kind = .trueKw ∨ kind = .falseKw
  | .varargExpr => token .dot3
  | .functionExpr => token .functionKw * node .funcBody
  | .nameRef => token .name
  | .parenExpr => token .leftParen * attempt * optional (token .rightParen)
  | .fieldExpr => expression * (token .dot * optional (token .name))
  | .indexExpr => expression * (token .leftBracket * attempt * optional (token .rightBracket))
  | .callExpr => expression * node .argList
  | .methodCallExpr =>
      expression * (token .colon * optional (token .name) * node .argList)
  | .argList =>
      optional (token .leftParen * optional (node .exprList) * optional (token .rightParen)
        + node .tableExpr + token .string)
  | .tableExpr =>
      token .leftBrace
        * ((node .tableField * (token .comma + token .semicolon))∗
          * optional (node .tableField))
        * optional (token .rightBrace)
  | .tableField =>
      optional (token .leftBracket * attempt * optional (token .rightBracket)
          * optional (token .eq)
        + token .name * token .eq) * attempt
  | .binaryExpr =>
      expression * (someToken (fun kind => Grammar.binaryPower? kind ≠ none) * attempt)
  | .prefixExpr =>
      someToken (fun kind =>
        kind = .notKw ∨ kind = .minus ∨ kind = .hash ∨ kind = .tilde) * attempt
  | .error => expression + anyToken * anyToken∗
  | _ => 0

/-- The children of every node in a shape follow the form of its kind. -/
inductive Shape.Formed : Shape → Prop where
  | leaf (kind : Kind) : Formed (.leaf kind)
  | node
      {kind : Kind}
      {children : List Shape}
      (all : ∀ child ∈ children, Formed child)
      (fits : children.map Shape.slot ∈ kind.form) :
      Formed (.node kind children)

namespace Form

@[simp]
theorem mem_token
    {kind : Kind}
    {slots : List Slot} :
    slots ∈ token kind ↔ slots = [.token kind] := by
  constructor
  · rintro ⟨other, rfl, rfl⟩
    rfl
  · rintro rfl
    exact ⟨kind, rfl, rfl⟩

@[simp]
theorem mem_node
    {kind : Kind}
    {slots : List Slot} :
    slots ∈ node kind ↔ slots = [.node kind] := by
  constructor
  · rintro ⟨other, rfl, rfl⟩
    rfl
  · rintro rfl
    exact ⟨kind, rfl, rfl⟩

@[simp]
theorem mem_optional
    {form : Form}
    {slots : List Slot} :
    slots ∈ optional form ↔ slots = [] ∨ slots ∈ form := by
  rw [optional, Language.mem_add, Language.mem_one]

theorem someNode_le
    {test other : Kind → Prop}
    (implies : ∀ kind, test kind → other kind) :
    someNode test ≤ someNode other := by
  rintro slots ⟨kind, passed, rfl⟩
  exact ⟨kind, implies kind passed, rfl⟩

theorem token_le_someToken
    {test : Kind → Prop}
    {kind : Kind}
    (passed : test kind) :
    token kind ≤ someToken test := by
  rintro slots member
  rw [mem_token.mp member]
  exact ⟨kind, passed, rfl⟩

theorem node_le_someNode
    {test : Kind → Prop}
    {kind : Kind}
    (passed : test kind) :
    node kind ≤ someNode test := by
  rintro slots member
  rw [mem_node.mp member]
  exact ⟨kind, passed, rfl⟩

theorem le_left (form other : Form) : form ≤ form + other :=
  fun _ member => Or.inl member

theorem le_right (form other : Form) : other ≤ form + other :=
  fun _ member => Or.inr member

theorem one_le_optional (form : Form) : 1 ≤ optional form :=
  le_left 1 form

theorem le_optional (form : Form) : form ≤ optional form :=
  le_right 1 form

theorem one_le_kstar (form : Form) : 1 ≤ form∗ := by
  rintro slots member
  rw [(Language.mem_one slots).mp member]
  exact Language.nil_mem_kstar form

/-- Something in every word of a form holds a token: it is one, or a node that is solid. -/
def Carries (solid : Kind → Prop) (form : Form) : Prop :=
  ∀ slots ∈ form, ∃ slot ∈ slots, ∀ kind, slot = .node kind → solid kind

section Carries

variable {solid : Kind → Prop}

theorem carries_someToken (test : Kind → Prop) : Carries solid (someToken test) := by
  rintro slots ⟨kind, _, rfl⟩
  exact ⟨.token kind, by simp, by simp⟩

theorem carries_token (kind : Kind) : Carries solid (token kind) :=
  carries_someToken _

theorem carries_someNode
    {test : Kind → Prop}
    (passed : ∀ kind, test kind → solid kind) :
    Carries solid (someNode test) := by
  rintro slots ⟨kind, tested, rfl⟩
  refine ⟨.node kind, by simp, ?_⟩
  rintro other same
  cases same
  exact passed kind tested

theorem carries_node {kind : Kind} (passed : solid kind) : Carries solid (node kind) :=
  carries_someNode fun _ same => same ▸ passed

theorem Carries.mul
    {form : Form}
    (carries : Carries solid form)
    (behind : Form) :
    Carries solid (form * behind) := by
  intro slots member
  obtain ⟨front, inFront, back, _, rfl⟩ := Language.mem_mul.mp member
  obtain ⟨slot, inside, solidSlot⟩ := carries front inFront
  exact ⟨slot, List.mem_append_left back inside, solidSlot⟩

theorem Carries.behind
    {form : Form}
    (carries : Carries solid form)
    (before : Form) :
    Carries solid (before * form) := by
  intro slots member
  obtain ⟨front, _, back, inBack, rfl⟩ := Language.mem_mul.mp member
  obtain ⟨slot, inside, solidSlot⟩ := carries back inBack
  exact ⟨slot, List.mem_append_right front inside, solidSlot⟩

theorem Carries.add
    {form other : Form}
    (carries : Carries solid form)
    (otherCarries : Carries solid other) :
    Carries solid (form + other) := by
  intro slots member
  rcases (Language.mem_add _ _ _).mp member with inForm | inOther
  · exact carries slots inForm
  · exact otherCarries slots inOther

end Carries

/-- Only nodes of some kinds occur in a form. -/
def Holds (solid : Kind → Prop) (form : Form) : Prop :=
  ∀ slots ∈ form, ∀ kind, Slot.node kind ∈ slots → solid kind

section Holds

variable {solid : Kind → Prop}

theorem holds_someToken (test : Kind → Prop) : Holds solid (someToken test) := by
  rintro slots ⟨kind, _, rfl⟩ other member
  simp at member

theorem holds_token (kind : Kind) : Holds solid (token kind) :=
  holds_someToken _

theorem holds_someNode
    {test : Kind → Prop}
    (passed : ∀ kind, test kind → solid kind) :
    Holds solid (someNode test) := by
  rintro slots ⟨kind, tested, rfl⟩ other member
  simp only [List.mem_singleton, Slot.node.injEq] at member
  exact member ▸ passed kind tested

theorem Holds.mul
    {form other : Form}
    (holds : Holds solid form)
    (otherHolds : Holds solid other) :
    Holds solid (form * other) := by
  intro slots member kind found
  obtain ⟨front, inFront, back, inBack, rfl⟩ := Language.mem_mul.mp member
  rcases List.mem_append.mp found with early | late
  · exact holds front inFront kind early
  · exact otherHolds back inBack kind late

theorem Holds.add
    {form other : Form}
    (holds : Holds solid form)
    (otherHolds : Holds solid other) :
    Holds solid (form + other) := by
  intro slots member kind found
  rcases (Language.mem_add _ _ _).mp member with inForm | inOther
  · exact holds slots inForm kind found
  · exact otherHolds slots inOther kind found

theorem Holds.optional
    {form : Form}
    (holds : Holds solid form) :
    Holds solid (optional form) := by
  intro slots member kind found
  rcases mem_optional.mp member with rfl | inForm
  · simp at found
  · exact holds slots inForm kind found

theorem Holds.kstar {form : Form} (holds : Holds solid form) : Holds solid form∗ := by
  intro slots member kind found
  obtain ⟨parts, rfl, all⟩ := Language.mem_kstar.mp member
  obtain ⟨part, inParts, inPart⟩ := List.mem_flatten.mp found
  exact holds part (all part inParts) kind inPart

end Holds

end Form

namespace Kind

/-- Whether every formed node of this kind holds a token. -/
def isSolid (kind : Kind) : Bool :=
  kind.isExpression || kind.isStatement || kind = .varList || kind = .elseIfClause
    || kind = .error

open Form in
/-- Nodes of solid kinds hold a token or a node of a solid kind. -/
theorem carries_form
    {kind : Kind}
    (solid : kind.isSolid = true) :
    Carries (fun kind => kind.isSolid = true) kind.form := by
  have expression : Carries (fun kind => kind.isSolid = true) Form.expression :=
    carries_someNode fun kind isExpression => by simp [isSolid, isExpression]
  have one : ∀ inner : Kind, inner.isSolid = true →
      Carries (fun kind => kind.isSolid = true) (Form.node inner) :=
    fun inner passed => carries_node passed
  cases kind
  all_goals first
    | exact absurd solid (by decide)
    | skip
  case assignStmt => exact (one .varList rfl).mul _
  case callStmt => exact (one .callExpr rfl).add (one .methodCallExpr rfl)
  case error => exact expression.add ((carries_someToken _).mul _)
  case varList | fieldExpr | indexExpr | callExpr | methodCallExpr | binaryExpr =>
    exact expression.mul _
  all_goals
    unfold form
    repeat' first
      | exact carries_someToken _
      | refine Carries.mul ?_ _

end Kind

namespace Shape.Formed

/-- A formed node of a solid kind holds a token. -/
theorem leaves_ne_nil
    {shape : Shape}
    (formed : shape.Formed)
    (solid : ∀ kind, shape.slot = .node kind → kind.isSolid = true) :
    shape.leaves ≠ [] := by
  induction formed with
  | leaf kind => simp
  | @node kind children all fits ih =>
      obtain ⟨slot, inside, solidSlot⟩ := Kind.carries_form (solid kind rfl) _ fits
      obtain ⟨child, member, rfl⟩ := List.mem_map.mp inside
      rw [leaves_node]
      intro empty
      exact ih child member solidSlot (List.flatMap_eq_nil_iff.mp empty child member)

theorem children
    {kind : Kind}
    {children : List Shape}
    (formed : (Shape.node kind children).Formed) :
    ∀ child ∈ children, child.Formed := by
  cases formed with
  | node all fits => exact all

theorem fits
    {kind : Kind}
    {children : List Shape}
    (formed : (Shape.node kind children).Formed) :
    children.map Shape.slot ∈ kind.form := by
  cases formed with
  | node all fits => exact fits

end Shape.Formed

end LuaFold
