import LuaFold.Proofs.Grammar.Account
import LuaFold.Proofs.Grammar.Round

/-!
# Accounts of expressions

An expression with a limit leaves a node whose operator binds above the limit, and ends in front
of a token that binds within it; where it fails, it leaves an error node or a fault.  While the
operators of an expression are read, the token ahead is always one that the last of them has
left to the operators around it, so the next operation takes the whole of what stands there.
-/

namespace LuaFold

namespace Shape

/-- Something that has no operator outside of its parts. -/
structure IsWhole (shape : Shape) : Prop where
  operator?_eq : shape.operator? = none
  reach?_eq : shape.reach? = none

theorem IsWhole.node
    {kind : Kind}
    (notBinary : kind ≠ .binaryExpr)
    (notPrefix : kind ≠ .prefixExpr)
    (children : List Shape) :
    (Shape.node kind children).IsWhole := by
  constructor
  · unfold operator?
    split
    · next same =>
      cases same
      exact absurd rfl notBinary
    · rfl
  · unfold reach?
    split
    · next same =>
      cases same
      exact absurd rfl notBinary
    · next same =>
      cases same
      exact absurd rfl notPrefix
    · rfl

theorem IsWhole.free
    {kind : Kind}
    (free : kind.isFree = true)
    (children : List Shape) :
    (Shape.node kind children).IsWhole := by
  refine .node ?_ ?_ children <;> rintro rfl <;> cases free

theorem IsWhole.bindsAbove
    {shape : Shape}
    (whole : shape.IsWhole)
    (limit : Nat) :
    shape.BindsAbove limit := by
  intro sign found
  rw [whole.operator?_eq] at found
  cases found

theorem bindsAbove_of_slot_error
    {shape : Shape}
    (failed : shape.slot = .node .error)
    (limit : Nat) :
    shape.BindsAbove limit := by
  obtain ⟨children, rfl⟩ := slot_eq_node.mp failed
  exact (IsWhole.node (by decide) (by decide) children).bindsAbove limit

/-- An operand in front of a token: operations above a limit may go on behind it. -/
structure Ready (limit : Nat) (next : Kind) (shape : Shape) : Prop where
  above : shape.BindsAbove limit
  released : ∀ reach ∈ shape.reach?, next.BindsWithin reach

theorem IsWhole.ready
    {shape : Shape}
    (whole : shape.IsWhole)
    (limit : Nat)
    (next : Kind) :
    shape.Ready limit next := by
  refine ⟨whole.bindsAbove limit, fun reach found => ?_⟩
  rw [whole.reach?_eq] at found
  cases found

end Shape

namespace Grammar

open State Terms

/-- What the attempt at an expression above a limit leaves in front of a token. -/
def Terms.tried (limit : Nat) (next : Kind) : Terms :=
  fun shapes surplus =>
    (∃ shape, shapes = [shape] ∧ (shape.slot ≠ .node .error →
      shape.BindsAbove limit ∧ next.BindsWithin limit)) ∨
    shapes = [] ∧ 0 < surplus

theorem Terms.tried_of_missed
    {shapes : List Shape}
    {surplus : Nat}
    (limit : Nat)
    (next : Kind)
    (failed : missed shapes surplus) :
    tried limit next shapes surplus := by
  rcases failed with ⟨children, rfl⟩ | nothing
  · exact Or.inl ⟨_, rfl, fun notError => absurd rfl notError⟩
  · exact Or.inr nothing

theorem Terms.tried.bindsAbove
    {limit surplus : Nat}
    {next : Kind}
    {shapes : List Shape}
    (read : tried limit next shapes surplus) :
    ∀ operand ∈ shapes, operand.BindsAbove limit := by
  intro operand member
  rcases read with ⟨shape, rfl, bounds⟩ | ⟨rfl, _⟩
  · rw [List.mem_singleton.mp member]
    by_cases failed : shape.slot = .node .error
    · exact Shape.bindsAbove_of_slot_error failed limit
    · exact (bounds failed).1
  · cases member

theorem Terms.tried.length_pos
    {limit surplus : Nat}
    {next : Kind}
    {shapes : List Shape}
    (read : tried limit next shapes surplus) :
    0 < shapes.length + surplus := by
  rcases read with ⟨shape, rfl, _⟩ | ⟨rfl, left⟩
  · exact Nat.add_pos_left Nat.one_pos surplus
  · simpa using left

/-- In front of a token that binds within its limit an operator reaches no further. -/
theorem Terms.tried.released
    {limit surplus : Nat}
    {next : Kind}
    {shapes : List Shape}
    (read : tried limit next shapes surplus) :
    ∀ reach ∈ Shape.limit? limit shapes, next.BindsWithin reach := by
  intro reach found
  rcases read with ⟨shape, rfl, bounds⟩ | ⟨rfl, _⟩
  · simp only [Shape.limit?] at found
    split at found
    · cases found
    · next notError =>
      cases found
      exact (bounds notError).2
  · cases found

/-- The rules of a nesting level settle their accounts. -/
structure Settled (deeper : Deeper) : Prop where
  statements (terminators : KindSet) (state : State) :
    Solvent state (deeper.statements terminators state)
  expression (limit : Nat) (state : State) :
    Settles (tried limit (deeper.expression limit state).current) state
      (deeper.expression limit state)

variable {deeper : Deeper}

namespace Settled

theorem block
    (settled : Settled deeper)
    (terminators : KindSet)
    (state : State) :
    SettlesNode (fun shape => ∃ shapes, shape = .node .block shapes) state
      (deeper.block terminators state) :=
  SettlesNode.free (settled.statements terminators state.start) rfl

theorem nestedBlock
    (settled : Settled deeper)
    (state : State) :
    Solvent state (deeper.nestedBlock state) :=
  (settled.block blockEnd state).solvent

theorem anyExpression
    (settled : Settled deeper)
    (state : State) :
    Solvent state (deeper.anyExpression state) :=
  (settled.expression 0 state).solvent

theorem expressionList
    (settled : Settled deeper)
    (state : State) :
    Solvent state (deeper.expressionList state) := by
  have listed := (settled.anyExpression state.start).trans
    (.separated .comma settled.anyExpression _)
  exact (SettlesNode.free listed rfl).solvent

end Settled

/-! ## Functions -/

theorem solvent_parameter (state : State) : Solvent state (parameter state).reached := by
  have named : Solvent state (state.start.advance.complete .param) :=
    (SettlesNode.free (Settles.advance state.start) rfl).solvent
  simp only [parameter]
  split
  · exact .refl state
  split
  · split
    · exact named.trans (.advance _)
    · exact named
  split
  · exact named
  · exact .report state _

theorem solvent_parameters (state : State) : Solvent state (parameters state) := by
  have listed := (Settles.advance state.start).trans (Settles.loop solvent_parameter _)
  exact (SettlesNode.free (listed.trans (.expect _ .rightParen)) rfl).solvent

/-- A function body without its `end` owes one fault, which was reported in its place. -/
theorem solvent_functionBody
    (settled : Settled deeper)
    (state : State) :
    Solvent state (functionBody deeper state) := by
  have headed : Solvent state.start
      (if state.start.isAt .leftParen then parameters state.start
        else state.start.report (.expected .leftParen)) := by
    split
    · exact solvent_parameters state.start
    · exact .report state.start _
  have closed := (headed.trans (settled.nestedBlock _)).trans_offers
    (.demand _ (by decide : Kind.endKw ≠ .eof))
  exact SettlesNode.required closed rfl

/-! ## Tables, arguments and suffixes -/

theorem solvent_fieldContent
    (settled : Settled deeper)
    (state : State) :
    Solvent state (fieldContent deeper state) := by
  simp only [fieldContent]
  split
  · have key := ((Settles.advance state).trans (settled.anyExpression _)).trans
      (.expect _ .rightBracket)
    exact (key.trans (.expect _ .eq)).trans (settled.anyExpression _)
  split
  · exact ((Settles.advance state).trans (.advance _)).trans (settled.anyExpression _)
  · exact settled.anyExpression state

theorem solvent_field
    (settled : Settled deeper)
    (state : State) :
    Solvent state (field deeper state).reached := by
  have content := solvent_fieldContent settled state.start
  have completed := (SettlesNode.free content (rfl : Kind.tableField.isFree = true)).solvent
  simp only [field]
  split
  · exact .refl state
  split
  · exact content.abandon
  split
  · exact completed.trans (.advance _)
  · exact completed

/-- A node of a kind that owes nothing is whole. -/
theorem State.SettlesNode.whole
    {terms : Terms}
    {before after : State}
    {kind : Kind}
    (inside : Settles terms before.start after)
    (free : kind.isFree = true) :
    SettlesNode Shape.IsWhole before (after.complete kind) := by
  refine (SettlesNode.free inside free).mono ?_
  rintro _ ⟨shapes, rfl⟩
  exact .free free shapes

theorem settles_table
    (settled : Settled deeper)
    (state : State) :
    SettlesNode Shape.IsWhole state (table deeper state) := by
  have listed := (Settles.advance state.start).trans (Settles.loop (solvent_field settled) _)
  exact SettlesNode.whole (listed.trans (.expect _ .rightBrace)) rfl

theorem solvent_arguments
    (settled : Settled deeper)
    (state : State) :
    Solvent state (arguments deeper state) := by
  refine SettlesNode.solvent (SettlesNode.free (?_ : Solvent state.start _) rfl)
  split
  · have inside : Solvent state.start.advance
        (if state.start.advance.isAt .rightParen then state.start.advance
          else deeper.expressionList state.start.advance) := by
      split
      · exact .refl _
      · exact settled.expressionList _
    exact ((Settles.advance state.start).trans inside).trans (.expect _ .rightParen)
  split
  · exact (settles_table settled state.start).solvent
  split
  · exact .advance state.start
  · exact .report state.start _

/-- What is left by an attempt that knows whether it found something. -/
def SettlesAttempt (fits : Shape → Prop) (before : State) (found : Bool) (after : State) : Prop :=
  if found then SettlesNode fits before after else Settles missed before after

theorem SettlesAttempt.solvent
    {fits : Shape → Prop}
    {before after : State}
    {found : Bool}
    (attempt : SettlesAttempt fits before found after) :
    Solvent before after := by
  cases found with
  | true => exact SettlesNode.solvent attempt
  | false => exact Settles.solvent attempt

theorem settles_primary
    (settled : Settled deeper)
    (state : State) :
    SettlesAttempt Shape.IsWhole state (primary deeper state).1.isSome
      (primary deeper state).2 := by
  simp only [primary]
  split
  · exact SettlesNode.whole (Settles.advance state.start) rfl
  split
  · have inside := (Settles.advance state.start).trans (settled.anyExpression _)
    exact SettlesNode.whole (inside.trans (.expect _ .rightParen)) rfl
  · exact settles_recover state _ _

/-- A suffix starts a whole expression around the one before it. -/
theorem settles_suffix
    (settled : Settled deeper)
    {base : State}
    {reached : Kind × State}
    (node : SettlesNode Shape.IsWhole base reached.2) :
    SettlesNode Shape.IsWhole base (suffix deeper reached).reached.2 := by
  have around : ∀ {kind : Kind} {after : State}, kind.isFree = true →
      Solvent reached.2.precede after → SettlesNode Shape.IsWhole base (after.complete kind) := by
    intro kind after free inside
    refine (SettlesNode.freeAround node inside free).mono ?_
    rintro _ ⟨shapes, rfl⟩
    exact .free free shapes
  obtain ⟨kind, state⟩ := reached
  simp only [suffix]
  split
  · exact around rfl ((Settles.advance _).trans (.expect _ .name))
  split
  · exact around rfl (((Settles.advance _).trans (settled.anyExpression _)).trans
      (.expect _ .rightBracket))
  split
  · exact around rfl (((Settles.advance _).trans (.expect _ .name)).trans
      (solvent_arguments settled _))
  split
  · exact around rfl (solvent_arguments settled _)
  · exact node

theorem settles_suffixed
    (settled : Settled deeper)
    (state : State) :
    SettlesAttempt Shape.IsWhole state (suffixed deeper state).1.isSome
      (suffixed deeper state).2 := by
  have start := settles_primary settled state
  unfold suffixed
  generalize primary deeper state = first at start ⊢
  obtain ⟨kind?, behind⟩ := first
  cases kind? with
  | none => exact start
  | some kind =>
      exact iterate_kept (fun reached : Kind × State => SettlesNode Shape.IsWhole state reached.2)
        (fun reached node => settles_suffix settled node) behind.ahead start

/-! ## Operands and operators -/

theorem settles_simpleExpression
    (settled : Settled deeper)
    (state : State) :
    SettlesAttempt Shape.IsWhole state (simpleExpression deeper state).1
      (simpleExpression deeper state).2 := by
  have single : ∀ kind : Kind, kind.isFree = true →
      SettlesAttempt Shape.IsWhole state true (state.start.advance.complete kind) :=
    fun kind free => SettlesNode.whole (Settles.advance state.start) free
  unfold simpleExpression
  split
  · exact single .literal rfl
  · exact single .literal rfl
  · exact single .literal rfl
  · exact single .literal rfl
  · exact single .literal rfl
  · exact single .varargExpr rfl
  · exact settles_table settled state
  · exact SettlesNode.whole ((Settles.advance state.start).trans (solvent_functionBody settled _))
      rfl
  · exact settles_suffixed settled state

/-- A sign and what the attempt at its right operand leaves. -/
def Terms.signed (sign : Kind) (limit : Nat) (next : Kind) : Terms :=
  fun shapes surplus => ∃ operands, shapes = .leaf sign :: operands ∧
    tried limit next operands surplus

theorem settles_signed
    (settled : Settled deeper)
    (limit : Nat)
    (state : State)
    (notEnd : state.current ≠ .eof) :
    Settles (signed state.current limit (deeper.expression limit state.advance).current) state
      (deeper.expression limit state.advance) := by
  refine (Settles.take notEnd).join (settled.expression limit state.advance) ?_
  rintro _ surplus operands more rfl read
  refine ⟨operands, rfl, ?_⟩
  rcases read with one | ⟨rfl, left⟩
  · exact Or.inl one
  · exact Or.inr ⟨rfl, Nat.add_pos_right surplus left⟩

/-- A unary operator has the expressions behind it that bind tighter for its operand. -/
theorem settles_operand
    (settled : Settled deeper)
    (limit : Nat)
    (state : State) :
    SettlesAttempt (Shape.Ready limit (operand deeper state).2.current) state
      (operand deeper state).1 (operand deeper state).2 := by
  have unary : state.current ≠ .eof →
      SettlesNode (Shape.Ready limit (deeper.expression unaryPower state.start.advance).current)
        state ((deeper.expression unaryPower state.start.advance).complete .prefixExpr) := by
    intro notEnd
    refine (SettlesNode.complete (settles_signed settled unaryPower state.start notEnd)
      fun shapes surplus held => ?_).mono ?_
    · obtain ⟨operands, rfl, read⟩ := held
      have length := read.length_pos
      refine ⟨by decide, ⟨_, operands, rfl, read.bindsAbove⟩, ?_⟩
      simp only [Kind.charge, List.length_map, List.length_cons]
      omega
    · rintro _ ⟨_, _, ⟨operands, rfl, read⟩, rfl⟩
      refine ⟨fun _ found => ?_, read.released⟩
      cases found
  have simple : SettlesAttempt (Shape.Ready limit (simpleExpression deeper state).2.current) state
      (simpleExpression deeper state).1 (simpleExpression deeper state).2 := by
    have attempt := settles_simpleExpression settled state
    generalize simpleExpression deeper state = first at attempt ⊢
    obtain ⟨found, behind⟩ := first
    cases found with
    | false => exact attempt
    | true => exact SettlesNode.mono attempt fun shape whole => whole.ready limit _
  unfold operand
  split
  · next found => exact unary (by simp [found])
  · next found => exact unary (by simp [found])
  · next found => exact unary (by simp [found])
  · next found => exact unary (by simp [found])
  · exact simple

/-- An operation takes the operand before it whole, and leaves one that is ready again. -/
theorem settles_operation
    (settled : Settled deeper)
    {limit : Nat}
    {base state later : State}
    (node : SettlesNode (Shape.Ready limit state.current) base state)
    (found : operation deeper limit state = .next later) :
    SettlesNode (Shape.Ready limit later.current) base later := by
  simp only [operation] at found
  split at found
  · cases found
  next left right isOperator =>
  split at found
  · cases found
  next above =>
  cases found
  have notEnd : state.current ≠ .eof := by
    intro isEnd
    rw [isEnd] at isOperator
    cases isOperator
  refine (node.around (settles_signed settled right state.precede notEnd)
    fun operand shapes surplus ready held => ?_).mono ?_
  · obtain ⟨operands, rfl, read⟩ := held
    have length := read.length_pos
    refine ⟨by decide, ⟨operand, _, operands, (left, right), rfl, isOperator, ready.released,
      read.bindsAbove⟩, ?_⟩
    simp only [Kind.charge, List.length_map, List.length_cons]
    omega
  · rintro _ ⟨operand, _, _, _, ⟨operands, rfl, read⟩, rfl⟩
    have current : state.precede.current = state.current := rfl
    refine ⟨fun sign same powers isSign => ?_, ?_⟩
    · cases same
      rw [current, isOperator] at isSign
      cases isSign
      exact Nat.lt_of_not_le above
    · simp only [Shape.reach?, current, isOperator, Option.bind_some]
      exact read.released

/-- Where operations above a limit end, no operator above the limit is ahead. -/
theorem bindsWithin_of_operation_last
    {limit : Nat}
    {state later : State}
    (found : operation deeper limit state = .last later) :
    state.current.BindsWithin limit := by
  intro powers isOperator
  rw [Option.mem_def] at isOperator
  simp only [operation, isOperator] at found
  split at found
  · next within => exact within
  · cases found

theorem settles_operations
    {levels : Nat}
    (settled : Settled (level levels))
    (limit : Nat)
    (state : State) :
    Settles (tried limit (operations (level levels) limit state).current) state
      (operations (level levels) limit state) := by
  refine Settles.ofEnded fun ended => ?_
  have start := settles_operand settled limit state
  unfold operations
  generalize operand (level levels) state = first at start ⊢
  obtain ⟨found, behind⟩ := first
  cases found with
  | false => exact Settles.mono start fun shapes surplus => tried_of_missed limit _
  | true =>
      let kept (value : State) : Prop := SettlesNode (Shape.Ready limit value.current) state value
      have next : ∀ value later, kept value → operation (level levels) limit value = .next later →
          kept later := fun _ _ node found => settles_operation settled node found
      obtain ⟨final, node, found⟩ := iterate_keeps (shrinks_operation levels limit) next start
        (SettlesNode.ended start ended)
      have looped : behind.loop (operation (level levels) limit) = final := operation_last found
      simp only [↓reduceIte, looped]
      refine node.settles.mono ?_
      rintro _ surplus ⟨shape, rfl, ready⟩
      exact Or.inl ⟨shape, rfl, fun _ => ⟨ready.above, bindsWithin_of_operation_last found⟩⟩

end Grammar

end LuaFold
