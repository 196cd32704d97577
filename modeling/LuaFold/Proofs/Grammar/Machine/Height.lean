import LuaFold.Proofs.Grammar.Machine.Meaning

/-!
# Heights of rules

A rule that is called other than through a nesting level is lower than its caller, so chains of such
calls are short and none leads back to its beginning.  Going deeper is open to every rule but the
lowest ones, which call nothing.  The rounds of every loop in the code of a rule take a token, all
but the last.
-/

namespace LuaFold.Grammar.Machine

open State

/-- The height of a rule among those that call each other at one nesting level. -/
def Rule.height : Rule → Nat
  | .skip | .parameters | .nameList => 0
  | .block _ | .expression _ => 1
  | .chunk | .nestedBlock | .anyExpression => 2
  | .expressionList | .functionBody | .field | .primary | .ifStatement => 3
  | .table | .forStatement | .functionStatement | .localFunctionStatement | .localStatement
  | .returnStatement => 4
  | .arguments => 5
  | .suffixed => 6
  | .simpleExpression | .expressionStatement => 7
  | .statement | .inside (.operations _) => 8
  | .inside (.statements _) => 9

namespace Code

variable {Value Next Carried : Type} {height : Nat}

/--
Code that calls rules below a height only, and goes deeper only from above the lowest.  Every round
of its loops but the last takes a token.
-/
def Lawful (height : Nat) : {Value : Type} → Code Value → Prop
  | _, .give _ => True
  | _, .perform _ rest => rest.Lawful height
  | _, .look rest => ∀ state, (rest state).Lawful height
  | _, .call rule rest => rule.height < height ∧ ∀ result, (rest result).Lawful height
  | _, .deeper _ rest => 0 < height ∧ rest.Lawful height
  | _, .loop round _ rest =>
    (∀ levels, Shrinks Prod.snd (rounds (level levels) round)) ∧
      (∀ carried, (round carried).Lawful height) ∧ ∀ carried, (rest carried).Lawful height

theorem Lawful.andThen
    {code : Code Value}
    {next : Value → Code Next}
    (lawful : code.Lawful height)
    (behind : ∀ value, (next value).Lawful height) :
    (code >>= next).Lawful height := by
  change (code.andThen next).Lawful height
  induction code with
  | give value => exact behind value
  | perform operation rest ih => exact ih lawful behind
  | look rest ih => exact fun state => ih state (lawful state) behind
  | call rule rest ih => exact ⟨lawful.1, fun result => ih result (lawful.2 result) behind⟩
  | deeper construct rest ih => exact ⟨lawful.1, ih lawful.2 behind⟩
  | loop round start rest _ ih =>
      exact ⟨lawful.1, lawful.2.1, fun carried => ih carried (lawful.2.2 carried) behind⟩

instance (rule : Rule) : Nonempty rule.Result := by
  cases rule <;> exact inferInstance

theorem Lawful.of_andThen
    {code : Code Value}
    {next : Value → Code Next}
    (lawful : (code >>= next).Lawful height) :
    ∃ value, (next value).Lawful height := by
  change (code.andThen next).Lawful height at lawful
  induction code with
  | give value => exact ⟨value, lawful⟩
  | perform operation rest ih => exact ih lawful
  | look rest ih => exact ih (.initial []) (lawful _)
  | call rule rest ih => exact ih (Classical.choice inferInstance) (lawful.2 _)
  | deeper construct rest ih => exact ih lawful.2
  | loop round start rest _ ih => exact ih start (lawful.2.2 _)

@[simp]
theorem lawful_pure (value : Value) : (pure value : Code Value).Lawful height :=
  trivial

@[simp]
theorem lawful_get_bind (next : State → Code Next) :
    (get >>= next).Lawful height ↔ ∀ state, (next state).Lawful height :=
  Iff.rfl

@[simp]
theorem lawful_pure_bind
    (value : Value)
    (next : Value → Code Next) :
    (pure value >>= next).Lawful height ↔ (next value).Lawful height :=
  Iff.rfl

@[simp]
theorem lawful_unit_bind
    {code : Code Unit}
    (lawful : code.Lawful height)
    (next : Unit → Code Next) :
    (code >>= next).Lawful height ↔ (next ()).Lawful height :=
  ⟨fun whole => whole.of_andThen.elim fun _ behind => behind,
    fun behind => lawful.andThen fun _ => behind⟩

@[simp]
theorem lawful_operate (operation : Operation) : (operate operation).Lawful height :=
  trivial

@[simp]
theorem lawful_visit (rule : Rule) : (visit rule).Lawful height ↔ rule.height < height :=
  ⟨And.left, fun lower => ⟨lower, fun _ => trivial⟩⟩

theorem lawful_ask (rule : Rule) : (ask rule).Lawful height ↔ rule.height < height :=
  ⟨And.left, fun lower => ⟨lower, fun _ => trivial⟩⟩

theorem lawful_ask_bind
    (rule : Rule)
    (next : rule.Result → Code Next) :
    (ask rule >>= next).Lawful height ↔
      rule.height < height ∧ ∀ result, (next result).Lawful height :=
  Iff.rfl

@[simp]
theorem lawful_descend (construct : Construct) : (descend construct).Lawful height ↔ 0 < height :=
  ⟨And.left, fun positive => ⟨positive, trivial⟩⟩

@[simp]
theorem lawful_ite
    (condition : Prop)
    [Decidable condition]
    (yes no : Code Value) :
    (if condition then yes else no).Lawful height ↔
      (condition → yes.Lawful height) ∧ (¬condition → no.Lawful height) := by
  split <;> simp [*]

@[simp]
theorem lawful_expect (kind : Kind) : (expect kind).Lawful height := by
  simp [expect]

@[simp]
theorem lawful_accept (kind : Kind) : (accept kind).Lawful height := by
  simp [accept]

@[simp]
theorem lawful_reportAndAdvance (fault : SyntaxFault) :
    (reportAndAdvance fault).Lawful height := by
  simp [reportAndAdvance]

@[simp]
theorem lawful_recover
    (fault : SyntaxFault)
    (usable : KindSet) :
    (recover fault usable).Lawful height := by
  simp [recover]

theorem lawful_repeated
    {start : Carried}
    {round : Carried → Code (Turn Carried)}
    (shrinks : ∀ levels, Shrinks Prod.snd (rounds (level levels) round))
    (lawful : ∀ carried, (round carried).Lawful height) :
    (repeated start round).Lawful height :=
  ⟨shrinks, lawful, fun _ => trivial⟩

/-- Rounds that carry nothing take tokens where the plain rounds do. -/
theorem lawful_repeated_unit
    {round : Unit → Code (Turn Unit)}
    {plain : Deeper → State → Turn State}
    (same : ∀ deeper state, rounds deeper round ((), state) =
      (plain deeper state).map (Prod.mk ()))
    (shrinks : ∀ levels, Shrinks id (plain (level levels)))
    (lawful : ∀ carried, (round carried).Lawful height) :
    (repeated () round).Lawful height := by
  refine lawful_repeated (fun levels => ?_) lawful
  rintro ⟨⟨⟩, state⟩ later ended found
  rw [same] at found
  cases turn : plain (level levels) state with
  | next after =>
      rw [turn] at found
      cases found
      exact shrinks levels state after ended turn
  | last after =>
      rw [turn] at found
      cases found

theorem lawful_separated
    {separator : Kind}
    {item : Code Unit}
    {form : Form}
    {plain : Deeper → State → State}
    (notEnd : separator ≠ .eof)
    (same : ∀ deeper state, item.denote deeper state = ((), plain deeper state))
    (grows : ∀ levels state, Grows form state (plain (level levels) state))
    (lawful : item.Lawful height) :
    (separated separator item).Lawful height := by
  refine lawful_repeated_unit (fun deeper => rounds_separated deeper (same deeper))
    (fun levels => shrinks_separated notEnd (grows levels)) fun _ => ?_
  simp [separatedRound, lawful]

@[simp]
theorem lawful_separated_expect
    (separator kind : Kind)
    (notEnd : separator ≠ .eof)
    (named : kind ≠ .eof) :
    (separated separator (expect kind)).Lawful height :=
  lawful_separated notEnd (fun deeper => denote_expect deeper kind)
    (fun _ state => .expect state named) (lawful_expect kind)

end Code

open Code

variable {height : Nat}

theorem lawful_skipRounds : (repeated 0 skipRound).Lawful height := by
  refine lawful_repeated (fun levels => ?_) fun opened => ?_
  · rw [funext (rounds_skip (level levels))]
    intro inside later ended found
    obtain ⟨notEnd, stepped⟩ := skipToken_next found
    have token := Grows.advance notEnd
    rw [stepped]
    exact ⟨token.ended ended, token.ahead_length_lt (Form.carries_token _) ended⟩
  · simp [skipRound]

theorem lawful_parameters : (repeated () fun _ => parameterRound).Lawful height := by
  refine lawful_repeated_unit (fun deeper => rounds_parameter deeper)
    (fun _ => shrinks_parameter) fun _ => ?_
  simp [parameterRound]

theorem lawful_functionName : functionNameCode.Lawful height := by
  simp [functionNameCode]

theorem lawful_fieldContent (enough : 2 < height) : fieldContentCode.Lawful height := by
  simp [fieldContentCode, Rule.height, enough]

theorem lawful_fields (enough : 3 < height) :
    (repeated () fun _ => fieldRound).Lawful height := by
  refine lawful_repeated_unit (fun deeper => rounds_field deeper) shrinks_field fun _ => ?_
  rw [fieldRound, lawful_get_bind]
  intro state
  rw [lawful_ite, lawful_ask_bind]
  exact ⟨fun _ => trivial, fun _ => ⟨enough, fun _ => by simp⟩⟩

theorem lawful_suffixes
    {kind : Kind}
    (enough : 5 < height) :
    (repeated kind suffixRound).Lawful height := by
  refine lawful_repeated (fun levels => ?_) fun kind => ?_
  · rw [funext (rounds_suffix (level levels))]
    exact shrinks_suffix levels
  · simp [suffixRound, Rule.height, enough, Nat.lt_trans _ enough]

theorem lawful_operand (enough : 7 < height) : operandCode.Lawful height := by
  rw [operandCode, lawful_get_bind]
  intro state
  split
  case h_5 => exact (lawful_ask _).mpr enough
  all_goals simp [Rule.height, Nat.lt_trans _ enough]

theorem lawful_operations
    (limit : Nat)
    (enough : 1 < height) :
    (repeated () fun _ => operationRound limit).Lawful height := by
  refine lawful_repeated_unit (fun deeper => rounds_operation deeper limit)
    (fun levels => shrinks_operation levels limit) fun _ => ?_
  rw [operationRound, lawful_get_bind]
  intro state
  split <;> simp [Rule.height, enough]

theorem lawful_elseIfs (enough : 2 < height) :
    (repeated () fun _ => elseIfRound).Lawful height := by
  refine lawful_repeated_unit (fun deeper => rounds_elseIf deeper) shrinks_elseIfClause
    fun _ => ?_
  simp [elseIfRound, Rule.height, enough]

theorem lawful_elseClause (enough : 2 < height) : elseClauseCode.Lawful height := by
  simp [elseClauseCode, Rule.height, enough]

theorem lawful_numericRange (enough : 2 < height) : numericRangeCode.Lawful height := by
  simp [numericRangeCode, Rule.height, enough]

theorem lawful_localNames : (repeated () fun _ => localNameRound).Lawful height := by
  refine lawful_repeated_unit (fun deeper => rounds_localName deeper)
    (fun _ => shrinks_separatedBehind (by decide) grows_localName) fun _ => ?_
  simp [localNameRound, localNameCode]

theorem lawful_assignment (enough : 6 < height) : assignmentCode.Lawful height := by
  have targets : (separated .comma (visit .suffixed)).Lawful height :=
    lawful_separated (by decide) (fun deeper => denote_visit deeper .suffixed)
      (fun levels => grows_suffixed levels) (by simp [Rule.height, enough])
  simp [assignmentCode, targets, Rule.height, Nat.lt_trans _ enough]

theorem lawful_statements
    (terminators : KindSet)
    (enough : 8 < height) :
    (repeated () fun _ => statementRound terminators).Lawful height := by
  refine lawful_repeated_unit (fun deeper => rounds_statement deeper terminators)
    (fun levels => shrinks_statements levels terminators) fun _ => ?_
  simp [statementRound, Rule.height, enough]

/-- The code of a rule calls lower rules only, and its loops take tokens. -/
theorem Rule.lawful_body (rule : Rule) : rule.body.Lawful rule.height := by
  cases rule with
  | chunk | block | nestedBlock | functionBody | nameList | anyExpression | expression | primary
  | arguments | localFunctionStatement | returnStatement =>
      simp [Rule.body, Rule.height]
  | parameters => simp [Rule.body, lawful_parameters]
  | expressionList =>
      have items : (separated .comma (visit .anyExpression)).Lawful 3 :=
        lawful_separated (by decide) (fun deeper => denote_visit deeper .anyExpression)
          (fun levels => grows_anyExpression (sound_level levels)) (by simp [Rule.height])
      simp [Rule.body, Rule.height, items]
  | simpleExpression =>
      rw [Rule.body, lawful_get_bind]
      intro state
      split
      -- whatever begins no expression of its own is left to the suffixed ones
      case h_9 => exact (lawful_ask_bind _ _).mpr ⟨by decide, fun _ => trivial⟩
      all_goals simp [Rule.height]
  | suffixed =>
      rw [Rule.body, lawful_ask_bind]
      refine ⟨by decide, fun read => ?_⟩
      cases read with
      | none => trivial
      | some kind => exact (lawful_suffixes (by decide)).andThen fun _ => lawful_pure _
  | table => simp [Rule.body, Rule.height, lawful_fields]
  | field => simp [Rule.body, Rule.height, lawful_fieldContent]
  | statement =>
      rw [Rule.body, lawful_get_bind]
      intro state
      split <;> simp [Rule.height]
  | ifStatement => simp [Rule.body, Rule.height, lawful_elseIfs, lawful_elseClause]
  | forStatement => simp [Rule.body, Rule.height, lawful_numericRange]
  | functionStatement => simp [Rule.body, Rule.height, lawful_functionName]
  | localStatement => simp [Rule.body, Rule.height, lawful_localNames]
  | expressionStatement =>
      rw [Rule.body, lawful_ask_bind]
      refine ⟨by decide, fun read => ?_⟩
      cases read with
      | none => trivial
      | some kind => simp [Rule.height, lawful_assignment]
  | skip =>
      rw [Rule.body, lawful_get_bind]
      intro state
      refine lawful_skipRounds.andThen fun _ => ?_
      simp
  | inside construct =>
      cases construct with
      | statements terminators => exact lawful_statements terminators (by simp [Rule.height])
      | operations limit =>
          refine (lawful_operand (by simp [Rule.height])).andThen fun found => ?_
          simp [Rule.height, lawful_operations]

/-! ## Chains of calls -/

theorem Rule.height_general (rule : Rule) : rule.general.height = rule.height := by
  cases rule with
  | inside construct => cases construct <;> rfl
  | _ => rfl

theorem Code.Lawful.height_lt
    {Value : Type}
    {callee : Rule}
    {code : Code Value}
    (lawful : code.Lawful height)
    (calls : code.Calls callee) :
    callee.height < height := by
  induction code with
  | give value => exact calls.elim
  | perform operation rest ih => exact ih lawful calls
  | look rest ih =>
      obtain ⟨state, called⟩ := calls
      exact ih state (lawful state) called
  | call rule rest ih =>
      rcases calls with rfl | ⟨result, called⟩
      · exact lawful.1
      · exact ih result (lawful.2 result) called
  | deeper construct rest ih => exact ih lawful.2 calls
  | loop round start rest ihRound ihRest =>
      rcases calls with ⟨carried, called⟩ | ⟨carried, called⟩
      · exact ihRound carried (lawful.2.1 carried) called
      · exact ihRest carried (lawful.2.2 carried) called

theorem Rule.height_lt_of_chain
    {caller callee : Rule}
    (chain : Relation.TransGen Rule.Calls caller callee) :
    callee.height < caller.height := by
  induction chain with
  | single calls => exact (Rule.lawful_body _).height_lt calls
  | tail _ calls ih => exact ((Rule.lawful_body _).height_lt calls).trans ih

end LuaFold.Grammar.Machine
