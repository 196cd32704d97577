import LuaFold.Proofs.Grammar.Rule

/-!
# Accounts of a parse

A rule that leaves something out reports a fault for it.  The debt of a shape is the number of
faults that its nodes stand for: an error node is one, and so are a function body without its
`end`, a definition statement without its name, and an operator without its right operand.
The operators of a shape are arranged: what stands to the right of an operator in a node binds
tighter than its power there, and an operator takes no operand that a tighter one reaches for.

A rule settles its account when the shapes it builds are arranged and at least as many faults
are reported as the shapes are in debt.  Faults beyond the debt are a surplus, out of which a
node around the shapes can pay for what it lacks.  Most nodes owe nothing, and their rules only
pass on the accounts of their parts.
-/

namespace LuaFold

open Grammar (binaryPower? unaryPower)

/-- What a node of a kind stands for a fault without: the `end` of a body, or a name. -/
def Kind.required? : Kind → Option Slot
  | .funcBody => some (.token .endKw)
  | .functionStmt => some (.node .funcName)
  | .localFunctionStmt => some (.token .name)
  | _ => none

/-- The number of faults that a node stands for, apart from those of the nodes in it. -/
def Kind.charge (kind : Kind) (slots : List Slot) : Nat :=
  match kind with
  | .error => 1
  | .binaryExpr => 3 - slots.length
  | .prefixExpr => 2 - slots.length
  | _ => if kind.required?.all fun slot => slot ∈ slots then 0 else 1

/-- An operator that is taken above a limit. -/
def Kind.BindsAbove (limit : Nat) (sign : Kind) : Prop :=
  ∀ powers ∈ binaryPower? sign, limit < powers.1

/-- An operator, or any other token, in front of which the operators above a limit end. -/
def Kind.BindsWithin (limit : Nat) (sign : Kind) : Prop :=
  ∀ powers ∈ binaryPower? sign, powers.1 ≤ limit

namespace Shape

mutual

/-- The number of faults that the nodes of a shape stand for. -/
def debt : Shape → Nat
  | .leaf _ => 0
  | .node kind children => kind.charge (children.map slot) + allDebts children

def allDebts : List Shape → Nat
  | [] => 0
  | first :: rest => first.debt + allDebts rest

end

@[simp]
theorem allDebts_eq_sum (shapes : List Shape) : allDebts shapes = (shapes.map debt).sum := by
  induction shapes with
  | nil => rfl
  | cons first rest ih => simp [allDebts, ih]

@[simp]
theorem debt_leaf (kind : Kind) : (leaf kind).debt = 0 := by
  simp [debt]

@[simp]
theorem debt_node
    (kind : Kind)
    (children : List Shape) :
    (node kind children).debt =
      kind.charge (children.map slot) + (children.map debt).sum := by
  simp [debt]

/-- The operator between the operands of a binary expression. -/
def operator? : Shape → Option Kind
  | .node .binaryExpr (_ :: .leaf sign :: _) => some sign
  | _ => none

/-- The limit that an operator sets to its right operand, unless a fault stands in its place. -/
def limit? (limit : Nat) : List Shape → Option Nat
  | [operand] => if operand.slot = .node .error then none else some limit
  | _ => none

/-- The limit down to which the last operator of a shape reaches for what is behind it. -/
def reach? : Shape → Option Nat
  | .node .binaryExpr (_ :: .leaf sign :: operands) =>
    (binaryPower? sign).bind fun powers => limit? powers.2 operands
  | .node .prefixExpr (_ :: operands) => limit? unaryPower operands
  | _ => none

/-- The operator of a shape, if it has one, binds tighter than a limit. -/
def BindsAbove (limit : Nat) (shape : Shape) : Prop :=
  ∀ sign ∈ shape.operator?, sign.BindsAbove limit

end Shape

/-- The operands in a node are those that its operator leaves to it. -/
def Kind.Arranges (kind : Kind) (children : List Shape) : Prop :=
  match kind with
  | .binaryExpr =>
    ∃ left sign right powers, children = left :: .leaf sign :: right ∧
      binaryPower? sign = some powers ∧ (∀ reach ∈ left.reach?, sign.BindsWithin reach) ∧
      ∀ operand ∈ right, operand.BindsAbove powers.2
  | .prefixExpr =>
    ∃ sign operands, children = .leaf sign :: operands ∧
      ∀ operand ∈ operands, operand.BindsAbove unaryPower
  | _ => True

/-- The operands in every node of a shape are those that its operator leaves to it. -/
inductive Shape.Arranged : Shape → Prop where
  | leaf (kind : Kind) : Arranged (.leaf kind)
  | node
      {kind : Kind}
      {children : List Shape}
      (all : ∀ child ∈ children, Arranged child)
      (arranges : kind.Arranges children) :
      Arranged (.node kind children)

/-- Whether nodes of a kind owe nothing and have no operands. -/
def Kind.isFree : Kind → Bool
  | .tombstone | .error | .funcBody | .functionStmt | .localFunctionStmt | .binaryExpr
  | .prefixExpr => false
  | _ => true

/-- A node may be completed around children when a surplus pays for what it lacks. -/
structure Kind.Allows (kind : Kind) (children : List Shape) (surplus : Nat) : Prop where
  proper : kind ≠ .tombstone
  arranges : kind.Arranges children
  paid : kind.charge (children.map Shape.slot) ≤ surplus

theorem Kind.Allows.free
    {kind : Kind}
    (free : kind.isFree = true)
    (children : List Shape)
    (surplus : Nat) :
    kind.Allows children surplus := by
  cases kind
  all_goals first
    | exact absurd free (by decide)
    | exact ⟨by decide, trivial, Nat.zero_le _⟩

theorem Kind.charge_of_required
    {kind : Kind}
    {slot : Slot}
    (required : kind.required? = some slot)
    (slots : List Slot) :
    kind.charge slots = if slot ∈ slots then 0 else 1 := by
  cases kind <;> cases required <;> simp [charge, required?]

/-- What a node requires is there, or a fault that is left over pays for its absence. -/
theorem Kind.Allows.required
    {kind : Kind}
    {slot : Slot}
    (required : kind.required? = some slot)
    {children : List Shape}
    {surplus : Nat}
    (offered : slot ∈ children.map Shape.slot ∨ 0 < surplus) :
    kind.Allows children surplus := by
  refine ⟨?_, ?_, ?_⟩
  · rintro rfl
    cases required
  · cases kind <;> cases required <;> trivial
  · rw [Kind.charge_of_required required]
    rcases offered with member | left
    · simp [member]
    · split <;> omega

/-- A fault that is left over pays for an error node. -/
theorem Kind.Allows.error
    {surplus : Nat}
    (left : 0 < surplus)
    (children : List Shape) :
    Kind.Allows .error children surplus :=
  ⟨by decide, trivial, left⟩

namespace Grammar

/-- A condition on the shapes that a rule builds and the surplus of its account. -/
abbrev Terms := List Shape → Nat → Prop

namespace Terms

/-- No condition. -/
def any : Terms :=
  fun _ _ => True

/-- A fault is left over. -/
def paid : Terms :=
  fun _ surplus => 0 < surplus

/-- One of the shapes fills a slot, or a fault is left over for its absence. -/
def offers (slot : Slot) : Terms :=
  fun shapes surplus => slot ∈ shapes.map Shape.slot ∨ 0 < surplus

/-- A given list of shapes. -/
def just (shapes : List Shape) : Terms :=
  fun others _ => others = shapes

/-- An error node, or nothing but a fault. -/
def missed : Terms :=
  fun shapes surplus => (∃ children, shapes = [.node .error children]) ∨
    shapes = [] ∧ 0 < surplus

/-- Tokens only, and a fault left over. -/
def skipped : Terms :=
  fun shapes surplus => (∀ shape ∈ shapes, shape.leaves ≠ []) ∧ 0 < surplus

end Terms

namespace State

open Terms

/-- A word that builds arranged shapes, whose debt the faults reported meanwhile cover. -/
structure Accounts
    (before after : State)
    (word : List Action)
    (shapes : List Shape)
    (surplus : Nat) :
    Prop where
  extended : Extends before after word (shapes.flatMap Shape.leaves)
  builds : Action.Builds word shapes
  arranged : ∀ shape ∈ shapes, shape.Arranged
  covered : before.faults.length + (shapes.map Shape.debt).sum + surplus ≤ after.faults.length

theorem Accounts.trans
    {first second third : State}
    {word behind : List Action}
    {shapes others : List Shape}
    {surplus more : Nat}
    (before : Accounts first second word shapes surplus)
    (after : Accounts second third behind others more) :
    Accounts first third (word ++ behind) (shapes ++ others) (surplus + more) := by
  refine ⟨?_, before.builds.append after.builds, ?_, ?_⟩
  · rw [List.flatMap_append]
    exact before.extended.trans after.extended
  · intro shape member
    rcases List.mem_append.mp member with early | late
    · exact before.arranged shape early
    · exact after.arranged shape late
  · have early := before.covered
    have late := after.covered
    rw [List.map_append, List.sum_append]
    omega

/-- Between two states an account is settled on some terms. -/
def Settles (terms : Terms) (before after : State) : Prop :=
  before.Ended → ∃ word shapes surplus, Accounts before after word shapes surplus ∧
    terms shapes surplus

/-- Between two states a node is formed and its account is settled. -/
def SettlesNode (fits : Shape → Prop) (before after : State) : Prop :=
  before.Ended → ∃ word shape, Accounts before after word [shape] 0 ∧
    Action.Forms word shape ∧ fits shape

/-- Between two states an account is settled. -/
abbrev Solvent : State → State → Prop :=
  Settles any

section Settles

variable {terms behind joint : Terms} {first second third before after : State}

theorem Settles.mono
    (settles : Settles terms before after)
    {other : Terms}
    (weaker : ∀ shapes surplus, terms shapes surplus → other shapes surplus) :
    Settles other before after := by
  intro ended
  obtain ⟨word, shapes, surplus, accounts, held⟩ := settles ended
  exact ⟨word, shapes, surplus, accounts, weaker shapes surplus held⟩

theorem Settles.solvent (settles : Settles terms before after) : Solvent before after :=
  settles.mono fun _ _ _ => trivial

/-- Accounts add up. -/
theorem Settles.join
    (early : Settles terms first second)
    (late : Settles behind second third)
    (joins : ∀ shapes surplus others more, terms shapes surplus → behind others more →
      joint (shapes ++ others) (surplus + more)) :
    Settles joint first third := by
  intro ended
  obtain ⟨word, shapes, surplus, accounts, held⟩ := early ended
  obtain ⟨later, others, more, moreAccounts, alsoHeld⟩ := late (accounts.extended.ended ended)
  exact ⟨word ++ later, shapes ++ others, surplus + more, accounts.trans moreAccounts,
    joins shapes surplus others more held alsoHeld⟩

theorem Settles.trans
    (early : Settles terms first second)
    (late : Settles behind second third) :
    Solvent first third :=
  early.join late fun _ _ _ _ _ _ => trivial

/-- What is offered is still there when more comes behind it. -/
theorem Settles.offers_trans
    {slot : Slot}
    (early : Settles (offers slot) first second)
    (late : Settles behind second third) :
    Settles (offers slot) first third := by
  refine early.join late fun shapes surplus others more offered _ => ?_
  rcases offered with member | left
  · exact Or.inl (by simp only [List.map_append, List.mem_append, member, true_or])
  · exact Or.inr (by omega)

theorem Settles.trans_offers
    {slot : Slot}
    (early : Settles terms first second)
    (late : Settles (offers slot) second third) :
    Settles (offers slot) first third := by
  refine early.join late fun shapes surplus others more _ offered => ?_
  rcases offered with member | left
  · exact Or.inl (by simp only [List.map_append, List.mem_append, member, or_true])
  · exact Or.inr (by omega)

theorem Settles.ended
    (settles : Settles terms before after)
    (ended : before.Ended) :
    after.Ended := by
  obtain ⟨word, shapes, surplus, accounts, _⟩ := settles ended
  exact accounts.extended.ended ended

theorem Settles.ofEnded (settles : before.Ended → Settles terms before after) :
    Settles terms before after :=
  fun ended => settles ended ended

theorem Settles.keep (state : State) : Settles (just []) state state :=
  fun _ => ⟨[], [], 0, ⟨.refl state, .nil, by simp, by simp⟩, rfl⟩

theorem Settles.fault
    (state : State)
    (fault : SyntaxFault) :
    Settles (fun shapes surplus => shapes = [] ∧ 0 < surplus) state (state.report fault) := by
  intro _
  refine ⟨[], [], 1, ⟨.report state fault, .nil, by simp, ?_⟩, rfl, Nat.one_pos⟩
  simp [State.report]

theorem Settles.take
    {state : State}
    (notEnd : state.current ≠ .eof) :
    Settles (just [.leaf state.current]) state state.advance := by
  intro _
  have extended := Extends.advance notEnd
  obtain ⟨reported, faults, _⟩ := extended.faults
  refine ⟨[.advance], [.leaf state.current], 0,
    ⟨by simpa using extended, .leaf _, by simpa using Shape.Arranged.leaf state.current, ?_⟩, rfl⟩
  simp [faults]

/-- At the end of the text no token is taken, and nothing is owed for it. -/
theorem Settles.advance (state : State) : Solvent state state.advance := by
  by_cases isEnd : state.current = .eof
  · have kept : state.advance = state := by simp [State.advance, isAt, isEnd]
    rw [kept]
    exact (Settles.keep state).solvent
  · exact (Settles.take isEnd).solvent

theorem Settles.refl (state : State) : Solvent state state :=
  (Settles.keep state).solvent

theorem Settles.report
    (state : State)
    (fault : SyntaxFault) :
    Solvent state (state.report fault) :=
  (Settles.fault state fault).solvent

theorem Settles.accept (state : State) (kind : Kind) : Solvent state (state.accept kind) := by
  unfold State.accept
  split
  · exact .advance state
  · exact .refl state

/-- A token that is expected is there, or its absence is reported. -/
theorem Settles.demand
    (state : State)
    {kind : Kind}
    (notEnd : kind ≠ .eof) :
    Settles (offers (.token kind)) state (state.expect kind) := by
  unfold State.expect
  split
  · next found =>
    have here : state.current = kind := isAt_iff.mp found
    subst here
    refine (Settles.take notEnd).mono fun shapes surplus taken => Or.inl ?_
    rw [taken]
    exact List.mem_singleton_self _
  · exact (Settles.fault state _).mono fun _ _ left => Or.inr left.2

theorem Settles.expect (state : State) (kind : Kind) : Solvent state (state.expect kind) := by
  unfold State.expect
  split
  · exact .advance state
  · exact .report state _

/-- What is given up stays, without a node around it. -/
theorem Settles.abandon (settles : Settles terms before.start after) :
    Settles terms before after.abandon := by
  intro ended
  obtain ⟨word, shapes, surplus, accounts, held⟩ := settles ended
  refine ⟨.start :: (word ++ [.abandon]), shapes, surplus, ⟨?_, ?_, accounts.arranged, ?_⟩, held⟩
  · have whole : Extends before after.abandon _ _ :=
      ((Extends.record before .start).trans accounts.extended).trans (.record after .abandon)
    simpa using whole
  · simpa using Action.Builds.nil.abandon accounts.builds
  · exact accounts.covered

end Settles

section SettlesNode

variable {fits : Shape → Prop} {terms : Terms} {before middle after : State} {kind : Kind}

theorem SettlesNode.settles (node : SettlesNode fits before after) :
    Settles (fun shapes _ => ∃ shape, shapes = [shape] ∧ fits shape) before after := by
  intro ended
  obtain ⟨word, shape, accounts, _, held⟩ := node ended
  exact ⟨word, [shape], 0, accounts, shape, rfl, held⟩

theorem SettlesNode.solvent (node : SettlesNode fits before after) : Solvent before after :=
  node.settles.solvent

theorem SettlesNode.mono
    (node : SettlesNode fits before after)
    {other : Shape → Prop}
    (weaker : ∀ shape, fits shape → other shape) :
    SettlesNode other before after := by
  intro ended
  obtain ⟨word, shape, accounts, forms, held⟩ := node ended
  exact ⟨word, shape, accounts, forms, weaker shape held⟩

theorem SettlesNode.ended
    (node : SettlesNode fits before after)
    (ended : before.Ended) :
    after.Ended :=
  node.solvent.ended ended

/-- A node whose content pays for what it lacks. -/
theorem SettlesNode.complete
    (inside : Settles terms before.start after)
    (allows : ∀ shapes surplus, terms shapes surplus → kind.Allows shapes surplus) :
    SettlesNode (fun shape => ∃ shapes surplus, terms shapes surplus ∧ shape = .node kind shapes)
      before (after.complete kind) := by
  intro ended
  obtain ⟨word, shapes, surplus, accounts, held⟩ := inside ended
  have allowed := allows shapes surplus held
  have forms : Action.Forms (.start :: (word ++ [.complete kind])) (.node kind shapes) :=
    .complete accounts.builds allowed.proper
  refine ⟨_, .node kind shapes, ⟨?_, forms.builds, ?_, ?_⟩, forms, shapes, surplus, held, rfl⟩
  · have whole : Extends before (after.complete kind) _ _ :=
      ((Extends.record before .start).trans accounts.extended).trans
        (.record after (.complete kind))
    simpa using whole
  · simpa using Shape.Arranged.node accounts.arranged allowed.arranges
  · have covered : before.faults.length + (shapes.map Shape.debt).sum + surplus ≤
        after.faults.length := accounts.covered
    have paid := allowed.paid
    simp only [List.map_cons, List.map_nil, List.sum_cons, List.sum_nil, Shape.debt_node,
      State.complete, record]
    omega

/-- A node started around another one pays for what it lacks. -/
theorem SettlesNode.around
    (wrapped : SettlesNode fits before middle)
    (inside : Settles terms middle.precede after)
    (allows : ∀ shape shapes surplus, fits shape → terms shapes surplus →
      kind.Allows (shape :: shapes) surplus) :
    SettlesNode
      (fun outer => ∃ shape shapes surplus,
        fits shape ∧ terms shapes surplus ∧ outer = .node kind (shape :: shapes))
      before (after.complete kind) := by
  intro ended
  obtain ⟨word, shape, accounts, forms, held⟩ := wrapped ended
  obtain ⟨behind, shapes, surplus, more, alsoHeld⟩ := inside (accounts.extended.ended ended)
  have allowed := allows shape shapes surplus held alsoHeld
  have outer : Action.Forms (word ++ .precede :: (behind ++ [.complete kind]))
      (.node kind (shape :: shapes)) := .around forms more.builds allowed.proper
  refine ⟨_, .node kind (shape :: shapes), ⟨?_, outer.builds, ?_, ?_⟩, outer,
    shape, shapes, surplus, held, alsoHeld, rfl⟩
  · have whole : Extends before (after.complete kind) _ _ :=
      ((accounts.extended.trans (.record middle .precede)).trans more.extended).trans
        (.record after (.complete kind))
    simpa using whole
  · have all : ∀ child ∈ shape :: shapes, child.Arranged := by
      intro child member
      rcases List.mem_cons.mp member with rfl | other
      · exact accounts.arranged _ (by simp)
      · exact more.arranged child other
    simpa using Shape.Arranged.node all allowed.arranges
  · have early := accounts.covered
    have late : middle.faults.length + (shapes.map Shape.debt).sum + surplus ≤
        after.faults.length := more.covered
    have paid := allowed.paid
    simp only [List.map_cons, List.map_nil, List.sum_cons, List.sum_nil] at early paid
    simp only [List.map_cons, List.map_nil, List.sum_cons, List.sum_nil, Shape.debt_node,
      State.complete, record]
    omega

/-- A node of a kind that requires what its rule offers. -/
theorem SettlesNode.required
    {slot : Slot}
    (inside : Settles (offers slot) before.start after)
    (required : kind.required? = some slot) :
    Solvent before (after.complete kind) :=
  (SettlesNode.complete inside fun _ _ offered => Kind.Allows.required required offered).solvent

/-- A node of a kind that owes nothing. -/
theorem SettlesNode.free
    (inside : Settles terms before.start after)
    (free : kind.isFree = true) :
    SettlesNode (fun shape => ∃ shapes, shape = .node kind shapes) before
      (after.complete kind) := by
  refine (SettlesNode.complete inside fun shapes surplus _ =>
    Kind.Allows.free free shapes surplus).mono ?_
  rintro shape ⟨shapes, _, _, rfl⟩
  exact ⟨shapes, rfl⟩

/-- A node of a kind that owes nothing, around another one. -/
theorem SettlesNode.freeAround
    (wrapped : SettlesNode fits before middle)
    (inside : Settles terms middle.precede after)
    (free : kind.isFree = true) :
    SettlesNode (fun shape => ∃ shapes, shape = .node kind shapes) before
      (after.complete kind) := by
  refine (SettlesNode.around wrapped inside fun shape shapes surplus _ _ =>
    Kind.Allows.free free (shape :: shapes) surplus).mono ?_
  rintro outer ⟨shape, shapes, _, _, _, rfl⟩
  exact ⟨shape :: shapes, rfl⟩

end SettlesNode

end State

/-! ## Loops -/

/-- What every round keeps, the loop keeps. -/
theorem iterate_kept
    {Value : Type}
    {round : Value → Turn Value}
    (kept : Value → Prop)
    (step : ∀ value, kept value → kept (round value).reached)
    (tokens : List Kind)
    {value : Value}
    (start : kept value) :
    kept (iterate round tokens value) := by
  induction tokens generalizing value with
  | nil => exact start
  | cons token tokens ih =>
      have stepped := step value start
      rw [iterate]
      cases found : round value with
      | next later =>
          rw [found] at stepped
          exact ih stepped
      | last later =>
          rw [found] at stepped
          exact stepped

namespace State

theorem Settles.loop
    {round : State → Turn State}
    (step : ∀ state, Solvent state (round state).reached)
    (state : State) :
    Solvent state (state.loop round) :=
  iterate_kept _ (fun value settled => settled.trans (step value)) state.ahead (.refl state)

theorem Settles.separated
    {item : State → State}
    (separator : Kind)
    (solvent : ∀ state, Solvent state (item state))
    (state : State) :
    Solvent state (state.separated separator item) := by
  refine Settles.loop (fun state => ?_) state
  split
  · exact (Settles.advance state).trans (solvent _)
  · exact .refl state

end State

/-! ## Recovery from faults -/

open State Terms

theorem settles_reportAndAdvance
    (state : State)
    (fault : SyntaxFault) :
    Settles missed state (state.reportAndAdvance fault) := by
  unfold reportAndAdvance
  split
  · exact (Settles.fault state fault).mono fun _ _ left => Or.inr left
  · have inside : Settles paid state.start (state.start.report fault).advance :=
      (Settles.fault state.start fault).join (Settles.advance _)
        fun _ _ _ _ left _ => Nat.add_pos_left left.2 _
    refine (SettlesNode.complete inside fun shapes _ left =>
      Kind.Allows.error left shapes).settles.mono ?_
    rintro _ surplus ⟨_, rfl, children, _, _, rfl⟩
    exact Or.inl ⟨children, rfl⟩

theorem settles_recover
    (state : State)
    (fault : SyntaxFault)
    (usable : KindSet) :
    Settles missed state (state.recover fault usable) := by
  unfold recover
  split
  · exact (Settles.fault state fault).mono fun _ _ left => Or.inr left
  · exact settles_reportAndAdvance state fault

/-- A round of skipping takes a token or nothing. -/
theorem skipToken_reached (inside : Nat × State) :
    (skipToken inside).reached.2 = inside.2 ∨
      inside.2.current ≠ .eof ∧ (skipToken inside).reached.2 = inside.2.advance := by
  cases found : skipToken inside with
  | next later => exact Or.inr (skipToken_next found)
  | last later =>
      rw [skipToken_last found]
      exact Or.inl rfl

theorem settles_skipBalanced
    {before state : State}
    (start : Settles skipped before state) :
    Settles skipped before state.skipBalanced := by
  refine iterate_kept (fun inside : Nat × State => Settles skipped before inside.2)
    (fun inside settled => ?_) state.ahead start
  rcases skipToken_reached inside with stays | ⟨notEnd, moves⟩
  · rw [stays]
    exact settled
  · rw [moves]
    refine settled.join (Settles.take notEnd) fun shapes surplus others more held taken => ⟨?_, ?_⟩
    · rw [taken]
      intro shape member
      rcases List.mem_append.mp member with early | late
      · exact held.1 shape early
      · simp [List.mem_singleton.mp late]
    · exact Nat.add_pos_left held.2 more

/-- What is skipped ends up in an error node, or is nothing but a fault. -/
theorem settles_skip (state : State) : Settles missed state state.skip := by
  have start : Settles skipped state.start (state.start.report .nestingTooDeep) :=
    (Settles.fault state.start _).mono fun shapes surplus left => ⟨by simp [left.1], left.2⟩
  have inside := settles_skipBalanced start
  simp only [skip]
  split
  · next stuck =>
    intro ended
    obtain ⟨word, shapes, surplus, accounts, solid, left⟩ := inside.abandon ended
    have moved := accounts.extended.position
    have none : shapes = [] := by
      cases shapes with
      | nil => rfl
      | cons shape others =>
          have positive := List.length_pos_iff.mpr (solid shape (by simp))
          simp only [List.flatMap_cons, List.length_append, State.abandon, record] at moved
          omega
    exact ⟨word, shapes, surplus, accounts, Or.inr ⟨none, left⟩⟩
  · refine (SettlesNode.complete inside fun shapes _ held =>
      Kind.Allows.error held.2 shapes).settles.mono ?_
    rintro _ surplus ⟨_, rfl, children, _, _, rfl⟩
    exact Or.inl ⟨children, rfl⟩

end LuaFold.Grammar
