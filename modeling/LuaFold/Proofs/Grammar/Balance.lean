import LuaFold.Grammar.Chunk
import LuaFold.Proofs.Grammar.Derivation
import LuaFold.Proofs.Grammar.Word
import Mathlib.Tactic.SplitIfs

/-!
# Balance of derived words

Skipping the rest of a construct counts what opens and what closes without a look at which closer
belongs to which opener: the `do` of a loop and a bare `do` both wait for an `end`, and the `end`
of a function body is that of its `function`.  One counter is enough because a word of the grammar
opens and closes in pairs of whatever kinds, and because an `else` stands in it only between an
`if` and its `end`.

So a derived word leaves the counter as it was, from any depth on.  Behind it the skipping stops
at the first token that closes what stands around, and puts just the word into one error node.
-/

namespace LuaFold.Grammar

open State

/-! ## Counting what is open -/

/-- How many constructs are open behind a token, unless the token ends what is skipped. -/
def openBehind? (depth : Nat) (kind : Kind) : Option Nat :=
  if kind = .eof then none
  else if opening.contains kind then some (depth + 1)
  else if closing.contains kind then if depth = 0 then none else some (depth - 1)
  else if depth = 0 ∧ (kind = .elseKw ∨ kind = .elseifKw) then none
  else some depth

/-- How many constructs are open behind a word, unless one of its tokens ends what is skipped. -/
def openBehindAll? (depth : Nat) (word : List Kind) : Option Nat :=
  word.foldlM openBehind? depth

/-- A token that neither opens nor closes anything, and does not divide a conditional. -/
def isPlain (kind : Kind) : Bool :=
  kind ≠ .eof && !opening.contains kind && !closing.contains kind
    && kind ≠ .elseKw && kind ≠ .elseifKw

section Counting

variable {depth : Nat} {kind : Kind}

theorem openBehind?_opening (opens : opening.contains kind = true) :
    openBehind? depth kind = some (depth + 1) := by
  have notEnd : kind ≠ .eof := by
    rintro rfl
    revert opens
    decide
  simp [openBehind?, notEnd, opens]

theorem openBehind?_closing (closes : closing.contains kind = true) :
    openBehind? (depth + 1) kind = some depth := by
  have notEnd : kind ≠ .eof := by
    rintro rfl
    revert closes
    decide
  have opensNothing : opening.contains kind = false := by
    cases kind <;> first | rfl | (revert closes; decide)
  simp [openBehind?, notEnd, opensNothing, closes]

theorem openBehind?_dividing (divides : kind = .elseKw ∨ kind = .elseifKw) :
    openBehind? (depth + 1) kind = some (depth + 1) := by
  rcases divides with rfl | rfl <;> rfl

theorem openBehind?_plain (plain : isPlain kind = true) :
    openBehind? depth kind = some depth := by
  simp only [isPlain, Bool.and_eq_true, decide_eq_true_eq, Bool.not_eq_true'] at plain
  obtain ⟨⟨⟨⟨notEnd, opensNothing⟩, closesNothing⟩, notElse⟩, notElseIf⟩ := plain
  simp [openBehind?, notEnd, opensNothing, closesNothing, notElse, notElseIf]

end Counting

theorem openBehindAll?_append
    (depth : Nat)
    (first second : List Kind) :
    openBehindAll? depth (first ++ second) =
      (openBehindAll? depth first).bind fun reached => openBehindAll? reached second :=
  List.foldlM_append

/-! ## Words that close what is open -/

/--
From any depth on, a word closes a number of constructs that are open in front of it, and
besides them just those that it opens itself.
-/
def Owes (count : Nat) (word : List Kind) : Prop :=
  ∀ depth, openBehindAll? (depth + count) word = some depth

namespace Owes

variable {count : Nat} {kind : Kind} {first word : List Kind}

theorem nil : Owes 0 [] :=
  fun _ => rfl

theorem append
    (before : Owes 0 first)
    (behind : Owes count word) :
    Owes count (first ++ word) := by
  intro depth
  have reached : openBehindAll? (depth + count) first = some (depth + count) := before _
  rw [openBehindAll?_append, reached]
  exact behind depth

theorem plain
    (behind : Owes count word)
    (isPlain : isPlain kind = true) :
    Owes count (kind :: word) := by
  intro depth
  rw [openBehindAll?, List.foldlM_cons, openBehind?_plain isPlain]
  exact behind depth

theorem opened
    (behind : Owes (count + 1) word)
    (opens : opening.contains kind = true) :
    Owes count (kind :: word) := by
  intro depth
  rw [openBehindAll?, List.foldlM_cons, openBehind?_opening opens]
  exact behind depth

theorem closed
    (behind : Owes count word)
    (closes : closing.contains kind = true) :
    Owes (count + 1) (kind :: word) := by
  intro depth
  rw [openBehindAll?, List.foldlM_cons, ← Nat.add_assoc, openBehind?_closing closes]
  exact behind depth

/-- A conditional is divided only where it is open. -/
theorem divided
    (behind : Owes (count + 1) word)
    (divides : kind = .elseKw ∨ kind = .elseifKw) :
    Owes (count + 1) (kind :: word) := by
  intro depth
  rw [openBehindAll?, List.foldlM_cons, ← Nat.add_assoc, openBehind?_dividing divides]
  exact behind depth

/-- A construct from its opener to its closer, and what stands behind it. -/
theorem enclosed
    {opener closer : Kind}
    (inside : Owes 0 first)
    (behind : Owes count word)
    (opens : opening.contains opener = true)
    (closes : closing.contains closer = true) :
    Owes count (opener :: (first ++ closer :: word)) :=
  .opened (.append inside (.closed behind closes)) opens

theorem of_forall_plain (plain : ∀ kind ∈ word, isPlain kind = true) : Owes 0 word := by
  induction word with
  | nil => exact nil
  | cons kind word ih =>
      exact (ih fun other member => plain other (List.mem_cons_of_mem kind member)).plain
        (plain kind List.mem_cons_self)

end Owes

/-! ## Words of the grammar -/

section Lists

variable {names : List Kind}

theorem NameTail.owes
    {separator : Kind}
    (tail : NameTail separator names)
    (plain : isPlain separator = true) :
    Owes 0 names := by
  induction tail with
  | done => exact .nil
  | more _ ih => exact (ih.plain rfl).plain plain

theorem FunctionName.owes (named : FunctionName names) : Owes 0 names := by
  cases named with
  | plain fields => exact (fields.owes rfl).plain rfl
  | method fields =>
      have method : Owes 0 [.colon, .name] := .of_forall_plain (by decide)
      exact ((fields.owes rfl).append method).plain rfl

theorem Parameters.owes
    {strict : Bool}
    (parameters : Parameters strict names) :
    Owes 0 names := by
  induction parameters with
  | none => exact .nil
  | rest | single => exact .plain .nil rfl
  | more _ _ ih => exact (ih.plain rfl).plain rfl

theorem LocalName.owes (name : LocalName names) : Owes 0 names := by
  cases name <;> exact .of_forall_plain (by decide)

theorem LocalTail.owes (tail : LocalTail names) : Owes 0 names := by
  induction tail with
  | done => exact .nil
  | more first _ ih => exact (first.owes.append ih).plain rfl

end Lists

theorem isPlain_of_isConstant
    {kind : Kind}
    (constant : isConstant kind = true) :
    isPlain kind = true := by
  cases kind <;> first | rfl | cases constant

theorem isPlain_of_isUnary
    {sign : Kind}
    (unary : isUnary sign = true) :
    isPlain sign = true := by
  cases sign <;> first | rfl | cases unary

theorem isPlain_of_precedence?
    {sign : Kind}
    {precedence : Nat}
    (isSign : precedence? sign = some precedence) :
    isPlain sign = true := by
  cases sign <;> first | rfl | cases isSign

/--
How many constructs the words of a phrase close that are open in front of them.  The `end` behind
the clauses of a conditional and that of a function body belong to openers further to the left.
-/
def Phrase.owed : Phrase → Nat
  | .clauses | .functionBody => 1
  | _ => 0

/-- However deeply a word of a strict grammar is nested, it closes what it opens. -/
theorem Derives.owes
    {dialect : Dialect}
    (strict : dialect.strict = true)
    {phrase : Phrase}
    {depth : Nat}
    {word : List Kind}
    (derives : Derives dialect phrase depth word) :
    Owes phrase.owed word := by
  induction derives with
  | block _ ihInside => exact ihInside
  -- statements
  | nothing => exact .nil
  | semicolon _ ihOthers => exact .plain ihOthers rfl
  | next _ _ _ ihStatement ihOthers => exact .append ihStatement ihOthers
  | last _ ihLeave => exact ihLeave
  | early loose => cases strict.symm.trans loose
  | leaveNothing stops => rcases stops with rfl | rfl <;> exact .of_forall_plain (by decide)
  | leaveValues _ stops ihValued =>
      rcases stops with rfl | rfl
      · exact .plain (.append ihValued .nil) rfl
      · exact .plain (.append ihValued (.plain .nil rfl)) rfl
  | label | leaveLoop | jump => exact .of_forall_plain (by decide)
  | doBlock _ ihInside => exact .enclosed ihInside .nil rfl rfl
  | whileLoop _ _ ihCondition ihInside =>
      exact .plain (.append ihCondition (.enclosed ihInside .nil rfl rfl)) rfl
  | repeatLoop _ _ ihInside ihCondition => exact .enclosed ihInside ihCondition rfl rfl
  | conditional _ _ _ ihCondition ihInside ihClauses =>
      exact .opened (.append ihCondition (.plain (.append ihInside ihClauses) rfl)) rfl
  | numericLoop binds _ _ ihLimits ihInside =>
      obtain rfl : _ = Kind.name := by simpa [strict] using binds
      have headed : Owes 0 (_ ++ .doKw :: (_ ++ [.endKw])) :=
        .append ihLimits (.enclosed ihInside .nil rfl rfl)
      exact .plain (.plain (.plain headed rfl) rfl) rfl
  | genericLoop others _ _ ihValued ihInside =>
      have headed : Owes 0 (_ ++ .doKw :: (_ ++ [.endKw])) :=
        .append ihValued (.enclosed ihInside .nil rfl rfl)
      exact .plain (.plain (.append (others.owes rfl) (.plain headed rfl)) rfl) rfl
  | function named _ ihInside => exact .opened (.append named.owes ihInside) rfl
  | localFunction _ ihInside => exact .plain (.opened (.plain ihInside rfl) rfl) rfl
  | localNames first others => exact .plain (.append first.owes others.owes) rfl
  | localValues first others _ ihValued =>
      exact .plain (.append first.owes (.append others.owes (.plain ihValued rfl))) rfl
  | assignment _ _ ihTargets ihValued => exact .append ihTargets (.plain ihValued rfl)
  | callStatement _ ihCalled => exact ihCalled
  -- parts of statements
  | closed => exact .closed .nil rfl
  | otherwise _ ihInside =>
      exact .divided (.append ihInside (.closed .nil rfl)) (Or.inl rfl)
  | elseIf _ _ _ ihCondition ihInside ihClauses =>
      exact .divided (.append ihCondition (.plain (.append ihInside ihClauses) rfl)) (Or.inr rfl)
  | bounds _ _ ihFirst ihSecond => exact .append ihFirst (.plain ihSecond rfl)
  | stepped _ _ _ ihFirst ihSecond ihThird =>
      exact .append ihFirst (.plain (.append ihSecond (.plain ihThird rfl)) rfl)
  | targets _ _ _ ihTarget ihTail => exact .append ihTarget ihTail
  | noTarget => exact .nil
  | moreTargets _ _ _ ihTarget ihTail => exact .plain (.append ihTarget ihTail) rfl
  | functionBody parameters _ ihInside =>
      exact .enclosed parameters.owes (.append ihInside (.closed .nil rfl)) rfl rfl
  -- expressions
  | expressions _ _ ihValue ihTail => exact .append ihValue ihTail
  | noExpression => exact .nil
  | moreExpressions _ _ ihValue ihTail => exact .plain (.append ihValue ihTail) rfl
  | expression _ ihInside => exact ihInside
  | constant constant => exact .plain .nil (isPlain_of_isConstant constant)
  | tableValue _ ihTable => exact ihTable
  | functionValue _ ihInside => exact .opened ihInside rfl
  | referenceValue _ ihReferred => exact ihReferred
  | unary isSign _ _ ihOperand => exact .plain ihOperand (isPlain_of_isUnary isSign)
  | binary isSign _ _ _ ihLeft ihRight =>
      exact .append ihLeft (.plain ihRight (isPlain_of_precedence? isSign))
  -- parts of expressions
  | name => exact .plain .nil rfl
  | group _ ihInside => exact .enclosed ihInside .nil rfl rfl
  | member _ ihOwner => exact .append ihOwner (.plain (.plain .nil rfl) rfl)
  | index _ _ ihOwner ihInside => exact .append ihOwner (.enclosed ihInside .nil rfl rfl)
  | call _ _ ihCallee ihGiven => exact .append ihCallee ihGiven
  | methodCall _ _ ihOwner ihGiven => exact .append ihOwner (.plain (.plain ihGiven rfl) rfl)
  | noArguments => exact .enclosed .nil .nil rfl rfl
  | listed _ ihValued => exact .enclosed ihValued .nil rfl rfl
  | text => exact .plain .nil rfl
  | record _ ihTable => exact ihTable
  | table _ ihContent => exact .enclosed ihContent .nil rfl rfl
  | noField => exact .nil
  | lastField _ ihFirst => exact ihFirst
  | moreFields _ separates _ ihContent ihTail =>
      refine .append ihContent (.plain ihTail ?_)
      rcases separates with rfl | rfl <;> rfl
  | keyed _ _ ihKey ihValue => exact .enclosed ihKey (.plain ihValue rfl) rfl rfl
  | named _ ihValue => exact .plain (.plain ihValue rfl) rfl
  | positional _ ihValue => exact ihValue

/-! ## Skipping a word -/

namespace State

/-- A token is skipped just when the counter goes on behind it. -/
theorem skipToken_eq
    (depth : Nat)
    (state : State) :
    skipToken (depth, state) =
      match openBehind? depth state.current with
      | some reached => .next (reached, state.advance)
      | none => .last (depth, state) := by
  simp only [skipToken, openBehind?, isAt, isIn, Bool.and_eq_true, Bool.or_eq_true,
    decide_eq_true_eq]
  split_ifs <;> rfl

/-- The state behind a word that is ahead, with all its tokens taken. -/
def taking (state : State) (word rest : List Kind) : State :=
  ⟨rest, state.position + word.length, List.replicate word.length .advance ++ state.actions,
    state.faults⟩

/-- Skipping takes every token of a word through which the counter goes on. -/
theorem iterate_skipToken
    {word rest : List Kind}
    {depth reached : Nat}
    {state : State}
    (counted : openBehindAll? depth word = some reached)
    (ahead : state.ahead = word ++ rest)
    (tokens : List Kind) :
    iterate skipToken (word ++ tokens) (depth, state) =
      iterate skipToken tokens (reached, state.taking word rest) := by
  induction word generalizing depth state with
  | nil =>
      cases counted
      obtain rfl : state.ahead = rest := ahead
      rfl
  | cons kind word ih =>
      rw [openBehindAll?, List.foldlM_cons] at counted
      obtain ⟨middle, here, behind⟩ := Option.bind_eq_some_iff.mp counted
      have current : state.current = kind := by simp [State.current, ahead]
      have notEnd : kind ≠ .eof := by
        rintro rfl
        cases here
      have advanced : state.advance =
          ⟨word ++ rest, state.position + 1, .advance :: state.actions, state.faults⟩ := by
        simp [State.advance, isAt, current, notEnd, ahead]
      have stepped : skipToken (depth, state) = .next (middle, state.advance) := by
        rw [skipToken_eq, current, here]
      have same : state.advance.taking word rest = state.taking (kind :: word) rest := by
        rw [advanced]
        simp [taking, List.replicate_succ', Nat.add_assoc, Nat.add_comm 1]
      rw [List.cons_append, iterate, stepped, ← same]
      exact ih behind (by rw [advanced])

/-- Behind a word that closes what it opens, skipping stops at a closer of what stands around. -/
theorem skipBalanced_eq
    {word rest : List Kind}
    {closer : Kind}
    {state : State}
    (owes : Owes 0 word)
    (closes : openBehind? 0 closer = none)
    (ahead : state.ahead = word ++ closer :: rest) :
    state.skipBalanced = state.taking word (closer :: rest) := by
  have stopped : skipToken (0, state.taking word (closer :: rest)) =
      .last (0, state.taking word (closer :: rest)) := by
    rw [skipToken_eq]
    simp [taking, current, closes]
  rw [skipBalanced, ahead, iterate_skipToken (owes 0) ahead, iterate, stopped]

end State

/-! ## Error nodes around words -/

/-- The tokens that close what stands around a phrase: a nested block, or a pair of brackets. -/
def Phrase.closers : Phrase → KindSet
  | .block => blockEnd
  | .expression _ | .expressions | .fields => .ofList [.rightParen, .rightBracket, .rightBrace]
  | _ => .empty

theorem Phrase.openBehind?_closer
    {phrase : Phrase}
    {closer : Kind}
    (closes : phrase.closers.contains closer = true) :
    openBehind? 0 closer = none := by
  have blockEnds : blockEnd.contains closer = true → openBehind? 0 closer = none := by
    cases closer <;> decide
  have bracketEnds : (KindSet.ofList [.rightParen, .rightBracket, .rightBrace]).contains closer =
      true → openBehind? 0 closer = none := by
    cases closer <;> decide
  cases phrase with
  | block => exact blockEnds closes
  | expression | expressions | fields => exact bracketEnds closes
  | _ => simp [closers] at closes

/-- The decisions that put a word into an error node, or into nothing if the word is empty. -/
def errorAround (word : List Kind) : List Action :=
  .start :: (List.replicate word.length .advance ++
    [if word = [] then .abandon else .complete .error])

/-- Advancing over tokens adds them to the node that is open. -/
theorem assembles_advance (taken : List Token) :
    Action.Assembles (List.replicate taken.length .advance) taken (taken.map .token) := by
  induction taken with
  | nil => exact fun rest frame frames => rfl
  | cons first taken ih =>
      have single : Action.Assembles [.advance] [first] [.token first] :=
        fun rest frame frames => rfl
      exact single.append ih

theorem assembles_errorAround
    {word : List Kind}
    {taken : List Token}
    (kinds : taken.map Token.kind = word) :
    Action.Assembles (errorAround word) taken
      (if word = [] then [] else [.branch .error (taken.map .token)]) := by
  intro rest frame frames
  have length : word.length = taken.length := by simp [← kinds]
  rw [errorAround, Assembly.performAll_cons, Assembly.performAll_append, length]
  rw [Assembly.perform, assembles_advance taken]
  by_cases empty : word = []
  · have nothing : taken = [] := by simpa [empty] using kinds
    simp [empty, nothing, Assembly.perform]
  · simp [empty, Assembly.perform]

/--
However deeply it is nested, a word that the grammar derives from a block in front of a token that
closes a nested block, or from expressions or table fields in front of a closing bracket, is just
what is skipped where no nesting level is left.  One fault is reported, at the first token of
the word, and the word is put into one error node; an empty word is put into none.
-/
theorem skip_derived
    {phrase : Phrase}
    {depth : Nat}
    {word rest : List Kind}
    {closer : Kind}
    {state : State}
    (derives : Derives .manual phrase depth word)
    (closes : phrase.closers.contains closer = true)
    (ahead : state.ahead = word ++ closer :: rest) :
    ∃ decided : List Action,
      state.skip = ⟨closer :: rest, state.position + word.length,
        decided.reverse ++ state.actions, (.nestingTooDeep, state.position) :: state.faults⟩ ∧
      ∀ taken : List Token, taken.map Token.kind = word →
        Action.Assembles decided taken
          (if word = [] then [] else [.branch .error (taken.map .token)]) := by
  have owes : Owes 0 word := by
    cases phrase with
    | clauses | functionBody => simp [Phrase.closers] at closes
    | _ => exact derives.owes rfl
  have skipped : (state.start.report .nestingTooDeep).skipBalanced = _ :=
    skipBalanced_eq owes (Phrase.openBehind?_closer closes) ahead
  refine ⟨errorAround word, ?_, fun taken kinds => assembles_errorAround kinds⟩
  rw [skip, skipped]
  by_cases empty : word = []
  · simp [empty, taking, errorAround, State.abandon, record, State.start, report]
  · have moved : word.length ≠ 0 := by simpa using empty
    simp [empty, taking, errorAround, State.complete, record, State.start, report]

/-- The kinds of `while x do if x then f { function() end } else repeat until x end end`. -/
def loopWithBranches : List Kind :=
  [.whileKw, .name, .doKw, .ifKw, .name, .thenKw, .name, .leftBrace, .functionKw, .leftParen,
   .rightParen, .endKw, .rightBrace, .elseKw, .repeatKw, .untilKw, .name, .endKw, .endKw]

theorem derives_loopWithBranches : ∃ depth, Derives .manual .block depth loopWithBranches := by
  have test : Derives .manual (.expression loosest) 1 [.name] :=
    .expression (.referenceValue .name)
  have empty : Derives .manual .block 1 [] := .block (.nothing true)
  have callback : Derives .manual (.expression loosest) _ _ :=
    .expression (.functionValue (.functionBody .none empty))
  have call : Derives .manual .statement _ _ :=
    .callStatement (.call .name (.record (.table (.lastField (.positional callback)))))
  have branch : Derives .manual .block _ _ := .block (.next call (.nothing false) (by simp))
  have other : Derives .manual .block _ _ :=
    .block (.next (.repeatLoop empty test) (.nothing false) (by simp))
  have body : Derives .manual .block _ _ :=
    .block (.next (.conditional test branch (.otherwise other)) (.nothing false) (by simp))
  exact ⟨_, .block (.next (.whileLoop test body) (.nothing false) (by simp))⟩

/-- Such a loop in front of an `elseif`. -/
theorem skip_derived_loop :
    (∃ depth, Derives .manual .block depth loopWithBranches) ∧
      Phrase.block.closers.contains .elseifKw = true ∧
      ∃ decided : List Action,
        (State.initial (loopWithBranches ++ [.elseifKw, .eof])).skip =
          ⟨[.elseifKw, .eof], 19, decided.reverse, [(.nestingTooDeep, 0)]⟩ ∧
        ∀ taken : List Token, taken.map Token.kind = loopWithBranches →
          Action.Assembles decided taken [.branch .error (taken.map .token)] := by
  obtain ⟨depth, derives⟩ := derives_loopWithBranches
  have closes : Phrase.block.closers.contains .elseifKw = true := rfl
  have ahead : (State.initial (loopWithBranches ++ [.elseifKw, .eof])).ahead =
      loopWithBranches ++ .elseifKw :: [.eof] := rfl
  obtain ⟨decided, skipped, assembled⟩ := skip_derived derives closes ahead
  refine ⟨⟨depth, derives⟩, closes, decided, ?_, assembled⟩
  rw [skipped, State.initial, List.append_nil]
  rfl

end LuaFold.Grammar
