import LuaFold.Proofs.Grammar.Lookahead
import LuaFold.Proofs.Grammar.Reading

/-!
# Reading expressions

Suffixes and operators are taken in loops that stand around what was read so far.  So a word
that may go on with a suffix or an operator is read in front of its loop: the loop from the
first state is the loop from the state behind the word.  Behind the whole expression stands a
token with which the loop ends.
-/

namespace LuaFold.Grammar

open scoped Computability
open Form State

/--
A rule reads a word with any number of levels left, wherever the token behind the word passes a
test.
-/
def Readable
    (behind : Kind → Prop)
    (rule : Deeper → State → State)
    (depth : Nat)
    (word : List Kind) :
    Prop :=
  ∀ levels rest state, behind (rest.headD .eof) →
    Consumes levels depth word rest state (rule (level levels) state)

/-- What stands behind two words stands behind the second, or the second begins with it. -/
theorem behind_append
    {behind : Kind → Prop}
    {word rest : List Kind}
    (front : ∀ kind ∈ word.head?, behind kind)
    (last : behind (rest.headD .eof)) :
    behind ((word ++ rest).headD .eof) := by
  cases word with
  | nil => exact last
  | cons kind others => exact front kind rfl

/-! ## Expressions and lists of them -/

/-- Operations are read in front of the loop that takes further ones. -/
def ReadsOperations (least depth : Nat) (word : List Kind) : Prop :=
  ∀ levels limit rest state, Admits limit least → Yields least (rest.headD .eof) →
    state.Ended → state.ahead = word ++ rest →
    ∃ reached, operations (level levels) limit state =
        reached.loop (operation (level levels) limit) ∧
      Outcome levels depth rest state reached

/-- In front of a token that ends an expression no operation follows. -/
theorem operation_of_ends
    {deeper : Deeper}
    {limit : Nat}
    {state : State}
    (ends : EndsExpression limit state.current) :
    operation deeper limit state = .last state := by
  simp only [operation, binaryPower?_eq]
  cases found : precedence? state.current with
  | none => rfl
  | some precedence => simp [ends.2 precedence found]

theorem ReadsOperations.readable
    {least depth limit : Nat}
    {word : List Kind}
    (inside : ReadsOperations least depth word)
    (admits : Admits limit least) :
    Readable (EndsExpression limit) (fun deeper => deeper.expression limit) (depth + 1)
      word := by
  intro levels rest state ends
  cases levels with
  | zero => exact .skip depth word rest state
  | succ levels =>
      refine ⟨(grows_operations (sound_level levels) limit state).onward, fun ended ahead => ?_⟩
      obtain ⟨reached, same, outcome⟩ :=
        inside levels limit rest state admits (ends.yields admits) ended ahead
      have whole : Outcome levels (max depth 0) rest state
          (reached.loop (operation (level levels) limit)) := by
        refine outcome.trans (onward_operations levels limit reached) fun _ found => ?_
        have last : operation (level levels) limit reached = .last reached :=
          operation_of_ends (by rwa [current, found])
        have stays : reached.loop (operation (level levels) limit) = reached :=
          iterate_last id outcome.ended last
        rw [stays]
        exact .refl outcome.ended found
      rw [Nat.max_zero, ← same] at whole
      exact whole.deeper

/-- Any expression, up to a token that no operator is and no suffix begins with. -/
def ReadsExpression (depth : Nat) (word : List Kind) : Prop :=
  Readable (EndsExpression 0) Deeper.anyExpression depth word

/-- What may stand behind a list of expressions. -/
def EndsList (kind : Kind) : Prop :=
  EndsExpression 0 kind ∧ kind ≠ .comma

instance (kind : Kind) : Decidable (EndsList kind) :=
  inferInstanceAs (Decidable (_ ∧ _))

theorem endsList_of_endsStatement
    {kind : Kind}
    (ends : endsStatement kind = true) :
    EndsList kind := by
  refine ⟨.of_endsStatement ends, ?_⟩
  rintro rfl
  cases ends

def ReadsExpressionTail (depth : Nat) (word : List Kind) : Prop :=
  Readable EndsList (fun deeper state => state.separated .comma deeper.anyExpression) depth word

def ReadsExpressions (depth : Nat) (word : List Kind) : Prop :=
  Readable EndsList Deeper.expressionList depth word

theorem readsExpressionTail_done : ReadsExpressionTail 0 [] := by
  intro levels rest state ends
  exact .separated_done levels (by decide) (grows_anyExpression (sound_level levels)) ends.2 state

section Lists

variable {firstDepth depth : Nat} {first others : List Kind}

/-- In front of further expressions stands a comma, or what ends the list. -/
theorem ends_before_tail
    {rest : List Kind}
    (front : ∀ kind ∈ others.head?, kind = .comma)
    (ends : EndsList (rest.headD .eof)) :
    EndsExpression 0 ((others ++ rest).headD .eof) := by
  refine behind_append (fun kind found => ?_) ends.1
  rw [front kind found]
  decide

theorem readsExpressionTail_more
    (front : ∀ kind ∈ others.head?, kind = .comma)
    (value : ReadsExpression firstDepth first)
    (tail : ReadsExpressionTail depth others) :
    ReadsExpressionTail (max firstDepth depth) (.comma :: (first ++ others)) := by
  intro levels rest state ends
  exact .separated_more (by decide) (grows_anyExpression (sound_level levels))
    (value levels _ _ (ends_before_tail front ends)) (tail levels rest _ ends)

theorem readsExpressions
    (front : ∀ kind ∈ others.head?, kind = .comma)
    (value : ReadsExpression firstDepth first)
    (tail : ReadsExpressionTail depth others) :
    ReadsExpressions (max firstDepth depth) (first ++ others) := by
  intro levels rest state ends
  exact .node ((value levels _ _ (ends_before_tail front ends)).append (tail levels rest _ ends))
    .exprList

end Lists

/-! ## Tables -/

/-- What may stand behind a table field. -/
def EndsField (kind : Kind) : Prop :=
  kind = .comma ∨ kind = .semicolon ∨ kind = .rightBrace

theorem EndsField.endsExpression
    {kind : Kind}
    (ends : EndsField kind) :
    EndsExpression 0 kind := by
  rcases ends with rfl | rfl | rfl <;> decide

def ReadsField (depth : Nat) (word : List Kind) : Prop :=
  Readable EndsField fieldContent depth word

theorem onward_fieldContent
    (levels : Nat)
    (state : State) :
    Onward state (fieldContent (level levels) state) :=
  (grows_fieldContent (sound_level levels) state).onward

theorem readsField_keyed
    {keyDepth depth : Nat}
    {key word : List Kind}
    (inside : ReadsExpression keyDepth key)
    (value : ReadsExpression depth word) :
    ReadsField (max keyDepth depth) (.leftBracket :: (key ++ .rightBracket :: .eq :: word)) := by
  intro levels rest state ends
  refine .assume (onward_fieldContent levels state) fun _ ahead => ?_
  have content : fieldContent (level levels) state =
      (level levels).anyExpression ((((level levels).anyExpression state.advance).expect
        .rightBracket).expect .eq) := by
    simp [fieldContent, isAt, current, ahead]
  rw [content]
  have bracket : EndsExpression 0 .rightBracket := by decide
  exact .taking (by decide) (.append (inside levels _ _ bracket)
    (.expecting (by decide) (.expecting (by decide)
      (value levels rest _ ends.endsExpression))))

theorem readsField_named
    {depth : Nat}
    {word : List Kind}
    (value : ReadsExpression depth word) :
    ReadsField depth (.name :: .eq :: word) := by
  intro levels rest state ends
  refine .assume (onward_fieldContent levels state) fun _ ahead => ?_
  have content : fieldContent (level levels) state =
      (level levels).anyExpression state.advance.advance := by
    simp [fieldContent, isAt, current, following, ahead]
  rw [content]
  exact .taking (by decide) (.taking (by decide) (value levels rest _ ends.endsExpression))

theorem readsField_positional
    {depth : Nat}
    {word : List Kind}
    (begins : Begins beginsExpression word)
    (value : ReadsExpression depth word) :
    ReadsField depth word := by
  intro levels rest state ends
  refine .assume (onward_fieldContent levels state) fun _ ahead => ?_
  obtain ⟨kind, others, rfl, isFirst, unassigned⟩ := begins
  have noKey : kind ≠ .leftBracket := by
    rintro rfl
    cases isFirst
  have noName : kind = .name → state.following ≠ .eq := by
    intro named
    have next := unassigned named
    cases others with
    | nil =>
        have behind : state.following = rest.headD .eof := by
          rw [following, ahead]
          rfl
        intro isEq
        rw [← behind, isEq] at ends
        rcases ends with isEnd | isEnd | isEnd <;> cases isEnd
    | cons other others => simpa [following, ahead] using next
  have content : fieldContent (level levels) state = (level levels).anyExpression state := by
    simp only [fieldContent, isAt, current, ahead]
    simp [noKey]
    intro named isEq
    exact absurd isEq (noName named)
  rw [content]
  exact value levels rest state ends.endsExpression

def ReadsFields (depth : Nat) (word : List Kind) : Prop :=
  Readable (· = .rightBrace) (fun deeper state => state.loop (field deeper)) depth word

/-- What a field reported is not taken back by the fields behind it. -/
theorem onward_fields_of_content
    {levels : Nat}
    {state : State}
    (ended : state.Ended)
    (more : (state.isAt .rightBrace || state.isAt .eof) = false) :
    Onward ((fieldContent (level levels) state.start).complete .tableField)
      (state.loop (field (level levels))) := by
  cases found : field (level levels) state with
  | next later =>
      have same : state.loop (field (level levels)) = later.loop (field (level levels)) :=
        iterate_next (shrinks_field levels) ended found
      rw [same]
      refine Onward.trans ?_ (onward_fields levels later)
      simp only [field, more, Bool.false_eq_true, ↓reduceIte] at found
      repeat' split at found
      all_goals cases found
      exact .advance _
  | last later =>
      have same : state.loop (field (level levels)) = later := iterate_last id ended found
      rw [same]
      simp only [field, more, Bool.false_eq_true, ↓reduceIte] at found
      repeat' split at found
      all_goals cases found
      · exact fun ended => ⟨ended, List.suffix_refl _⟩
      · exact .refl _

section Fields

variable {levels firstDepth depth : Nat} {first others rest behind : List Kind}

/-- A field that was read takes tokens, so what is behind it decides about the loop. -/
theorem outcome_fields
    {state : State}
    (begins : ∃ kind others, first = kind :: others ∧
      (kind = .leftBracket ∨ beginsExpression kind = true))
    (content : ReadsField firstDepth first)
    (ends : EndsField (behind.headD .eof))
    (ended : state.Ended)
    (ahead : state.ahead = first ++ behind)
    (after : ∀ complete : State, complete.Ended → complete.ahead = behind →
      field (level levels) state =
        (if complete.isAt .comma || complete.isAt .semicolon then .next complete.advance
          else .last complete) →
      Outcome levels depth rest complete (state.loop (field (level levels)))) :
    Outcome levels (max firstDepth depth) rest state (state.loop (field (level levels))) := by
  obtain ⟨kind, more, rfl, isFirst⟩ := begins
  have notClosed : (state.isAt .rightBrace || state.isAt .eof) = false := by
    have here : state.current = kind := by simp [current, ahead]
    rw [isAt, isAt, here]
    rcases isFirst with rfl | isFirst
    · rfl
    · cases kind <;> first | rfl | cases isFirst
  have outcome := ((content levels behind state.start ends).node .tableField).outcome ended ahead
  refine outcome.trans (onward_fields_of_content ended notClosed) fun _ found => ?_
  refine after _ outcome.ended found ?_
  have shorter : (fieldContent (level levels) state.start).ahead.length <
      state.start.ahead.length := by
    have lengths := congrArg List.length ahead
    have same := congrArg List.length found
    simp only [List.length_append, List.length_cons] at lengths
    simp only [State.complete, record, State.start] at same ⊢
    omega
  have moved : (fieldContent (level levels) state.start).position ≠ state.position :=
    (grows_fieldContent (sound_level levels) state.start).position_ne ended shorter
  simp only [field, notClosed, Bool.false_eq_true, ↓reduceIte, moved]

theorem readsFields_done : ReadsFields 0 [] := by
  intro levels rest state isEnd
  refine .loop_last (onward_fields levels state) (fun _ ahead => ?_) (.refl levels rest state)
  have here : state.current = .rightBrace := by
    rw [current, ahead]
    exact isEnd
  simp [field, isAt, here]

theorem readsFields_last
    (begins : ∃ kind others, first = kind :: others ∧
      (kind = .leftBracket ∨ beginsExpression kind = true))
    (content : ReadsField firstDepth first) :
    ReadsFields firstDepth first := by
  intro levels rest state isEnd
  refine ⟨onward_fields levels state, fun ended ahead => ?_⟩
  rw [← Nat.max_zero firstDepth]
  refine outcome_fields begins content (Or.inr (Or.inr isEnd)) ended ahead ?_
  intro complete completeEnded found round
  have here : complete.current = .rightBrace := by
    rw [current, found]
    exact isEnd
  have stepped : field (level levels) state = .last complete := by
    rw [round]
    simp [isAt, here]
  have last : state.loop (field (level levels)) = complete := iterate_last id ended stepped
  rw [last]
  exact .refl completeEnded found

theorem readsFields_more
    {separator : Kind}
    (begins : ∃ kind others, first = kind :: others ∧
      (kind = .leftBracket ∨ beginsExpression kind = true))
    (content : ReadsField firstDepth first)
    (separates : separator = .comma ∨ separator = .semicolon)
    (tail : ReadsFields depth others) :
    ReadsFields (max firstDepth depth) (first ++ separator :: others) := by
  intro levels rest state isEnd
  refine ⟨onward_fields levels state, fun ended ahead => ?_⟩
  have ends : EndsField ((separator :: (others ++ rest)).headD .eof) := by
    rcases separates with rfl | rfl
    · exact Or.inl rfl
    · exact Or.inr (Or.inl rfl)
  refine outcome_fields begins content ends ended (by simpa using ahead) ?_
  intro complete completeEnded found round
  have here : complete.current = separator := by
    rw [current, found]
    rfl
  have notEnd : separator ≠ .eof := by
    rcases separates with rfl | rfl <;> decide
  have stepped : field (level levels) state = .next complete.advance := by
    rw [round]
    rcases separates with rfl | rfl <;> simp [isAt, here]
  have next : state.loop (field (level levels)) =
      complete.advance.loop (field (level levels)) :=
    iterate_next (shrinks_field levels) ended stepped
  rw [next]
  have consumed := Consumes.taking notEnd (tail levels rest complete.advance isEnd)
  exact consumed.outcome completeEnded found

end Fields

/-- A rule that needs to know nothing about what stands behind its words. -/
def Anything (_ : Kind) : Prop :=
  True

theorem readable_table
    {depth : Nat}
    {word : List Kind}
    (content : ReadsFields depth word) :
    Readable Anything table depth (.leftBrace :: (word ++ [.rightBrace])) := by
  intro levels rest state _
  exact .node (.taking (by decide)
    (.closed (content levels _ _ rfl) (.expect levels (by decide) rest _))) .tableExpr

/-! ## Arguments -/

theorem onward_arguments
    (levels : Nat)
    (state : State) :
    Onward state (arguments (level levels) state) :=
  (grows_arguments (sound_level levels) state).onward

theorem readable_noArguments : Readable Anything arguments 0 [.leftParen, .rightParen] := by
  intro levels rest state _
  refine .assume (onward_arguments levels state) fun _ ahead => ?_
  have filled : arguments (level levels) state =
      (state.start.advance.expect .rightParen).complete .argList := by
    simp [arguments, isAt, current, State.advance, State.start, record, ahead]
  rw [filled]
  exact .node (.taking (by decide) (.expect levels (by decide) rest _)) .argList

theorem readable_listed
    {depth : Nat}
    {values : List Kind}
    (begins : Begins beginsExpression values)
    (valued : ReadsExpressions depth values) :
    Readable Anything arguments depth (.leftParen :: (values ++ [.rightParen])) := by
  intro levels rest state _
  refine .assume (onward_arguments levels state) fun _ ahead => ?_
  obtain ⟨kind, others, rfl, isFirst, _⟩ := begins
  have notClosed : kind ≠ .rightParen := by
    rintro rfl
    cases isFirst
  have filled : arguments (level levels) state =
      (((level levels).expressionList state.start.advance).expect .rightParen).complete
        .argList := by
    simp [arguments, isAt, current, State.advance, State.start, record, ahead, notClosed]
  rw [filled]
  have stop : EndsList .rightParen := by decide
  have list := valued levels (.rightParen :: rest) state.start.advance stop
  exact .node (.taking (by decide) (list.closed (.expect levels (by decide) rest _))) .argList

theorem readable_text : Readable Anything arguments 0 [.string] := by
  intro levels rest state _
  refine .assume (onward_arguments levels state) fun _ ahead => ?_
  have filled : arguments (level levels) state = state.start.advance.complete .argList := by
    simp [arguments, isAt, current, State.start, record, ahead]
  rw [filled]
  exact .node (.advance levels (by decide) rest _) .argList

theorem readable_record
    {depth : Nat}
    {word : List Kind}
    (begins : ∃ others, word = .leftBrace :: others)
    (constructed : Readable Anything table depth word) :
    Readable Anything arguments depth word := by
  intro levels rest state _
  refine .assume (onward_arguments levels state) fun _ ahead => ?_
  obtain ⟨others, rfl⟩ := begins
  have filled : arguments (level levels) state =
      (table (level levels) state.start).complete .argList := by
    simp [arguments, isAt, current, State.start, record, ahead]
  rw [filled]
  exact .node (constructed levels rest _ trivial) .argList

/-! ## Names and groups with suffixes -/

/-- A name or a group with suffixes is read in front of the loop that takes further ones. -/
def ReadsReference (role : Role) (depth : Nat) (word : List Kind) : Prop :=
  ∀ levels rest state, state.Ended → state.ahead = word ++ rest →
    ∃ reached : Kind × State,
      suffixed (level levels) state =
        (some (suffixes (level levels) reached).1, (suffixes (level levels) reached).2) ∧
      Outcome levels depth rest state reached.2 ∧
      (depth ≤ levels → role.Matches reached.1)

/-- In front of a token that begins no suffix the last one has been taken. -/
theorem suffix_of_ends
    {deeper : Deeper}
    {reached : Kind × State}
    (ends : beginsSuffix reached.2.current = false) :
    suffix deeper reached = .last reached := by
  obtain ⟨kind, state⟩ := reached
  simp only at ends
  have absent : ∀ other, beginsSuffix other = true → state.isAt other = false := by
    intro other begins
    refine decide_eq_false ?_
    rintro rfl
    rw [ends] at begins
    cases begins
  simp [suffix, absent .dot rfl, absent .leftBracket rfl, absent .colon rfl,
    absent .leftParen rfl, absent .string rfl, absent .leftBrace rfl]

theorem ReadsReference.whole
    {role : Role}
    {depth levels : Nat}
    {word rest : List Kind}
    {state : State}
    (reads : ReadsReference role depth word)
    (ends : beginsSuffix (rest.headD .eof) = false)
    (ended : state.Ended)
    (ahead : state.ahead = word ++ rest) :
    ∃ kind, (suffixed (level levels) state).1 = some kind ∧
      Outcome levels depth rest state (suffixed (level levels) state).2 ∧
      (depth ≤ levels → role.Matches kind) := by
  obtain ⟨reached, same, outcome, isOf⟩ := reads levels rest state ended ahead
  have stays : reached.2.ahead = rest → suffixes (level levels) reached = reached := by
    intro found
    refine iterate_last Prod.snd outcome.ended (suffix_of_ends ?_)
    rwa [current, found]
  rw [same]
  refine ⟨_, rfl, ?_, fun enough => ?_⟩
  · have whole : Outcome levels (max depth 0) rest state (suffixes (level levels) reached).2 := by
      refine outcome.trans (onward_suffixes levels reached) fun _ found => ?_
      rw [stays found]
      exact .refl outcome.ended found
    rwa [Nat.max_zero] at whole
  · rw [stays (outcome.reads enough).1]
    exact isOf enough

theorem suffixed_of_primary
    {deeper : Deeper}
    {state after : State}
    {kind : Kind}
    (found : primary deeper state = (some kind, after)) :
    suffixed deeper state =
      (some (suffixes deeper (kind, after)).1, (suffixes deeper (kind, after)).2) := by
  simp only [suffixed, found, suffixes]

theorem readsReference_name : ReadsReference .place 0 [.name] := by
  intro levels rest state ended ahead
  have consumed : Consumes levels 0 [.name] rest state (state.start.advance.complete .nameRef) :=
    .node (.advance levels (by decide) rest _) .nameRef
  have found : primary (level levels) state =
      (some .nameRef, state.start.advance.complete .nameRef) := by
    simp [primary, isAt, current, ahead]
  exact ⟨_, suffixed_of_primary found, consumed.outcome ended ahead,
    fun _ => by simp [Role.Matches]⟩

section References

variable {role : Role} {firstDepth depth : Nat} {word : List Kind}

theorem readsReference_group (inside : ReadsExpression depth word) :
    ReadsReference .group depth (.leftParen :: (word ++ [.rightParen])) := by
  intro levels rest state ended ahead
  have stop : EndsExpression 0 .rightParen := by decide
  have value := inside levels (.rightParen :: rest) state.start.advance stop
  have consumed := Consumes.node (.taking (by decide : Kind.leftParen ≠ .eof)
    (value.closed (.expect levels (by decide) rest _))) .parenExpr
  have found : primary (level levels) state = (some .parenExpr,
      (((level levels).anyExpression state.start.advance).expect .rightParen).complete
        .parenExpr) := by
    simp [primary, isAt, current, ahead]
  exact ⟨_, suffixed_of_primary found, consumed.outcome ended ahead,
    fun _ => by simp [Role.Matches]⟩

/-- A suffix that is read makes a longer word from a word that is read. -/
theorem readsReference_suffix
    {outer : Role}
    {behind : List Kind}
    (owner : ReadsReference role firstDepth word)
    (step : ∀ levels rest (reached : Kind × State), reached.2.ahead = behind ++ rest →
      ∃ later,
        suffix (level levels) reached = .next later ∧
        outer.Matches later.1 ∧
        Consumes levels depth behind rest reached.2 later.2) :
    ReadsReference outer (max firstDepth depth) (word ++ behind) := by
  intro levels rest state ended ahead
  obtain ⟨reached, same, outcome, _⟩ :=
    owner levels (behind ++ rest) state ended (by rw [ahead, List.append_assoc])
  by_cases enough : firstDepth ≤ levels
  · have found := (outcome.reads enough).1
    obtain ⟨later, stepped, isOf, consumed⟩ := step levels rest reached found
    have further : suffixes (level levels) reached = suffixes (level levels) later :=
      iterate_next (shrinks_suffix levels) outcome.ended stepped
    refine ⟨later, by rw [same, further], ?_, fun _ => isOf⟩
    exact outcome.trans consumed.onward fun _ found => consumed.outcome outcome.ended found
  · exact ⟨reached, same, outcome.short (by omega) depth rest, fun all => absurd all (by omega)⟩

theorem readsReference_member (owner : ReadsReference role depth word) :
    ReadsReference .place depth (word ++ [.dot, .name]) := by
  rw [← Nat.max_zero depth]
  refine readsReference_suffix owner fun levels rest reached ahead => ?_
  have stepped : suffix (level levels) reached = .next (.fieldExpr,
      (reached.2.precede.advance.expect .name).complete .fieldExpr) := by
    simp [suffix, isAt, current, ahead]
  refine ⟨_, stepped, by simp [Role.Matches], ?_⟩
  exact .around (.taking (by decide) (.expect levels (by decide) rest _)) .fieldExpr

theorem readsReference_index
    {key : List Kind}
    (owner : ReadsReference role firstDepth word)
    (inside : ReadsExpression depth key) :
    ReadsReference .place (max firstDepth depth)
      (word ++ .leftBracket :: (key ++ [.rightBracket])) := by
  refine readsReference_suffix owner fun levels rest reached ahead => ?_
  have stepped : suffix (level levels) reached = .next (.indexExpr,
      (((level levels).anyExpression reached.2.precede.advance).expect .rightBracket).complete
        .indexExpr) := by
    simp [suffix, isAt, current, ahead]
  refine ⟨_, stepped, by simp [Role.Matches], ?_⟩
  have stop : EndsExpression 0 .rightBracket := by decide
  have value := inside levels (.rightBracket :: rest) reached.2.precede.advance stop
  exact .around (.taking (by decide) (value.closed (.expect levels (by decide) rest _)))
    .indexExpr

theorem readsReference_call
    {given : List Kind}
    (begins : ∃ kind others, given = kind :: others ∧
      (kind = .leftParen ∨ kind = .string ∨ kind = .leftBrace))
    (callee : ReadsReference role firstDepth word)
    (arguments : Readable Anything arguments depth given) :
    ReadsReference .call (max firstDepth depth) (word ++ given) := by
  refine readsReference_suffix callee fun levels rest reached ahead => ?_
  obtain ⟨kind, others, rfl, isFirst⟩ := begins
  have stepped : suffix (level levels) reached = .next (.callExpr,
      (Grammar.arguments (level levels) reached.2.precede).complete .callExpr) := by
    rcases isFirst with rfl | rfl | rfl <;> simp [suffix, isAt, current, ahead]
  refine ⟨_, stepped, by simp [Role.Matches], ?_⟩
  exact .around (arguments levels rest _ trivial) .callExpr

theorem readsReference_methodCall
    {given : List Kind}
    (owner : ReadsReference role firstDepth word)
    (arguments : Readable Anything arguments depth given) :
    ReadsReference .call (max firstDepth depth) (word ++ .colon :: .name :: given) := by
  refine readsReference_suffix owner fun levels rest reached ahead => ?_
  have stepped : suffix (level levels) reached = .next (.methodCallExpr,
      (Grammar.arguments (level levels)
        (reached.2.precede.advance.expect .name)).complete .methodCallExpr) := by
    simp [suffix, isAt, current, ahead]
  refine ⟨_, stepped, by simp [Role.Matches], ?_⟩
  exact .around (.taking (by decide) (.expecting (by decide) (arguments levels rest _ trivial)))
    .methodCallExpr

end References

/-! ## Operands and operations -/

/-- What can be read as an operand begins the loop over the operators behind it. -/
theorem readsOperations_of_operand
    {least depth : Nat}
    {word : List Kind}
    (operand : ∀ levels rest state, beginsSuffix (rest.headD .eof) = false → state.Ended →
      state.ahead = word ++ rest →
      ∃ reached, Grammar.operand (level levels) state = (true, reached) ∧
        Outcome levels depth rest state reached) :
    ReadsOperations least depth word := by
  intro levels limit rest state _ yields ended ahead
  obtain ⟨reached, found, outcome⟩ := operand levels rest state yields.1 ended ahead
  exact ⟨reached, by simp [operations, found], outcome⟩

theorem readsOperations_constant
    {least : Nat}
    {kind : Kind}
    (isConstant : isConstant kind = true) :
    ReadsOperations least 0 [kind] := by
  refine readsOperations_of_operand fun levels rest state _ ended ahead => ?_
  have notEnd : kind ≠ .eof := by
    rintro rfl
    cases isConstant
  have here : state.current = kind := by simp [current, ahead]
  have consumed : ∀ node, Outcome levels 0 rest state (state.start.advance.complete node) :=
    fun node => (Consumes.node (.advance levels notEnd rest _) node).outcome ended ahead
  have found : ∃ node, operand (level levels) state =
      (true, state.start.advance.complete node) := by
    cases kind <;> cases isConstant <;> simp only [operand, simpleExpression, here] <;>
      exact ⟨_, rfl⟩
  obtain ⟨node, same⟩ := found
  exact ⟨_, same, consumed node⟩

theorem readsOperations_table
    {least depth : Nat}
    {word : List Kind}
    (begins : ∃ others, word = .leftBrace :: others)
    (constructed : Readable Anything table depth word) :
    ReadsOperations least depth word := by
  refine readsOperations_of_operand fun levels rest state _ ended ahead => ?_
  obtain ⟨others, rfl⟩ := begins
  have here : state.current = .leftBrace := by simp [current, ahead]
  exact ⟨_, by simp only [operand, simpleExpression, here],
    (constructed levels rest state trivial).outcome ended ahead⟩

theorem readsOperations_function
    {least depth : Nat}
    {body : List Kind}
    (inside : Readable Anything functionBody depth body) :
    ReadsOperations least depth (.functionKw :: body) := by
  refine readsOperations_of_operand fun levels rest state _ ended ahead => ?_
  have here : state.current = .functionKw := by simp [current, ahead]
  have consumed := Consumes.node (.taking (by decide : Kind.functionKw ≠ .eof)
    (inside levels rest state.start.advance trivial)) .functionExpr
  exact ⟨_, by simp only [operand, simpleExpression, here], consumed.outcome ended ahead⟩

theorem readsOperations_reference
    {least depth : Nat}
    {role : Role}
    {word : List Kind}
    (begins : Begins beginsReference word)
    (referred : ReadsReference role depth word) :
    ReadsOperations least depth word := by
  refine readsOperations_of_operand fun levels rest state ends ended ahead => ?_
  obtain ⟨kind, found, outcome, _⟩ := referred.whole ends ended ahead
  refine ⟨_, ?_, outcome⟩
  obtain ⟨first, others, rfl, isFirst, _⟩ := begins
  have here : state.current = first := by simp [current, ahead]
  cases first <;> cases isFirst <;> simp only [operand, simpleExpression, here] <;> simp [found]

theorem readsOperations_unary
    {least inner depth : Nat}
    {sign : Kind}
    {word : List Kind}
    (isSign : isUnary sign = true)
    (inside : ReadsOperations inner depth word)
    (binds : least ≤ unaryPrecedence)
    (tight : unaryPrecedence ≤ inner) :
    ReadsOperations least (depth + 1) (sign :: word) := by
  intro levels limit rest state _ yields ended ahead
  have notEnd : sign ≠ .eof := by
    rintro rfl
    cases isSign
  have here : state.current = sign := by simp [current, ahead]
  have ends : EndsExpression unaryPower (rest.headD .eof) := yields.mono (rightPower_mono binds)
  have operand := inside.readable (admits_unary tight) levels rest state.start.advance ends
  have consumed := Consumes.node (.taking notEnd operand) .prefixExpr
  refine ⟨_, ?_, consumed.outcome ended ahead⟩
  cases sign <;> cases isSign <;> simp only [operations, Grammar.operand, here] <;> rfl

theorem readsOperations_binary
    {least leftInner rightInner precedence leftDepth rightDepth : Nat}
    {sign : Kind}
    {left right : List Kind}
    (isSign : precedence? sign = some precedence)
    (leftOperand : ReadsOperations leftInner leftDepth left)
    (rightOperand : ReadsOperations rightInner rightDepth right)
    (above : least ≤ precedence)
    (leftTight : leftLeast precedence ≤ leftInner)
    (rightTight : rightLeast precedence ≤ rightInner) :
    ReadsOperations least (max leftDepth (rightDepth + 1)) (left ++ sign :: right) := by
  intro levels limit rest state admits yields ended ahead
  have admitsLeft : Admits limit leftInner := by
    refine admits.mono (above.trans (le_trans ?_ leftTight))
    unfold leftLeast
    split <;> omega
  obtain ⟨reached, same, outcome⟩ := leftOperand levels limit (sign :: (right ++ rest)) state
    admitsLeft (yields_sign isSign leftTight) ended (by simpa using ahead)
  by_cases enough : leftDepth ≤ levels
  · have found := (outcome.reads enough).1
    have here : reached.current = sign := by simp [current, found]
    have notEnd : sign ≠ .eof := by
      rintro rfl
      cases isSign
    have taken : limit < leftPower precedence :=
      admits precedence above (precedence?_range isSign).2.2
    have stepped : operation (level levels) limit reached =
        .next (((level levels).expression (rightPower precedence)
          reached.precede.advance).complete .binaryExpr) := by
      simp [operation, binaryPower?_eq, here, isSign, taken]
    have ends : EndsExpression (rightPower precedence) (rest.headD .eof) :=
      yields.mono (rightPower_mono above)
    have operand := rightOperand.readable (admits_right rightTight) levels rest
      reached.precede.advance ends
    have consumed := Consumes.around (.taking notEnd operand) .binaryExpr
    refine ⟨_, same.trans (iterate_next (shrinks_operation levels limit) outcome.ended stepped),
      ?_⟩
    exact outcome.trans consumed.onward fun _ found => consumed.outcome outcome.ended found
  · exact ⟨reached, same, outcome.short (by omega) _ rest⟩

end LuaFold.Grammar
