import LuaFold.Proofs.Grammar.Round

/-!
# Two parses abreast

The same tokens may be parsed in two surroundings: alone, and behind an earlier part of a text or
in front of a later one.  The two parses stand side by side when they have the same tokens ahead,
the one up to the end of its text and the other up to what stands behind, and have decided and
reported the same, apart from what the other one did before.

What stands behind is the end of the text again or begins with a semicolon.  No rule takes the end
of the text, and hardly any takes a semicolon, so the rules keep parses side by side.  There are
two exceptions.  Where a fault is reported in front of a semicolon the other parse may go on, so
nothing is said about such parses.  And a loop that takes semicolons ends in the first parse at
the end of its text, while it may go on in the other; where a closing token has to follow, that is
a fault in the first parse.
-/

namespace LuaFold.Grammar

open Form State

/-- A fault at a token further on. -/
def further (distance : Nat) (fault : SyntaxFault × Nat) : SyntaxFault × Nat :=
  (fault.1, fault.2 + distance)

/-- The kinds that a rule finds in both of two parses, or in neither. -/
def Certain (kind : Kind) : Prop :=
  kind ≠ .eof ∧ kind ≠ .semicolon

instance (kind : Kind) : Decidable (Certain kind) :=
  inferInstanceAs (Decidable (_ ∧ _))

/--
What one of two parses has around the tokens that both take: the kinds behind them and, from
before them, a number of tokens, the actions and the faults.
-/
structure Surroundings where
  behind : List Kind
  distance : Nat
  actions : List Action
  faults : List (SyntaxFault × Nat)
  closed : ∃ kinds, behind = kinds ++ [.eof] ∧ .eof ∉ kinds
  separates : behind = [.eof] ∨ behind.headD .eof = .semicolon

namespace Surroundings

variable (around : Surroundings)

/-- Two parses stand side by side. -/
structure Beside (one other : State) : Prop where
  ahead : ∃ kinds, one.ahead = kinds ++ [.eof] ∧ other.ahead = kinds ++ around.behind ∧
    .eof ∉ kinds
  position : other.position = one.position + around.distance
  actions : other.actions = one.actions ++ around.actions
  faults : other.faults = one.faults.map (further around.distance) ++ around.faults

/-- A parse of tokens that something else stands behind has reported a fault. -/
def Faulty (one : State) : Prop :=
  around.behind ≠ [.eof] ∧ one.faults ≠ []

/-- A parse of tokens that something else stands behind has taken all of them. -/
def Spent (one : State) : Prop :=
  around.behind ≠ [.eof] ∧ one.current = .eof

/-- Two parses stand side by side, or the first one has taken all of its tokens. -/
def Abreast (one other : State) : Prop :=
  around.Beside one other ∨ around.Spent one

/-- Two parses stand side by side and know the same. -/
def Alike {Known : Type} (one other : Known × State) : Prop :=
  one.1 = other.1 ∧ around.Beside one.2 other.2

variable {around} {one other : State}

namespace Beside

theorem ended (beside : around.Beside one other) : one.Ended := by
  obtain ⟨kinds, ahead, _, absent⟩ := beside.ahead
  exact ⟨kinds, ahead, absent⟩

theorem ended_other (beside : around.Beside one other) : other.Ended := by
  obtain ⟨kinds, _, ahead, absent⟩ := beside.ahead
  obtain ⟨others, behind, absentBehind⟩ := around.closed
  refine ⟨kinds ++ others, ?_, by simp [absent, absentBehind]⟩
  rw [ahead, behind, List.append_assoc]

/-- Where nothing else stands behind, the same tokens are ahead. -/
theorem ahead_eq
    (beside : around.Beside one other)
    (alone : around.behind = [.eof]) :
    other.ahead = one.ahead := by
  obtain ⟨kinds, ahead, aheadOther, _⟩ := beside.ahead
  rw [ahead, aheadOther, alone]

/-- The same token is current, unless one parse has taken all of its tokens. -/
theorem current_eq
    (beside : around.Beside one other)
    (more : ¬ around.Spent one) :
    other.current = one.current := by
  by_cases alone : around.behind = [.eof]
  · rw [current, beside.ahead_eq alone, current]
  · obtain ⟨kinds, ahead, aheadOther, _⟩ := beside.ahead
    cases kinds with
    | nil => exact absurd ⟨alone, by simp [current, ahead]⟩ more
    | cons kind kinds => simp [current, ahead, aheadOther]

theorem current_of_spent
    (beside : around.Beside one other)
    (spent : around.Spent one) :
    other.current = .semicolon := by
  obtain ⟨others, isEnd⟩ := spent
  obtain ⟨kinds, ahead, aheadOther, absent⟩ := beside.ahead
  cases kinds with
  | nil =>
      rw [current, aheadOther, List.nil_append]
      exact around.separates.resolve_left others
  | cons kind kinds =>
      have first : kind = .eof := by simpa [current, ahead] using isEnd
      exact absurd (by simp [first]) absent

/-- A rule that looks for neither the end of the text nor a semicolon finds the same. -/
theorem isAt_eq
    (beside : around.Beside one other)
    {kind : Kind}
    (certain : Certain kind) :
    other.isAt kind = one.isAt kind := by
  obtain ⟨notEnd, notSemicolon⟩ := certain
  by_cases spent : around.Spent one
  · simp [isAt, beside.current_of_spent spent, spent.2, notEnd.symm, notSemicolon.symm]
  · rw [isAt, beside.current_eq spent, isAt]

theorem following_iff
    (beside : around.Beside one other)
    {kind : Kind}
    (certain : Certain kind)
    (more : ¬ around.Spent one) :
    other.following = kind ↔ one.following = kind := by
  obtain ⟨notEnd, notSemicolon⟩ := certain
  by_cases alone : around.behind = [.eof]
  · rw [following, beside.ahead_eq alone, following]
  · have separates := around.separates.resolve_left alone
    obtain ⟨kinds, ahead, aheadOther, _⟩ := beside.ahead
    rcases kinds with _ | ⟨first, _ | ⟨second, others⟩⟩
    · exact absurd ⟨alone, by simp [current, ahead]⟩ more
    · simp [following, ahead, aheadOther, -List.headD_eq_head?_getD, separates, notEnd.symm,
        notSemicolon.symm]
    · simp [following, ahead, aheadOther]

theorem record
    (beside : around.Beside one other)
    (action : Action) :
    around.Beside (one.record action) (other.record action) :=
  ⟨beside.ahead, beside.position, by simp [State.record, beside.actions], beside.faults⟩

theorem report
    (beside : around.Beside one other)
    (fault : SyntaxFault) :
    around.Beside (one.report fault) (other.report fault) :=
  ⟨beside.ahead, beside.position, beside.actions,
    by simp [State.report, further, beside.faults, beside.position]⟩

theorem advance
    (beside : around.Beside one other)
    (notEnd : one.current ≠ .eof) :
    around.Beside one.advance other.advance := by
  have same : other.current = one.current := beside.current_eq fun spent => notEnd spent.2
  have notEndOther : other.current ≠ .eof := by rwa [same]
  have stepped (state : State) (notEnd : state.current ≠ .eof) : state.advance =
      ⟨state.ahead.tail, state.position + 1, .advance :: state.actions, state.faults⟩ := by
    simp [State.advance, isAt, notEnd]
  rw [stepped one notEnd, stepped other notEndOther]
  obtain ⟨kinds, ahead, aheadOther, absent⟩ := beside.ahead
  cases kinds with
  | nil => simp [current, ahead] at notEnd
  | cons kind kinds =>
      have absentBehind : .eof ∉ kinds := fun member => absent (List.mem_cons_of_mem kind member)
      refine ⟨⟨kinds, ?_, ?_, absentBehind⟩, ?_, ?_, beside.faults⟩
      · simp [ahead]
      · simp [aheadOther]
      · simp only [beside.position]
        omega
      · simp [beside.actions]

end Beside

/-! ## Rules that keep two parses side by side -/

variable (around) in
/--
A rule leads the first of two parses to a state.  If they stood side by side, and no fault came
between, then something is the case behind the rule.
-/
structure Follows (one other after : State) (result : Prop) : Prop where
  onward : Onward one after
  outcome : around.Beside one other → ¬ around.Faulty after → result

variable (around) in
/-- A rule keeps two parses side by side. -/
def Keeps (rule : State → State) : Prop :=
  ∀ one other, around.Follows one other (rule one) (around.Beside (rule one) (rule other))

/-- No fault is taken back. -/
theorem not_faulty_of_onward
    {after : State}
    (onward : Onward one after)
    (ended : one.Ended)
    (sound : ¬ around.Faulty after) :
    ¬ around.Faulty one := by
  rintro ⟨others, faults⟩
  refine sound ⟨others, fun none => faults ?_⟩
  exact List.suffix_nil.mp (none ▸ (onward ended).2)

namespace Follows

variable {middle middleOther after afterOther : State} {result next : Prop}

theorem refl (one other : State) : around.Follows one other one (around.Beside one other) :=
  ⟨.refl one, fun beside _ => beside⟩

theorem mono
    (follows : around.Follows one other after result)
    (implies : result → next) :
    around.Follows one other after next :=
  ⟨follows.onward, fun beside sound => implies (follows.outcome beside sound)⟩

/-- A rule may look at the tokens that both parses stand before. -/
theorem assume
    (onward : Onward one after)
    (follows : around.Beside one other → around.Follows one other after result) :
    around.Follows one other after result :=
  ⟨onward, fun beside => (follows beside).outcome beside⟩

/-- What is the case behind one part may be used behind the next one. -/
theorem andThen
    (follows : around.Follows one other middle result)
    (onward : Onward middle after)
    (behind : result → ¬ around.Faulty after → next) :
    around.Follows one other after next := by
  refine ⟨follows.onward.trans onward, fun beside sound => ?_⟩
  have soundBefore : ¬ around.Faulty middle :=
    not_faulty_of_onward onward (follows.onward beside.ended).1 sound
  exact behind (follows.outcome beside soundBefore) sound

theorem trans
    (follows : around.Follows one other middle (around.Beside middle middleOther))
    (behind : around.Follows middle middleOther after result) :
    around.Follows one other after result :=
  follows.andThen behind.onward behind.outcome

/-- A part that does nothing at the end of a text may stand behind one that reaches it. -/
theorem beyond
    (follows : around.Follows one other middle (around.Abreast middle middleOther))
    (behind : around.Follows middle middleOther after (around.Abreast after afterOther))
    (stays : middle.current = .eof → after = middle) :
    around.Follows one other after (around.Abreast after afterOther) := by
  refine follows.andThen behind.onward fun abreast sound => ?_
  rcases abreast with beside | spent
  · exact behind.outcome beside sound
  · rw [stays spent.2]
    exact Or.inr spent

theorem record
    (follows : around.Follows one other after (around.Beside after afterOther))
    (action : Action) :
    around.Follows one other (after.record action)
      (around.Beside (after.record action) (afterOther.record action)) :=
  follows.andThen (.record after action) fun beside _ => beside.record action

theorem recorded
    {action : Action}
    (follows : around.Follows (one.record action) (other.record action) after result) :
    around.Follows one other after result :=
  ⟨(Onward.record one action).trans follows.onward, fun beside =>
    follows.outcome (beside.record action)⟩

/-- A node around what both parses take. -/
theorem node
    (inside : around.Follows one.start other.start after (around.Beside after afterOther))
    (kind : Kind) :
    around.Follows one other (after.complete kind)
      (around.Beside (after.complete kind) (afterOther.complete kind)) :=
  recorded (inside.record _)

/-- A node around an element that stands before what both parses take. -/
theorem wrap
    (inside : around.Follows one.precede other.precede after (around.Beside after afterOther))
    (kind : Kind) :
    around.Follows one other (after.complete kind)
      (around.Beside (after.complete kind) (afterOther.complete kind)) :=
  recorded (inside.record _)

theorem record_abreast
    (follows : around.Follows one other after (around.Abreast after afterOther))
    (action : Action) :
    around.Follows one other (after.record action)
      (around.Abreast (after.record action) (afterOther.record action)) :=
  follows.andThen (.record after action) fun abreast _ =>
    abreast.imp (fun beside => beside.record action) id

theorem node_abreast
    (inside : around.Follows one.start other.start after (around.Abreast after afterOther))
    (kind : Kind) :
    around.Follows one other (after.complete kind)
      (around.Abreast (after.complete kind) (afterOther.complete kind)) :=
  recorded (inside.record_abreast _)

/-! ## Faults -/

/-- Where a fault is reported, only parses in front of the end of the text matter. -/
theorem reported
    {fault : SyntaxFault}
    (onward : Onward (one.report fault) after)
    (alone : around.behind = [.eof] → around.Beside one other → result) :
    around.Follows one other after result := by
  have moved : Onward one (one.report fault) :=
    fun ended => ⟨ended, List.suffix_cons _ _⟩
  refine ⟨moved.trans onward, fun beside sound => ?_⟩
  by_cases single : around.behind = [.eof]
  · exact alone single beside
  · have reportedEnded : (one.report fault).Ended := beside.ended
    have found : ¬ around.Faulty (one.report fault) :=
      not_faulty_of_onward onward reportedEnded sound
    exact absurd ⟨single, by simp [State.report]⟩ found

theorem report (fault : SyntaxFault) : around.Keeps (·.report fault) := fun one _ =>
  reported (.refl (one.report fault)) fun _ beside => beside.report fault

theorem onward_reportAndAdvance
    (state : State)
    (fault : SyntaxFault) :
    Onward (state.report fault) (state.reportAndAdvance fault) := by
  rw [State.reportAndAdvance]
  split
  · exact .refl _
  · have advanced : Onward (state.start.report fault) (state.start.report fault).advance :=
      .advance _
    exact advanced.trans (.record _ _)

theorem beside_reportAndAdvance
    (alone : around.behind = [.eof])
    (beside : around.Beside one other)
    (fault : SyntaxFault) :
    around.Beside (one.reportAndAdvance fault) (other.reportAndAdvance fault) := by
  have same : other.current = one.current := beside.current_eq fun spent => spent.1 alone
  simp only [State.reportAndAdvance, isAt, same, decide_eq_true_eq]
  split
  · exact beside.report fault
  · next notEnd =>
    exact (((beside.record .start).report fault).advance notEnd).record _

theorem reportAndAdvance (fault : SyntaxFault) : around.Keeps (·.reportAndAdvance fault) :=
  fun one _ => reported (onward_reportAndAdvance one fault) fun alone beside =>
    beside_reportAndAdvance alone beside fault

theorem recover
    (fault : SyntaxFault)
    (usable : KindSet) :
    around.Keeps (·.recover fault usable) := by
  intro one other
  have onward : Onward (one.report fault) (one.recover fault usable) := by
    rw [State.recover]
    split
    · exact .refl _
    · exact onward_reportAndAdvance one fault
  refine reported onward fun alone beside => ?_
  have same : other.current = one.current := beside.current_eq fun spent => spent.1 alone
  have usableOther : other.isIn usable = one.isIn usable := by simp only [isIn, same]
  show around.Beside (one.recover fault usable) (other.recover fault usable)
  rw [State.recover, State.recover, usableOther]
  split
  · exact beside.report fault
  · exact beside_reportAndAdvance alone beside fault

/-! ## Tokens -/

theorem advance
    {one : State}
    (other : State)
    (notEnd : one.current ≠ .eof) :
    around.Follows one other one.advance (around.Beside one.advance other.advance) :=
  ⟨.advance one, fun beside _ => beside.advance notEnd⟩

theorem take
    {one : State}
    (other : State)
    {kind : Kind}
    (found : one.current = kind)
    (notEnd : kind ≠ .eof) :
    around.Follows one other one.advance (around.Beside one.advance other.advance) :=
  advance other (by rwa [found])

variable (around) in
/-- The first token of a node. -/
theorem takeFirst
    {one : State}
    (other : State)
    {kind : Kind}
    (found : one.current = kind)
    (notEnd : kind ≠ .eof) :
    around.Follows one.start other.start one.start.advance
      (around.Beside one.start.advance other.start.advance) :=
  take other.start found notEnd

section Choice

variable {Value : Type} (stateOf : Value → State) (relation : Value → Value → Prop)

/-- A choice that parses that stand side by side agree about. -/
theorem agreed
    {condition conditionOther : Prop}
    [Decidable condition]
    [Decidable conditionOther]
    {taken takenOther left leftOther : Value}
    (agree : around.Beside one other → (conditionOther ↔ condition))
    (take : condition → around.Follows one other (stateOf taken) (relation taken takenOther))
    (leave : ¬ condition →
      around.Follows one other (stateOf left) (relation left leftOther)) :
    around.Follows one other (stateOf (if condition then taken else left))
      (relation (if condition then taken else left)
        (if conditionOther then takenOther else leftOther)) := by
  refine ⟨?_, fun beside => ?_⟩
  · split
    · next holds => exact (take holds).onward
    · next fails => exact (leave fails).onward
  · simp only [agree beside]
    split
    · next holds => exact (take holds).outcome beside
    · next fails => exact (leave fails).outcome beside

/-- A choice by a token. -/
theorem choice
    {kind : Kind}
    (certain : Certain kind)
    {taken takenOther left leftOther : Value}
    (take : one.current = kind →
      around.Follows one other (stateOf taken) (relation taken takenOther))
    (leave : one.current ≠ kind →
      around.Follows one other (stateOf left) (relation left leftOther)) :
    around.Follows one other (stateOf (if one.isAt kind then taken else left))
      (relation (if one.isAt kind then taken else left)
        (if other.isAt kind then takenOther else leftOther)) :=
  agreed stateOf relation (fun beside => by rw [beside.isAt_eq certain])
    (fun found => take (isAt_iff.mp found)) fun missed => leave (mt isAt_iff.mpr missed)

end Choice

theorem expect {kind : Kind} (certain : Certain kind) : around.Keeps (·.expect kind) :=
  fun one other => choice id around.Beside certain (fun found => take other found certain.1)
    fun _ => report (.expected kind) one other

/-- Where a text ends, a closing token is missing. -/
theorem close
    (follows : around.Follows one other middle (around.Abreast middle middleOther))
    {kind : Kind}
    (certain : Certain kind) :
    around.Follows one other (middle.expect kind)
      (around.Beside (middle.expect kind) (middleOther.expect kind)) := by
  have closing : around.Follows middle middleOther _ _ :=
    expect certain middle middleOther
  refine follows.andThen closing.onward fun abreast sound => ?_
  rcases abreast with beside | ⟨others, isEnd⟩
  · exact closing.outcome beside sound
  · have missed : middle.expect kind = middle.report (.expected kind) := by
      simp [State.expect, isAt, isEnd, certain.1.symm]
    exact absurd ⟨others, by simp [missed, State.report]⟩ sound

end Follows

/-! ## Loops -/

end Surroundings

/-- Two rounds end in the same way, in related states. -/
inductive Turn.Both
    {Value : Type}
    (relation : Value → Value → Prop) :
    Turn Value → Turn Value → Prop where
  | next
      {value other : Value}
      (related : relation value other) :
      Both relation (.next value) (.next other)
  | last
      {value other : Value}
      (related : relation value other) :
      Both relation (.last value) (.last other)

namespace Turn

variable {Value : Type} {relation : Value → Value → Prop}

theorem Both.of_next
    {value : Value}
    {turn : Turn Value}
    (both : Both relation (.next value) turn) :
    ∃ other, turn = .next other ∧ relation value other := by
  cases both with
  | next related => exact ⟨_, rfl, related⟩

theorem Both.of_last
    {value : Value}
    {turn : Turn Value}
    (both : Both relation (.last value) turn) :
    ∃ other, turn = .last other ∧ relation value other := by
  cases both with
  | last related => exact ⟨_, rfl, related⟩

/-- Rounds that take the same choice end in the same way if they do so in either case. -/
theorem Both.choice
    {condition : Prop}
    [Decidable condition]
    {taken takenOther left leftOther : Turn Value}
    (take : condition → Both relation taken takenOther)
    (leave : ¬ condition → Both relation left leftOther) :
    Both relation (if condition then taken else left)
      (if condition then takenOther else leftOther) := by
  split
  · next holds => exact take holds
  · next fails => exact leave fails

end Turn

/-- Rounds that take no fault back make a loop that takes none back. -/
theorem State.onward_loop
    {Value : Type}
    {stateOf : Value → State}
    {round : Value → Turn Value}
    (onward : ∀ value, Onward (stateOf value) (stateOf (round value).reached))
    (value : Value) :
    Onward (stateOf value) (stateOf (iterate round (stateOf value).ahead value)) := by
  refine onward_iterate stateOf ?_ ?_ _ value
  · intro value later found
    simpa [found, Turn.reached] using onward value
  · intro value later found
    simpa [found, Turn.reached] using onward value

namespace Surroundings

/-- What the rounds of a loop keep, up to where it ends whatever the other parse does. -/
def Rounds (around : Surroundings) (ending : State → Prop) (turn other : Turn State) : Prop :=
  Turn.Both around.Beside turn other ∨ ending turn.reached

variable {around : Surroundings} {one other : State}

namespace Follows

section Iterate

variable {Value : Type} {stateOf : Value → State} {round : Value → Turn Value}
  {paired : Value → Value → Prop} (ending : Value → Prop)

/--
A loop whose rounds keep parses side by side does so too, up to where it ends in the first parse
whatever it does in the other.
-/
theorem iterate
    (shrinks : Shrinks stateOf round)
    (onward : ∀ value, Onward (stateOf value) (stateOf (round value).reached))
    (ends : ∀ value, ending value → round value = .last value)
    (beside : ∀ value other, paired value other →
      around.Beside (stateOf value) (stateOf other))
    (rounds : ∀ value other, paired value other →
      ¬ around.Faulty (stateOf (round value).reached) →
      Turn.Both paired (round value) (round other) ∨ ending (round value).reached)
    {value other : Value}
    (related : paired value other)
    (sound : ¬ around.Faulty (stateOf (Grammar.iterate round (stateOf value).ahead value))) :
    paired (Grammar.iterate round (stateOf value).ahead value)
        (Grammar.iterate round (stateOf other).ahead other) ∨
      ending (Grammar.iterate round (stateOf value).ahead value) := by
  -- how many tokens the first parse has ahead shrinks with every round
  induction count : (stateOf value).ahead.length using Nat.strong_induction_on
    generalizing value other with
  | _ count ih =>
      subst count
      have ended := (beside value other related).ended
      have endedOther := (beside value other related).ended_other
      have outcome := rounds value other related
      cases found : round value with
      | next later =>
          obtain ⟨endedLater, smaller⟩ := shrinks value later ended found
          rw [iterate_next shrinks ended found] at sound ⊢
          rw [found, Turn.reached] at outcome
          rcases outcome (not_faulty_of_onward (onward_loop onward later) endedLater sound) with
            both | ending
          · obtain ⟨laterOther, foundOther, relatedLater⟩ := both.of_next
            rw [iterate_next shrinks endedOther foundOther]
            exact ih _ smaller relatedLater sound rfl
          · have stays : Grammar.iterate round (stateOf later).ahead later = later :=
              iterate_last stateOf endedLater (ends later ending)
            rw [stays]
            exact Or.inr ending
      | last later =>
          rw [iterate_last stateOf ended found] at sound ⊢
          rw [found, Turn.reached] at outcome
          refine (outcome sound).imp (fun both => ?_) id
          obtain ⟨laterOther, foundOther, relatedLater⟩ := both.of_last
          rwa [iterate_last stateOf endedOther foundOther]

end Iterate

section Rounds

variable {ending : State → Prop} {after afterOther : State}

theorem next (follows : around.Follows one other after (around.Beside after afterOther)) :
    around.Follows one other (Turn.next after).reached
      (around.Rounds ending (.next after) (.next afterOther)) :=
  follows.mono fun related => Or.inl (.next related)

theorem last (follows : around.Follows one other after (around.Beside after afterOther)) :
    around.Follows one other (Turn.last after).reached
      (around.Rounds ending (.last after) (.last afterOther)) :=
  follows.mono fun related => Or.inl (.last related)

/-- A round that stops at the end of the text, and at other tokens that pass a test. -/
theorem guarded
    (test : Kind → Bool)
    (stops : test .eof = true)
    {turn turnOther : Turn State}
    (rounds : one.current ≠ .eof → around.Follows one other turn.reached
      (around.Rounds around.Spent turn turnOther)) :
    around.Follows one other (if test one.current then Turn.last one else turn).reached
      (around.Rounds around.Spent (if test one.current then .last one else turn)
        (if test other.current then .last other else turnOther)) := by
  have more (passed : ¬ test one.current = true) : one.current ≠ .eof := by
    intro isEnd
    rw [isEnd] at passed
    exact passed stops
  refine ⟨?_, fun beside => ?_⟩
  · split
    · exact .refl one
    · next passed => exact (rounds (more passed)).onward
  · by_cases spent : around.Spent one
    · have stopped : test one.current = true := by rwa [spent.2]
      rw [if_pos stopped]
      exact fun _ => Or.inr spent
    · rw [beside.current_eq spent]
      split
      · exact fun _ => Or.inl (.last beside)
      · next passed => exact (rounds (more passed)).outcome beside

/-- A round that goes on at some tokens, and never at the end of the text. -/
theorem resumed
    (test : Kind → Bool)
    (stops : test .eof = false)
    {taken takenOther : State}
    (take : test one.current = true →
      around.Follows one other taken (around.Beside taken takenOther)) :
    around.Follows one other (if test one.current then Turn.next taken else .last one).reached
      (around.Rounds around.Spent (if test one.current then Turn.next taken else .last one)
        (if test other.current then .next takenOther else .last other)) := by
  refine ⟨?_, fun beside => ?_⟩
  · split
    · next passed => exact (take passed).onward
    · exact .refl one
  · by_cases spent : around.Spent one
    · have stopped : ¬ test one.current = true := by
        rw [spent.2, stops]
        exact Bool.false_ne_true
      rw [if_neg stopped]
      exact fun _ => Or.inr spent
    · rw [beside.current_eq spent]
      split
      · next passed => exact (next (take passed)).outcome beside
      · exact fun _ => Or.inl (.last beside)

end Rounds

/-- A loop over the tokens that both parses take. -/
theorem loop
    {round : State → Turn State}
    (ending : State → Prop)
    (shrinks : Shrinks id round)
    (ends : ∀ state, ending state → round state = .last state)
    (rounds : ∀ one other, around.Follows one other (round one).reached
      (around.Rounds ending (round one) (round other)))
    (one other : State) :
    around.Follows one other (one.loop round)
      (around.Beside (one.loop round) (other.loop round) ∨ ending (one.loop round)) := by
  have onward (state : State) : Onward state (round state).reached :=
    (rounds state state).onward
  have shrinksRound : Shrinks id round := shrinks
  exact ⟨onward_loop onward one, fun beside sound =>
    iterate ending shrinks onward ends (fun _ _ related => related)
      (fun one other => (rounds one other).outcome) beside sound⟩

theorem separated
    {separator : Kind}
    {item : State → State}
    {form : Form}
    (certain : Certain separator)
    (grows : ∀ state, Grows form state (item state))
    (items : around.Keeps item) :
    around.Keeps (·.separated separator item) := by
  intro one other
  refine (loop (fun _ => False) (shrinks_separated certain.1 grows) nofun ?_ one
    other).mono (·.resolve_right id)
  intro one other
  exact choice Turn.reached (around.Rounds _) certain
    (fun found => next ((take other found certain.1).trans (items _ _)))
    fun _ => last (refl one other)

/-! ## Skipping -/

theorem onward_skipToken (inside : Nat × State) :
    Onward inside.2 (skipToken inside).reached.2 := by
  cases found : skipToken inside with
  | next later =>
      rw [Turn.reached, (skipToken_next found).2]
      exact .advance inside.2
  | last later =>
      rw [Turn.reached, skipToken_last found]
      exact .refl inside.2

theorem shrinks_skipToken : Shrinks Prod.snd skipToken := by
  intro inside later ended found
  obtain ⟨notEnd, stepped⟩ := skipToken_next found
  rw [stepped]
  have grows : Grows (token inside.2.current) inside.2 inside.2.advance := .advance notEnd
  exact ⟨grows.ended ended, grows.ahead_length_lt (carries_token _) ended⟩

/-- Only the current token decides on a round of skipping. -/
theorem both_skipToken
    (alone : around.behind = [.eof])
    {inside other : Nat × State}
    (alike : around.Alike inside other) :
    Turn.Both around.Alike (skipToken inside) (skipToken other) := by
  obtain ⟨depth, one⟩ := inside
  obtain ⟨_, other⟩ := other
  obtain ⟨rfl, beside⟩ : depth = _ ∧ around.Beside one other := alike
  have same : other.current = one.current := beside.current_eq fun spent => spent.1 alone
  simp only [skipToken, isAt, isIn, same]
  refine .choice (fun _ => .last ⟨rfl, beside⟩) fun notEnd => ?_
  have advanced : around.Beside one.advance other.advance :=
    beside.advance (by simpa using notEnd)
  refine .choice (fun _ => .next ⟨rfl, advanced⟩) fun _ => .choice (fun _ => ?_) fun _ => ?_
  · exact .choice (fun _ => .last ⟨rfl, beside⟩) fun _ => .next ⟨rfl, advanced⟩
  · exact .choice (fun _ => .last ⟨rfl, beside⟩) fun _ => .next ⟨rfl, advanced⟩

theorem beside_skipBalanced
    (alone : around.behind = [.eof])
    (beside : around.Beside one other) :
    around.Beside one.skipBalanced other.skipBalanced := by
  have sound (state : State) : ¬ around.Faulty state := fun faulty => faulty.1 alone
  have start : around.Alike (0, one) (0, other) := ⟨rfl, beside⟩
  have skipped := iterate (fun _ => False) shrinks_skipToken onward_skipToken (fun _ => False.elim)
    (fun _ _ alike => alike.2) (fun _ _ alike _ => Or.inl (both_skipToken alone alike)) start
    (sound _)
  exact (skipped.resolve_right id).2

/-- Skipping reports a fault before it looks ahead. -/
theorem skip : around.Keeps State.skip := by
  intro one other
  have onward : Onward (one.start.report .nestingTooDeep) one.skip := by
    have skipped := (grows_skipBalanced (one.start.report .nestingTooDeep)).onward
    simp only [State.skip]
    split
    · exact skipped.trans (.record _ .abandon)
    · exact skipped.trans (.record _ (.complete .error))
  refine recorded (reported onward fun alone beside => ?_)
  have skipped : around.Beside (one.start.report .nestingTooDeep).skipBalanced
      (other.start.report .nestingTooDeep).skipBalanced :=
    beside_skipBalanced alone (beside.report .nestingTooDeep)
  have before : other.position = one.position + around.distance := beside.position
  have behind := skipped.position
  have stuck : (other.start.report .nestingTooDeep).skipBalanced.position = other.position ↔
      (one.start.report .nestingTooDeep).skipBalanced.position = one.position := by
    omega
  simp only [State.skip, stuck]
  split
  · exact skipped.record .abandon
  · exact skipped.record (.complete .error)

end Follows

/-! ## Blocks and lists -/

variable (around) in
/-- The rules of a nesting level keep parses side by side; a block may end with the text. -/
structure Keeping (levels : Nat) : Prop where
  statements (terminators : KindSet) (one other : State) :
    around.Follows one other ((level levels).statements terminators one)
      (around.Abreast ((level levels).statements terminators one)
        ((level levels).statements terminators other))
  expression (limit : Nat) : around.Keeps ((level levels).expression limit)

namespace Follows

variable {levels : Nat}

theorem block
    (keeping : around.Keeping levels)
    (one other : State) :
    around.Follows one other ((level levels).nestedBlock one)
      (around.Abreast ((level levels).nestedBlock one) ((level levels).nestedBlock other)) :=
  .node_abreast (keeping.statements blockEnd one.start other.start) .block

theorem anyExpression (keeping : around.Keeping levels) :
    around.Keeps (level levels).anyExpression :=
  keeping.expression 0

theorem expressionList (keeping : around.Keeping levels) :
    around.Keeps (level levels).expressionList := fun one other =>
  .node ((anyExpression keeping one.start other.start).trans
    (separated (by decide) (grows_anyExpression (sound_level levels))
      (anyExpression keeping) _ _)) .exprList

/-! ## Functions -/

theorem parameter (one other : State) :
    around.Follows one other (Grammar.parameter one).reached
      (around.Rounds around.Spent (Grammar.parameter one) (Grammar.parameter other)) := by
  refine guarded (fun kind => kind = .rightParen || kind = .eof) rfl fun _ => ?_
  refine choice Turn.reached (around.Rounds _) (by decide) (fun isName => ?_)
    fun _ => choice Turn.reached (around.Rounds _) (by decide) (fun isRest => ?_)
      fun _ => last (report .expectedParameterName one other)
  · have named : around.Follows one other (one.start.advance.complete .param)
        (around.Beside (one.start.advance.complete .param) (other.start.advance.complete .param)) :=
      .node (take other.start isName (by decide)) .param
    exact named.trans (choice Turn.reached (around.Rounds _) (by decide)
      (fun isComma => next (take _ isComma (by decide))) fun _ => last (refl _ _))
  · exact last (.node (take other.start isRest (by decide)) .param)

theorem parameters
    (one other : State)
    (found : one.current = .leftParen) :
    around.Follows one other (Grammar.parameters one)
      (around.Beside (Grammar.parameters one) (Grammar.parameters other)) := by
  have opened := takeFirst around other found (by decide)
  have listed := loop around.Spent shrinks_parameter (fun state spent => by
    simp [Grammar.parameter, isAt, spent.2]) parameter one.start.advance other.start.advance
  exact .node (opened.trans (.close listed (by decide))) .paramList

theorem functionBody (keeping : around.Keeping levels) :
    around.Keeps (Grammar.functionBody (level levels)) := by
  intro one other
  refine .node (.close (.trans (choice id around.Beside (by decide) (fun found => ?_)
    fun _ => ?_) (block keeping _ _)) (by decide)) .funcBody
  · exact parameters one.start other.start found
  · exact report (.expected .leftParen) one.start other.start

end Follows

end Surroundings

end LuaFold.Grammar
