import LuaFold.Proofs.Grammar.Form
import LuaFold.Proofs.Grammar.Word

/-!
# Growth of a parse

A rule of the grammar turns one state of a parse into another.  In between it takes kinds off
the front of what is ahead, but never the end of the text, decides on a word of actions, and
reports faults at positions that it passes.  The end of the text is last in what is ahead, and
nowhere else in it.

A state grows by a form when the word builds formed shapes over the kinds that were taken, and
the slots of these shapes are in the form.  Growths compose like the languages they are
labelled with: one after the other is a product, a choice is a sum, a loop is a star.  Every
round of a loop but the last takes a token, so no loop runs out of tokens before.  A state
forms a node when the word forms a single node, which another node can then be started around.
-/

namespace LuaFold.Grammar

open scoped Computability
open Form

namespace State

/-- From one state to another: the word of actions decided on and the kinds taken. -/
structure Extends (before after : State) (word : List Action) (kinds : List Kind) : Prop where
  ahead : before.ahead = kinds ++ after.ahead
  position : after.position = before.position + kinds.length
  actions : after.actions = word.reverse ++ before.actions
  faults : ∃ reported, after.faults = reported ++ before.faults ∧
    (∀ fault ∈ reported, before.position ≤ fault.2 ∧ fault.2 ≤ after.position) ∧
    reported.Pairwise fun later earlier => earlier.2 ≤ later.2
  endless : Kind.eof ∉ kinds

/-- The end of the text is the last token ahead and no other. -/
def Ended (state : State) : Prop :=
  ∃ kinds, state.ahead = kinds ++ [.eof] ∧ .eof ∉ kinds

namespace Extends

theorem refl (state : State) : Extends state state [] [] :=
  ⟨rfl, rfl, rfl, ⟨[], rfl, by simp⟩, by simp⟩

theorem trans
    {first second third : State}
    {word behind : List Action}
    {kinds others : List Kind}
    (before : Extends first second word kinds)
    (after : Extends second third behind others) :
    Extends first third (word ++ behind) (kinds ++ others) := by
  obtain ⟨reported, faults, placed, ordered⟩ := before.faults
  obtain ⟨later, moreFaults, laterPlaced, laterOrdered⟩ := after.faults
  have forward := before.position
  have onward := after.position
  refine ⟨?_, ?_, ?_, ⟨later ++ reported, ?_, ?_, ?_⟩, ?_⟩
  · rw [before.ahead, after.ahead, List.append_assoc]
  · rw [onward, forward, List.length_append, Nat.add_assoc]
  · rw [after.actions, before.actions, List.reverse_append, List.append_assoc]
  · rw [moreFaults, faults, List.append_assoc]
  · intro fault member
    rcases List.mem_append.mp member with late | early
    · have bounds := laterPlaced fault late
      omega
    · have bounds := placed fault early
      omega
  · refine List.pairwise_append.mpr ⟨laterOrdered, ordered, fun late isLate early isEarly => ?_⟩
    exact (placed early isEarly).2.trans (laterPlaced late isLate).1
  · intro member
    rcases List.mem_append.mp member with early | late
    · exact before.endless early
    · exact after.endless late

theorem ended
    {before after : State}
    {word : List Action}
    {kinds : List Kind}
    (extended : Extends before after word kinds)
    (ended : before.Ended) :
    after.Ended := by
  obtain ⟨early, ahead, absent⟩ := ended
  rw [extended.ahead] at ahead
  rcases List.append_eq_append_iff.mp ahead with ⟨middle, rfl, rest⟩ | ⟨middle, rfl, rest⟩
  · exact ⟨middle, rest, fun member => absent (by simp [member])⟩
  · cases middle with
    | nil => exact ⟨[], by simpa using rest.symm, by simp⟩
    | cons kind others =>
        simp only [List.cons_append, List.cons.injEq] at rest
        exact absurd (by simp [← rest.1]) extended.endless

theorem record
    (state : State)
    (action : Action) :
    Extends state (state.record action) [action] [] :=
  ⟨rfl, rfl, rfl, ⟨[], rfl, by simp⟩, by simp⟩

theorem report
    (state : State)
    (fault : SyntaxFault) :
    Extends state (state.report fault) [] [] :=
  ⟨rfl, rfl, rfl, ⟨[(fault, state.position)], rfl, by simp [State.report], by simp⟩, by simp⟩

theorem advance
    {state : State}
    (notEnd : state.current ≠ .eof) :
    Extends state state.advance [.advance] [state.current] := by
  have ahead : state.ahead = state.current :: state.ahead.tail := by
    cases found : state.ahead with
    | nil => simp [current, found] at notEnd
    | cons kind kinds => simp [current, found]
  have stepped : state.advance =
      ⟨state.ahead.tail, state.position + 1, .advance :: state.actions, state.faults⟩ := by
    simp [State.advance, isAt, notEnd]
  rw [stepped]
  exact ⟨ahead, rfl, rfl, ⟨[], rfl, by simp⟩, by simpa using notEnd.symm⟩

end Extends

/-- The actions between two states build formed shapes with slots in a form. -/
def Grows (form : Form) (before after : State) : Prop :=
  before.Ended → ∃ word shapes, Extends before after word (shapes.flatMap Shape.leaves) ∧
    Action.Builds word shapes ∧ (∀ shape ∈ shapes, shape.Formed) ∧
    shapes.map Shape.slot ∈ form

/-- The actions between two states form one formed node of a kind. -/
def Forms (kind : Kind) (before after : State) : Prop :=
  before.Ended → ∃ word children, Extends before after word (Shape.node kind children).leaves ∧
    Action.Forms word (.node kind children) ∧ (Shape.node kind children).Formed

namespace Grows

theorem mono
    {form other : Form}
    {before after : State}
    (grows : Grows form before after)
    (smaller : form ≤ other) :
    Grows other before after := by
  intro ended
  obtain ⟨word, shapes, extended, builds, formed, slots⟩ := grows ended
  exact ⟨word, shapes, extended, builds, formed, smaller slots⟩

theorem refl (state : State) : Grows 1 state state :=
  fun _ => ⟨[], [], .refl state, .nil, by simp, rfl⟩

theorem report
    (state : State)
    (fault : SyntaxFault) :
    Grows 1 state (state.report fault) :=
  fun _ => ⟨[], [], .report state fault, .nil, by simp, rfl⟩

theorem trans
    {form behind : Form}
    {first second third : State}
    (before : Grows form first second)
    (after : Grows behind second third) :
    Grows (form * behind) first third := by
  intro ended
  obtain ⟨word, shapes, extended, builds, formed, slots⟩ := before ended
  obtain ⟨later, others, moreExtended, moreBuilds, moreFormed, moreSlots⟩ :=
    after (extended.ended ended)
  refine ⟨word ++ later, shapes ++ others, ?_, builds.append moreBuilds, ?_, ?_⟩
  · rw [List.flatMap_append]
    exact extended.trans moreExtended
  · intro shape member
    rcases List.mem_append.mp member with early | late
    · exact formed shape early
    · exact moreFormed shape late
  · rw [List.map_append]
    exact Language.append_mem_mul slots moreSlots

theorem optional
    {form : Form}
    {before after : State}
    (grows : Grows form before after) :
    Grows (optional form) before after :=
  grows.mono (le_optional form)

theorem omitted
    {before after : State}
    (grows : Grows 1 before after)
    (form : Form) :
    Grows (Form.optional form) before after :=
  grows.mono (one_le_optional form)

theorem ofForms
    {kind : Kind}
    {before after : State}
    (forms : Forms kind before after) :
    Grows (node kind) before after := by
  intro ended
  obtain ⟨word, children, extended, formedWord, formed⟩ := forms ended
  refine ⟨word, [.node kind children], ?_, formedWord.builds, by simpa using formed, by simp⟩
  simpa using extended

theorem advance
    {state : State}
    (notEnd : state.current ≠ .eof) :
    Grows (token state.current) state state.advance := by
  intro _
  refine ⟨[.advance], [.leaf state.current], ?_, .leaf state.current, ?_, by simp⟩
  · simpa using Extends.advance notEnd
  · simpa using Shape.Formed.leaf state.current

theorem take
    {state : State}
    {kind : Kind}
    (found : state.current = kind)
    (notEnd : kind ≠ .eof) :
    Grows (token kind) state state.advance := by
  subst found
  exact advance notEnd

theorem accept
    (state : State)
    {kind : Kind}
    (notEnd : kind ≠ .eof) :
    Grows (Form.optional (token kind)) state (state.accept kind) := by
  by_cases found : state.current = kind
  · have taken : state.accept kind = state.advance := by simp [State.accept, isAt, found]
    rw [taken]
    exact (take found notEnd).optional
  · have kept : state.accept kind = state := by simp [State.accept, isAt, found]
    rw [kept]
    exact (refl state).omitted _

theorem expect
    (state : State)
    {kind : Kind}
    (notEnd : kind ≠ .eof) :
    Grows (Form.optional (token kind)) state (state.expect kind) := by
  by_cases found : state.current = kind
  · have taken : state.expect kind = state.advance := by simp [State.expect, isAt, found]
    rw [taken]
    exact (take found notEnd).optional
  · have missed : state.expect kind = state.report (.expected kind) := by
      simp [State.expect, isAt, found]
    rw [missed]
    exact (report state _).omitted _

/-- What is given up stays, without a node around it. -/
theorem abandon
    {form : Form}
    {before after : State}
    (grows : Grows form before.start after) :
    Grows form before after.abandon := by
  intro ended
  obtain ⟨word, shapes, extended, builds, formed, slots⟩ := grows ended
  refine ⟨.start :: (word ++ [.abandon]), shapes, ?_, ?_, formed, slots⟩
  · have whole : Extends before after.abandon _ _ :=
      ((Extends.record before .start).trans extended).trans (.record after .abandon)
    simpa using whole
  · simpa using Action.Builds.nil.abandon builds

end Grows

namespace Forms

/-- A node whose content follows its form. -/
theorem complete
    {kind : Kind}
    {before after : State}
    (grows : Grows kind.form before.start after) :
    Forms kind before (after.complete kind) := by
  intro ended
  obtain ⟨word, shapes, extended, builds, formed, slots⟩ := grows ended
  have proper : kind ≠ .tombstone := by
    rintro rfl
    exact slots
  refine ⟨.start :: (word ++ [.complete kind]), shapes, ?_, .complete builds proper,
    .node formed slots⟩
  have whole : Extends before (after.complete kind) _ _ :=
    ((Extends.record before .start).trans extended).trans (.record after (.complete kind))
  simpa using whole

/-- A node started around another one. -/
theorem around
    {inner kind : Kind}
    {form : Form}
    {before middle after : State}
    (forms : Forms inner before middle)
    (grows : Grows form middle.precede after)
    (fits : node inner * form ≤ kind.form) :
    Forms kind before (after.complete kind) := by
  intro ended
  obtain ⟨first, children, extended, formedWord, formed⟩ := forms ended
  obtain ⟨word, shapes, moreExtended, builds, moreFormed, slots⟩ :=
    grows (extended.ended ended)
  have whole : Slot.node inner :: shapes.map Shape.slot ∈ kind.form :=
    fits (Language.append_mem_mul (mem_node.mpr rfl) slots)
  have proper : kind ≠ .tombstone := by
    rintro rfl
    exact whole
  refine ⟨first ++ .precede :: (word ++ [.complete kind]), .node inner children :: shapes, ?_,
    .around formedWord builds proper, .node ?_ whole⟩
  · have between : Extends before (after.complete kind) _ _ :=
      ((extended.trans (.record middle .precede)).trans moreExtended).trans
        (.record after (.complete kind))
    simpa using between
  · intro shape member
    rcases List.mem_cons.mp member with rfl | other
    · exact formed
    · exact moreFormed shape other

/-- Reporting a fault does not come between a node and one around it. -/
theorem report
    {kind : Kind}
    {before after : State}
    (forms : Forms kind before after)
    (fault : SyntaxFault) :
    Forms kind before (after.report fault) := by
  intro ended
  obtain ⟨word, children, extended, formedWord, formed⟩ := forms ended
  refine ⟨word, children, ?_, formedWord, formed⟩
  simpa using extended.trans (.report after fault)

theorem single
    {state : State}
    {taken kind : Kind}
    (found : state.current = taken)
    (notEnd : taken ≠ .eof)
    (fits : token taken ≤ kind.form) :
    Forms kind state (state.start.advance.complete kind) := by
  have grows : Grows (token taken) state.start state.start.advance := .take found notEnd
  exact complete (grows.mono fits)

end Forms

namespace Grows

theorem ended
    {form : Form}
    {before after : State}
    (grows : Grows form before after)
    (ended : before.Ended) :
    after.Ended := by
  obtain ⟨word, shapes, extended, _⟩ := grows ended
  exact extended.ended ended

/-- Growth by something solid takes at least one token. -/
theorem ahead_length_lt
    {form : Form}
    {before after : State}
    (grows : Grows form before after)
    (carries : Carries (fun kind => kind.isSolid = true) form)
    (ended : before.Ended) :
    after.ahead.length < before.ahead.length := by
  obtain ⟨word, shapes, extended, builds, formed, slots⟩ := grows ended
  obtain ⟨slot, inside, solid⟩ := carries _ slots
  obtain ⟨shape, member, rfl⟩ := List.mem_map.mp inside
  have taken : shapes.flatMap Shape.leaves ≠ [] := fun empty =>
    (formed shape member).leaves_ne_nil solid (List.flatMap_eq_nil_iff.mp empty shape member)
  have positive := List.length_pos_iff.mpr taken
  have lengths := congrArg List.length extended.ahead
  rw [List.length_append] at lengths
  omega

/-- Growth by solid shapes that takes no token adds nothing. -/
theorem nothing
    {form : Form}
    {before after : State}
    (grows : Grows form before after)
    (solid : Holds (fun kind => kind.isSolid = true) form)
    (stuck : after.position = before.position) :
    Grows 1 before after := by
  intro ended
  obtain ⟨word, shapes, extended, builds, formed, slots⟩ := grows ended
  cases shapes with
  | nil => exact ⟨word, [], extended, builds, formed, rfl⟩
  | cons shape others =>
      have inside := (formed shape (by simp)).leaves_ne_nil fun kind same =>
        solid _ slots kind (by simp [same])
      have positive := List.length_pos_iff.mpr inside
      have moved := extended.position
      simp only [List.flatMap_cons, List.length_append] at moved
      omega

theorem something
    {form : Form}
    {before after : State}
    (grows : Grows (Form.optional form) before after)
    (moved : after.position ≠ before.position) :
    Grows form before after := by
  intro ended
  obtain ⟨word, shapes, extended, builds, formed, slots⟩ := grows ended
  rcases mem_optional.mp slots with empty | found
  · rw [List.map_eq_nil_iff] at empty
    subst empty
    exact absurd (by simpa using extended.position) moved
  · exact ⟨word, shapes, extended, builds, formed, found⟩

end Grows

theorem Forms.ended
    {kind : Kind}
    {before after : State}
    (forms : Forms kind before after)
    (ended : before.Ended) :
    after.Ended :=
  (Grows.ofForms forms).ended ended

end State

/-! ## Loops -/

/-- A loop whose rounds make something smaller that stays positive ends after its last round. -/
theorem iterate_ends
    {Value : Type}
    (round : Value → Turn Value)
    (reached : Value → Prop)
    (size : Value → Nat)
    (next : ∀ value later, reached value → round value = .next later →
      reached later ∧ size later < size value)
    (positive : ∀ value, reached value → 0 < size value)
    (tokens : List Kind)
    {value : Value}
    (start : reached value)
    (enough : size value ≤ tokens.length) :
    ∃ final, reached final ∧ round final = .last (iterate round tokens value) := by
  induction tokens generalizing value with
  | nil =>
      have some := positive value start
      simp only [List.length_nil] at enough
      omega
  | cons token tokens ih =>
      cases found : round value with
      | next later =>
          rw [iterate, found]
          obtain ⟨kept, smaller⟩ := next value later start found
          simp only [List.length_cons] at enough
          exact ih kept (by omega)
      | last later =>
          rw [iterate, found]
          exact ⟨value, start, found⟩

namespace State

theorem Grows.repeated
    {form : Form}
    {first second third : State}
    (before : Grows form∗ first second)
    (after : Grows form second third) :
    Grows form∗ first third := by
  refine (before.trans after).mono ?_
  calc
    form∗ * form ≤ 1 + form∗ * form := le_right _ _
    _ = form∗ := Language.one_add_kstar_mul_self_eq_kstar form

theorem Ended.ahead_length_pos
    {state : State}
    (ended : state.Ended) :
    0 < state.ahead.length := by
  obtain ⟨kinds, ahead, _⟩ := ended
  simp [ahead]

/-- A loop whose rounds each take a token ends after its last round. -/
theorem loop_ends
    {form : Form}
    {round : State → Turn State}
    (next : ∀ state later, round state = .next later → Grows form state later)
    (carries : Carries (fun kind => kind.isSolid = true) form)
    {state : State}
    (ended : state.Ended) :
    ∃ final, Grows form∗ state final ∧ round final = .last (state.loop round) := by
  have step : ∀ value later, Grows form∗ state value → round value = .next later →
      Grows form∗ state later ∧ later.ahead.length < value.ahead.length := by
    intro value later grown found
    have more := next value later found
    exact ⟨grown.repeated more, more.ahead_length_lt carries (grown.ended ended)⟩
  exact iterate_ends round (Grows form∗ state) (fun value => value.ahead.length) step
    (fun value grown => (grown.ended ended).ahead_length_pos) state.ahead
    ((Grows.refl state).mono (one_le_kstar form)) le_rfl

/-- A loop grows by the star of what a round adds, and by what the last round adds. -/
theorem Grows.loop
    {form final : Form}
    {round : State → Turn State}
    (state : State)
    (next : ∀ state later, round state = .next later → Grows form state later)
    (carries : Carries (fun kind => kind.isSolid = true) form)
    (last : ∀ state later, round state = .last later → Grows final state later) :
    Grows (form∗ * final) state (state.loop round) := by
  intro ended
  obtain ⟨before, grown, found⟩ := loop_ends next carries ended
  exact grown.trans (last before _ found) ended

theorem Grows.separated
    {form : Form}
    {separator : Kind}
    {item : State → State}
    (state : State)
    (notEnd : separator ≠ .eof)
    (grows : ∀ state, Grows form state (item state)) :
    Grows (token separator * form)∗ state (state.separated separator item) := by
  have looped : Grows ((token separator * form)∗ * 1) state
      (state.separated separator item) := by
    refine Grows.loop state ?_ ((carries_token separator).mul form) ?_
    · intro before later found
      split at found
      · next here =>
        cases found
        exact (Grows.take (by simpa [isAt] using here) notEnd).trans (grows _)
      · cases found
    · intro before later found
      split at found
      · cases found
      · cases found
        exact .refl before
  rwa [mul_one] at looped

end State

end LuaFold.Grammar
