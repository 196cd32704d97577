import LuaFold.Proofs.Tree.Arena
import LuaFold.Proofs.Tree.Retrace

/-!
# Tokens of an arena that is building

A builder of elements cuts tokens and trivia off the text that is left, and a builder of an arena
stores where they stop.  The two refuse the same tokens, and what the one stores is the form in
which the arena keeps the tokens that the other one cuts off.
-/

namespace LuaFold

/-- Two builders agree on an outcome: both refuse for the same fault, or both accept. -/
inductive Agree
    {First Second : Type}
    (related : First → Second → Prop) :
    Except ArenaFault First → Except BuildFault Second → Prop where
  | refused (fault : BuildFault) : Agree related (.error (.refused fault)) (.error fault)
  | accepted
      {first : First}
      {second : Second}
      (here : related first second) :
      Agree related (.ok first) (.ok second)

theorem Agree.bind
    {First Second Third Fourth : Type}
    {related : First → Second → Prop}
    {further : Third → Fourth → Prop}
    {first : Except ArenaFault First}
    {second : Except BuildFault Second}
    {next : First → Except ArenaFault Third}
    {other : Second → Except BuildFault Fourth}
    (here : Agree related first second)
    (there : ∀ first second, related first second → Agree further (next first) (other second)) :
    Agree further (first >>= next) (second >>= other) := by
  cases here with
  | refused fault => exact .refused fault
  | accepted both => exact there _ _ both

theorem Agree.exists_of_ok
    {First Second : Type}
    {related : First → Second → Prop}
    {first : First}
    {second : Except BuildFault Second}
    (agree : Agree related (.ok first) second) :
    ∃ accepted, second = .ok accepted ∧ related first accepted := by
  cases agree with
  | accepted both => exact ⟨_, rfl, both⟩

/-- What the second builder returns may be put into another form. -/
theorem Agree.convert
    {First Second Third : Type}
    {related : First → Second → Prop}
    {further : First → Third → Prop}
    {first : Except ArenaFault First}
    {second : Except BuildFault Second}
    {other : Second → Third}
    (here : Agree related first second)
    (there : ∀ first second, related first second → further first (other second)) :
    Agree further first (second >>= fun taken => pure (other taken)) := by
  cases here with
  | refused fault => exact .refused fault
  | accepted both => exact .accepted (there _ _ both)

namespace Text

/-- What is left of a text can be cut where the whole text can. -/
theorem isSome_cut?_append
    (before rest : Text)
    (bytes : Nat) :
    (cut? (size before + bytes) (before ++ rest)).isSome = (cut? bytes rest).isSome := by
  rw [Bool.eq_iff_iff, Option.isSome_iff_exists, Option.isSome_iff_exists]
  constructor
  · rintro ⟨⟨front, behind⟩, found⟩
    obtain ⟨whole, counted⟩ := cut?_eq_some_iff.mp found
    rcases List.append_eq_append_iff.mp whole with ⟨more, rfl, _⟩ | ⟨more, rfl, rfl⟩
    · rw [size_append] at counted
      exact ⟨([], rest), cut?_eq_some_iff.mpr ⟨rfl, by rw [size_nil]; omega⟩⟩
    · rw [size_append] at counted
      exact ⟨(more, behind), cut?_eq_some_iff.mpr ⟨rfl, by omega⟩⟩
  · rintro ⟨⟨front, behind⟩, found⟩
    obtain ⟨rfl, rfl⟩ := cut?_eq_some_iff.mp found
    exact ⟨(before ++ front, behind), cut?_eq_some_iff.mpr ⟨by simp, by simp⟩⟩

end Text

namespace ArenaBuilder

/-- A builder with more tokens, which stop at an offset. -/
def store (builder : ArenaBuilder) (tokens : List StoredToken) (offset : Nat) : ArenaBuilder :=
  ⟨⟨builder.arena.text, builder.arena.tokens ++ tokens, builder.arena.nodes,
    builder.arena.children⟩, builder.opened, builder.spare, offset⟩

/-- Both builders have taken the same part of the text, and the last token stops there. -/
structure Aligned (first : ArenaBuilder) (second : Builder) : Prop where
  whole : ∃ before, first.arena.text = before ++ second.rest ∧ first.offset = Text.size before
  pushed : second.pushed = first.offset
  last : ∃ earlier last, first.arena.tokens = earlier ++ [last] ∧ last.stop = first.offset

variable {first : ArenaBuilder} {second : Builder}

theorem Aligned.push
    (aligned : Aligned first second)
    (kind : Kind)
    (length parent leading trailing : Nat) :
    Agree (fun (later : ArenaBuilder) (taken : Text × Builder) =>
        later = first.store [⟨kind, first.offset + length, parent, leading, trailing⟩]
          (first.offset + length) ∧
        Text.size taken.1 = length ∧
        taken.2.opened = second.opened ∧ taken.2.roots = second.roots ∧ Aligned later taken.2)
      (first.push kind length parent leading trailing) (second.take length) := by
  obtain ⟨before, whole, offset⟩ := aligned.whole
  have boundary := Text.isSome_cut?_append before second.rest length
  rw [← whole, ← offset] at boundary
  rw [ArenaBuilder.push, Builder.take, boundary]
  cases found : Text.cut? length second.rest with
  | none => exact .refused _
  | some cut =>
      obtain ⟨taken, rest⟩ := cut
      obtain ⟨front, counted⟩ := Text.cut?_eq_some_iff.mp found
      refine .accepted ⟨rfl, counted, rfl, rfl, ⟨before ++ taken, ?_, ?_⟩, ?_, ?_⟩
      · simp [whole, ← front]
      · simp [offset, counted]
      · simp [aligned.pushed]
      · exact ⟨first.arena.tokens, _, rfl, rfl⟩

/-- Trivia is stored piece by piece as it is taken. -/
theorem Aligned.pushTrivia
    (aligned : Aligned first second)
    (parent : Nat)
    (pieces : List Measured) :
    Agree (fun (later : ArenaBuilder) (taken : List Trivia × Builder) =>
        later = first.store (StoredToken.ofTrivia parent first.offset taken.1)
          (first.offset + Trivia.runWidth taken.1) ∧
        taken.1.length = pieces.length ∧
        taken.2.opened = second.opened ∧ taken.2.roots = second.roots ∧ Aligned later taken.2)
      (first.pushTrivia parent pieces) (second.takeTrivia pieces) := by
  induction pieces generalizing first second with
  | nil =>
      refine .accepted ⟨?_, rfl, rfl, rfl, aligned⟩
      simp [store, StoredToken.ofTrivia, Trivia.runWidth]
  | cons piece pieces ih =>
      rw [Builder.takeTrivia_cons, ArenaBuilder.pushTrivia, List.foldlM_cons]
      refine (aligned.push piece.kind.kind piece.length parent 0 0).bind ?_
      rintro between ⟨text, left⟩ ⟨stored, counted, opened, roots, further⟩
      refine (ih further).convert ?_
      rintro later ⟨taken, last⟩ ⟨others, length, stillOpened, sameRoots, aligned⟩
      refine ⟨?_, by simp [length], stillOpened.trans opened, sameRoots.trans roots, aligned⟩
      have width : Trivia.runWidth (⟨piece.kind, text, none⟩ :: taken) =
          piece.length + Trivia.runWidth taken := by
        simp [Trivia.runWidth_eq_size, ← counted]
      rw [others, stored, width, StoredToken.ofTrivia]
      simp [store, Trivia.width, counted, Nat.add_assoc]

end ArenaBuilder

end LuaFold
