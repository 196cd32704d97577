import LuaFold.Proofs.Tree.Rebuild

/-!
# Builders remember their calls

The nodes that a builder has finished and those that are still open hold every call that it has
accepted, in order.  So the calls of the tree that a list of calls builds are this list again,
whatever nodes and tokens it has.
-/

namespace LuaFold

namespace Text

private theorem cut?_go_eq_some
    {bytes : Nat}
    {taken text front behind : Text}
    (found : cut?.go bytes taken text = some (front, behind)) :
    ∃ more, front = taken.reverse ++ more ∧ more ++ behind = text ∧ size more = bytes := by
  induction text generalizing bytes taken with
  | nil =>
      rw [cut?.go] at found
      split at found
      · next zero =>
        cases found
        exact ⟨[], by simp, rfl, zero.symm⟩
      · cases found
  | cons character rest ih =>
      rw [cut?.go] at found
      split at found
      · next zero =>
        cases found
        exact ⟨[], by simp, rfl, zero.symm⟩
      · split at found
        · next fits =>
          obtain ⟨more, rfl, rfl, counted⟩ := ih found
          refine ⟨character :: more, by simp, rfl, ?_⟩
          rw [size_cons, counted]
          omega
        · cases found

/-- A text is cut after a number of bytes exactly into a part of this size and the rest. -/
theorem cut?_eq_some_iff
    {bytes : Nat}
    {text front behind : Text} :
    cut? bytes text = some (front, behind) ↔ front ++ behind = text ∧ size front = bytes := by
  constructor
  · intro found
    obtain ⟨more, rfl, whole, counted⟩ := cut?_go_eq_some found
    exact ⟨whole, counted⟩
  · rintro ⟨rfl, rfl⟩
    exact cut?_size_append front behind

end Text

namespace Builder

/-- The calls that a builder has accepted so far. -/
def made (builder : Builder) : List Call :=
  builder.roots.reverse.flatMap Element.calls ++ builder.opened.reverse.flatMap
    fun (kind, children) => .start kind :: children.reverse.flatMap Element.calls

/-- What is taken is the front of what is left, and has the length that was asked for. -/
theorem take_eq_ok
    {builder later : Builder}
    {length : Nat}
    {text : Text}
    (taken : builder.take length = .ok (text, later)) :
    ∃ rest,
      builder.rest = text ++ rest ∧
      Text.size text = length ∧
      later = builder.move rest length := by
  unfold take at taken
  split at taken
  · cases taken
  · next front behind found =>
    cases taken
    obtain ⟨whole, counted⟩ := Text.cut?_eq_some_iff.mp found
    exact ⟨behind, whole.symm, counted, rfl⟩

/-- Take one more piece, in front of those taken before, newest first. -/
private def takePiece : List Trivia × Builder → Measured →
    Except BuildFault (List Trivia × Builder) :=
  fun (taken, builder) piece => do
    let (text, later) ← builder.take piece.length
    return (⟨piece.kind, text, none⟩ :: taken, later)

private theorem foldlM_takePiece
    (earlier : List Trivia)
    (builder : Builder)
    (pieces : List Measured) :
    pieces.foldlM takePiece (earlier, builder) =
      (pieces.foldlM takePiece ([], builder)).map fun (taken, later) =>
        (taken ++ earlier, later) := by
  induction pieces generalizing earlier builder with
  | nil => rfl
  | cons piece pieces ih =>
      rw [List.foldlM_cons, List.foldlM_cons]
      cases found : builder.take piece.length with
      | error fault => simp [takePiece, found, bind, Except.bind, Except.map]
      | ok taken =>
          obtain ⟨text, later⟩ := taken
          simp only [takePiece, found, bind, Except.bind, pure, Except.pure]
          rw [ih (_ :: earlier), ih [_]]
          cases pieces.foldlM takePiece ([], later) <;> simp [Except.map]

/-- Trivia is taken piece by piece. -/
theorem takeTrivia_cons
    (builder : Builder)
    (piece : Measured)
    (pieces : List Measured) :
    builder.takeTrivia (piece :: pieces) = do
      let (text, later) ← builder.take piece.length
      let (taken, last) ← later.takeTrivia pieces
      return (⟨piece.kind, text, none⟩ :: taken, last) := by
  have unfolded : ∀ (builder : Builder) (pieces : List Measured), builder.takeTrivia pieces =
      (pieces.foldlM takePiece ([], builder)).map fun (taken, later) => (taken.reverse, later) := by
    intro builder pieces
    show (pieces.foldlM takePiece ([], builder)).bind _ = _
    cases pieces.foldlM takePiece ([], builder) <;> rfl
  rw [unfolded, List.foldlM_cons]
  cases found : builder.take piece.length with
  | error fault => simp [takePiece, found, bind, Except.bind, Except.map]
  | ok taken =>
      obtain ⟨text, later⟩ := taken
      simp only [takePiece, found, bind, Except.bind, pure, Except.pure, unfolded]
      rw [foldlM_takePiece]
      cases pieces.foldlM takePiece ([], later) <;> simp [Except.map]

theorem takeTrivia_nil (builder : Builder) : builder.takeTrivia [] = .ok ([], builder) :=
  rfl

/-- Trivia that is taken has the kinds and lengths that were asked for. -/
theorem takeTrivia_eq_ok
    {builder later : Builder}
    {pieces : List Measured}
    {taken : List Trivia}
    (accepted : builder.takeTrivia pieces = .ok (taken, later)) :
    ∃ rest, builder.rest = taken.flatMap Trivia.text ++ rest ∧
      taken.map Trivia.measure = pieces ∧ later = builder.move rest (Trivia.runWidth taken) := by
  induction pieces generalizing builder taken with
  | nil =>
      rw [takeTrivia_nil] at accepted
      cases accepted
      exact ⟨later.rest, rfl, rfl, rfl⟩
  | cons piece pieces ih =>
      rw [takeTrivia_cons] at accepted
      cases first : builder.take piece.length with
      | error fault =>
          rw [first] at accepted
          cases accepted
      | ok cut =>
          obtain ⟨text, between⟩ := cut
          cases others : between.takeTrivia pieces with
          | error fault =>
              simp [first, others, bind, Except.bind] at accepted
          | ok more =>
              obtain ⟨behind, last⟩ := more
              simp only [first, others, bind, Except.bind, pure, Except.pure] at accepted
              cases accepted
              obtain ⟨rest, whole, length, rfl⟩ := take_eq_ok first
              obtain ⟨left, front, measured, rfl⟩ := ih others
              have same : rest = behind.flatMap Trivia.text ++ left := front
              subst same
              refine ⟨left, by simpa using whole, ?_, ?_⟩
              · simp [measured, Trivia.measure, Trivia.width, length]
              · simp [move, Trivia.runWidth_eq_size, length, Nat.add_assoc]

theorem perform_token
    (builder : Builder)
    (leading : List Measured)
    (kind : Kind)
    (length : Nat)
    (trailing : List Measured) :
    builder.perform (.token leading kind length trailing) =
      if builder.opened.isEmpty then .error .tokenOutsideNodes
      else do
        let (before, builder) ← builder.takeTrivia leading
        let (text, builder) ← builder.take length
        let (behind, builder) ← builder.takeTrivia trailing
        return builder.add (.token ⟨before, kind, text, behind, none⟩) :=
  rfl

/-- What an accepted token call adds: a token that makes this call, cut off the front. -/
theorem perform_token_eq_ok
    {builder later : Builder}
    {leading trailing : List Measured}
    {kind : Kind}
    {length : Nat}
    (accepted : builder.perform (.token leading kind length trailing) = .ok later) :
    ∃ inner rest,
      builder.opened ≠ [] ∧
      builder.rest = inner.fullText ++ rest ∧
      Event.tokenCall inner = .token leading kind length trailing ∧
      later = (builder.move rest inner.width).add (.token inner) := by
  rw [perform_token] at accepted
  split at accepted
  · cases accepted
  · next opened =>
    cases front : builder.takeTrivia leading with
    | error fault => simp [front, bind, Except.bind] at accepted
    | ok first =>
        obtain ⟨before, between⟩ := first
        cases middle : between.take length with
        | error fault => simp [front, middle, bind, Except.bind] at accepted
        | ok second =>
            obtain ⟨text, inside⟩ := second
            cases back : inside.takeTrivia trailing with
            | error fault => simp [front, middle, back, bind, Except.bind] at accepted
            | ok third =>
                obtain ⟨behind, last⟩ := third
                simp only [front, middle, back, bind, Except.bind, pure, Except.pure] at accepted
                cases accepted
                obtain ⟨_, whole, measured, rfl⟩ := takeTrivia_eq_ok front
                obtain ⟨_, rfl, size, rfl⟩ := take_eq_ok middle
                obtain ⟨rest, rfl, others, rfl⟩ := takeTrivia_eq_ok back
                refine ⟨⟨before, kind, text, behind, none⟩, rest, by simpa using opened, ?_, ?_, ?_⟩
                · simp [whole, Token.fullText]
                · simp [Event.tokenCall, measured, others, Token.innerWidth, size]
                · simp [move, Token.width, Token.innerWidth, size, Nat.add_assoc]

/-- An element is remembered by the calls that build it. -/
theorem made_add
    (builder : Builder)
    (element : Element) :
    (builder.add element).made = builder.made ++ element.calls := by
  cases opened : builder.opened with
  | nil => simp [made, add, opened]
  | cons frame outer => simp [made, add, opened]

/-- A call that is accepted is remembered behind those before it. -/
theorem made_perform
    {builder later : Builder}
    {call : Call}
    (accepted : builder.perform call = .ok later) :
    later.made = builder.made ++ [call] := by
  cases call with
  | start kind =>
      cases accepted
      simp [made]
  | finish =>
      rw [perform] at accepted
      cases opened : builder.opened with
      | nil =>
          rw [opened] at accepted
          cases accepted
      | cons frame outer =>
          rw [opened] at accepted
          cases accepted
          rw [made_add]
          simp [made, opened, Element.branch]
  | token leading kind length trailing =>
      obtain ⟨inner, rest, _, _, call, rfl⟩ := perform_token_eq_ok accepted
      rw [made_add, Element.calls_token, call]
      rfl

/-- Calls that are accepted are remembered in order. -/
theorem made_foldlM
    {builder later : Builder}
    {calls : List Call}
    (accepted : calls.foldlM perform builder = .ok later) :
    later.made = builder.made ++ calls := by
  induction calls generalizing builder with
  | nil =>
      cases accepted
      simp
  | cons call calls ih =>
      rw [List.foldlM_cons] at accepted
      cases first : builder.perform call with
      | error fault =>
          rw [first] at accepted
          cases accepted
      | ok between =>
          rw [first] at accepted
          rw [ih accepted, made_perform first]
          simp

end Builder

/-- The calls of a tree are those that built it. -/
theorem SyntaxTree.calls_of_build
    {text : Text}
    {calls : List Call}
    {tree : SyntaxTree}
    (built : SyntaxTree.build text calls = .ok tree) :
    tree.calls = calls := by
  rw [SyntaxTree.build] at built
  cases accepted : calls.foldlM Builder.perform (.new text) with
  | error fault =>
      rw [accepted] at built
      cases built
  | ok builder =>
      rw [accepted] at built
      have made := Builder.made_foldlM accepted
      have finished : builder.finish = .ok tree := built
      unfold Builder.finish at finished
      split at finished
      · cases finished
      · next opened =>
        have closed : builder.opened = [] := by simpa using opened
        split at finished
        · cases finished
        · split at finished
          · cases finished
          · cases finished
            rw [SyntaxTree.calls_eq]
            simpa [Builder.made, closed, Builder.new] using made

end LuaFold
