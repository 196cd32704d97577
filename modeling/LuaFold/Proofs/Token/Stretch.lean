import LuaFold.Proofs.Text.Layout

/-!
# Stretches of a text

A stretch is a trivia piece or a token by itself.  Tokens with their trivia are stretches laid end
to end, so no stretch reaches into another.  The faults of tokens are those of their stretches in
the same order, and a fault that reaches into a stretch is the fault of this stretch.
-/

namespace LuaFold

namespace Span

/-- Two spans have a byte in common. -/
def Overlaps (first second : Span) : Prop :=
  first.start < second.stop ∧ second.start < first.stop

end Span

namespace Text

section LayOut

variable {Item Other : Type}

/-- An item of a layout begins behind those before it. -/
theorem exists_split_of_mem_layOut
    {width : Item → Nat}
    {offset start : Nat}
    {items : List Item}
    {item : Item}
    (listed : (start, item) ∈ layOut width offset items) :
    ∃ before behind, items = before ++ item :: behind ∧
      start = offset + (before.map width).sum := by
  induction items generalizing offset with
  | nil => cases listed
  | cons first rest ih =>
      rw [layOut_cons] at listed
      rcases List.mem_cons.mp listed with here | later
      · cases here
        exact ⟨[], rest, rfl, rfl⟩
      · obtain ⟨before, behind, rfl, place⟩ := ih later
        exact ⟨first :: before, behind, rfl, by simp [place, Nat.add_assoc]⟩

theorem layOut_map
    (width : Item → Nat)
    (convert : Other → Item)
    (offset : Nat)
    (others : List Other) :
    layOut width offset (others.map convert) =
      (layOut (fun other => width (convert other)) offset others).map (Prod.map id convert) := by
  induction others generalizing offset with
  | nil => rfl
  | cons other rest ih => simp [ih]

/-- Where everything is made of items, its items are laid end to end with it. -/
theorem layOut_flatMap
    {width : Item → Nat}
    {total : Other → Nat}
    {items : Other → List Item}
    (sums : ∀ other, ((items other).map width).sum = total other)
    (offset : Nat)
    (others : List Other) :
    layOut width offset (others.flatMap items) =
      (layOut total offset others).flatMap fun placed =>
        layOut width placed.1 (items placed.2) := by
  induction others generalizing offset with
  | nil => rfl
  | cons other rest ih =>
      rw [List.flatMap_cons, layOut_append, sums, ih, layOut_cons, List.flatMap_cons]

/-- Items laid end to end begin one behind the other. -/
theorem pairwise_layOut
    (width : Item → Nat)
    (offset : Nat)
    (items : List Item) :
    (layOut width offset items).Pairwise fun earlier later =>
      earlier.1 + width earlier.2 ≤ later.1 := by
  induction items generalizing offset with
  | nil => exact .nil
  | cons item rest ih =>
      rw [layOut_cons]
      refine List.pairwise_cons.mpr ⟨fun later listed => ?_, ih _⟩
      obtain ⟨before, behind, _, start⟩ := exists_split_of_mem_layOut listed
      exact start ▸ Nat.le_add_right _ _

end LayOut

end Text

/-- A trivia piece or a token by itself. -/
structure Stretch where
  kind : Kind
  text : Text
  fault? : Option LexicalFault
deriving DecidableEq, Repr

namespace Stretch

/-- The number of bytes in a stretch. -/
def width (stretch : Stretch) : Nat :=
  Text.size stretch.text

/-- A trivia piece as a stretch. -/
def ofTrivia (piece : Trivia) : Stretch :=
  ⟨piece.kind.kind, piece.text, piece.fault?⟩

/-- A token without its trivia as a stretch. -/
def ofToken (token : Token) : Stretch :=
  ⟨token.kind, token.text, token.fault?⟩

/-- The bytes of a stretch that begins at an offset. -/
def span (placed : Nat × Stretch) : Span :=
  ⟨placed.1, placed.1 + placed.2.width⟩

/-- The faults of stretches, with their spans. -/
def faults (placed : List (Nat × Stretch)) : List (LexicalFault × Span) :=
  placed.filterMap fun place => place.2.fault?.map fun fault => (fault, span place)

theorem mem_faults_iff
    {placed : List (Nat × Stretch)}
    {entry : LexicalFault × Span} :
    entry ∈ faults placed ↔
      ∃ place ∈ placed, place.2.fault? = some entry.1 ∧ entry.2 = span place := by
  obtain ⟨fault, found⟩ := entry
  simp only [faults, List.mem_filterMap, Option.map_eq_some_iff, Prod.mk.injEq]
  constructor
  · rintro ⟨place, listed, _, broken, rfl, rfl⟩
    exact ⟨place, listed, broken, rfl⟩
  · rintro ⟨place, listed, broken, rfl⟩
    exact ⟨place, listed, fault, broken, rfl, rfl⟩

end Stretch

namespace Token

/-- A token and the trivia pieces around it, each by itself. -/
def stretches (token : Token) : List Stretch :=
  token.leading.map .ofTrivia ++ .ofToken token :: token.trailing.map .ofTrivia

/-- The stretches of tokens that start a text, each with the offset at which it begins. -/
def allStretches (tokens : List Token) : List (Nat × Stretch) :=
  Text.layOut Stretch.width 0 (tokens.flatMap stretches)

/-! ## Places -/

theorem sum_width_ofTrivia (pieces : List Trivia) :
    ((pieces.map Stretch.ofTrivia).map Stretch.width).sum = Trivia.runWidth pieces := by
  rw [List.map_map, Trivia.runWidth_eq_size, ← Trivia.sum_width]
  rfl

theorem sum_width_stretches (token : Token) :
    (token.stretches.map Stretch.width).sum = token.width := by
  rw [stretches, List.map_append, List.sum_append, List.map_cons, List.sum_cons,
    sum_width_ofTrivia, sum_width_ofTrivia, ← Nat.add_assoc]
  rfl

/-- The stretches of a token stand where its trivia and the token itself stand. -/
theorem layOut_stretches
    (token : Token)
    (offset : Nat) :
    Text.layOut Stretch.width offset token.stretches =
      (token.leadingPlaced offset).map (Prod.map id .ofTrivia) ++
        ((token.span offset).start, .ofToken token) ::
          (token.trailingPlaced offset).map (Prod.map id .ofTrivia) := by
  rw [stretches, Text.layOut_append, Text.layOut_cons, sum_width_ofTrivia, Text.layOut_map,
    Text.layOut_map]
  rfl

theorem mem_allStretches_iff
    {tokens : List Token}
    {place : Nat × Stretch} :
    place ∈ allStretches tokens ↔
      ∃ offset token, (offset, token) ∈ layOut tokens ∧
        place ∈ Text.layOut Stretch.width offset token.stretches := by
  rw [allStretches, Text.layOut_flatMap sum_width_stretches, List.mem_flatMap]
  simp only [Prod.exists]
  rfl

section Listed

variable {tokens : List Token} {offset : Nat} {token : Token}
  (listed : (offset, token) ∈ layOut tokens)
include listed

theorem mem_allStretches_of_token :
    ((token.span offset).start, .ofToken token) ∈ allStretches tokens := by
  refine mem_allStretches_iff.mpr ⟨offset, token, listed, ?_⟩
  rw [layOut_stretches]
  exact List.mem_append_right _ List.mem_cons_self

theorem mem_allStretches_of_trivia
    {start : Nat}
    {piece : Trivia}
    (placed : (start, piece) ∈ token.leadingPlaced offset ++ token.trailingPlaced offset) :
    (start, .ofTrivia piece) ∈ allStretches tokens := by
  refine mem_allStretches_iff.mpr ⟨offset, token, listed, ?_⟩
  rw [layOut_stretches]
  rcases List.mem_append.mp placed with leading | trailing
  · exact List.mem_append_left _ (List.mem_map.mpr ⟨_, leading, rfl⟩)
  · exact List.mem_append_right _ (List.mem_cons_of_mem _ (List.mem_map.mpr ⟨_, trailing, rfl⟩))

end Listed

/-- A stretch of tokens is one of them, or a trivia piece before or behind one of them. -/
theorem exists_of_mem_allStretches
    {tokens : List Token}
    {start : Nat}
    {stretch : Stretch}
    (member : (start, stretch) ∈ allStretches tokens) :
    ∃ offset token, (offset, token) ∈ layOut tokens ∧
      ((stretch = .ofToken token ∧ start = (token.span offset).start) ∨
        ∃ piece, stretch = .ofTrivia piece ∧
          (start, piece) ∈ token.leadingPlaced offset ++ token.trailingPlaced offset) := by
  obtain ⟨offset, token, listed, inside⟩ := mem_allStretches_iff.mp member
  refine ⟨offset, token, listed, ?_⟩
  rw [layOut_stretches] at inside
  rcases List.mem_append.mp inside with leading | others
  · obtain ⟨⟨_, piece⟩, placed, same⟩ := List.mem_map.mp leading
    cases same
    exact Or.inr ⟨piece, rfl, List.mem_append_left _ placed⟩
  · rcases List.mem_cons.mp others with own | trailing
    · cases own
      exact Or.inl ⟨rfl, rfl⟩
    · obtain ⟨⟨_, piece⟩, placed, same⟩ := List.mem_map.mp trailing
      cases same
      exact Or.inr ⟨piece, rfl, List.mem_append_right _ placed⟩

theorem pairwise_allStretches (tokens : List Token) :
    (allStretches tokens).Pairwise fun earlier later =>
      (Stretch.span earlier).stop ≤ (Stretch.span later).start :=
  Text.pairwise_layOut Stretch.width 0 _

/-! ## Faults -/

/-- The faults of trivia are those of its pieces as stretches. -/
theorem triviaFaults_eq (placed : List (Nat × Trivia)) :
    triviaFaults placed = Stretch.faults (placed.map (Prod.map id .ofTrivia)) := by
  rw [Stretch.faults, List.filterMap_map]
  rfl

theorem faults_eq
    (token : Token)
    (offset : Nat) :
    token.faults offset = Stretch.faults (Text.layOut Stretch.width offset token.stretches) := by
  rw [faults, layOut_stretches, Stretch.faults, List.filterMap_append, triviaFaults_eq,
    triviaFaults_eq, List.filterMap_cons]
  cases broken : token.fault? <;> simp [Stretch.ofToken, Stretch.span, Stretch.faults, broken, span,
    Stretch.width, innerWidth]

/-- The faults of tokens are those of their stretches, in the order of the text. -/
theorem allFaults_eq (tokens : List Token) :
    allFaults tokens = Stretch.faults (allStretches tokens) := by
  rw [allStretches, Text.layOut_flatMap sum_width_stretches, Stretch.faults,
    List.filterMap_flatMap, allFaults]
  simp only [faults_eq]
  rfl

/-- A fault that reaches into a stretch is the fault of this stretch. -/
theorem own_fault_of_overlaps
    {tokens : List Token}
    {place : Nat × Stretch}
    (listed : place ∈ allStretches tokens)
    {entry : LexicalFault × Span}
    (found : entry ∈ allFaults tokens)
    (overlaps : entry.2.Overlaps (Stretch.span place)) :
    place.2.fault? = some entry.1 ∧ entry.2 = Stretch.span place := by
  rw [allFaults_eq] at found
  obtain ⟨other, isOther, broken, same⟩ := Stretch.mem_faults_iff.mp found
  -- Two stretches of a text are the same, or one of them stops before the other begins.
  have ordered := pairwise_allStretches tokens
  have apart : ∀ ⦃first⦄, first ∈ allStretches tokens → ∀ ⦃second⦄, second ∈ allStretches tokens →
      first = second ∨ (Stretch.span first).stop ≤ (Stretch.span second).start ∨
        (Stretch.span second).stop ≤ (Stretch.span first).start :=
    List.Pairwise.forall_of_forall_of_flip (fun _ _ => Or.inl rfl)
      (ordered.imp fun before => Or.inr (Or.inl before))
      (ordered.imp fun behind => Or.inr (Or.inr behind))
  obtain ⟨begins, ends⟩ := overlaps
  rw [same] at begins ends
  rcases apart isOther listed with rfl | before | behind
  · exact ⟨broken, same⟩
  · exact absurd ends (Nat.not_lt.mpr before)
  · exact absurd begins (Nat.not_lt.mpr behind)

theorem mem_allFaults_of_stretch
    {tokens : List Token}
    {place : Nat × Stretch}
    (listed : place ∈ allStretches tokens)
    {fault : LexicalFault}
    (broken : place.2.fault? = some fault) :
    (fault, Stretch.span place) ∈ allFaults tokens := by
  rw [allFaults_eq]
  exact Stretch.mem_faults_iff.mpr ⟨place, listed, broken, rfl⟩

end Token

end LuaFold
