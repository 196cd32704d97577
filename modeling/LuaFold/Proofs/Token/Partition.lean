import LuaFold.Proofs.Token.Scanner
import LuaFold.Proofs.Token.Stretch

/-!
# Tokens partition the text

The trivia pieces and the tokens that a scanner returns, taken in order, are the pieces of a
text laid end to end: they leave no gap, they stop where a character ends, and only the end of
the text is empty.  The buffer is cut in the same way by the trivia of the tokens.  Behind the
end of the text nothing changes any more.
-/

namespace LuaFold

namespace Span

/-- Spans that follow each other without a gap from one offset to another. -/
def Tile (start : Nat) : List Span → Nat → Prop
  | [], stop => start = stop
  | first :: rest, stop =>
      first.start = start ∧ first.start ≤ first.stop ∧ Tile first.stop rest stop

theorem Tile.append
    {start middle stop : Nat}
    {first second : List Span}
    (before : Tile start first middle)
    (behind : Tile middle second stop) :
    Tile start (first ++ second) stop := by
  induction first generalizing start with
  | nil =>
      cases before
      exact behind
  | cons span rest ih =>
      obtain ⟨opens, forward, others⟩ := before
      exact ⟨opens, forward, ih others⟩

/-- The spans of items with widths, laid end to end from an offset. -/
def ofItems {Item : Type} (width : Item → Nat) (offset : Nat) (items : List Item) : List Span :=
  (Text.layOut width offset items).map fun (start, item) => ⟨start, start + width item⟩

section OfItems

variable {Item : Type} (width : Item → Nat) (offset : Nat)

@[simp]
theorem ofItems_nil : ofItems width offset [] = [] :=
  rfl

@[simp]
theorem ofItems_cons
    (item : Item)
    (rest : List Item) :
    ofItems width offset (item :: rest) =
      ⟨offset, offset + width item⟩ :: ofItems width (offset + width item) rest := by
  simp [ofItems]

theorem ofItems_append (first second : List Item) :
    ofItems width offset (first ++ second) =
      ofItems width offset first ++ ofItems width (offset + (first.map width).sum) second := by
  simp [ofItems, Text.layOut_append]

theorem ofItems_map
    {Other : Type}
    (convert : Other → Item)
    (items : List Other) :
    ofItems width offset (items.map convert) =
      ofItems (fun item => width (convert item)) offset items := by
  induction items generalizing offset with
  | nil => rfl
  | cons item rest ih => simp [ih]

/-- Items laid end to end leave no gap. -/
theorem tile_ofItems (items : List Item) :
    Tile offset (ofItems width offset items) (offset + (items.map width).sum) := by
  induction items generalizing offset with
  | nil => rfl
  | cons item rest ih =>
      rw [ofItems_cons]
      refine ⟨rfl, Nat.le_add_right _ _, ?_⟩
      simpa [Nat.add_assoc] using ih (offset + width item)

end OfItems

/-- The items of a list whose indices a span covers. -/
def slice {Item : Type} (span : Span) (items : List Item) : List Item :=
  (items.drop span.start).take (span.stop - span.start)

end Span

namespace Text

theorem size_flatten (parts : List Text) : size parts.flatten = (parts.map size).sum := by
  induction parts with
  | nil => rfl
  | cons part rest ih => simp [ih]

/-- An offset at which a character of a text begins or the text ends. -/
def IsBoundary (text : Text) (offset : Nat) : Prop :=
  ∃ before behind, text = before ++ behind ∧ offset = size before

/-- A span that lies within a text, with both ends between two characters. -/
structure Holds (text : Text) (span : Span) : Prop where
  start : text.IsBoundary span.start
  stop : text.IsBoundary span.stop
  ordered : span.start ≤ span.stop

/-- The span of a part of a text. -/
theorem Holds.ofPart {before inside behind : Text} :
    Holds (before ++ (inside ++ behind)) ⟨size before, size before + size inside⟩ :=
  ⟨⟨before, _, rfl, rfl⟩, ⟨before ++ inside, behind, by simp, by simp⟩, Nat.le_add_right _ _⟩

/-- Parts of a text start and stop between two characters. -/
theorem isBoundary_of_mem_ofItems
    {parts : List Text}
    {before : Text} :
    ∀ span ∈ Span.ofItems size (size before) parts,
      IsBoundary (before ++ parts.flatten) span.start ∧
        IsBoundary (before ++ parts.flatten) span.stop := by
  induction parts generalizing before with
  | nil => simp
  | cons part rest ih =>
      intro span member
      rw [Span.ofItems_cons] at member
      rcases List.mem_cons.mp member with rfl | later
      · exact ⟨⟨before, _, rfl, rfl⟩, before ++ part, rest.flatten, by simp, by simp⟩
      · rw [← size_append] at later
        have others := ih span later
        simpa using others

end Text

/-- A token of a text lies within it. -/
theorem Token.holds_span
    {text : Text}
    {place : Nat × Token}
    (listed : place ∈ layOut (tokenize text)) :
    text.Holds (place.2.span place.1) := by
  obtain ⟨offset, token⟩ := place
  obtain ⟨before, behind, split, start⟩ := Text.exists_split_of_mem_layOut listed
  have whole : text = (before.flatMap fullText ++ token.leading.flatMap Trivia.text) ++
      (token.text ++ (token.trailing.flatMap Trivia.text ++ behind.flatMap fullText)) := by
    rw [← flatMap_fullText_tokenize text, split]
    simp [fullText]
  have place : token.span offset =
      ⟨Text.size (before.flatMap fullText ++ token.leading.flatMap Trivia.text),
        Text.size (before.flatMap fullText ++ token.leading.flatMap Trivia.text) +
          Text.size token.text⟩ := by
    simp [span, start, innerWidth, sum_width, Trivia.runWidth_eq_size]
  rw [place, whole]
  exact .ofPart

/-- The parts that a token and its trivia cut a text into. -/
def Token.parts (token : Token) : List Text :=
  token.leading.map Trivia.text ++ token.text :: token.trailing.map Trivia.text

theorem Token.flatten_parts (tokens : List Token) :
    (tokens.flatMap parts).flatten = tokens.flatMap fullText := by
  induction tokens with
  | nil => rfl
  | cons token rest ih =>
      rw [List.flatMap_cons, List.flatten_append, ih, List.flatMap_cons]
      simp [parts, fullText, List.flatMap_def]

namespace Scanned

/-- The number of bytes in a token and in its trivia pieces in a buffer. -/
def width (buffer : List Measured) (scanned : Scanned) : Nat :=
  ((scanned.leading.slice buffer).map Measured.length).sum
    + (scanned.span.stop - scanned.span.start)
    + ((scanned.trailing.slice buffer).map Measured.length).sum

/--
The spans of tokens and of their trivia from an offset on.  Trivia pieces are laid end to end
behind what comes before them, and tokens stand where they say.
-/
def spans (buffer : List Measured) (offset : Nat) : List Scanned → List Span
  | [] => []
  | scanned :: rest =>
      Span.ofItems Measured.length offset (scanned.leading.slice buffer) ++ scanned.span ::
        (Span.ofItems Measured.length scanned.span.stop (scanned.trailing.slice buffer) ++
          spans buffer
            (scanned.span.stop + ((scanned.trailing.slice buffer).map Measured.length).sum) rest)

end Scanned

/-- Tokens with a buffer of trivia pieces that partition a text. -/
structure Partition (text : Text) (tokens : List Scanned) (buffer : List Measured) : Prop where
  tile : Span.Tile 0 (Scanned.spans buffer 0 tokens) (Text.size text)
  boundaries : ∀ span ∈ Scanned.spans buffer 0 tokens,
    text.IsBoundary span.start ∧ text.IsBoundary span.stop
  placed : ∀ before token behind, tokens = before ++ token :: behind →
    token.span.start = (before.map (Scanned.width buffer)).sum +
      ((token.leading.slice buffer).map Measured.length).sum
  pieces : ∀ piece ∈ buffer, 0 < piece.length
  nonempty : ∀ token ∈ tokens, token.kind ≠ .eof → token.span.start < token.span.stop
  ends : ∃ inner last, tokens = inner ++ [last] ∧ last.kind = .eof ∧
    ∀ token ∈ inner, token.kind ≠ .eof
  indices : Span.Tile 0 (tokens.flatMap fun token => [token.leading, token.trailing]) buffer.length

theorem Trivia.sum_length_measure (pieces : List Trivia) :
    ((pieces.map measure).map Measured.length).sum = runWidth pieces := by
  rw [List.map_map, runWidth_eq_size, ← sum_width]
  rfl

theorem Trivia.sum_size_text (pieces : List Trivia) :
    ((pieces.map Trivia.text).map Text.size).sum = runWidth pieces := by
  rw [List.map_map, runWidth_eq_size, ← sum_width]
  rfl

/-- Trivia pieces in a buffer fill the same bytes as their texts. -/
theorem Trivia.ofItems_measure
    (offset : Nat)
    (pieces : List Trivia) :
    Span.ofItems Measured.length offset (pieces.map measure) =
      Span.ofItems Text.size offset (pieces.map Trivia.text) := by
  rw [Span.ofItems_map, Span.ofItems_map]
  rfl

namespace Token

/-- The trivia of tokens stands in a buffer from an index on. -/
def Buffered (tokens : List Token) (buffer : List Measured) (pieces : Nat) : Prop :=
  (allTrivia tokens).map Trivia.measure <+: buffer.drop pieces

/-- The trivia of a token is where the token says that it is. -/
theorem Buffered.slices
    {token : Token}
    {rest : List Token}
    {buffer : List Measured}
    {pieces : Nat}
    (buffered : Buffered (token :: rest) buffer pieces)
    (offset : Nat) :
    (token.scanned offset pieces).leading.slice buffer = token.leading.map Trivia.measure ∧
      (token.scanned offset pieces).trailing.slice buffer = token.trailing.map Trivia.measure ∧
      Buffered rest buffer (pieces + token.leading.length + token.trailing.length) := by
  obtain ⟨behind, drops⟩ := buffered
  have here : token.leading.map Trivia.measure ++ (token.trailing.map Trivia.measure ++
      ((allTrivia rest).map Trivia.measure ++ behind)) = buffer.drop pieces := by
    rw [← drops]
    simp [allTrivia]
  have between : buffer.drop (pieces + token.leading.length) = token.trailing.map Trivia.measure ++
      ((allTrivia rest).map Trivia.measure ++ behind) := by
    rw [← List.drop_drop, ← here]
    exact List.drop_left' (by simp)
  refine ⟨?_, ?_, behind, ?_⟩
  · rw [Span.slice]
    simp only [scanned]
    rw [← here]
    exact List.take_left' (by simp)
  · rw [Span.slice]
    simp only [scanned]
    rw [between]
    exact List.take_left' (by simp)
  · rw [← List.drop_drop, between]
    exact (List.drop_left' (by simp)).symm

theorem sum_size_parts (token : Token) : (token.parts.map Text.size).sum = token.width := by
  rw [parts, List.map_append, List.sum_append, List.map_cons, List.sum_cons,
    Trivia.sum_size_text, Trivia.sum_size_text, ← Nat.add_assoc]
  rfl

/-- The parts of a token stand before it, where it says that it is, and behind it. -/
theorem ofItems_parts
    (token : Token)
    (offset : Nat) :
    Span.ofItems Text.size offset token.parts =
      Span.ofItems Text.size offset (token.leading.map Trivia.text) ++ token.span offset ::
        Span.ofItems Text.size (token.span offset).stop (token.trailing.map Trivia.text) := by
  rw [parts, Span.ofItems_append, Span.ofItems_cons, Trivia.sum_size_text]
  rfl

variable {tokens : List Token} {buffer : List Measured} {offset pieces : Nat}

/-- The pieces that a scanner returns are the parts of the text laid end to end. -/
theorem spans_scannedFrom (buffered : Buffered tokens buffer pieces) :
    Scanned.spans buffer offset (scannedFrom offset pieces tokens) =
      Span.ofItems Text.size offset (tokens.flatMap parts) := by
  induction tokens generalizing offset pieces with
  | nil => rfl
  | cons token rest ih =>
      obtain ⟨leading, trailing, others⟩ := buffered.slices offset
      have stop : (token.scanned offset pieces).span.stop + Trivia.runWidth token.trailing =
          offset + token.width := by
        simp only [scanned, span, width]
        omega
      rw [scannedFrom, Scanned.spans, leading, trailing, Trivia.sum_length_measure, stop,
        ih others, Trivia.ofItems_measure, Trivia.ofItems_measure, List.flatMap_cons,
        Span.ofItems_append, sum_size_parts, ofItems_parts, List.append_assoc]
      rfl

theorem width_scanned
    {token : Token}
    {rest : List Token}
    (buffered : Buffered (token :: rest) buffer pieces)
    (offset : Nat) :
    (token.scanned offset pieces).width buffer = token.width := by
  obtain ⟨leading, trailing, _⟩ := buffered.slices offset
  rw [Scanned.width, leading, trailing, Trivia.sum_length_measure, Trivia.sum_length_measure]
  simp [scanned, span, width]

/-- A token begins behind the bytes of everything before it. -/
theorem start_scannedFrom
    (buffered : Buffered tokens buffer pieces)
    {before behind : List Scanned}
    {scanned : Scanned}
    (split : scannedFrom offset pieces tokens = before ++ scanned :: behind) :
    scanned.span.start = offset + (before.map (Scanned.width buffer)).sum +
      ((scanned.leading.slice buffer).map Measured.length).sum := by
  induction before generalizing offset pieces tokens with
  | nil =>
      cases tokens with
      | nil => cases split
      | cons token rest =>
          obtain ⟨rfl, _⟩ := List.cons.inj split
          rw [(buffered.slices offset).1, Trivia.sum_length_measure]
          simp [Token.scanned, span]
  | cons first before ih =>
      cases tokens with
      | nil => cases split
      | cons token rest =>
          obtain ⟨rfl, later⟩ := List.cons.inj split
          rw [ih (buffered.slices offset).2.2 later, List.map_cons, List.sum_cons,
            width_scanned buffered]
          omega

theorem scannedFrom_append (first second : List Token) :
    scannedFrom offset pieces (first ++ second) = scannedFrom offset pieces first ++
      scannedFrom (offset + (first.map width).sum) (pieces + (allTrivia first).length) second := by
  induction first generalizing offset pieces with
  | nil => simp [scannedFrom, allTrivia]
  | cons token rest ih => simp [scannedFrom, ih, allTrivia, Nat.add_assoc]

theorem exists_of_mem_scannedFrom
    {scanned : Scanned}
    (member : scanned ∈ scannedFrom offset pieces tokens) :
    ∃ token ∈ tokens, ∃ start index, scanned = token.scanned start index := by
  induction tokens generalizing offset pieces with
  | nil => cases member
  | cons token rest ih =>
      rcases List.mem_cons.mp member with rfl | later
      · exact ⟨token, List.mem_cons_self, offset, pieces, rfl⟩
      · obtain ⟨other, isLater, found⟩ := ih later
        exact ⟨other, List.mem_cons_of_mem _ isLater, found⟩

/-- The trivia of successive tokens cuts the buffer without a gap. -/
theorem tile_scannedFrom
    (offset pieces : Nat)
    (tokens : List Token) :
    Span.Tile pieces
      ((scannedFrom offset pieces tokens).flatMap fun token => [token.leading, token.trailing])
      (pieces + (allTrivia tokens).length) := by
  induction tokens generalizing offset pieces with
  | nil => rfl
  | cons token rest ih =>
      have others := ih (offset + token.width)
        (pieces + token.leading.length + token.trailing.length)
      have length : (allTrivia (token :: rest)).length =
          token.leading.length + token.trailing.length + (allTrivia rest).length := by
        simp [allTrivia, Nat.add_assoc]
      rw [length, ← Nat.add_assoc, ← Nat.add_assoc]
      exact ⟨rfl, Nat.le_add_right _ _, rfl, Nat.le_add_right _ _, others⟩

end Token

/-- The tokens of a text, as a scanner returns them, partition it. -/
theorem partition_tokenize
    (text : Text)
    {buffer : List Measured}
    (trivia : buffer = (Token.allTrivia (tokenize text)).map Trivia.measure)
    (nonempty : ∀ piece ∈ Token.allTrivia (tokenize text), piece.text ≠ []) :
    Partition text (Token.scannedFrom 0 0 (tokenize text)) buffer := by
  have buffered : Token.Buffered (tokenize text) buffer 0 := by
    rw [trivia]
    exact List.prefix_refl _
  have covered : ((tokenize text).flatMap Token.parts).flatten = text := by
    rw [Token.flatten_parts, flatMap_fullText_tokenize]
  have spans : Scanned.spans buffer 0 (Token.scannedFrom 0 0 (tokenize text)) = _ :=
    Token.spans_scannedFrom buffered
  obtain ⟨inner, leading, all, significant⟩ := tokenize_eq text
  refine ⟨?_, ?_, ?_, ?_, ?_, ?_, ?_⟩
  · have tile := Span.tile_ofItems Text.size 0 ((tokenize text).flatMap Token.parts)
    rwa [← Text.size_flatten, covered, Nat.zero_add, ← spans] at tile
  · have boundaries := @Text.isBoundary_of_mem_ofItems ((tokenize text).flatMap Token.parts) []
    rwa [List.nil_append, covered, Text.size_nil, ← spans] at boundaries
  · intro before token behind split
    have start := Token.start_scannedFrom buffered split
    rwa [Nat.zero_add] at start
  · intro piece member
    rw [trivia] at member
    obtain ⟨original, isOriginal, rfl⟩ := List.mem_map.mp member
    exact Text.size_pos (nonempty original isOriginal)
  · intro scanned member notEnd
    obtain ⟨token, isToken, start, index, rfl⟩ := Token.exists_of_mem_scannedFrom member
    have positive := Text.size_pos (significant_of_mem_tokenize isToken notEnd).text
    exact Nat.lt_add_of_pos_right positive
  · rw [all, Token.scannedFrom_append]
    refine ⟨_, _, rfl, rfl, fun scanned member => ?_⟩
    obtain ⟨token, isToken, start, index, rfl⟩ := Token.exists_of_mem_scannedFrom member
    exact (significant token isToken).kind_ne_eof
  · have tile := Token.tile_scannedFrom 0 0 (tokenize text)
    rwa [Nat.zero_add, ← List.length_map Trivia.measure, ← trivia] at tile

/--
Scanning partitions every text, and gives the tokens, the trivia and the faults that reading
gives.  Asked for more behind the end of the text, a scanner returns the end of the text each
time, without trivia, and neither its buffer nor its faults change.
-/
theorem scan_partitions (text : Text) :
    let scan := (Scanner.new text).all
    let ending : Scanned := ⟨.eof, .empty (Text.size text), .empty scan.2.trivia.length,
      .empty scan.2.trivia.length⟩
    Partition text scan.1 scan.2.trivia ∧
      (∀ count, scan.2.many count = (List.replicate count ending, scan.2)) ∧
      scan.1 = (Token.readings (tokenize text)).map Token.Reading.scanned ∧
      scan.2.trivia = (Token.allTrivia (tokenize text)).map Trivia.measure ∧
      scan.2.faults = Token.allFaults (tokenize text) ∧
      ∀ count, ((Scanner.new text).many count).1 =
        (Token.readings (Token.readMany true text count)).map Token.Reading.scanned := by
  intro scan ending
  obtain ⟨scanned, after, ended⟩ := Scanner.all_new text
  have size : scan.2.offset = Text.size text := by
    rw [Scanner.offset, Scanner.remaining, ended, after.size]
    rfl
  refine ⟨?_, fun count => ?_, ?_, after.trivia, after.faults, fun count => ?_⟩
  · rw [scanned]
    exact partition_tokenize text after.trivia after.nonempty
  · have asked := Scanner.many_of_nil after.placed ended count
    rwa [size] at asked
  · rw [Token.map_scanned_readings]
    exact scanned
  · have start : (Scanner.new text).offset = 0 := Nat.sub_self _
    obtain ⟨returned, _⟩ := (Scanner.After.new text).many count
    rw [start] at returned
    rw [Token.map_scanned_readings]
    exact returned

end LuaFold
