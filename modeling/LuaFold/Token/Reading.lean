import LuaFold.Token.Lexeme

/-!
# Reading a text into tokens

A text is read token by token.  Before a token stand all blank space, line breaks and
comments up to it; behind it stand those up to the end of its line.  So a line break always
belongs to the token after it.  The last token is the end of the text, which is empty.

A `#` at the very start of a text makes its first line a comment.  Every step consumes at
least one character, which is why reading ends.
-/

namespace LuaFold

namespace Trivia

/-- The comment at the front of a text that begins with two hyphens. -/
def comment (text : Text) : TriviaKind × Cut text × Option LexicalFault :=
  match LongBracket.level? (text.drop 2) with
  | some level =>
    let bracket := LongBracket.cut level (text.drop 2)
    (.blockComment, .characters (2 + bracket.1.taken.length) text,
      if bracket.2 then none else some .unfinishedLongComment)
  | none => (.lineComment, .longest (fun character => !Text.isLineEnd character) text, none)

/-- A line break: a line feed, or a carriage return with the line feed behind it, if any. -/
def lineBreak (text : Text) : Cut text :=
  if text.head? = some '\r' && text[1]? = some '\n' then .characters 2 text
  else .characters 1 text

/-- The trivia piece at the front of a text, which is a line break only if those count. -/
def read? (lineBreaks : Bool) (text : Text) : Option (Trivia × Text) :=
  match text with
  | [] => none
  | first :: rest =>
    if Text.isBlank first then
      let cut := Cut.longest Text.isBlank (first :: rest)
      some (⟨.whitespace, cut.taken, none⟩, cut.rest)
    else if lineBreaks && Text.isLineEnd first then
      let cut := lineBreak (first :: rest)
      some (⟨.newline, cut.taken, none⟩, cut.rest)
    else if first = '-' && rest.head? = some '-' then
      let found := comment (first :: rest)
      some (⟨found.1, found.2.1.taken, found.2.2⟩, found.2.1.rest)
    else none

theorem taken_lineBreak_ne_nil
    (first : Char)
    (rest : Text) :
    (lineBreak (first :: rest)).taken ≠ [] := by
  unfold lineBreak
  split <;> simp [Cut.characters]

theorem taken_comment_ne_nil (rest : Text) :
    (comment ('-' :: rest)).2.1.taken ≠ [] := by
  unfold comment
  split
  · simp [Cut.characters]
  · simp [Cut.longest, Text.isLineEnd]

theorem read?_text_append
    {lineBreaks : Bool}
    {text rest : Text}
    {piece : Trivia}
    (read : read? lineBreaks text = some (piece, rest)) :
    piece.text ++ rest = text := by
  unfold read? at read
  repeat' split at read
  all_goals first
    | contradiction
    | (simp only [Option.some.injEq, Prod.mk.injEq] at read
       obtain ⟨rfl, rfl⟩ := read
       exact Cut.whole _)

theorem read?_text_ne_nil
    {lineBreaks : Bool}
    {text rest : Text}
    {piece : Trivia}
    (read : read? lineBreaks text = some (piece, rest)) :
    piece.text ≠ [] := by
  unfold read? at read
  split at read
  · contradiction
  split at read
  · next blank =>
    simp only [Option.some.injEq, Prod.mk.injEq] at read
    obtain ⟨rfl, rfl⟩ := read
    simp [Cut.longest, blank]
  split at read
  · simp only [Option.some.injEq, Prod.mk.injEq] at read
    obtain ⟨rfl, rfl⟩ := read
    exact taken_lineBreak_ne_nil _ _
  split at read
  · next hyphens =>
    simp only [Bool.and_eq_true, decide_eq_true_eq] at hyphens
    obtain ⟨rfl, _⟩ := hyphens
    simp only [Option.some.injEq, Prod.mk.injEq] at read
    obtain ⟨rfl, rfl⟩ := read
    exact taken_comment_ne_nil _
  · contradiction

theorem read?_rest_length_lt
    {lineBreaks : Bool}
    {text rest : Text}
    {piece : Trivia}
    (read : read? lineBreaks text = some (piece, rest)) :
    rest.length < text.length := by
  have whole := congrArg List.length (read?_text_append read)
  have positive := List.length_pos_iff.mpr (read?_text_ne_nil read)
  simp only [List.length_append] at whole
  omega

/-- Every trivia piece at the front of a text, behind those already read, and the rest. -/
def readRun (lineBreaks : Bool) (pieces : List Trivia) (text : Text) : List Trivia × Text :=
  match _ : read? lineBreaks text with
  | some (piece, rest) => readRun lineBreaks (piece :: pieces) rest
  | none => (pieces.reverse, text)
termination_by text.length
decreasing_by exact read?_rest_length_lt ‹_›

theorem readRun_rest_length_le
    (lineBreaks : Bool)
    (pieces : List Trivia)
    (text : Text) :
    (readRun lineBreaks pieces text).2.length ≤ text.length := by
  fun_induction readRun lineBreaks pieces text with
  | case1 pieces text piece rest read ih =>
    have shorter := read?_rest_length_lt read
    omega
  | case2 pieces text read => exact Nat.le_refl _

/-- The comment that a `#` makes of the first line of a text. -/
def firstLine? (text : Text) : Option (Trivia × Text) :=
  if text.head? = some '#' then
    let cut := Cut.longest (fun character => !Text.isLineEnd character) text
    some (⟨.lineComment, cut.taken, none⟩, cut.rest)
  else none

/-- The trivia before the next token and the text that begins with this token. -/
def readLeading (atStart : Bool) (text : Text) : List Trivia × Text :=
  match if atStart then firstLine? text else none with
  | some (piece, rest) => readRun true [piece] rest
  | none => readRun true [] text

/-- The trivia behind a token up to the end of its line. -/
def readTrailing (text : Text) : List Trivia × Text :=
  readRun false [] text

theorem readTrailing_rest_length_le (text : Text) :
    (readTrailing text).2.length ≤ text.length :=
  readRun_rest_length_le false [] text

theorem readLeading_rest_length_le
    (atStart : Bool)
    (text : Text) :
    (readLeading atStart text).2.length ≤ text.length := by
  unfold readLeading
  split
  · next piece rest found =>
    have shorter : rest.length ≤ text.length := by
      cases atStart with
      | false => simp at found
      | true =>
        simp only [↓reduceIte, firstLine?] at found
        split at found
        · simp only [Option.some.injEq, Prod.mk.injEq] at found
          obtain ⟨rfl, rfl⟩ := found
          exact Cut.rest_length_le _
        · contradiction
    exact Nat.le_trans (readRun_rest_length_le true _ rest) shorter
  · exact readRun_rest_length_le true _ text

end Trivia

namespace Lexeme

theorem taken_read_ne_nil
    (first : Char)
    (rest : Text) :
    (read first rest).cut.taken ≠ [] := by
  unfold read
  split
  · next wordStart =>
    have wordPart : Text.isWordPart first = true := by
      simp only [Text.isWordStart, Text.isWordPart, Char.isAlphanum, Bool.or_eq_true] at *
      cases wordStart with
      | inl letter => exact Or.inl (Or.inl letter)
      | inr underscore => exact Or.inr underscore
    simp [word, Cut.longest, wordPart]
  split
  · have nonempty := Numeral.taken_pattern_ne_nil first rest
    simp [numeral, Cut.andThen, nonempty]
  split
  · have positive := ShortString.le_length first 1 rest
    obtain ⟨length, found⟩ :
        ∃ length, (ShortString.length first 1 rest).1 = length + 1 :=
      ⟨_, (Nat.sub_add_cancel positive).symm⟩
    simp [shortString, Cut.characters, found]
  split
  · exact LongBracket.taken_cut_ne_nil _ first rest
  · unfold symbol
    split
    · next written kind found =>
      have member := List.mem_of_find?_eq_some found
      have nonempty : ∀ entry ∈ Kind.operators, entry.1 ≠ [] := by decide
      have positive := List.length_pos_iff.mpr (nonempty _ member)
      cases written with
      | nil => simp at positive
      | cons character written => simp [Cut.characters]
    · simp [Cut.characters]

theorem rest_read_length_lt
    (first : Char)
    (rest : Text) :
    (read first rest).cut.rest.length < (first :: rest).length :=
  Cut.rest_length_lt _ (taken_read_ne_nil first rest)

end Lexeme

namespace Token

/-- The empty token that ends a text, behind the last trivia. -/
def endOfText (leading : List Trivia) : Token :=
  ⟨leading, .eof, [], [], none⟩

/-- The next token of a text and what follows its trailing trivia. -/
def readNext (atStart : Bool) (text : Text) : Token × Text :=
  match Trivia.readLeading atStart text with
  | (leading, []) => (endOfText leading, [])
  | (leading, first :: rest) =>
    let lexeme := Lexeme.read first rest
    let trailing := Trivia.readTrailing lexeme.cut.rest
    (⟨leading, lexeme.kind, lexeme.cut.taken, trailing.1, lexeme.fault?⟩, trailing.2)

/-- Every token of a text behind those already read; the end of the text comes last. -/
def readAll (atStart : Bool) (tokens : List Token) (text : Text) : List Token :=
  match _ : Trivia.readLeading atStart text with
  | (leading, []) => (endOfText leading :: tokens).reverse
  | (leading, first :: rest) =>
    let lexeme := Lexeme.read first rest
    let trailing := Trivia.readTrailing lexeme.cut.rest
    readAll false
      (⟨leading, lexeme.kind, lexeme.cut.taken, trailing.1, lexeme.fault?⟩ :: tokens)
      trailing.2
termination_by text.length
decreasing_by
  have before := Trivia.readLeading_rest_length_le atStart text
  have inside := Lexeme.rest_read_length_lt first rest
  have after := Trivia.readTrailing_rest_length_le (Lexeme.read first rest).cut.rest
  simp_all only
  omega

/-- The first tokens of a text, a number of them; past its end every token is the end. -/
def readMany (atStart : Bool) (text : Text) : Nat → List Token
  | 0 => []
  | count + 1 =>
    let next := readNext atStart text
    next.1 :: readMany false next.2 count

/-- All trivia around tokens as one list in the order of the text. -/
def allTrivia (tokens : List Token) : List Trivia :=
  tokens.flatMap fun token => token.leading ++ token.trailing

/--
A token in the course of reading a text: where its leading trivia begins, which of all trivia
pieces read so far stand before and behind it, and every fault found up to its end.
-/
structure Reading where
  offset : Nat
  token : Token
  leading : Span
  trailing : Span
  faults : List (LexicalFault × Span)

/-- The reading of a token after that of another, or at the start of a text. -/
def Reading.following (previous? : Option Reading) (offset : Nat) (token : Token) : Reading :=
  let pieces := (previous?.map fun previous => previous.trailing.stop).getD 0
  let middle := pieces + token.leading.length
  let earlier := (previous?.map Reading.faults).getD []
  ⟨offset, token, ⟨pieces, middle⟩, ⟨middle, middle + token.trailing.length⟩,
    earlier ++ token.faults offset⟩

/-- The readings of tokens that start a text. -/
def readings (tokens : List Token) : List Reading :=
  ((layOut tokens).foldl
    (fun read (offset, token) => Reading.following read.head? offset token :: read)
    []).reverse

end Token

/-- The tokens of a text in order, the end of the text last. -/
def tokenize (text : Text) : List Token :=
  Token.readAll true [] text

end LuaFold
