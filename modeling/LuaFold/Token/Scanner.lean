import LuaFold.Token.Reading
import LuaFold.Tree.Builder

/-!
# Scanning with one cursor

A text can also be read with one cursor that moves forward only.  A scanner knows what is ahead
of it and how many bytes were ahead when the piece that it reads began; offsets and lengths are
differences of such numbers.  The trivia of all tokens goes into one buffer, and a token says
which part of the buffer stands before it and which behind.  A fault is recorded when the piece
that has it is read.

Behind the end of its text a scanner returns the end again, however often it is asked.
-/

namespace LuaFold

/-- A token as a scanner returns it: its bytes, and its trivia as spans of the buffer. -/
structure Scanned where
  kind : Kind
  span : Span
  leading : Span
  trailing : Span
deriving DecidableEq, Repr

/--
A cursor over a text of a size: what is ahead of it, how many bytes were ahead when the current
piece began, and the trivia and the faults met so far.
-/
structure Scanner where
  size : Nat
  rest : Text
  ahead : Nat
  trivia : List Measured
  faults : List (LexicalFault × Span)

namespace Trivia

theorem readRun_of_read
    {lineBreaks : Bool}
    {text rest : Text}
    {piece : Trivia}
    (read : read? lineBreaks text = some (piece, rest))
    (pieces : List Trivia) :
    readRun lineBreaks pieces text = readRun lineBreaks (piece :: pieces) rest := by
  rw [readRun]
  split
  · next found => simp_all
  · next none => simp_all

theorem readRun_of_none
    {lineBreaks : Bool}
    {text : Text}
    (none : read? lineBreaks text = none)
    (pieces : List Trivia) :
    readRun lineBreaks pieces text = (pieces.reverse, text) := by
  rw [readRun]
  split
  · next found => simp_all
  · rfl

end Trivia

namespace Scanner

/-- A cursor at the start of a text. -/
def new (text : Text) : Scanner :=
  ⟨Text.size text, text, Text.size text, [], []⟩

/-- The number of bytes ahead of the cursor. -/
def remaining (scanner : Scanner) : Nat :=
  Text.size scanner.rest

/-- Where the cursor stands in the text. -/
def offset (scanner : Scanner) : Nat :=
  scanner.size - scanner.remaining

/-- The number of bytes read of the current piece. -/
def length (scanner : Scanner) : Nat :=
  scanner.ahead - scanner.remaining

/-- The bytes read of the current piece. -/
def span (scanner : Scanner) : Span :=
  ⟨scanner.offset - scanner.length, scanner.offset⟩

/-- Begin a piece at the cursor. -/
def restart (scanner : Scanner) : Scanner :=
  ⟨scanner.size, scanner.rest, scanner.remaining, scanner.trivia, scanner.faults⟩

/-- Read on up to what is ahead now, and record the fault of the piece if it has one. -/
def advance (scanner : Scanner) (rest : Text) (fault? : Option LexicalFault) : Scanner :=
  let moved : Scanner := ⟨scanner.size, rest, scanner.ahead, scanner.trivia, scanner.faults⟩
  ⟨scanner.size, rest, scanner.ahead, scanner.trivia,
    scanner.faults ++ (fault?.map fun fault => (fault, moved.span)).toList⟩

/-- Put the piece that was read into the buffer. -/
def push (scanner : Scanner) (kind : TriviaKind) : Scanner :=
  ⟨scanner.size, scanner.rest, scanner.ahead, scanner.trivia ++ [⟨kind, scanner.length⟩],
    scanner.faults⟩

/-- Read a trivia piece up to what is ahead behind it. -/
def take (scanner : Scanner) (piece : Trivia) (rest : Text) : Scanner :=
  ((scanner.advance rest piece.fault?).push piece.kind).restart

/-- Read every trivia piece at the cursor, line breaks only if they count. -/
def readTrivia (lineBreaks : Bool) (scanner : Scanner) : Scanner :=
  match _ : Trivia.read? lineBreaks scanner.rest with
  | some (piece, rest) => readTrivia lineBreaks (scanner.take piece rest)
  | none => scanner
termination_by scanner.rest.length
decreasing_by exact Trivia.read?_rest_length_lt ‹_›

/-- Read the trivia before a token; at the start of a text it may begin with a first line. -/
def readLeading (scanner : Scanner) : Scanner :=
  match if scanner.offset = 0 then Trivia.firstLine? scanner.rest else none with
  | some (piece, rest) => (scanner.take piece rest).readTrivia true
  | none => scanner.readTrivia true

/-- Read the token at the cursor, which is the end of the text if nothing is ahead. -/
def readKind (scanner : Scanner) : Kind × Scanner :=
  match scanner.rest with
  | [] => (.eof, scanner)
  | first :: rest =>
    let lexeme := Lexeme.read first rest
    (lexeme.kind, scanner.advance lexeme.cut.rest lexeme.fault?)

/-- The next token, and the scanner behind the trivia of this token. -/
def next (scanner : Scanner) : Scanned × Scanner :=
  let before := scanner.readLeading
  let inside := before.readKind
  let behind := inside.2.restart.readTrivia false
  (⟨inside.1, inside.2.span, ⟨scanner.trivia.length, before.trivia.length⟩,
    ⟨before.trivia.length, behind.trivia.length⟩⟩, behind)

/-- The next tokens, a number of them. -/
def many (scanner : Scanner) : Nat → List Scanned × Scanner
  | 0 => ([], scanner)
  | count + 1 =>
    let later := scanner.next.2.many count
    (scanner.next.1 :: later.1, later.2)

@[simp]
theorem rest_take
    (scanner : Scanner)
    (piece : Trivia)
    (rest : Text) :
    (scanner.take piece rest).rest = rest :=
  rfl

/-- What is ahead behind trivia does not depend on what was read before. -/
theorem rest_readTrivia
    (lineBreaks : Bool)
    (scanner : Scanner)
    (pieces : List Trivia) :
    (scanner.readTrivia lineBreaks).rest =
      (Trivia.readRun lineBreaks pieces scanner.rest).2 := by
  fun_induction readTrivia lineBreaks scanner generalizing pieces with
  | case1 scanner piece rest read ih =>
    rw [ih (piece :: pieces), Trivia.readRun_of_read read, rest_take]
  | case2 scanner read => rw [Trivia.readRun_of_none read]

theorem rest_readLeading (scanner : Scanner) :
    scanner.readLeading.rest =
      (Trivia.readLeading (decide (scanner.offset = 0)) scanner.rest).2 := by
  unfold readLeading Trivia.readLeading
  simp only [decide_eq_true_eq]
  cases if scanner.offset = 0 then Trivia.firstLine? scanner.rest else none with
  | none => exact rest_readTrivia true scanner []
  | some found => rw [rest_readTrivia true _ [found.1], rest_take]

/-- Only the end of a text is read without moving on. -/
theorem rest_next_length_lt
    {scanner : Scanner}
    (more : scanner.next.1.kind ≠ .eof) :
    scanner.next.2.rest.length < scanner.rest.length := by
  have before := Trivia.readLeading_rest_length_le (decide (scanner.offset = 0)) scanner.rest
  rw [← rest_readLeading] at before
  have behind := Trivia.readRun_rest_length_le false []
    scanner.readLeading.readKind.2.restart.rest
  rw [← rest_readTrivia false] at behind
  have inside : scanner.readLeading.readKind.2.restart.rest.length <
      scanner.readLeading.rest.length := by
    have kind : scanner.readLeading.readKind.1 ≠ .eof := more
    unfold readKind at kind ⊢
    split at kind
    · exact absurd rfl kind
    · next first rest ahead =>
      rw [ahead]
      exact Lexeme.rest_read_length_lt first rest
  exact Nat.lt_of_le_of_lt behind (Nat.lt_of_lt_of_le inside before)

/-- The tokens up to the end of the text. -/
def all (scanner : Scanner) : List Scanned × Scanner :=
  if _ : scanner.next.1.kind = .eof then ([scanner.next.1], scanner.next.2)
  else
    let later := all scanner.next.2
    (scanner.next.1 :: later.1, later.2)
termination_by scanner.rest.length
decreasing_by exact rest_next_length_lt ‹_›

end Scanner

end LuaFold
