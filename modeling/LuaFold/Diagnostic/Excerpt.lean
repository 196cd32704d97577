import LuaFold.Span
import LuaFold.Text.DisplayWidth

/-!
# Excerpts around a span

The excerpt of a text around a span runs from the start of the line where the span begins to
the end of the line where it ends.  Each of its lines is marked with what the span does there:
it lies in the line, it starts, it passes through, or it ends.

A line is shown if the span touches it.  Of many lines that the span only passes through, the
first and the last are shown and the others are folded.
-/

namespace LuaFold

/-- A line of an excerpt: its number, its place, its content and the size of its line break. -/
structure ExcerptLine where
  number : Nat
  start : Nat
  content : Text
  breakSize : Nat
deriving DecidableEq, Repr

namespace ExcerptLine

/-- The offset behind the content of a line. -/
def stop (line : ExcerptLine) : Nat :=
  line.start + Text.size line.content

/-- The first characters of a line, up to an offset. -/
def before (line : ExcerptLine) (offset : Nat) : Text :=
  go (offset - line.start) [] line.content
where
  /-- Collect the characters that fit into a number of bytes, newest first. -/
  go (bytes : Nat) (taken : Text) : Text → Text
    | [] => taken.reverse
    | character :: rest =>
      if character.utf8Size ≤ bytes then
        go (bytes - character.utf8Size) (character :: taken) rest
      else taken.reverse

/-- The column of an offset in a line.  Control characters take no column here. -/
def column (line : ExcerptLine) (offset : Nat) : Nat :=
  Text.displayWidth 0 (line.before offset)

/-- The code points that join characters or turn the direction of a text. -/
def joinersAndTurns : List (Nat × Nat) :=
  [(0x200d, 0x200d), (0x202a, 0x202e), (0x2066, 0x2069)]

/--
The content of a line as it is shown: with four spaces for every tab, and without characters
that join others or turn the direction of the text.
-/
def shown (line : ExcerptLine) : Text :=
  line.content.flatMap fun character =>
    if character = '\t' then List.replicate 4 ' '
    else if Text.inRanges joinersAndTurns character.toNat then []
    else [character]

end ExcerptLine

/-- What a span does in a line. -/
inductive Mark where
  | single (first : Nat) (last : Nat)
  | starts (column : Nat)
  | passes
  | ends (column : Nat)
deriving DecidableEq, Repr

namespace Mark

/-- What a span does in a line, if it touches the line. -/
def ofLine? (span : Span) (line : ExcerptLine) : Option Mark :=
  let first := line.column span.start
  let last := line.column span.stop
  let breakWidth := max line.breakSize 1
  if span.start > line.stop + line.breakSize then none
  else if line.start ≤ span.start && span.stop ≤ line.stop + breakWidth then
    some (single first (if first = last then first + 1 else last))
  else if line.start ≤ span.start && span.start ≤ line.stop + (line.breakSize - 1)
      && line.stop < span.stop then
    some (starts first)
  else if span.start < line.start && line.stop + breakWidth < span.stop then some passes
  else if span.start < line.start && line.start ≤ span.stop
      && span.stop ≤ line.stop + breakWidth then
    some (ends ((last - 1) + (if line.stop < span.stop then 1 else 0)))
  else none

/-- Whether a span has its end in a line with this mark. -/
def isLast : Mark → Bool
  | single _ _ | ends _ => true
  | _ => false

/-- Whether a mark belongs to a span over several lines. -/
def isMultiline : Mark → Bool
  | starts _ | ends _ => true
  | _ => false

end Mark

/-- A row group of an excerpt: a line with its mark, or a fold of lines left out. -/
inductive ExcerptRow where
  | line (line : ExcerptLine) (mark : Mark)
  | fold

/-- The part of a text around a span, cut into lines. -/
structure Excerpt where
  lines : List ExcerptLine
  span : Span

namespace Excerpt

/-- The line breaks in the first bytes of a text and the text behind the last of them. -/
structure Head where
  breaks : Nat
  dropped : Nat
  rest : Text

/-- Drop all lines of a text that end before an offset. -/
def dropLines (offset : Nat) (text : Text) : Head :=
  go 0 ⟨0, 0, text⟩ text
where
  /-- Pass over the text, remembering what is behind the last line break. -/
  go (passed : Nat) (head : Head) : Text → Head
    | [] => head
    | character :: rest =>
      let reached := passed + character.utf8Size
      if offset < reached then head
      else if character = '\n' then go reached ⟨head.breaks + 1, reached, rest⟩ rest
      else go reached head rest

/-- Drop everything from the first line feed at or behind an offset on. -/
def dropBehind (offset : Nat) (text : Text) : Text :=
  match Text.cut? offset text with
  | some (front, behind) => front ++ behind.takeWhile fun character => character ≠ '\n'
  | none => text

/-- A line without its line feed, split from the carriage return before it, if any. -/
def finishLine (number start : Nat) (reversed : Text) : ExcerptLine :=
  match reversed with
  | '\r' :: content => ⟨number, start, content.reverse, 2⟩
  | content => ⟨number, start, content.reverse, 1⟩

/-- Cut a text into numbered lines. -/
def splitLines (number : Nat) (text : Text) : List ExcerptLine :=
  go number 0 0 [] [] text
where
  /-- Collect the characters of a line and the finished lines, both newest first. -/
  go (number start passed : Nat) (current : Text) (lines : List ExcerptLine) :
      Text → List ExcerptLine
    | [] =>
      if current.isEmpty then lines.reverse
      else (⟨number, start, current.reverse, 0⟩ :: lines).reverse
    | character :: rest =>
      let reached := passed + character.utf8Size
      if character = '\n' then
        go (number + 1) reached reached [] (finishLine number start current :: lines) rest
      else go number start reached (character :: current) lines rest

/-- The excerpt of a text around a span. -/
def ofText (text : Text) (span : Span) : Excerpt :=
  let head := dropLines span.start text
  let inner : Span := ⟨span.start - head.dropped, span.stop - head.dropped⟩
  ⟨splitLines (head.breaks + 1) (dropBehind inner.stop head.rest), inner⟩

/-- The lines that the span touches, with their marks, through the end of the span. -/
def marked (excerpt : Excerpt) : List (ExcerptLine × Mark) :=
  go excerpt.lines []
where
  /-- Mark line after line, newest first. -/
  go (lines : List ExcerptLine) (marks : List (ExcerptLine × Mark)) :
      List (ExcerptLine × Mark) :=
    match lines with
    | [] => marks.reverse
    | line :: rest =>
      match Mark.ofLine? excerpt.span line with
      | none => go rest marks
      | some mark =>
        if mark.isLast then ((line, mark) :: marks).reverse else go rest ((line, mark) :: marks)

/-- The rows of an excerpt: its marked lines, with a fold for the middle of a long span. -/
def rows (marks : List (ExcerptLine × Mark)) : List ExcerptRow :=
  let asRow := fun (entry : ExcerptLine × Mark) => ExcerptRow.line entry.1 entry.2
  if marks.length > 5 then
    (marks.take 2).map asRow ++ [.fold] ++ (marks.drop (marks.length - 2)).map asRow
  else marks.map asRow

/-- White space in the sense of Unicode. -/
def isWhitespace (character : Char) : Bool :=
  Text.inRanges
    [(0x09, 0x0d), (0x20, 0x20), (0x85, 0x85), (0xa0, 0xa0), (0x1680, 0x1680),
     (0x2000, 0x200a), (0x2028, 0x2029), (0x202f, 0x202f), (0x205f, 0x205f), (0x3000, 0x3000)]
    character.toNat

/-- Whether an excerpt has lines and all of them are blank. -/
def isBlank (excerpt : Excerpt) : Bool :=
  !excerpt.lines.isEmpty && excerpt.lines.all fun line => line.content.all isWhitespace

/-- The number and the column of the start of the span, as people count them. -/
def location (excerpt : Excerpt) (marks : List (ExcerptLine × Mark)) : Nat × Nat :=
  let start := excerpt.span.start
  let holds := fun (entry : ExcerptLine × Mark) =>
    decide (entry.1.start ≤ start ∧ start < entry.1.stop + max entry.1.breakSize 1)
  match marks.find? holds with
  | some (line, _) => (line.number, (line.before start).length + 1)
  | none => (1, 1)

end Excerpt

end LuaFold
