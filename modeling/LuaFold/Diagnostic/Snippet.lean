import LuaFold.Diagnostic
import LuaFold.Diagnostic.Canvas
import LuaFold.Diagnostic.Excerpt

/-!
# Rendered diagnostics

A diagnostic is rendered as its message, the place of its span, and the lines around the span
with carets under what it covers.  A span over several lines is drawn as a bracket at the left
margin.
-/

namespace LuaFold

/-- What the rendering of one diagnostic depends on: the excerpt and the widths of margins. -/
structure Snippet where
  excerpt : Excerpt
  marks : List (ExcerptLine × Mark)
  numberWidth : Nat
  codeColumn : Nat

namespace Snippet

/-- The digits of the greatest line number, and the column where the text of lines begins. -/
def ofSpan (text : Text) (span : Span) : Snippet :=
  let excerpt := Excerpt.ofText text span
  let marks := excerpt.marked
  let digits :=
    match marks.getLast? with
    | some (line, _) => (toString line.number).length
    | none => 0
  let bracketed := marks.any fun entry => entry.2.isMultiline
  ⟨excerpt, marks, digits, digits + (if bracketed then 5 else 3)⟩

/-- A row with nothing but the margin. -/
def margin (snippet : Snippet) : Row :=
  Row.put #[] (snippet.numberWidth + 1) '|' .guide

/-- The row of the message. -/
def title (message : String) : Row :=
  let headed := Row.append #[] "error".toList .fault
  if message.isEmpty then headed
  else Row.append (Row.append headed ": ".toList .unstyled) message.toList .emphasis

/-- The row of the place of the span. -/
def locationRow (snippet : Snippet) (origin : String) : Row :=
  let (line, column) := snippet.excerpt.location snippet.marks
  let arrow := Row.write #[] snippet.numberWidth "-->".toList .guide
  let named :=
    if origin.isEmpty then arrow
    else Row.write arrow (snippet.numberWidth + 4) origin.toList .unstyled
  Row.append named (":" ++ toString line ++ ":" ++ toString column).toList .unstyled

/--
How far carets move to the left: the width of a blank text that is not shown, where every
control character takes one column.
-/
def shift (snippet : Snippet) (line : ExcerptLine) : Nat :=
  if snippet.excerpt.isBlank then Text.displayWidth 1 line.shown else 0

/-- The row of a line with its number. -/
def lineRow (snippet : Snippet) (line : ExcerptLine) : Row :=
  let number := (toString line.number).toList
  let padding := List.replicate (snippet.numberWidth - number.length) ' '
  let numbered := Row.append #[] (padding ++ number ++ " |".toList) .guide
  if snippet.excerpt.isBlank then
    Row.write numbered snippet.codeColumn "...".toList .guide
  else Row.write numbered snippet.codeColumn line.shown .unstyled

/-- The bracket of a span over several lines, in a row. -/
def bracket (snippet : Snippet) (row : Row) (character : Char) : Row :=
  Row.put row (snippet.numberWidth + 3) character .fault

/-- A line of underscores from the bracket to a caret under a column. -/
def underline (snippet : Snippet) (row : Row) (caret : Nat) : Row :=
  Row.put (Row.fill row (snippet.numberWidth + 4) (caret + 1) '_' .fault) caret '^' .fault

/-- The rows of a line with a mark. -/
def markedRows (snippet : Snippet) (line : ExcerptLine) (mark : Mark) : List Row :=
  let row := snippet.lineRow line
  let place := fun (column : Nat) => snippet.codeColumn + column - snippet.shift line
  match mark with
  | .single first last =>
    let carets := (List.range (last - first)).foldl
      (fun carets distance => Row.put carets (place (first + distance)) '^' .fault)
      snippet.margin
    [row, carets]
  | .starts column =>
    if (line.shown.take column).all Excerpt.isWhitespace then [snippet.bracket row '/']
    else [row, snippet.underline snippet.margin (place column)]
  | .passes => [snippet.bracket row '|']
  | .ends column =>
    [snippet.bracket row '|',
      snippet.underline (snippet.bracket snippet.margin '|') (place column)]

/-- The rows of a part of the excerpt. -/
def excerptRows (snippet : Snippet) : ExcerptRow → List Row
  | .line line mark => snippet.markedRows line mark
  | .fold => [snippet.bracket (Row.write #[] 0 "...".toList .guide) '|']

/-- Every row of a rendered diagnostic. -/
def rows (snippet : Snippet) (message origin : String) : List Row :=
  [title message, snippet.locationRow origin, snippet.margin]
    ++ (Excerpt.rows snippet.marks).flatMap snippet.excerptRows
    ++ [snippet.margin]

end Snippet

namespace Diagnostic

/-- A diagnostic rendered over the text it is about, with or without styles. -/
def renderSnippet
    (diagnostic : Diagnostic)
    (styles : Bool)
    (origin : String)
    (text : Text) :
    String :=
  let rows := (Snippet.ofSpan text diagnostic.span).rows diagnostic.message origin
  "\n".intercalate (rows.map fun row => if styles then Row.styled row else Row.plain row)

/-- Diagnostics rendered one after the other with blank lines between them. -/
def renderAll
    (diagnostics : List Diagnostic)
    (styles : Bool)
    (origin : String)
    (text : Text) :
    String :=
  "\n\n".intercalate
    (diagnostics.map fun diagnostic => diagnostic.renderSnippet styles origin text)

end Diagnostic

end LuaFold
