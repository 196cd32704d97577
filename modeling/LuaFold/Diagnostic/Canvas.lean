/-!
# Rows of styled cells

A rendered diagnostic is a list of rows, and a row is a list of cells: characters, each with a
style.  Writing behind the end of a row fills the gap with blank cells, and writing over a
cell replaces it.

Written out for a terminal, a row changes the style only where the style of the next cell
differs, and ends without a style.
-/

namespace LuaFold

/-- How a cell is shown. -/
inductive Style where
  | unstyled | emphasis | fault | guide
deriving DecidableEq, Repr

namespace Style

/-- The sequence that ends every style. -/
def reset : String :=
  "\x1b[0m"

/-- The sequence that begins a style: bold, and bright red or bright blue for most. -/
def codes : Style → String
  | unstyled => ""
  | emphasis => "\x1b[1m"
  | fault => "\x1b[1m\x1b[91m"
  | guide => "\x1b[1m\x1b[94m"

end Style

/-- A character with its style. -/
structure Cell where
  character : Char
  style : Style
deriving DecidableEq, Repr

/-- A row of cells. -/
abbrev Row := Array Cell

namespace Row

/-- The cell of a column to which nothing was written. -/
def gap : Cell :=
  ⟨' ', .unstyled⟩

/-- Write one cell at a column. -/
def put (row : Row) (column : Nat) (character : Char) (style : Style) : Row :=
  let cell : Cell := ⟨character, style⟩
  if column < row.size then row.setIfInBounds column cell
  else (row ++ Array.replicate (column - row.size) gap).push cell

/-- Write a text from a column on, one character a cell. -/
def write (row : Row) (column : Nat) (text : List Char) (style : Style) : Row :=
  (text.foldl
    (fun (row, column) character => (put row column character style, column + 1))
    (row, column)).1

/-- Write one character into every column from one up to another. -/
def fill (row : Row) (first last : Nat) (character : Char) (style : Style) : Row :=
  write row first (List.replicate (last - first) character) style

/-- Write a text directly behind the last cell. -/
def append (row : Row) (text : List Char) (style : Style) : Row :=
  write row row.size text style

/-- The characters of a row. -/
def plain (row : Row) : String :=
  row.foldl (fun written cell => written.push cell.character) ""

/-- The characters of a row with the sequences that style them. -/
def styled (row : Row) : String :=
  let write := fun (state : Style × String) (cell : Cell) =>
    let (current, written) := state
    if cell.style = current then (current, written.push cell.character)
    else
      let ended := if current = .unstyled then written else written ++ Style.reset
      (cell.style, (ended ++ cell.style.codes).push cell.character)
  let (last, written) := row.foldl write (.unstyled, "")
  if last = .unstyled then written else written ++ Style.reset

end Row

end LuaFold
