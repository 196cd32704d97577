import LuaFold.Text

/-!
# Positions by line and column

Editors name a place in a text by its line and its column.  A line ends after each line feed,
and a column counts the UTF-16 code units since then.
-/

namespace LuaFold

/-- A line and a column, both counted from zero. -/
structure Position where
  line : Nat
  column : Nat
deriving DecidableEq, Repr

namespace Text

/-- The number of UTF-16 code units of a character. -/
def codeUnits (character : Char) : Nat :=
  if character.toNat < 0x10000 then 1 else 2

/-- The position behind one more character. -/
def advancePosition (position : Position) (character : Char) : Position :=
  if character = '\n' then ⟨position.line + 1, 0⟩
  else ⟨position.line, position.column + codeUnits character⟩

/-- The position of a byte offset in a text. -/
def position (text : Text) (offset : Nat) : Position :=
  go offset ⟨0, 0⟩ text
where
  /-- Pass over the characters that end within a number of bytes. -/
  go (bytes : Nat) (reached : Position) : Text → Position
    | [] => reached
    | character :: rest =>
      if character.utf8Size ≤ bytes then
        go (bytes - character.utf8Size) (advancePosition reached character) rest
      else reached

end Text

end LuaFold
