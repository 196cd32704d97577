import LuaFold.Text
import LuaFold.Text.Printable

/-!
# Quoted texts

The quoted form of a text shows every character on one line.  Quotes, backslashes and the
common controls are escaped by two characters; any other character that does not print on its
own is written as its code point in braces.
-/

namespace LuaFold.Text

/-- The escape of a character by its code point, in lower-case hexadecimal digits. -/
def codePointEscape (character : Char) : List Char :=
  "\\u\x7b".toList ++ Nat.toDigits 16 character.toNat ++ ['\x7d']

/-- How a character is written inside quotes. -/
def quotedCharacter (character : Char) : List Char :=
  if character = '\x00' then ['\\', '0']
  else if character = '\t' then ['\\', 't']
  else if character = '\r' then ['\\', 'r']
  else if character = '\n' then ['\\', 'n']
  else if character = '\\' then ['\\', '\\']
  else if character = '"' then ['\\', '"']
  else if isPrintable character then [character]
  else codePointEscape character

/-- The quoted form of a text. -/
def quoted (text : Text) : String :=
  String.ofList ('"' :: (text.flatMap quotedCharacter ++ ['"']))

end LuaFold.Text
