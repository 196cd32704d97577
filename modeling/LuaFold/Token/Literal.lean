import LuaFold.Token.Lexeme

/-!
# Literals of the language

The short strings and numerals of the reference manual, written from their parts and not read
from a text.  The values of the parts play no role: an escape for a character is a literal
whether or not there is a character of that number.
-/

namespace LuaFold

/-- White space, within a line or at its end. -/
def Text.isSpace (character : Char) : Bool :=
  isBlank character || isLineEnd character

namespace ShortString

/-- What the manual lets stand behind a backslash in a short string. -/
inductive Escape : Text → Prop where
  | letter
      {character : Char}
      (listed : character ∈ ['a', 'b', 'f', 'n', 'r', 't', 'v', '\\', '"', '\'']) :
      Escape [character]
  | hexadecimal
      {first second : Char}
      (high : Text.isHexDigit first = true)
      (low : Text.isHexDigit second = true) :
      Escape ['x', first, second]
  | decimal
      {digits : Text}
      (some : digits ≠ [])
      (short : digits.length ≤ 3)
      (isDigit : ∀ digit ∈ digits, digit.isDigit = true) :
      Escape digits
  | codePoint
      {digits : Text}
      (some : digits ≠ [])
      (isDigit : ∀ digit ∈ digits, Text.isHexDigit digit = true) :
      Escape ('u' :: '\x7b' :: (digits ++ ['\x7d']))
  | lineBreak
      {written : Text}
      (listed : written ∈ [['\n'], ['\r'], ['\r', '\n'], ['\n', '\r']]) :
      Escape written
  | skipped
      {space : Text}
      (isSpace : ∀ character ∈ space, Text.isSpace character = true) :
      Escape ('z' :: space)

/-- An element of a short string: a character that stands for itself, or an escape sequence. -/
inductive Element (quote : Char) : Text → Prop where
  | plain
      {character : Char}
      (unquoted : character ≠ quote)
      (unescaped : character ≠ '\\')
      (unbroken : Text.isLineEnd character = false) :
      Element quote [character]
  | escaped {escape : Text} (isEscape : Escape escape) : Element quote ('\\' :: escape)

/-- A short string literal: its quote and the elements between its two quotes. -/
structure Literal where
  quote : Char
  elements : List Text
  isQuote : quote = '"' ∨ quote = '\''
  isElement : ∀ element ∈ elements, Element quote element

namespace Literal

/-- A literal as it is written. -/
def text (literal : Literal) : Text :=
  literal.quote :: (literal.elements.flatten ++ [literal.quote])

/--
No element of a literal goes over a line break, apart from a backslash that has the break of one
character right behind it.
-/
def Unbroken (literal : Literal) : Prop :=
  ∀ element ∈ literal.elements, ∀ character ∈ element.drop 2, Text.isLineEnd character = false

instance (literal : Literal) : Decidable literal.Unbroken :=
  decidable_of_iff ((literal.elements.all fun element =>
      (element.drop 2).all fun character => !Text.isLineEnd character) = true) (by
    simp only [Unbroken, List.all_eq_true, Bool.not_eq_true'])

end Literal

end ShortString

namespace Numeral

/-- The exponent of a numeral: its mark, its sign if it has one, and its digits. -/
structure Exponent where
  mark : Char
  sign? : Option Char
  digits : Text

/-- An exponent as it is written. -/
def Exponent.text (exponent : Exponent) : Text :=
  exponent.mark :: (exponent.sign?.toList ++ exponent.digits)

/-- An exponent has a mark, a sign and digits of the right characters. -/
structure Exponent.Spelled (isMark : Char → Bool) (exponent : Exponent) : Prop where
  mark : isMark exponent.mark = true
  sign : ∀ sign ∈ exponent.sign?, sign = '+' ∨ sign = '-'
  digits : ∀ digit ∈ exponent.digits, digit.isDigit = true

/-- The point of a numeral and the digits behind it, as they are written. -/
def fractionText (fraction? : Option Text) : Text :=
  fraction?.elim [] fun digits => '.' :: digits

/-- The exponent of a numeral as it is written. -/
def exponentText (exponent? : Option Exponent) : Text :=
  exponent?.elim [] Exponent.text

/--
The parts of a numeral: the letter behind the zero that a hexadecimal one begins with, the digits
of its whole part, those behind its point if it has one, and its exponent.
-/
structure Parts where
  base? : Option Char
  whole : Text
  fraction? : Option Text
  exponent? : Option Exponent

namespace Parts

/-- A numeral as it is written. -/
def text (parts : Parts) : Text :=
  (parts.base?.elim [] fun base => ['0', base]) ++
    (parts.whole ++ (fractionText parts.fraction? ++ exponentText parts.exponent?))

/-- The digits that count in a numeral. -/
def isDigit (parts : Parts) : Char → Bool :=
  if parts.base?.isSome then Text.isHexDigit else Char.isDigit

/-- The letters that mark the exponent of a numeral. -/
def isMark (parts : Parts) : Char → Bool :=
  if parts.base?.isSome then fun mark => mark = 'p' || mark = 'P'
  else fun mark => mark = 'e' || mark = 'E'

/-- The digits of a numeral before its exponent. -/
def mantissa (parts : Parts) : Text :=
  parts.whole ++ parts.fraction?.getD []

/-- Every part of a numeral is made of the characters that may stand there. -/
structure Spelled (parts : Parts) : Prop where
  base : ∀ base ∈ parts.base?, base = 'x' ∨ base = 'X'
  whole : ∀ digit ∈ parts.whole, parts.isDigit digit = true
  fraction : ∀ digits ∈ parts.fraction?, ∀ digit ∈ digits, parts.isDigit digit = true
  exponent : ∀ exponent ∈ parts.exponent?, exponent.Spelled parts.isMark

/-- A numeral has a digit before its exponent, and one in its exponent if it has an exponent. -/
structure Complete (parts : Parts) : Prop where
  mantissa : parts.mantissa ≠ []
  exponent : ∀ exponent ∈ parts.exponent?, exponent.digits ≠ []

end Parts

/-- What is behind a numeral is none of the characters that stick to one. -/
def Detached (behind : Text) : Prop :=
  behind.head?.any (fun character => Text.isWordPart character || character = '.') = false

/-- The numerals of the manual, decimal or hexadecimal. -/
def Valid (text : Text) : Prop :=
  ∃ parts : Parts, parts.Spelled ∧ parts.Complete ∧ parts.text = text

/--
A numeral with digits left out: a hexadecimal one without any digit before its exponent, or one
with an exponent without digits.
-/
def LacksDigits (text : Text) : Prop :=
  ∃ parts : Parts, parts.Spelled ∧
    (parts.base?.isSome = true ∧ parts.mantissa = [] ∨
      ∃ exponent ∈ parts.exponent?, exponent.digits = []) ∧
    parts.text = text

end Numeral

end LuaFold
