import LuaFold.Token

/-!
# Lexemes

The longest token at the front of a text, without trivia.  A letter or an underscore begins a
word, a digit begins a numeral, and so does a point with a digit behind it.  A quote begins a
short string and a long bracket begins a long string.  Anything else is the longest operator
that fits, or else one character of no known kind.

Each recogniser returns a cut of the text it was given, so nothing is lost between a lexeme
and the rest.
-/

namespace LuaFold

/-- Blank space within a line. -/
def Text.isBlank (character : Char) : Bool :=
  character = ' ' || character = '\t' || character = '\x0b' || character = '\x0c'

/-- A character that ends a line. -/
def Text.isLineEnd (character : Char) : Bool :=
  character = '\n' || character = '\r'

/-- A character that may begin a word. -/
def Text.isWordStart (character : Char) : Bool :=
  character.isAlpha || character = '_'

/-- A character that may continue a word. -/
def Text.isWordPart (character : Char) : Bool :=
  character.isAlphanum || character = '_'

/-- A hexadecimal digit. -/
def Text.isHexDigit (character : Char) : Bool :=
  character.isDigit || ('a' ≤ character && character ≤ 'f') || ('A' ≤ character && character ≤ 'F')

namespace LongBracket

/-- The number of equals signs in the long bracket that opens a text, if one does. -/
def level? : Text → Option Nat
  | '[' :: rest =>
    let level := (rest.takeWhile (· = '=')).length
    if rest[level]? = some '[' then some level else none
  | _ => none

/-- The bracket that closes a long bracket of a level. -/
def closing (level : Nat) : Text :=
  ']' :: (List.replicate level '=' ++ [']'])

/--
The long bracket that opens a text, through its first closing bracket, and whether there is
one.  Without one the bracket takes the whole text.
-/
def cut (level : Nat) (text : Text) : Cut text × Bool :=
  match Text.indexOf? (closing level) (text.drop (level + 2)) with
  | some inside => (.characters (level + 2 + inside + (level + 2)) text, true)
  | none => (.everything text, false)

theorem taken_cut_ne_nil
    (level : Nat)
    (first : Char)
    (rest : Text) :
    (cut level (first :: rest)).1.taken ≠ [] := by
  unfold cut
  split <;> simp [Cut.characters, Cut.everything]

end LongBracket

namespace ShortString

/--
The number of characters up to the end of a short string, and whether it is closed.  A
backslash takes the next character with it; an open string ends before the line does.
-/
def length (quote : Char) (count : Nat) : Text → Nat × Bool
  | [] => (count, false)
  | ['\\'] => (count + 1, false)
  | '\\' :: _ :: rest => length quote (count + 2) rest
  | character :: rest =>
    if Text.isLineEnd character then (count, false)
    else if character = quote then (count + 1, true)
    else length quote (count + 1) rest

theorem le_length
    (quote : Char)
    (count : Nat)
    (text : Text) :
    count ≤ (length quote count text).1 := by
  fun_induction length quote count text <;> grind

end ShortString

namespace Numeral

/-- Take one character if it passes a test. -/
def optional (test : Char → Bool) (text : Text) : Cut text :=
  match text with
  | [] => .nothing []
  | character :: rest =>
    if test character then .characters 1 (character :: rest) else .nothing (character :: rest)

/-- Take a point and the digits behind it, unless a second point follows the first. -/
def fraction (digit : Char → Bool) (text : Text) : Cut text :=
  if text.head? = some '.' && text[1]? ≠ some '.' then
    (Cut.characters 1 text).andThen (.longest digit)
  else .nothing text

/-- Take an exponent mark, a sign if there is one, and the decimal digits behind them. -/
def exponent (mark : Char → Bool) (text : Text) : Cut text :=
  if text.head?.any mark then
    ((Cut.characters 1 text).andThen (optional fun sign => sign = '+' || sign = '-')).andThen
      (.longest Char.isDigit)
  else .nothing text

/-- Whether a text begins with a zero and an `x`. -/
def isHexadecimal (text : Text) : Bool :=
  text.head? = some '0' && (text[1]? = some 'x' || text[1]? = some 'X')

/--
The front part of a text that follows the pattern of a numeral.  A numeral that begins with
its point has no other point.
-/
def pattern (text : Text) : Cut text :=
  if isHexadecimal text then
    (((Cut.characters 2 text).andThen (.longest Text.isHexDigit)).andThen
      (fraction Text.isHexDigit)).andThen
      (exponent fun mark => mark = 'p' || mark = 'P')
  else
    let digits := (Cut.characters 1 text).andThen (.longest Char.isDigit)
    (if text.head? = some '.' then digits else digits.andThen (fraction Char.isDigit)).andThen
      (exponent fun mark => mark = 'e' || mark = 'E')

theorem taken_pattern_ne_nil
    (first : Char)
    (rest : Text) :
    (pattern (first :: rest)).taken ≠ [] := by
  unfold pattern
  split
  · simp [Cut.andThen, Cut.characters]
  · dsimp only
    split <;> simp [Cut.andThen, Cut.characters]

/-- The letters, digits and points that stick to a numeral and spoil it. -/
def spoiled (text : Text) : Cut text :=
  if text.head?.any Text.isWordPart then
    .longest (fun character => Text.isWordPart character || character = '.') text
  else .nothing text

end Numeral

/-- The operators and punctuation marks, a longer one before any that it begins with. -/
def Kind.operators : List (Text × Kind) :=
  [("...".toList, .dot3), ("..".toList, .dot2), (".".toList, .dot),
   ("::".toList, .doubleColon), (":".toList, .colon),
   ("==".toList, .eq2), ("=".toList, .eq),
   ("~=".toList, .neq), ("~".toList, .tilde),
   ("<=".toList, .lteq), ("<<".toList, .shl), ("<".toList, .lt),
   (">=".toList, .gteq), (">>".toList, .shr), (">".toList, .gt),
   ("//".toList, .doubleSlash), ("/".toList, .slash),
   ("(".toList, .leftParen), (")".toList, .rightParen),
   ("[".toList, .leftBracket), ("]".toList, .rightBracket),
   ("\x7b".toList, .leftBrace), ("\x7d".toList, .rightBrace),
   (";".toList, .semicolon), (",".toList, .comma),
   ("+".toList, .plus), ("-".toList, .minus), ("*".toList, .star), ("%".toList, .percent),
   ("^".toList, .caret), ("#".toList, .hash), ("&".toList, .amp), ("|".toList, .pipe)]

/-- The longest operator at the front of a text. -/
def Kind.operator? (text : Text) : Option (Text × Kind) :=
  operators.find? fun entry => entry.1.isPrefixOf text

/-- A recognised token at the front of a text. -/
structure Lexeme (text : Text) where
  kind : Kind
  cut : Cut text
  fault? : Option LexicalFault := none

namespace Lexeme

/-- A word, which is a reserved word or a name. -/
def word (text : Text) : Lexeme text :=
  let cut := Cut.longest Text.isWordPart text
  ⟨(Kind.ofKeyword? cut.taken).getD .name, cut, none⟩

/-- A numeral together with what spoils it. -/
def numeral (text : Text) : Lexeme text :=
  let cut := Numeral.pattern text
  let spoiled := Numeral.spoiled cut.rest
  ⟨.number, cut.andThen Numeral.spoiled,
    if spoiled.taken.isEmpty then none else some .malformedNumber⟩

/-- A short string after its opening quote. -/
def shortString (quote : Char) (rest : Text) : Lexeme (quote :: rest) :=
  let measured := ShortString.length quote 1 rest
  ⟨.string, .characters measured.1 (quote :: rest),
    if measured.2 then none else some .unfinishedString⟩

/-- A long string of a level. -/
def longString (level : Nat) (text : Text) : Lexeme text :=
  let bracket := LongBracket.cut level text
  ⟨.string, bracket.1, if bracket.2 then none else some .unfinishedLongString⟩

/-- An operator, or one character that begins no token. -/
def symbol (text : Text) : Lexeme text :=
  match Kind.operator? text with
  | some (written, kind) => ⟨kind, .characters written.length text, none⟩
  | none => ⟨.unknown, .characters 1 text, none⟩

/-- The token at the front of a text that is not empty. -/
def read (first : Char) (rest : Text) : Lexeme (first :: rest) :=
  if Text.isWordStart first then word (first :: rest)
  else if first.isDigit || (first = '.' && rest.head?.any Char.isDigit) then
    numeral (first :: rest)
  else if first = '"' || first = '\'' then shortString first rest
  else
    match LongBracket.level? (first :: rest) with
    | some level => longString level (first :: rest)
    | none => symbol (first :: rest)

end Lexeme

end LuaFold
