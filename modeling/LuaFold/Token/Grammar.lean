import LuaFold.Token.Lexeme

/-!
# The lexical grammar

What a token takes of a text, said by what stands in the token and behind it rather than by how
its end is found.  Words are as long as they can be.  A long bracket goes up to the first bracket
that closes it, and a short string up to the first quote that no backslash takes with it, or to
the end of its line.  Of the symbols the longest one counts.

The characters, reserved words and symbols of the language are written out here once more, by the
kinds that have them, so that what is said of tokens does not depend on the tables by which they
are recognised.

The pieces of trivia are said in the same way, and blank space also by what is before it.
-/

namespace LuaFold

/-! ## Characters, words and symbols -/

namespace Text

/-- A letter of the language, which may begin a word: one of the alphabet or an underscore. -/
def isLetter (character : Char) : Bool :=
  ('a' ≤ character && character ≤ 'z') || ('A' ≤ character && character ≤ 'Z')
    || character = '_'

/-- A letter or a digit, which may go on a word. -/
def isLetterOrDigit (character : Char) : Bool :=
  isLetter character || ('0' ≤ character && character ≤ '9')

/-- A line feed or a carriage return. -/
def isBreak (character : Char) : Bool :=
  character = '\n' || character = '\r'

end Text

namespace Kind

/-- The reserved word that a token of a kind is. -/
def word? : Kind → Option Text
  | .andKw => some "and".toList
  | .breakKw => some "break".toList
  | .doKw => some "do".toList
  | .elseKw => some "else".toList
  | .elseifKw => some "elseif".toList
  | .endKw => some "end".toList
  | .falseKw => some "false".toList
  | .forKw => some "for".toList
  | .functionKw => some "function".toList
  | .gotoKw => some "goto".toList
  | .ifKw => some "if".toList
  | .inKw => some "in".toList
  | .localKw => some "local".toList
  | .nilKw => some "nil".toList
  | .notKw => some "not".toList
  | .orKw => some "or".toList
  | .repeatKw => some "repeat".toList
  | .returnKw => some "return".toList
  | .thenKw => some "then".toList
  | .trueKw => some "true".toList
  | .untilKw => some "until".toList
  | .whileKw => some "while".toList
  | _ => none

/-- The operator or the punctuation mark that a token of a kind is. -/
def symbol? : Kind → Option Text
  | .plus => some "+".toList
  | .minus => some "-".toList
  | .star => some "*".toList
  | .slash => some "/".toList
  | .percent => some "%".toList
  | .caret => some "^".toList
  | .hash => some "#".toList
  | .amp => some "&".toList
  | .tilde => some "~".toList
  | .pipe => some "|".toList
  | .shl => some "<<".toList
  | .shr => some ">>".toList
  | .doubleSlash => some "//".toList
  | .eq2 => some "==".toList
  | .neq => some "~=".toList
  | .lteq => some "<=".toList
  | .gteq => some ">=".toList
  | .lt => some "<".toList
  | .gt => some ">".toList
  | .eq => some "=".toList
  | .leftParen => some "(".toList
  | .rightParen => some ")".toList
  | .leftBrace => some "\x7b".toList
  | .rightBrace => some "\x7d".toList
  | .leftBracket => some "[".toList
  | .rightBracket => some "]".toList
  | .doubleColon => some "::".toList
  | .semicolon => some ";".toList
  | .colon => some ":".toList
  | .comma => some ",".toList
  | .dot => some ".".toList
  | .dot2 => some "..".toList
  | .dot3 => some "...".toList
  | _ => none

end Kind

/-! ## Words -/

/-- A run of characters that pass a test, and that does not go on behind it. -/
structure Text.MaximalRun (test : Char → Bool) (run behind : Text) : Prop where
  inside : ∀ character ∈ run, test character = true
  ends : behind.head?.any test = false

/-- The kind of a word: the one that has it if it is reserved, or that of names. -/
inductive Kind.OfWord (word : Text) : Kind → Prop where
  | reserved
      {kind : Kind}
      (spelled : kind.word? = some word) :
      OfWord word kind
  | name
      (free : ∀ kind : Kind, kind.word? ≠ some word) :
      OfWord word .name

/-! ## Strings -/

namespace LongBracket

/-- The bracket that opens a long bracket of a level. -/
def opening (level : Nat) : Text :=
  '[' :: (List.replicate level '=' ++ ['['])

/-- The bracket that ends a long bracket of a level. -/
def ending (level : Nat) : Text :=
  ']' :: (List.replicate level '=' ++ [']'])

/--
What a long bracket of a level takes, what is behind it, and whether it is closed.  The first
closing bracket of the level closes it; if there is none it takes everything.
-/
inductive Takes (level : Nat) : Text → Text → Bool → Prop where
  | closed
      {inside behind : Text}
      (first : ∀ other, other ++ ending level <+: inside ++ ending level ++ behind →
        inside.length ≤ other.length) :
      Takes level (opening level ++ inside ++ ending level) behind true
  | unclosed
      {inside : Text}
      (never : ¬ ending level <:+: inside) :
      Takes level (opening level ++ inside) [] false

end LongBracket

namespace ShortString

/--
A part of a short string behind its opening quote: characters that stand for themselves, and
backslashes each with one character behind it, whichever that is.
-/
inductive Inside (quote : Char) : Text → Prop where
  | nil : Inside quote []
  | plain
      {character : Char}
      {rest : Text}
      (unquoted : character ≠ quote)
      (unescaped : character ≠ '\\')
      (unbroken : Text.isBreak character = false)
      (later : Inside quote rest) :
      Inside quote (character :: rest)
  | escaped
      {rest : Text}
      (character : Char)
      (later : Inside quote rest) :
      Inside quote ('\\' :: character :: rest)

/--
What a short string takes, what is behind it, and whether it is closed.  It is closed by the first
quote that is not escaped.  Before that it may be left open by the end of its line or of the text.
-/
inductive Takes (quote : Char) : Text → Text → Bool → Prop where
  | closed
      {inside behind : Text}
      (within : Inside quote inside) :
      Takes quote (quote :: (inside ++ [quote])) behind true
  | unclosed
      {inside behind : Text}
      (within : Inside quote inside)
      (ends : behind.head?.all Text.isBreak = true) :
      Takes quote (quote :: inside) behind false
  | unescaped
      {inside : Text}
      (within : Inside quote inside) :
      Takes quote (quote :: (inside ++ ['\\'])) [] false

end ShortString

/-! ## Tokens -/

/-- A text begins like a numeral: with a digit, or with a point and a digit. -/
inductive Numeral.Begins : Text → Prop where
  | digit
      {digit : Char}
      {rest : Text}
      (isDigit : digit.isDigit = true) :
      Begins (digit :: rest)
  | point
      {digit : Char}
      {rest : Text}
      (isDigit : digit.isDigit = true) :
      Begins ('.' :: digit :: rest)

/-- The longest symbol at the front of a text, or one character where there is no symbol. -/
inductive Kind.Marked : Kind → Text → Text → Prop where
  | operator
      {kind : Kind}
      {written behind : Text}
      (spelled : kind.symbol? = some written)
      (longest : ∀ (other : Kind) symbol, other.symbol? = some symbol →
        symbol <+: written ++ behind → symbol.length ≤ written.length) :
      Marked kind written behind
  | unknown
      {character : Char}
      {behind : Text}
      (none : ∀ (other : Kind) symbol, other.symbol? = some symbol →
        ¬ symbol <+: character :: behind) :
      Marked .unknown [character] behind

/--
What the lexical grammar prescribes of a token: its kind and its fault, given what it takes and
what is behind it.  For a numeral it is said here only where one begins.
-/
structure Lexeme.Prescribed
    (kind : Kind)
    (taken behind : Text)
    (fault? : Option LexicalFault) :
    Prop where
  word : (taken ++ behind).head?.any Text.isLetter = true →
    Text.MaximalRun Text.isLetterOrDigit taken behind ∧ Kind.OfWord taken kind ∧ fault? = none
  longString : ∀ level, LongBracket.opening level <+: taken ++ behind →
    kind = .string ∧ ∃ closed, LongBracket.Takes level taken behind closed ∧
      fault? = if closed then none else some .unfinishedLongString
  shortString : ∀ quote, quote = '"' ∨ quote = '\'' → (taken ++ behind).head? = some quote →
    kind = .string ∧ ∃ closed, ShortString.Takes quote taken behind closed ∧
      fault? = if closed then none else some .unfinishedString
  number : kind = .number ↔ Numeral.Begins (taken ++ behind)
  symbol : (taken ++ behind).head?.any Text.isLetter = false →
    (∀ level, ¬ LongBracket.opening level <+: taken ++ behind) →
    (taken ++ behind).head? ≠ some '"' → (taken ++ behind).head? ≠ some '\'' →
    kind ≠ .number → Kind.Marked kind taken behind ∧ fault? = none

/-! ## Trivia -/

/--
What the lexical grammar prescribes of a trivia piece, given what is before it and behind it.  Two
hyphens begin a comment; it goes on to the end of the line unless a long bracket opens in it right
away.  A `#` begins a comment at the very start of a text only.
-/
inductive Trivia.Prescribed (before behind : Text) : Trivia → Prop where
  | whitespace
      {run : Text}
      (nonempty : run ≠ [])
      (begins : before.getLast?.any Text.isBlank = false)
      (maximal : Text.MaximalRun Text.isBlank run behind) :
      Prescribed before behind ⟨.whitespace, run, none⟩
  | lineFeed : Prescribed before behind ⟨.newline, ['\n'], none⟩
  | pair : Prescribed before behind ⟨.newline, ['\r', '\n'], none⟩
  | carriageReturn (single : behind.head? ≠ some '\n') :
      Prescribed before behind ⟨.newline, ['\r'], none⟩
  | lineComment
      {line : Text}
      (unopened : ∀ level, ¬ LongBracket.opening level <+: line ++ behind)
      (maximal : Text.MaximalRun (fun character => !Text.isLineEnd character)
        ('-' :: '-' :: line) behind) :
      Prescribed before behind ⟨.lineComment, '-' :: '-' :: line, none⟩
  | firstLine
      {line : Text}
      (start : before = [])
      (maximal : Text.MaximalRun (fun character => !Text.isLineEnd character)
        ('#' :: line) behind) :
      Prescribed before behind ⟨.lineComment, '#' :: line, none⟩
  | blockComment
      {level : Nat}
      {bracket : Text}
      {closed : Bool}
      (takes : LongBracket.Takes level bracket behind closed) :
      Prescribed before behind ⟨.blockComment, '-' :: '-' :: bracket,
        if closed then none else some .unfinishedLongComment⟩

end LuaFold
