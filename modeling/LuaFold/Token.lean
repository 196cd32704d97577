import LuaFold.Kind
import LuaFold.Span
import LuaFold.Text

/-!
# Tokens with their trivia

A token carries its own text together with the blank space, line breaks and comments around
it.  A piece of trivia and a token may be broken in one way each, for instance a string
without its closing quote; the piece then remembers how.

Tokens do not store where they stand.  Laying them end to end gives each one its offset, and
from it the spans of the token, of its trivia and of the faults in them.
-/

namespace LuaFold

/-- What a piece of trivia is. -/
inductive TriviaKind where
  | whitespace | newline | lineComment | blockComment
deriving DecidableEq, Repr, Inhabited

namespace TriviaKind

/-- The kind of the trivia piece as an element of a tree. -/
def kind : TriviaKind → Kind
  | .whitespace => .whitespace
  | .newline => .newline
  | .lineComment => .lineComment
  | .blockComment => .blockComment

/-- The written form of a kind of trivia. -/
def label : TriviaKind → String
  | .whitespace => "Whitespace"
  | .newline => "Newline"
  | .lineComment => "LineComment"
  | .blockComment => "BlockComment"

/-- The kind of trivia with a written form. -/
def ofLabel? (written : String) : Option TriviaKind :=
  [whitespace, newline, lineComment, blockComment].find? fun kind => kind.label = written

@[simp]
theorem isTrivia_kind (kind : TriviaKind) : kind.kind.isTrivia = true := by
  cases kind <;> rfl

end TriviaKind

/-- Why a token or a comment is broken. -/
inductive LexicalFault where
  | unfinishedString | unfinishedLongString | unfinishedLongComment | malformedNumber
deriving DecidableEq, Repr

/-- The message for a broken token or comment. -/
def LexicalFault.message : LexicalFault → String
  | .unfinishedString => "unfinished string"
  | .unfinishedLongString => "unfinished long string"
  | .unfinishedLongComment => "unfinished long comment"
  | .malformedNumber => "malformed number"

/-- A piece of blank space, a line break or a comment. -/
structure Trivia where
  kind : TriviaKind
  text : Text
  fault? : Option LexicalFault := none
deriving DecidableEq, Repr

/-- The number of bytes in a trivia piece. -/
def Trivia.width (piece : Trivia) : Nat :=
  Text.size piece.text

/-- The number of bytes in a run of trivia. -/
def Trivia.runWidth (pieces : List Trivia) : Nat :=
  pieces.foldl (fun total piece => total + piece.width) 0

/-- A token between its leading and its trailing trivia. -/
structure Token where
  leading : List Trivia
  kind : Kind
  text : Text
  trailing : List Trivia
  fault? : Option LexicalFault := none
deriving DecidableEq, Repr

namespace Token

/-- The number of bytes in the token itself. -/
def innerWidth (token : Token) : Nat :=
  Text.size token.text

/-- The number of bytes in the token and its trivia. -/
def width (token : Token) : Nat :=
  Trivia.runWidth token.leading + token.innerWidth + Trivia.runWidth token.trailing

/-- The token and its trivia as one text. -/
def fullText (token : Token) : Text :=
  token.leading.flatMap Trivia.text ++ token.text ++ token.trailing.flatMap Trivia.text

/-- The token without its trivia, in a text where its leading trivia begins at an offset. -/
def span (token : Token) (offset : Nat) : Span :=
  let start := offset + Trivia.runWidth token.leading
  ⟨start, start + token.innerWidth⟩

/-- The token with its trivia. -/
def fullSpan (token : Token) (offset : Nat) : Span :=
  ⟨offset, offset + token.width⟩

/-- The leading trivia with the offsets where the pieces begin. -/
def leadingPlaced (token : Token) (offset : Nat) : List (Nat × Trivia) :=
  Text.layOut Trivia.width offset token.leading

/-- The trailing trivia with the offsets where the pieces begin. -/
def trailingPlaced (token : Token) (offset : Nat) : List (Nat × Trivia) :=
  Text.layOut Trivia.width (token.span offset).stop token.trailing

/-- The faults in a run of trivia, with their spans. -/
def triviaFaults (placed : List (Nat × Trivia)) : List (LexicalFault × Span) :=
  placed.filterMap fun (start, piece) =>
    piece.fault?.map fun fault => (fault, ⟨start, start + piece.width⟩)

/-- The faults in a token and its trivia in the order of the text, with their spans. -/
def faults (token : Token) (offset : Nat) : List (LexicalFault × Span) :=
  triviaFaults (token.leadingPlaced offset)
    ++ (token.fault?.map fun fault => (fault, token.span offset)).toList
    ++ triviaFaults (token.trailingPlaced offset)

/-- Tokens laid end to end from the start of a text, each with its offset. -/
def layOut (tokens : List Token) : List (Nat × Token) :=
  Text.layOut Token.width 0 tokens

/-- Every fault in a list of tokens that starts a text, in the order of the text. -/
def allFaults (tokens : List Token) : List (LexicalFault × Span) :=
  (layOut tokens).flatMap fun (offset, token) => token.faults offset

end Token

end LuaFold
