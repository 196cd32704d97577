import LuaFold.CommandLine
import LuaFold.Json.Reader

/-!
# Reading a listing of regions

What a listing of regions says about them.  In the plain form every line stands for a region: the
name is what is before the last blank, and the span is behind it.  In the other form the regions
are the items of an array.
-/

namespace LuaFold

namespace Text

/-- The lines of a text without their line feeds, which every line must have. -/
def readLines? : Text → Option (List Text)
  | [] => some []
  | '\n' :: rest => (readLines? rest).map ([] :: ·)
  | character :: rest =>
    match readLines? rest with
    | some (line :: lines) => some ((character :: line) :: lines)
    | _ => none

/-- What is before and what is behind the last occurrence of a character. -/
def splitAtLast? (separator : Char) : Text → Option (Text × Text)
  | [] => none
  | character :: rest =>
    match splitAtLast? separator rest with
    | some (front, behind) => some (character :: front, behind)
    | none => if character = separator then some ([], rest) else none

/-- The number that a text of decimal digits stands for. -/
def readNumber? (written : Text) : Option Nat :=
  if !written.isEmpty && written.all Char.isDigit then some (Nat.ofDigitChars 10 written 0)
  else none

end Text

/-- The span that is written as two numbers with two points between them. -/
def Span.read? (written : Text) : Option Span :=
  match written.dropWhile (· ≠ '.') with
  | '.' :: '.' :: behind => do
    return ⟨← Text.readNumber? (written.takeWhile (· ≠ '.')), ← Text.readNumber? behind⟩
  | _ => none

namespace Region

/-- The name that is shown, which is empty where the placeholder is shown. -/
def readName (shown : Text) : String :=
  if shown = "<anonymous>".toList then "" else String.ofList shown

/-- The region that a line stands for. -/
def readLine? (line : Text) : Option Region := do
  let (shown, written) ← Text.splitAtLast? ' ' line
  return ⟨readName shown, ← Span.read? written⟩

/-- The region that a value stands for. -/
def decode? (value : Json) : Option Region :=
  match value.field? "name", value.field? "start", value.field? "end" with
  | some (.string name), some (.number (.ofNat start)), some (.number (.ofNat stop)) =>
    some ⟨name, ⟨start, stop⟩⟩
  | _, _, _ => none

/-- The regions that the items of a written array stand for. -/
def readArray? (written : Text) : Option (List Region) :=
  match Json.read? written with
  | some (.array items) => items.mapM decode?
  | _ => none

end Region

end LuaFold
