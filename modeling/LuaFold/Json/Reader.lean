import LuaFold.Json
import LuaFold.Text

/-!
# Reading JSON

The values that written JSON stands for.  A value is read from the front of a text together
with the rest; nesting is limited, so reading is recursion on the levels that are left.
Fields of an object are kept in the order of their names, and of equal names the last counts.
-/

namespace LuaFold.Json

/-- The levels to which arrays and objects may be nested. -/
def maximalNesting : Nat :=
  127

/-- The text behind any blank space. -/
def skipBlanks (text : Text) : Text :=
  text.dropWhile fun character =>
    character = ' ' || character = '\n' || character = '\t' || character = '\r'

/-- The value of four hexadecimal digits. -/
def hexValue? (digits : List Char) : Option Nat :=
  digits.foldlM
    (fun value digit =>
      if digit.isDigit then some (16 * value + (digit.toNat - '0'.toNat))
      else if 'a' ≤ digit ∧ digit ≤ 'f' then some (16 * value + (digit.toNat - 'a'.toNat + 10))
      else if 'A' ≤ digit ∧ digit ≤ 'F' then some (16 * value + (digit.toNat - 'A'.toNat + 10))
      else none)
    0

/-- The character that one letter behind a backslash stands for. -/
def simpleEscape? : Char → Option Char
  | '"' => some '"'
  | '\\' => some '\\'
  | '/' => some '/'
  | 'b' => some '\x08'
  | 'f' => some '\x0c'
  | 'n' => some '\n'
  | 'r' => some '\r'
  | 't' => some '\t'
  | _ => none

/-- The character of a code point that is not half of a surrogate pair. -/
def scalar? (code : Nat) : Option Char :=
  if code.isValidChar then some (Char.ofNat code) else none

/-- Read the rest of a string behind the characters read so far, newest first. -/
def readString (taken : List Char) : Text → Option (String × Text)
  | '"' :: rest => some (String.ofList taken.reverse, rest)
  | '\\' :: 'u' :: a :: b :: c :: d :: '\\' :: 'u' :: e :: f :: g :: h :: rest => do
    let first ← hexValue? [a, b, c, d]
    if 0xd800 ≤ first ∧ first < 0xdc00 then
      let second ← hexValue? [e, f, g, h]
      if 0xdc00 ≤ second ∧ second < 0xe000 then
        let code := 0x10000 + (first - 0xd800) * 0x400 + (second - 0xdc00)
        readString ((← scalar? code) :: taken) rest
      else none
    else readString ((← scalar? first) :: taken) ('\\' :: 'u' :: e :: f :: g :: h :: rest)
  | '\\' :: 'u' :: a :: b :: c :: d :: rest => do
    readString ((← scalar? (← hexValue? [a, b, c, d])) :: taken) rest
  | '\\' :: letter :: rest => do
    readString ((← simpleEscape? letter) :: taken) rest
  | character :: rest =>
    if character.toNat < 0x20 then none else readString (character :: taken) rest
  | [] => none

/-- The number that digits stand for. -/
def digitsValue (digits : List Char) : Nat :=
  digits.foldl (fun value digit => 10 * value + (digit.toNat - '0'.toNat)) 0

/-- Read digits, at least one, behind what is already written. -/
def readDigits (written : List Char) (text : Text) : Option (List Char × Text) :=
  let digits := text.takeWhile Char.isDigit
  if digits.isEmpty then none
  else some (written ++ digits, text.dropWhile Char.isDigit)

/-- Read a number behind its sign. -/
def readNumber (negative : Bool) (text : Text) : Option (Json × Text) := do
  let (whole, rest) ← readDigits [] text
  if whole.length > 1 && whole.head? = some '0' then none
  else
    let (fraction, rest) ←
      match rest with
      | '.' :: behind => readDigits ['.'] behind
      | _ => some ([], rest)
    let (exponent, rest) ←
      match rest with
      | mark :: behind =>
        if mark = 'e' || mark = 'E' then
          match behind with
          | '+' :: digits => readDigits ['e'] digits
          | '-' :: digits => readDigits ['e', '-'] digits
          | digits => readDigits ['e'] digits
        else some ([], rest)
      | [] => some ([], rest)
    if fraction.isEmpty && exponent.isEmpty then
      let value : Int := digitsValue whole
      some (.number (if negative then -value else value), rest)
    else
      let sign := if negative then ['-'] else []
      some (.decimal (String.ofList (sign ++ whole ++ fraction ++ exponent)), rest)

/-- Add a field in the order of the names. -/
def addField (name : String) (value : Json) : List (String × Json) → List (String × Json)
  | [] => [(name, value)]
  | entry :: rest =>
    if name = entry.1 then (name, value) :: rest
    else if name < entry.1 then (name, value) :: entry :: rest
    else entry :: addField name value rest

/-- Read the items of an array behind those read so far, at most a number of them. -/
def readItems
    (value : Text → Option (Json × Text))
    (items : List Json) :
    Nat → Text → Option (Json × Text)
  | 0, _ => none
  | count + 1, text => do
    let (item, rest) ← value text
    match skipBlanks rest with
    | ',' :: later => readItems value (item :: items) count later
    | ']' :: later => some (.array (item :: items).reverse, later)
    | _ => none

/-- Read the fields of an object behind those read so far, at most a number of them. -/
def readFields
    (value : Text → Option (Json × Text))
    (fields : List (String × Json)) :
    Nat → Text → Option (Json × Text)
  | 0, _ => none
  | count + 1, text => do
    let '"' :: quoted := skipBlanks text | none
    let (name, rest) ← readString [] quoted
    let ':' :: behind := skipBlanks rest | none
    let (item, rest) ← value behind
    let fields := addField name item fields
    match skipBlanks rest with
    | ',' :: later => readFields value fields count later
    | '}' :: later => some (.object fields, later)
    | _ => none

/-- Read a value that may hold arrays and objects to a number of levels. -/
def readValue : Nat → Text → Option (Json × Text)
  | levels, text =>
    match skipBlanks text with
    | 'n' :: 'u' :: 'l' :: 'l' :: rest => some (.null, rest)
    | 't' :: 'r' :: 'u' :: 'e' :: rest => some (.bool true, rest)
    | 'f' :: 'a' :: 'l' :: 's' :: 'e' :: rest => some (.bool false, rest)
    | '"' :: rest => (readString [] rest).map fun (value, rest) => (.string value, rest)
    | '-' :: rest => readNumber true rest
    | '[' :: rest =>
      match levels with
      | 0 => none
      | levels + 1 =>
        match skipBlanks rest with
        | ']' :: later => some (.array [], later)
        | inside => readItems (readValue levels) [] inside.length inside
    | '{' :: rest =>
      match levels with
      | 0 => none
      | levels + 1 =>
        match skipBlanks rest with
        | '}' :: later => some (.object [], later)
        | inside => readFields (readValue levels) [] inside.length inside
    | rest => readNumber false rest

/-- The value that a whole text stands for. -/
def read? (text : Text) : Option Json :=
  match readValue maximalNesting text with
  | some (value, rest) => if (skipBlanks rest).isEmpty then some value else none
  | none => none

end LuaFold.Json
