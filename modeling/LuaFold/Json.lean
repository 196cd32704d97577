/-!
# JSON values

Values of the JSON format and their written forms.  The compact form has no blank space; the
indented form puts every item and every field on a line of its own.  In both, quotes,
backslashes and control characters inside strings are escaped and all else stands as it is.

Numbers that are not whole keep their written form, since nothing is calculated with them.
-/

namespace LuaFold

/-- A JSON value. -/
inductive Json where
  | null
  | bool (value : Bool)
  | number (value : Int)
  | decimal (written : String)
  | string (value : String)
  | array (items : List Json)
  | object (fields : List (String × Json))
deriving Repr, Inhabited

namespace Json

/-- A natural number as a value. -/
def ofNat (value : Nat) : Json :=
  number value

/-- A value that may be missing. -/
def ofOption {Item : Type} (encode : Item → Json) : Option Item → Json
  | none => null
  | some item => encode item

/-- A list of values. -/
def ofList {Item : Type} (encode : Item → Json) (items : List Item) : Json :=
  array (items.map encode)

/-- The value of a field of an object. -/
def field? (name : String) : Json → Option Json
  | object fields => (fields.find? fun entry => entry.1 = name).map Prod.snd
  | _ => none

/-- The escape of a control character by two hexadecimal digits. -/
def controlEscape (character : Char) : List Char :=
  let digits := Nat.toDigits 16 character.toNat
  "\\u".toList ++ List.replicate (4 - digits.length) '0' ++ digits

/-- How a character is written inside a string. -/
def escapedCharacter (character : Char) : List Char :=
  if character = '"' then ['\\', '"']
  else if character = '\\' then ['\\', '\\']
  else if character = '\n' then ['\\', 'n']
  else if character = '\r' then ['\\', 'r']
  else if character = '\t' then ['\\', 't']
  else if character = '\x08' then ['\\', 'b']
  else if character = '\x0c' then ['\\', 'f']
  else if character.toNat < 0x20 then controlEscape character
  else [character]

/-- A string in quotes. -/
def quote (value : String) : String :=
  String.ofList ('"' :: (value.toList.flatMap escapedCharacter ++ ['"']))

mutual

/-- The compact form of a value behind what is already written. -/
def writeTo (written : String) : Json → String
  | null => written ++ "null"
  | bool true => written ++ "true"
  | bool false => written ++ "false"
  | number value => written ++ toString value
  | decimal value => written ++ value
  | string value => written ++ quote value
  | array items => writeItems (written.push '[') true items ++ "]"
  | object fields => writeFields (written.push '\x7b') true fields ++ "\x7d"

/-- The compact forms of the items of an array, with commas between them. -/
def writeItems (written : String) (first : Bool) : List Json → String
  | [] => written
  | item :: rest =>
    writeItems (writeTo (if first then written else written.push ',') item) false rest

/-- The compact forms of the fields of an object, with commas between them. -/
def writeFields (written : String) (first : Bool) : List (String × Json) → String
  | [] => written
  | (name, value) :: rest =>
    let separated := if first then written else written.push ','
    writeFields (writeTo (separated ++ quote name ++ ":") value) false rest

end

/-- The compact form of a value. -/
def compact (value : Json) : String :=
  writeTo "" value

/-- The start of a line of the indented form. -/
def lineStart (depth : Nat) : String :=
  "\n" ++ String.ofList (List.replicate (2 * depth) ' ')

mutual

/-- The indented form of a value at a depth behind what is already written. -/
def indentTo (written : String) (depth : Nat) : Json → String
  | array [] => written ++ "[]"
  | object [] => written ++ "\x7b\x7d"
  | array items =>
    indentItems (written.push '[') (depth + 1) true items ++ lineStart depth ++ "]"
  | object fields =>
    indentFields (written.push '\x7b') (depth + 1) true fields ++ lineStart depth ++ "\x7d"
  | other => writeTo written other

/-- The items of an array, each on its own line. -/
def indentItems (written : String) (depth : Nat) (first : Bool) : List Json → String
  | [] => written
  | item :: rest =>
    let separated := if first then written else written.push ','
    indentItems (indentTo (separated ++ lineStart depth) depth item) depth false rest

/-- The fields of an object, each on its own line. -/
def indentFields
    (written : String)
    (depth : Nat)
    (first : Bool) :
    List (String × Json) → String
  | [] => written
  | (name, value) :: rest =>
    let separated := if first then written else written.push ','
    indentFields
      (indentTo (separated ++ lineStart depth ++ quote name ++ ": ") depth value) depth false rest

end

/-- The indented form of a value. -/
def indented (value : Json) : String :=
  indentTo "" 0 value

end Json

end LuaFold
