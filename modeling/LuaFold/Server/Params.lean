import LuaFold.Server.Decoder
import LuaFold.Text.Quoted

/-!
# The decoder of the program

The decoder that the program gives to its server.  Reading a value gives what the server needs,
or the first reason why the value does not have the form of its method.  Records may be written
as objects, where unknown fields do not matter, or as arrays of their fields.
-/

namespace LuaFold.Server

/-- Why parameters do not have the form of their method. -/
inductive ParamsFault where
  | wrongType (found : Json) (expected : String)
  | outOfRange (found : Int) (expected : String)
  | missingField (name : String)
  | wrongLength (length : Nat) (expected : String)
  | unexpectedCharacter (index : Nat)
  | invalidOctet (index : Nat)
  | noVariant (name : String)

namespace ParamsFault

/-- How a reason calls a value of the wrong type. -/
def describe : Json → String
  | .null => "null"
  | .bool value => "boolean `" ++ toString value ++ "`"
  | .number value => "integer `" ++ toString value ++ "`"
  | .decimal written => "floating point `" ++ written ++ "`"
  | .string value => "string " ++ Text.quoted value.toList
  | .array _ => "sequence"
  | .object _ => "map"

/-- The reason in words. -/
def message : ParamsFault → String
  | wrongType found expected => "invalid type: " ++ describe found ++ ", expected " ++ expected
  | outOfRange found expected =>
    "invalid value: integer `" ++ toString found ++ "`, expected " ++ expected
  | missingField name => "missing field `" ++ name ++ "`"
  | wrongLength length expected =>
    "invalid length " ++ toString length ++ ", expected " ++ expected
  | unexpectedCharacter index => "unexpected character at index " ++ toString index
  | invalidOctet index => "invalid percent-encoded octet at index " ++ toString index
  | noVariant name => "data did not match any variant of untagged enum " ++ name

end ParamsFault

/-- What is read from parameters, or the reason why they have the wrong form. -/
abbrev Read := Except ParamsFault

/-- Read a string. -/
def readString : Json → Read String
  | .string value => .ok value
  | other => .error (.wrongType other "a string")

/-- Read a whole number between two bounds, the second excluded. -/
def readInteger (typeName : String) (least bound : Int) : Json → Read Int
  | .number value =>
    if least ≤ value ∧ value < bound then .ok value else .error (.outOfRange value typeName)
  | other => .error (.wrongType other typeName)

/-- Read a signed number of 32 bits. -/
def readSigned : Json → Read Int :=
  readInteger "i32" (-2147483648) 2147483648

/-- Read an unsigned number of 32 bits. -/
def readUnsigned : Json → Read Int :=
  readInteger "u32" 0 4294967296

/-- The fields of a record in order, where a field may be missing from an object. -/
def readFields (typeName : String) (names : List String) : Json → Read (List (Option Json))
  | .object fields => .ok (names.map fun name => Json.field? name (.object fields))
  | .array items =>
    if items.length < names.length then
      .error (.wrongLength items.length ("struct " ++ typeName ++ " with "
        ++ toString names.length ++ (if names.length = 1 then " element" else " elements")))
    else .ok (items.map some)
  | other => .error (.wrongType other ("struct " ++ typeName))

/-- Refuse an array that holds more than the fields of a record. -/
def checkLength (names : List String) : Json → Read Unit
  | .array items =>
    if names.length < items.length then
      .error (.wrongLength items.length "fewer elements in array")
    else .ok ()
  | _ => .ok ()

/-- Read a field that has to be there. -/
def readField
    {Item : Type}
    (name : String)
    (read : Json → Read Item)
    (field? : Option Json) :
    Read Item :=
  match field? with
  | none => .error (.missingField name)
  | some value => read value

/-- Read a field that may be missing or null. -/
def readOptional
    {Item : Type}
    (read : Json → Read Item)
    (field? : Option Json) :
    Read (Option Item) :=
  match field? with
  | none | some .null => .ok none
  | some value => do return some (← read value)

/-- A character that may stand in an identifier of a resource without an escape. -/
def isResourceCharacter (inHost : Bool) (character : Char) : Bool :=
  character.isAlphanum || "-._~:/?@!$&'()*+,;=".toList.contains character
    || (inHost && (character = '[' || character = ']'))

/-- Where the characters of a resource identifier stand. -/
inductive ResourcePart where
  | front | slash | host | body | fragment
deriving DecidableEq

/-- The part of a resource identifier behind one more character. -/
def ResourcePart.next (part : ResourcePart) (character : Char) : ResourcePart :=
  if character = '#' then .fragment
  else
    match part, character with
    | .front, '/' => .slash
    | .front, '?' => .body
    | .slash, '/' => .host
    | .slash, _ => .body
    | .host, '/' => .body
    | .host, '?' => .body
    | other, _ => other

/-- Check the characters of a resource identifier from an index on. -/
def checkResource (part : ResourcePart) (index : Nat) : Text → Read Unit
  | [] => .ok ()
  | '%' :: first :: second :: rest =>
    if isHexDigit first && isHexDigit second then
      checkResource (part.next '%') (index + 3) rest
    else .error (.invalidOctet index)
  | character :: rest =>
    if character = '%' then .error (.invalidOctet index)
    else if isResourceCharacter (part = .host) character
        || (character = '#' && part ≠ .fragment) then
      checkResource (part.next character) (index + character.utf8Size) rest
    else .error (.unexpectedCharacter index)
where
  /-- A hexadecimal digit. -/
  isHexDigit (character : Char) : Bool :=
    character.isDigit || ('a' ≤ character && character ≤ 'f')
      || ('A' ≤ character && character ≤ 'F')

/-- Read the identifier of a resource. -/
def readResource (value : Json) : Read String := do
  let written ← readString value
  checkResource .front 0 written.toList
  return written

/-- Read the identifier of a document. -/
def readIdentifier (value : Json) : Read String := do
  let names := ["uri"]
  let fields ← readFields "TextDocumentIdentifier" names value
  let uri ← readField "uri" readResource (fields.getD 0 none)
  checkLength names value
  return uri

/-- Read the identifier of a document with its version. -/
def readVersionedIdentifier (value : Json) : Read String := do
  let names := ["uri", "version"]
  let fields ← readFields "VersionedTextDocumentIdentifier" names value
  let uri ← readField "uri" readResource (fields.getD 0 none)
  let _ ← readField "version" readSigned (fields.getD 1 none)
  checkLength names value
  return uri

/-- Read a token for progress, which is a number or a string. -/
def readToken : Json → Read Unit
  | .string _ => .ok ()
  | value =>
    match readSigned value with
    | .ok _ => .ok ()
    | .error _ => .error (.noVariant "NumberOrString")

/-- Read the parameters of a request about a document. -/
def readQuery (typeName : String) (value : Json) : Read String :=
  match value with
  | .object _ => do
    let uri ← readField "textDocument" readIdentifier (value.field? "textDocument")
    let _ ← readOptional readToken (value.field? "workDoneToken")
    let _ ← readOptional readToken (value.field? "partialResultToken")
    return uri
  | other => .error (.wrongType other ("struct " ++ typeName))

/-- Read a document that is opened. -/
def readItem (value : Json) : Read OpenedText := do
  let names := ["uri", "languageId", "version", "text"]
  let fields ← readFields "TextDocumentItem" names value
  let uri ← readField "uri" readResource (fields.getD 0 none)
  let _ ← readField "languageId" readString (fields.getD 1 none)
  let _ ← readField "version" readSigned (fields.getD 2 none)
  let text ← readField "text" readString (fields.getD 3 none)
  checkLength names value
  return ⟨uri, text.toList⟩

/-- Read the parameters of the message that opens a document. -/
def readOpen (value : Json) : Read OpenedText := do
  let names := ["textDocument"]
  let fields ← readFields "DidOpenTextDocumentParams" names value
  let opened ← readField "textDocument" readItem (fields.getD 0 none)
  checkLength names value
  return opened

/-- Read a place in a text. -/
def readPlace (value : Json) : Read Unit := do
  let names := ["line", "character"]
  let fields ← readFields "Position" names value
  let _ ← readField "line" readUnsigned (fields.getD 0 none)
  let _ ← readField "character" readUnsigned (fields.getD 1 none)
  checkLength names value

/-- Read a range of places in a text. -/
def readRange (value : Json) : Read Unit := do
  let names := ["start", "end"]
  let fields ← readFields "Range" names value
  let _ ← readField "start" readPlace (fields.getD 0 none)
  let _ ← readField "end" readPlace (fields.getD 1 none)
  checkLength names value

/-- Read a change of a document: the new text, whatever range it is said to replace. -/
def readChange (value : Json) : Read Text := do
  let names := ["range", "rangeLength", "text"]
  let fields ← readFields "TextDocumentContentChangeEvent" names value
  let _ ← readOptional readRange (fields.getD 0 none)
  let _ ← readOptional readUnsigned (fields.getD 1 none)
  let text ← readField "text" readString (fields.getD 2 none)
  checkLength names value
  return text.toList

/-- Read a list of changes. -/
def readChanges : Json → Read (List Text)
  | .array items => items.mapM readChange
  | other => .error (.wrongType other "a sequence")

/-- Read the parameters of the message that changes a document. -/
def readChanged (value : Json) : Read ChangedText := do
  let names := ["textDocument", "contentChanges"]
  let fields ← readFields "DidChangeTextDocumentParams" names value
  let uri ← readField "textDocument" readVersionedIdentifier (fields.getD 0 none)
  let changes ← readField "contentChanges" readChanges (fields.getD 1 none)
  checkLength names value
  return ⟨uri, changes⟩

/-- Read the parameters of the message that closes a document. -/
def readClosed (value : Json) : Read String := do
  let names := ["textDocument"]
  let fields ← readFields "DidCloseTextDocumentParams" names value
  let uri ← readField "textDocument" readIdentifier (fields.getD 0 none)
  checkLength names value
  return uri

/-- The name of the parameters of a question. -/
def Question.paramsName : Question → String
  | foldingRanges => "FoldingRangeParams"
  | symbols => "DocumentSymbolParams"

/-- The decoder of the program: its readers, with their reasons in words. -/
def Decoder.standard : Decoder where
  query question value := (readQuery question.paramsName value).mapError ParamsFault.message
  opened value := (readOpen value).mapError ParamsFault.message
  changed value := (readChanged value).mapError ParamsFault.message
  closed value := (readClosed value).mapError ParamsFault.message

end LuaFold.Server
