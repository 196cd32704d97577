import LuaFold.Json
import LuaFold.Text

/-!
# Decoders of parameters

The parameters of a message are a JSON value, and the protocol says which values a method takes.
A server is given a decoder that knows this.  Of each kind of message it tells the server what it
needs from the parameters, or gives a reason why the value does not stand for any.
-/

namespace LuaFold.Server

/-- What the server can be asked about a document. -/
inductive Question where
  | foldingRanges
  | symbols
deriving DecidableEq, Repr

/-- A document as it is opened. -/
structure OpenedText where
  uri : String
  text : Text

/-- Changes of a document in the order in which they were made, each with the whole text. -/
structure ChangedText where
  uri : String
  changes : List Text

/-- How the parameters of messages are decoded: those of a question about a document, and those of
the notifications that open, change and close one. -/
structure Decoder where
  query : Question → Json → Except String String
  opened : Json → Except String OpenedText
  changed : Json → Except String ChangedText
  closed : Json → Except String String

end LuaFold.Server
