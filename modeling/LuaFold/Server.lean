import LuaFold.Reparse.Reparser
import LuaFold.Server.Answer
import LuaFold.Server.Params

/-!
# The language server

The server keeps the open documents and reparses them in the background.  A request is
answered at once from what was applied last; a notification changes the open documents or
submits a text.  Every request gets exactly one response.  A notification that cannot be decoded,
or that names a document that is not open, changes nothing.  What parameters mean is up to a
decoder; the program has its own.

After a request to shut down only the notification to exit is proper; after either the server
is gone.
-/

namespace LuaFold

namespace Server

/-- A message from the client. -/
inductive Message where
  | request (id : Json) (method : String) (params : Json)
  | notification (method : String) (params : Json)
  | response

/-- Whether a message asks for something. -/
def Message.isRequest : Message → Bool
  | .request _ _ _ => true
  | .notification _ _ => false
  | .response => false

/-- Whether a message asks the server to shut down. -/
def Message.isShutdown : Message → Bool
  | .request _ method _ => method = "shutdown"
  | .notification _ _ => false
  | .response => false

/-- Why a request is refused. -/
inductive RequestFault where
  | unknownMethod
  | invalidParams (method reason : String) (params : Json)

namespace RequestFault

/-- The number by which the protocol calls a reason. -/
def code : RequestFault → Int
  | unknownMethod => -32601
  | invalidParams _ _ _ => -32602

/-- The reason in words. -/
def message : RequestFault → String
  | unknownMethod => "unknown request"
  | invalidParams method reason params =>
    "Failed to deserialize " ++ method ++ ": " ++ reason ++ "; " ++ params.compact

end RequestFault

/-- The response to a request. -/
structure Response where
  id : Json
  outcome : Except RequestFault Json

/-- Where a server is between start and end: it serves, it waits for the exit, or it is gone. -/
inductive Phase where
  | serving
  | leaving
  | gone (properly : Bool)
deriving DecidableEq, Repr

namespace Question

/-- The question that a method asks. -/
def ofMethod? : String → Option Question
  | "textDocument/foldingRange" => some foldingRanges
  | "textDocument/documentSymbol" => some symbols
  | _ => none

/-- The answer about a document. -/
def answer : Question → OpenDocument → Json
  | foldingRanges, document => document.foldingRanges
  | symbols, document => document.symbols

end Question

/-- A change to the open documents that a notification asks for. -/
inductive Edit where
  | opening (uri : String) (text : Text)
  | change (uri : String) (changes : List Text)
  | closing (uri : String)
deriving DecidableEq, Repr

namespace Edit

/-- The change that a notification asks for, if its method and its parameters make one. -/
def ofNotification?
    (decoder : Decoder)
    (method : String)
    (params : Json) :
    Option Edit :=
  match method with
  | "textDocument/didOpen" =>
    (decoder.opened params).toOption.map fun opened => opening opened.uri opened.text
  | "textDocument/didChange" =>
    (decoder.changed params).toOption.map fun changed => change changed.uri changed.changes
  | "textDocument/didClose" => (decoder.closed params).toOption.map closing
  | _ => none

end Edit

/-- What the server says about itself when a client connects. -/
def greeting : Json :=
  .object
    [("capabilities", .object
      [("documentSymbolProvider", .bool true),
       ("foldingRangeProvider", .bool true),
       ("textDocumentSync", .ofNat 1)]),
     ("serverInfo", .object
      [("name", .string "luma-ide"),
       ("version", .string "0.1.0")])]

instance : Display OpenDocument where
  refresh _ text regions outline := ⟨text, regions, outline⟩

end Server

/-- A server: the reparser, the open documents by their identifiers, and its phase. -/
structure Server where
  state : Reparser.Applied String Server.OpenDocument
  phase : Server.Phase

namespace Server

/-- A server without open documents. -/
def new (coalesce : Bool) : Server :=
  ⟨⟨.new coalesce, .empty⟩, .serving⟩

/-- Replace the reparser and the open documents. -/
def withState
    (server : Server)
    (reparser : Reparser String)
    (documents : Table String OpenDocument) :
    Server :=
  ⟨⟨reparser, documents⟩, server.phase⟩

/-- Make a change to the open documents. -/
def edit (server : Server) : Edit → Server
  | .opening uri text =>
    server.withState (server.state.reparser.schedule uri text)
      (server.state.views.set uri (.unparsed text))
  | .change uri changes =>
    match changes.getLast? with
    | some text =>
      if server.state.views.contains uri then
        server.withState (server.state.reparser.schedule uri text) server.state.views
      else server
    | none => server
  | .closing uri =>
    server.withState (server.state.reparser.forget uri) (server.state.views.remove uri)

/-- Answer a request about a document; there is no answer for one that is not open. -/
def answer
    (decoder : Decoder)
    (server : Server)
    (method : String)
    (params : Json) :
    Except RequestFault Json :=
  match Question.ofMethod? method with
  | none => .error .unknownMethod
  | some question =>
    match decoder.query question params with
    | .error reason => .error (.invalidParams method reason params)
    | .ok uri => .ok (.ofOption question.answer (server.state.views.get? uri))

/-- Take in one message and give the response to it, if it is a request. -/
def receiveWith
    (decoder : Decoder)
    (server : Server)
    (message : Message) :
    Server × Option Response :=
  match server.phase, message with
  | .gone _, _ => (server, none)
  | .leaving, .notification "exit" _ => (⟨server.state, .gone true⟩, none)
  | .leaving, _ => (⟨server.state, .gone false⟩, none)
  | .serving, .request id method params =>
    if method = "shutdown" then (⟨server.state, .leaving⟩, some ⟨id, .ok .null⟩)
    else (server, some ⟨id, server.answer decoder method params⟩)
  | .serving, .notification method params =>
    match Edit.ofNotification? decoder method params with
    | some edit => (server.edit edit, none)
    | none => (server, none)
  | .serving, .response => (server, none)

/-- Take in one message as the program does, with its own decoder. -/
def receive (server : Server) (message : Message) : Server × Option Response :=
  server.receiveWith .standard message

/-- Let the worker run everything that is queued, and apply what was found. -/
def settle (server : Server) : Server :=
  ⟨(Reparser.Applied.drain ⟨server.state.reparser.runAll, server.state.views⟩).1, server.phase⟩

/-- Whether the server ends properly when there are no more messages. -/
def endsProperly (server : Server) : Bool :=
  match server.phase with
  | .serving => true
  | .leaving => false
  | .gone properly => properly

end Server

end LuaFold
