import LuaFold.Server

/-!
# Dispatchers of messages

A message goes along a chain of handlers, each registered for one method.  The first handler for
its method takes the message out of the dispatcher, so that no later one sees it.  Its parameters
are decoded before the handler runs.  What is left of a request at the end of the chain is refused;
a notification is passed over.

The dispatchers know nothing of the server but what handlers make of it.
-/

namespace LuaFold.Server

structure Request where
  id : Json
  method : String
  params : Json

structure Notification where
  method : String
  params : Json

/-- Why a notification was not acted on, though there is a handler for its method. -/
inductive NotificationFault where
  | invalidParams (method reason : String) (params : Json)
  | notOpen (uri : String)
  | withoutContent

/-- The fault in words. -/
def NotificationFault.message : NotificationFault → String
  | invalidParams method reason params =>
    "Failed to deserialize " ++ method ++ ": " ++ reason ++ "; " ++ params.compact
  | notOpen uri => "change for a document that is not open: " ++ uri
  | withoutContent => "change without content"

/-- What a message leads to: the server behind it, and what was sent and logged meanwhile. -/
structure Reaction (Owner : Type) where
  host : Owner
  responses : List Response
  faults : List NotificationFault

/-- No reaction to a message. -/
def Reaction.none {Owner : Type} (host : Owner) : Reaction Owner :=
  ⟨host, [], []⟩

/-- A request on its way along handlers, until one takes it, and the responses to it. -/
structure RequestDispatcher (Owner : Type) where
  request? : Option Request
  host : Owner
  responses : List Response

/-- A notification on its way along handlers, until one takes it, and the faults of handlers. -/
structure NotificationDispatcher (Owner : Type) where
  notification? : Option Notification
  host : Owner
  faults : List NotificationFault

variable {Owner Params : Type}

namespace RequestDispatcher

def new (request : Request) (host : Owner) : RequestDispatcher Owner :=
  ⟨some request, host, []⟩

/-- Let the handler for a method have the request, if it is for this method. -/
def on
    (dispatcher : RequestDispatcher Owner)
    (method : String)
    (decode : Json → Except String Params)
    (handle : Owner → Params → Owner × Except RequestFault Json) :
    RequestDispatcher Owner :=
  match dispatcher.request? with
  | none => dispatcher
  | some request =>
    if request.method = method then
      match decode request.params with
      | .ok params =>
        let (host, outcome) := handle dispatcher.host params
        ⟨none, host, dispatcher.responses ++ [⟨request.id, outcome⟩]⟩
      | .error reason =>
        ⟨none, dispatcher.host, dispatcher.responses ++
          [⟨request.id, .error (.invalidParams method reason request.params)⟩]⟩
    else dispatcher

/-- Refuse the request if no handler took it. -/
def finish (dispatcher : RequestDispatcher Owner) : Reaction Owner :=
  match dispatcher.request? with
  | none => ⟨dispatcher.host, dispatcher.responses, []⟩
  | some request =>
    ⟨dispatcher.host, dispatcher.responses ++ [⟨request.id, .error .unknownMethod⟩], []⟩

end RequestDispatcher

namespace NotificationDispatcher

def new (notification : Notification) (host : Owner) : NotificationDispatcher Owner :=
  ⟨some notification, host, []⟩

/-- Let the handler for a method have the notification, if it is for this method. -/
def on
    (dispatcher : NotificationDispatcher Owner)
    (method : String)
    (decode : Json → Except String Params)
    (handle : Owner → Params → Owner × Except NotificationFault Unit) :
    NotificationDispatcher Owner :=
  match dispatcher.notification? with
  | none => dispatcher
  | some notification =>
    if notification.method = method then
      match decode notification.params with
      | .ok params =>
        match handle dispatcher.host params with
        | (host, .ok ()) => ⟨none, host, dispatcher.faults⟩
        | (host, .error fault) => ⟨none, host, dispatcher.faults ++ [fault]⟩
      | .error reason =>
        ⟨none, dispatcher.host, dispatcher.faults ++
          [.invalidParams method reason notification.params]⟩
    else dispatcher

/-- Pass over the notification if no handler took it. -/
def finish (dispatcher : NotificationDispatcher Owner) : Reaction Owner :=
  ⟨dispatcher.host, [], dispatcher.faults⟩

end NotificationDispatcher

/-- The method by which a question is asked. -/
def Question.method : Question → String
  | foldingRanges => "textDocument/foldingRange"
  | symbols => "textDocument/documentSymbol"

/-- The handlers of a server, one for each method that it knows. -/
structure Handlers (Owner : Type) where
  foldingRange : Owner → String → Owner × Except RequestFault Json
  documentSymbol : Owner → String → Owner × Except RequestFault Json
  didOpen : Owner → OpenedText → Owner × Except NotificationFault Unit
  didChange : Owner → ChangedText → Owner × Except NotificationFault Unit
  didClose : Owner → String → Owner × Except NotificationFault Unit

namespace Handlers

/-- Send a request along the handlers of requests. -/
def request
    (decoder : Decoder)
    (handlers : Handlers Owner)
    (host : Owner)
    (request : Request) :
    Reaction Owner :=
  RequestDispatcher.new request host
    |>.on Question.foldingRanges.method (decoder.query .foldingRanges) handlers.foldingRange
    |>.on Question.symbols.method (decoder.query .symbols) handlers.documentSymbol
    |>.finish

/-- Send a notification along the handlers of notifications. -/
def notification
    (decoder : Decoder)
    (handlers : Handlers Owner)
    (host : Owner)
    (notification : Notification) :
    Reaction Owner :=
  NotificationDispatcher.new notification host
    |>.on "textDocument/didOpen" decoder.opened handlers.didOpen
    |>.on "textDocument/didChange" decoder.changed handlers.didChange
    |>.on "textDocument/didClose" decoder.closed handlers.didClose
    |>.finish

/-- Take in one message while the server is in service and not asked to shut down. -/
def message
    (decoder : Decoder)
    (handlers : Handlers Owner)
    (host : Owner) :
    Message → Reaction Owner
  | .request id method params => handlers.request decoder host ⟨id, method, params⟩
  | .notification method params => handlers.notification decoder host ⟨method, params⟩
  | .response => .none host

end Handlers

end LuaFold.Server
