import LuaFold.Json.Reader
import LuaFold.Server

/-!
# Messages on the wire

Messages travel as JSON objects.  A message with a method is a request if it has an
identifier, and a notification otherwise; one without a method is a response.  A response
carries the identifier of its request.
-/

namespace LuaFold.Server

/-- The message that a value stands for. -/
def Message.ofJson? (value : Json) : Option Message :=
  match value with
  | .object _ =>
    let params := (value.field? "params").getD .null
    match value.field? "method", value.field? "id" with
    | some (.string method), some id => some (.request id method params)
    | some (.string method), none => some (.notification method params)
    | none, some _ => some .response
    | _, _ => none
  | _ => none

/-- The result or the error of a response as a field. -/
def Response.outcomeField (response : Response) : String × Json :=
  match response.outcome with
  | .ok result => ("result", result)
  | .error fault =>
    ("error", .object [("code", .number fault.code), ("message", .string fault.message)])

/-- A response as a value. -/
def Response.toJson (response : Response) : Json :=
  .object [("jsonrpc", .string "2.0"), ("id", response.id), response.outcomeField]

/-- A value with the header that announces its size. -/
def frame (value : Json) : String :=
  let body := value.compact
  "Content-Length: " ++ toString body.utf8ByteSize ++ "\r\n\r\n" ++ body

/-- The number of bytes that a header line announces, if it announces any. -/
def announcedLength? (line : String) : Option Nat :=
  let name := "content-length:"
  let written := line.toList.map Char.toLower
  if name.toList.isPrefixOf written then
    let digits := (written.drop name.length).filter Char.isDigit
    (String.ofList digits).toNat?
  else none

/-- The response that greets a client, to the request that opens a conversation. -/
def greet? : Message → Option Response
  | .request id "initialize" _ => some ⟨id, .ok greeting⟩
  | _ => none

end LuaFold.Server
