import LuaFold.CommandLine
import LuaFold.Server.Wire

/-!
# The program

This is the outer layer: it reads arguments, files and messages, hands them to the library and
prints what comes back.
-/

namespace LuaFold.Program

/-- Read the text of a file. -/
def readText (path : String) : IO (Except FileFault Text) := do
  try
    return Text.ofBytes (← IO.FS.readBinFile path)
  catch
    | .noFileOrDirectory .. => return .error .missing
    | .inappropriateType .. => return .error .directory
    | failure => return .error (.other failure.toString)

/-- Print what a command prints, and end with its code. -/
def finish (outcome : Outcome) : IO UInt32 := do
  (← IO.getStdout).putStr outcome.output
  (← IO.getStderr).putStr outcome.errors
  return outcome.code.toUInt32

/-- Read a number of bytes, or fewer where the input ends. -/
partial def readBytes (input : IO.FS.Stream) (count : Nat) (taken : ByteArray) :
    IO ByteArray := do
  if count ≤ taken.size then return taken
  let more ← input.read (count - taken.size).toUSize
  if more.isEmpty then return taken
  readBytes input count (taken ++ more)

/-- Read the lines of a header, and give the size of the message that it announces. -/
partial def readHeader (input : IO.FS.Stream) (length? : Option Nat) : IO (Option Nat) := do
  let line ← input.getLine
  if line.isEmpty then return none
  if line.trimAscii.isEmpty then return length?
  readHeader input ((Server.announcedLength? line).orElse fun _ => length?)

/-- Read the next message. -/
def readMessage (input : IO.FS.Stream) : IO (Option Server.Message) := do
  let some length ← readHeader input none | return none
  let bytes ← readBytes input length ByteArray.empty
  match Text.ofBytes bytes with
  | .error _ => return none
  | .ok text => return (Json.read? text).bind Server.Message.ofJson?

/-- Send a response. -/
def send (output : IO.FS.Stream) (response : Server.Response) : IO Unit := do
  output.putStr (Server.frame response.toJson)
  output.flush

/-- Serve messages until the client is gone, and say whether it left properly. -/
partial def serve (input output : IO.FS.Stream) (server : Server) : IO Bool := do
  let some message ← readMessage input | return server.endsProperly
  let (server, response?) := server.settle.receive message
  if let some response := response? then send output response
  match server.phase with
  | .gone properly => return properly
  | _ => serve input output server

/-- Wait for the request that opens the conversation. -/
partial def awaitClient (input output : IO.FS.Stream) : IO Bool := do
  let some message ← readMessage input | return false
  match Server.greet? message with
  | some response =>
    send output response
    return true
  | none => awaitClient input output

/-- Run the language server over the standard streams. -/
def runServer (coalesce : Bool) : IO UInt32 := do
  let input ← IO.getStdin
  let output ← IO.getStdout
  if !(← awaitClient input output) then return 1
  if ← serve input output (Server.new coalesce) then return 0 else return 1

/-- Run a command. -/
def runCommand : Command → IO UInt32
  | .fold path json => do finish (Outcome.foldFile path json (← readText path))
  | .check path => do finish (Outcome.checkFile path (← readText path))
  | .server _ coalesce => runServer coalesce

end LuaFold.Program

/-- Run the command that the arguments ask for. -/
def main (arguments : List String) : IO UInt32 :=
  match LuaFold.Command.ofArguments? arguments with
  | some command => LuaFold.Program.runCommand command
  | none => LuaFold.Program.finish LuaFold.Outcome.usage
