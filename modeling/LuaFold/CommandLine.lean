import LuaFold.Diagnostic.Snippet
import LuaFold.Fold.Region
import LuaFold.Json

/-!
# The command line

Three commands work on Lua sources: one lists the fold regions of a file, one reports its
syntax errors, and one serves an editor.  The first two depend on nothing but their arguments
and the content of the file, so each is a function to what is printed.
-/

namespace LuaFold

/-- What the program is asked to do. -/
inductive Command where
  | fold (path : String) (json : Bool)
  | check (path : String)
  | server (threads? : Option Nat) (coalesce : Bool)
deriving DecidableEq, Repr

namespace Command

/-- The arguments read so far. -/
structure Arguments where
  name? : Option String := none
  path? : Option String := none
  json : Bool := false
  threads? : Option Nat := none
  coalesce : Bool := true

/-- Read a number of threads, which is not zero. -/
def readThreads? (written : String) : Option Nat :=
  match written.toNat? with
  | some 0 | none => none
  | some count => some count

/-- Read an argument that is not an option: the command or the path of its file. -/
def readPlain (arguments : Arguments) (written : String) : Option Arguments :=
  match arguments.name? with
  | none =>
    if ["fold", "check", "server"].contains written then
      some { arguments with name? := some written }
    else none
  | some name =>
    if name = "server" || arguments.path?.isSome then none
    else some { arguments with path? := some written }

/-- Read the arguments that are left; behind two hyphens none is an option. -/
def readArguments (arguments : Arguments) (options : Bool) : List String → Option Arguments
  | [] => some arguments
  | written :: rest =>
    if !options || written = "-" || !written.startsWith "-" then do
      readArguments (← readPlain arguments written) options rest
    else if written = "--" then readArguments arguments false rest
    else if written.startsWith "--log-level=" then readArguments arguments options rest
    else if written = "--json" && arguments.name? = some "fold" && !arguments.json then
      readArguments { arguments with json := true } options rest
    else if written = "--no-coalesce" && arguments.name? = some "server" && arguments.coalesce then
      readArguments { arguments with coalesce := false } options rest
    else if written.startsWith "--threads=" && arguments.name? = some "server" then do
      let count ← readThreads? (written.drop 10).toString
      readArguments { arguments with threads? := some count } options rest
    else
      match rest with
      | [] => none
      | value :: later =>
        if written = "--log-level" && !value.startsWith "-" then
          readArguments arguments options later
        else if written = "--threads" && arguments.name? = some "server" then do
          let count ← readThreads? value
          readArguments { arguments with threads? := some count } options later
        else none

/-- The command that arguments ask for. -/
def ofArguments? (written : List String) : Option Command := do
  let arguments ← readArguments {} true written
  match arguments.name?, arguments.path? with
  | some "fold", some path => some (.fold path arguments.json)
  | some "check", some path => some (.check path)
  | some "server", none => some (.server arguments.threads? arguments.coalesce)
  | _, _ => none

end Command

/-- Why a file has no text. -/
inductive FileFault where
  | missing
  | directory
  | notText
  | other (reason : String)
deriving DecidableEq, Repr

/-- The reason why a file has no text, in words. -/
def FileFault.message : FileFault → String
  | missing => "No such file or directory (os error 2)"
  | directory => "Is a directory (os error 21)"
  | notText => "stream did not contain valid UTF-8"
  | other reason => reason

/-- What a command prints, and the code with which it ends. -/
structure Outcome where
  code : Nat
  output : String
  errors : String
deriving DecidableEq, Repr

namespace Outcome

/-- The outcome of a command that could not read its file. -/
def unreadable (path : String) (fault : FileFault) : Outcome :=
  ⟨1, "", "Error: failed to read `" ++ path ++ "`\n\nCaused by:\n    " ++ fault.message ++ "\n"⟩

/-- A region in one line: the name of its function and its span. -/
def regionLine (region : Region) : String :=
  Region.displayName region.name ++ " " ++ region.span.render ++ "\n"

/-- A region as a value. -/
def encodeRegion (region : Region) : Json :=
  .object
    [("name", .string region.name),
     ("start", .ofNat region.span.start),
     ("end", .ofNat region.span.stop)]

/-- A list of regions, one in a line or all as one value in its written form. -/
def listRegions (write : Json → String) (regions : List Region) (json : Bool) : String :=
  if json then write (Json.ofList encodeRegion regions) ++ "\n"
  else String.join (regions.map regionLine)

/-- The outcome of listing the regions of a text with a writer of values. -/
def foldWith (write : Json → String) (text : Text) (json : Bool) : Outcome :=
  ⟨0, listRegions write (foldRegions text) json, ""⟩

/-- The outcome of listing the regions of a text, where a value takes several lines. -/
def fold (text : Text) (json : Bool) : Outcome :=
  foldWith Json.indented text json

/-- The outcome of checking a text. -/
def check (path : String) (text : Text) : Outcome :=
  let diagnostics := (parse text).diagnostics
  if diagnostics.isEmpty then ⟨0, "", ""⟩
  else
    ⟨1, "", Diagnostic.renderAll diagnostics true path text ++ "\nError: `" ++ path ++ "` has "
      ++ toString diagnostics.length ++ " syntax error(s)\n"⟩

/-- The outcome of listing the regions of a file. -/
def foldFile (path : String) (json : Bool) : Except FileFault Text → Outcome
  | .error fault => unreadable path fault
  | .ok text => fold text json

/-- The outcome of checking a file. -/
def checkFile (path : String) : Except FileFault Text → Outcome
  | .error fault => unreadable path fault
  | .ok text => check path text

/-- What to print when the arguments ask for no command. -/
def usage : Outcome :=
  ⟨2, "", "Usage: fold [--json] <path> | check <path> | server [--threads <n>] [--no-coalesce]\n"⟩

end Outcome

/-- The text that the bytes of a file encode. -/
def Text.ofBytes (bytes : ByteArray) : Except FileFault Text :=
  match String.fromUTF8? bytes with
  | some content => .ok content.toList
  | none => .error .notText

end LuaFold
