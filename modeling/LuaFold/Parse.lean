import LuaFold.Diagnostic
import LuaFold.Grammar.Chunk
import LuaFold.Token.Reading
import LuaFold.Tree.Dump

/-!
# Parsing a text

Parsing never fails: a text that is not a chunk still gives a tree with all of its
characters, with error nodes around what fits nowhere, and a diagnostic for every fault.
-/

namespace LuaFold

/-- What parsing a text gives: its tokens, its tree and the faults of its syntax. -/
structure Parse where
  tokens : List Token
  tree : SyntaxTree
  faults : List (SyntaxFault × Nat)

/-- Parse a text. -/
def parse (text : Text) : Parse :=
  let tokens := tokenize text
  let (actions, faults) := Grammar.run (tokens.map Token.kind)
  ⟨tokens, ⟨Action.assemble actions tokens⟩, faults⟩

namespace Parse

/-- The root of the tree, if it is a chunk. -/
def chunk? (parsed : Parse) : Option Node :=
  parsed.tree.root?.filter fun root => root.kind = .chunk

/-- The diagnostics for broken tokens and comments. -/
def lexicalDiagnostics (parsed : Parse) : List Diagnostic :=
  (Token.allFaults parsed.tokens).map fun (fault, span) => ⟨fault.message, span⟩

/-- The spans of the tokens, trivia excluded. -/
def tokenSpans (parsed : Parse) : Array Span :=
  ((Token.layOut parsed.tokens).map fun (offset, token) => token.span offset).toArray

/-- The diagnostics for faults of the syntax, in the order in which they were reported. -/
def syntaxDiagnostics (parsed : Parse) : List Diagnostic :=
  let spans := parsed.tokenSpans
  parsed.faults.map fun (fault, index) => ⟨fault.message, spans.getD index (.empty 0)⟩

/-- Every diagnostic in the order of the text, broken tokens first among equals. -/
def diagnostics (parsed : Parse) : List Diagnostic :=
  Diagnostic.sorted (parsed.lexicalDiagnostics ++ parsed.syntaxDiagnostics)

/-- The written form of a tree and its diagnostics. -/
def dump (parsed : Parse) : String :=
  parsed.tree.dump ++ "Errors:\n"
    ++ String.join (parsed.diagnostics.map fun diagnostic => "  " ++ diagnostic.render ++ "\n")

end Parse

end LuaFold
