import LuaFold.Fold.Symbol
import LuaFold.Json
import LuaFold.Text.Position

/-!
# Answers about a document

A document is answered for by the text that was parsed last and by what was found in it, so
every offset in an answer belongs to that text.
-/

namespace LuaFold.Server

/-- What the server knows about an open document: a text, its regions and its outline. -/
structure OpenDocument where
  text : Text
  regions : List Region
  outline : List OutlineEntry
deriving DecidableEq, Repr

namespace OpenDocument

/-- A document that was just opened and has not been parsed. -/
def unparsed (text : Text) : OpenDocument :=
  ⟨text, [], []⟩

/-- A position as a value. -/
def encodePosition (position : Position) : Json :=
  .object [("character", .ofNat position.column), ("line", .ofNat position.line)]

/-- A pair of positions as a value. -/
def encodeRange (start stop : Position) : Json :=
  .object [("end", encodePosition stop), ("start", encodePosition start)]

/-- A region as a range that can be folded. -/
def foldingRange (document : OpenDocument) (region : Region) : Json :=
  let start := document.text.position region.span.start
  let stop := document.text.position region.span.stop
  .object
    [("endCharacter", .ofNat stop.column),
     ("endLine", .ofNat stop.line),
     ("kind", .string "region"),
     ("startCharacter", .ofNat start.column),
     ("startLine", .ofNat start.line)]

/-- The ranges that can be folded. -/
def foldingRanges (document : OpenDocument) : Json :=
  .ofList document.foldingRange document.regions

/-- The number by which the protocol calls functions among the kinds of symbols. -/
def functionSymbolKind : Nat :=
  12

mutual

/-- A symbol with the symbols inside it as a value. -/
def encodeSymbol (document : OpenDocument) : Symbol → Json
  | .node region entry children =>
    let caret := document.text.position entry.offset
    let range := encodeRange (document.text.position region.span.start)
      (document.text.position region.span.stop)
    let inside := if children.isEmpty then [] else [("children", encodeSymbols document children)]
    .object (inside ++
      [("kind", .ofNat functionSymbolKind),
       ("name", .string entry.displayName),
       ("range", range),
       ("selectionRange", encodeRange caret caret)])

/-- Symbols beside each other as a value. -/
def encodeSymbols (document : OpenDocument) (symbols : List Symbol) : Json :=
  .array (encodeEach document symbols)

/-- Symbols beside each other as values. -/
def encodeEach (document : OpenDocument) : List Symbol → List Json
  | [] => []
  | symbol :: rest => encodeSymbol document symbol :: encodeEach document rest

end

/-- The functions of a document as a forest of symbols. -/
def symbols (document : OpenDocument) : Json :=
  encodeSymbols document (Symbol.forest document.regions document.outline)

end OpenDocument

end LuaFold.Server
