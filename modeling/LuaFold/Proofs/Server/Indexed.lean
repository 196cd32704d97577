import LuaFold.Proofs.Fold.Forest
import LuaFold.Proofs.Fold.Formatting
import LuaFold.Proofs.Server.Dispatcher
import LuaFold.Proofs.Token.Partition

/-!
# Documents with an index of their lines

An open document keeps an index of the lines of its text, from which positions are looked up.
The index is built anew when a document gets another text, and kept when the result that comes in
is about the text it has; two submissions never share a text.

The answers about a document depend on the positions of the bounds of its regions and of the
carets of its outline, and on no other offset.  The index knows these if they stand between
characters of the indexed text, and then the answers are those of a document that looks at its
text.
-/

namespace LuaFold

/-- The span with the number of a token lies within the text. -/
theorem Token.holds_getD_spans
    {text : Text}
    {index : Nat}
    (inside : index < (tokenize text).length) :
    text.Holds ((spans (tokenize text)).getD index (.empty 0)) := by
  obtain ⟨place, stands, span⟩ := exists_getD_spans_eq inside (.empty 0)
  rw [span]
  exact holds_span (List.mem_of_getElem? stands)

/-- Regions of a text start and stop between two of its characters. -/
theorem isBoundary_of_mem_foldRegions
    {text : Text}
    {region : Region}
    (member : region ∈ foldRegions text) :
    text.IsBoundary region.span.start ∧ text.IsBoundary region.span.stop := by
  obtain ⟨regions, bounds⟩ := foldRegions_eq_map_region text
  rw [regions] at member
  obtain ⟨mark, marked, rfl⟩ := List.mem_map.mp member
  obtain ⟨forward, last⟩ := bounds mark marked
  exact ⟨(Token.holds_getD_spans (forward.trans last)).start, (Token.holds_getD_spans last).stop⟩

/-- The symbols of a text have its regions, and carets where these start. -/
theorem mem_foldRegions_of_mem_placements
    {text : Text}
    {placement : Placement}
    (member : placement ∈ Symbol.allPlacements none
      (Symbol.forest (foldRegions text) (outline (foldRegions text)))) :
    placement.region ∈ foldRegions text ∧ placement.entry = placement.region.entry := by
  obtain ⟨chunk, roots, _⟩ := exists_chunk text
  rw [forest_eq_symbols roots] at member
  have placed := Element.placements_symbols [] 0 chunk.root
  rw [List.findSome?_nil] at placed
  rw [placed] at member
  have regions := Placement.map_region_ofLineage? (chunk.root.lineages [] 0)
  rw [Element.map_fst_lineages, ← foldRegions_eq roots] at regions
  constructor
  · rw [← regions]
    exact List.mem_map_of_mem member
  · obtain ⟨lineage, _, isPlacement⟩ := List.mem_filterMap.mp member
    obtain ⟨region, _, rfl⟩ := Option.map_eq_some_iff.mp isPlacement
    rfl

namespace Server

/-! ## Answers from positions -/

mutual

/-- A symbol with the symbols inside it as a value, given the positions of offsets. -/
def encodeSymbolBy (position : Nat → Position) : Symbol → Json
  | .node region entry children =>
    let caret := position entry.offset
    let range := OpenDocument.encodeRange (position region.span.start) (position region.span.stop)
    let inside :=
      if children.isEmpty then [] else [("children", .array (encodeEachBy position children))]
    .object (inside ++
      [("kind", .ofNat OpenDocument.functionSymbolKind),
       ("name", .string entry.displayName),
       ("range", range),
       ("selectionRange", OpenDocument.encodeRange caret caret)])

/-- Symbols beside each other as values. -/
def encodeEachBy (position : Nat → Position) : List Symbol → List Json
  | [] => []
  | symbol :: rest => encodeSymbolBy position symbol :: encodeEachBy position rest

end

/-- A region as a range that can be folded, given the positions of offsets. -/
def foldingRangeBy (position : Nat → Position) (region : Region) : Json :=
  let start := position region.span.start
  let stop := position region.span.stop
  .object
    [("endCharacter", .ofNat stop.column),
     ("endLine", .ofNat stop.line),
     ("kind", .string "region"),
     ("startCharacter", .ofNat start.column),
     ("startLine", .ofNat start.line)]

/-- The answer to a question from regions and an outline, given the positions of offsets. -/
def Question.answerBy
    (position : Nat → Position)
    (regions : List Region)
    (entries : List OutlineEntry) :
    Question → Json
  | foldingRanges => .ofList (foldingRangeBy position) regions
  | symbols => .array (encodeEachBy position (Symbol.forest regions entries))

mutual

theorem encodeSymbolBy_position (document : OpenDocument) :
    (symbol : Symbol) →
      encodeSymbolBy document.text.position symbol = document.encodeSymbol symbol
  | .node region entry children => by
      rw [encodeSymbolBy, OpenDocument.encodeSymbol, OpenDocument.encodeSymbols,
        encodeEachBy_position document children]

theorem encodeEachBy_position (document : OpenDocument) :
    (symbols : List Symbol) →
      encodeEachBy document.text.position symbols = document.encodeEach symbols
  | [] => by rw [encodeEachBy, OpenDocument.encodeEach]
  | symbol :: rest => by
      rw [encodeEachBy, OpenDocument.encodeEach, encodeSymbolBy_position document symbol,
        encodeEachBy_position document rest]

end

/-- A document that looks at its text answers from the positions in the text. -/
theorem Question.answerBy_position
    (question : Question)
    (document : OpenDocument) :
    question.answerBy document.text.position document.regions document.outline =
      question.answer document := by
  cases question with
  | foldingRanges => rfl
  | symbols =>
      rw [answerBy, encodeEachBy_position, answer, OpenDocument.symbols,
        OpenDocument.encodeSymbols]

section Agreement

variable {position other : Nat → Position}

/-- Two ways to find positions agree on the bounds of a region and on the caret of an entry. -/
def Agree (position other : Nat → Position) (region : Region) (entry : OutlineEntry) : Prop :=
  position region.span.start = other region.span.start ∧
    position region.span.stop = other region.span.stop ∧
    position entry.offset = other entry.offset

mutual

theorem encodeSymbolBy_congr (parent? : Option Region) :
    (symbol : Symbol) →
      (∀ placement ∈ symbol.placements parent?,
        Agree position other placement.region placement.entry) →
      encodeSymbolBy position symbol = encodeSymbolBy other symbol
  | .node region entry children, agree => by
      obtain ⟨start, stop, caret⟩ := agree ⟨region, entry, parent?⟩ (by simp [Symbol.placements])
      have below := encodeEachBy_congr (some region) children fun placement member =>
        agree placement (List.mem_cons_of_mem _ member)
      rw [encodeSymbolBy, encodeSymbolBy, start, stop, caret, below]

theorem encodeEachBy_congr (parent? : Option Region) :
    (symbols : List Symbol) →
      (∀ placement ∈ Symbol.allPlacements parent? symbols,
        Agree position other placement.region placement.entry) →
      encodeEachBy position symbols = encodeEachBy other symbols
  | [], _ => rfl
  | symbol :: rest, agree => by
      rw [encodeEachBy, encodeEachBy,
        encodeSymbolBy_congr parent? symbol fun placement member =>
          agree placement (List.mem_append_left _ member),
        encodeEachBy_congr parent? rest fun placement member =>
          agree placement (List.mem_append_right _ member)]

end

end Agreement

/-! ## Documents with an index -/

/--
An index of the lines of a text, and the positions that are looked up in it: those of the text,
at offsets between its characters.  Nothing is said of other offsets.
-/
structure Lines (Index : Type) where
  index : Text → Index
  locate : Index → Nat → Position
  locate_index : ∀ (text : Text) (offset : Nat), text.IsBoundary offset →
    locate (index text) offset = text.position offset

/-- An index that is the text itself. -/
def textLines : Lines Text where
  index := id
  locate := Text.position
  locate_index _ _ _ := rfl

/-- What is kept of an open document: a text with an index of its lines, regions and outline. -/
structure IndexedDocument (Index : Type) where
  snapshot : Snapshot
  index : Index
  regions : List Region
  outline : List OutlineEntry

namespace IndexedDocument

variable {Index : Type}

/-- The document without its index. -/
def plain (document : IndexedDocument Index) : OpenDocument :=
  ⟨document.snapshot.text, document.regions, document.outline⟩

/-- The offsets that are converted for answers about a document. -/
def offsets (document : IndexedDocument Index) : List Nat :=
  document.regions.map (·.span.start) ++ document.regions.map (·.span.stop) ++
    document.outline.map OutlineEntry.offset

/-- Everything kept of a document is about its text. -/
structure Coherent (lines : Lines Index) (document : IndexedDocument Index) : Prop where
  index : document.index = lines.index document.snapshot.text
  regions : document.regions = [] ∨ document.regions = foldRegions document.snapshot.text
  outline : document.outline = LuaFold.outline document.regions

/-- Every offset that is converted for an answer stands between characters of the text. -/
theorem Coherent.isBoundary
    {lines : Lines Index}
    {document : IndexedDocument Index}
    (coherent : document.Coherent lines) :
    ∀ offset ∈ document.offsets, document.snapshot.text.IsBoundary offset := by
  intro offset member
  have found : ∀ region ∈ document.regions, region ∈ foldRegions document.snapshot.text := by
    intro region listed
    rcases coherent.regions with empty | found
    · rw [empty] at listed
      cases listed
    · exact found ▸ listed
  have carets : document.outline.map OutlineEntry.offset =
      document.regions.map (·.span.start) := by
    rw [coherent.outline, LuaFold.outline, List.map_map]
    rfl
  rw [offsets, carets] at member
  simp only [List.mem_append, List.mem_map] at member
  rcases member with (⟨region, listed, rfl⟩ | ⟨region, listed, rfl⟩) | ⟨region, listed, rfl⟩
  · exact (isBoundary_of_mem_foldRegions (found region listed)).1
  · exact (isBoundary_of_mem_foldRegions (found region listed)).2
  · exact (isBoundary_of_mem_foldRegions (found region listed)).1

end IndexedDocument

namespace Sink

variable {Index : Type}

/-- Documents that look positions up in an index of the lines of their text. -/
def indexed (lines : Lines Index) : Sink (IndexedDocument Index) where
  create snapshot := ⟨snapshot, lines.index snapshot.text, [], []⟩
  updateFoldings document snapshot regions :=
    if document.snapshot.number = snapshot.number then { document with regions := regions }
    else ⟨snapshot, lines.index snapshot.text, regions, document.outline⟩
  updateOutline document entries := { document with outline := entries }
  answer question document :=
    question.answerBy (lines.locate document.index) document.regions document.outline

variable {lines : Lines Index}

/-- A result replaces all of a document, if results with one number are about one text. -/
theorem refresh_indexed
    {document : IndexedDocument Index}
    {update : Update String}
    (coherent : document.Coherent lines)
    (same : document.snapshot.number = update.sequence → document.snapshot.text = update.text) :
    (indexed lines).refresh document update =
      ⟨⟨update.sequence, update.text⟩, lines.index update.text, update.regions,
        outline update.regions⟩ := by
  obtain ⟨⟨number, text⟩, index, regions, entries⟩ := document
  obtain rfl : index = lines.index text := coherent.index
  simp only [refresh, indexed]
  split
  · next shared =>
    obtain rfl : number = update.sequence := shared
    obtain rfl : text = update.text := same rfl
    rfl
  · rfl

/-- A coherent document gives the answers of one that looks at its text. -/
theorem answer_indexed
    {document : IndexedDocument Index}
    (coherent : document.Coherent lines)
    (question : Question) :
    (indexed lines).answer question document = plain.answer question document.plain := by
  obtain ⟨⟨number, text⟩, index, regions, entries⟩ := document
  obtain rfl : index = lines.index text := coherent.index
  obtain rfl : entries = outline regions := coherent.outline
  have located : ∀ region ∈ foldRegions text,
      lines.locate (lines.index text) region.span.start = text.position region.span.start ∧
        lines.locate (lines.index text) region.span.stop = text.position region.span.stop := by
    intro region member
    have boundaries := isBoundary_of_mem_foldRegions member
    exact ⟨lines.locate_index _ _ boundaries.1, lines.locate_index _ _ boundaries.2⟩
  refine Eq.trans ?_ (Question.answerBy_position question ⟨text, regions, outline regions⟩)
  rcases coherent.regions with none | found
  · obtain rfl : regions = [] := none
    cases question with
    | foldingRanges => rfl
    | symbols =>
        -- a forest of no regions has no positions to look up
        refine congrArg Json.array (encodeEachBy_congr none _ fun placement member => ?_)
        cases member
  · obtain rfl : regions = foldRegions text := found
    cases question with
    | foldingRanges =>
        refine congrArg Json.array (List.map_congr_left fun region member => ?_)
        obtain ⟨start, stop⟩ := located region member
        rw [foldingRangeBy, foldingRangeBy, start, stop]
    | symbols =>
        refine congrArg Json.array (encodeEachBy_congr none _ fun placement member => ?_)
        obtain ⟨listed, entry⟩ := mem_foldRegions_of_mem_placements member
        obtain ⟨start, stop⟩ := located _ listed
        rw [entry]
        exact ⟨start, stop, start⟩

end Sink

end Server

end LuaFold
