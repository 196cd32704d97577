import LuaFold.Proofs.Server.Indexed
import LuaFold.Proofs.Text.Position

/-!
# Ranges in answers

A document converts the offsets of its regions to positions with an index of the lines of its
text.  The index splits the text behind its line feeds, gives the line of an offset with its
bytes in this line, and converts these bytes to code units where the line has characters of more
than one byte.

Converting keeps the order of offsets between characters, so what holds of the spans of regions
holds of the ranges in an answer: they go forward, the range of a symbol encloses those of the
symbols in it, and symbols beside each other have ranges one behind the other.
-/

namespace LuaFold

/-! ## Indices of lines -/

namespace Text

/-- A line with the line feed that ends it. -/
def IsLine (line : Text) : Prop :=
  ∃ content, '\n' ∉ content ∧ line = content ++ ['\n']

/-- A text is its lines and what stands behind the last of them. -/
theorem exists_lines (text : Text) :
    ∃ lines : List Text,
      (∀ line ∈ lines, IsLine line) ∧
      text = lines.flatten ++ lastLine text ∧
      lines.length = text.count '\n' := by
  induction text using List.reverseRecOn with
  | nil => exact ⟨[], by simp, rfl, rfl⟩
  | append_singleton text character ih =>
      obtain ⟨lines, each, whole, counted⟩ := ih
      by_cases isBreak : character = '\n'
      · refine ⟨lines ++ [lastLine text ++ ['\n']], ?_, ?_, ?_⟩
        · intro line member
          rcases List.mem_append.mp member with early | last
          · exact each line early
          · exact ⟨lastLine text, not_mem_lastLine text, List.mem_singleton.mp last⟩
        · rw [lastLine_append_of_mem text (by simp [isBreak]), isBreak]
          conv_lhs => rw [whole]
          simp [lastLine]
        · simp [counted, isBreak]
      · have absent : '\n' ∉ [character] := by simpa using Ne.symm isBreak
        refine ⟨lines, each, ?_, ?_⟩
        · rw [lastLine_append_of_not_mem text absent, ← List.append_assoc, ← whole]
        · simp [counted, isBreak]

end Text

namespace Server

/-- A line and the number of bytes in front of a place on this line. -/
structure LineColumn where
  line : Nat
  bytes : Nat
deriving DecidableEq, Repr

/--
A way to index the lines of a text.  A place behind some lines and a part of the next one is on
the line numbered by these lines, behind the bytes of this part, and its bytes can be converted
to the code units of this part.  Nothing is said of other offsets.
-/
structure LineIndex (Index : Type) where
  build : Text → Index
  locate : Index → Nat → LineColumn
  widen? : Index → LineColumn → Option Position
  locate_build : ∀ (lines : List Text) (front behind : Text), (∀ line ∈ lines, line.IsLine) →
    '\n' ∉ front →
    locate (build (lines.flatten ++ (front ++ behind))) (Text.size (lines.flatten ++ front)) =
      ⟨lines.length, Text.size front⟩
  widen?_build : ∀ (lines : List Text) (front behind : Text), (∀ line ∈ lines, line.IsLine) →
    '\n' ∉ front →
    widen? (build (lines.flatten ++ (front ++ behind))) ⟨lines.length, Text.size front⟩ =
      some ⟨lines.length, front.utf16Length⟩

namespace LineIndex

variable {Index : Type}

/-- The position of an offset, with the bytes as its column where these cannot be converted. -/
def position (index : LineIndex Index) (built : Index) (offset : Nat) : Position :=
  let located := index.locate built offset
  (index.widen? built located).getD ⟨located.line, located.bytes⟩

/-- Between characters an index of lines gives the positions of the text. -/
theorem position_build
    (index : LineIndex Index)
    {text : Text}
    {offset : Nat}
    (isBoundary : text.IsBoundary offset) :
    index.position (index.build text) offset = text.position offset := by
  obtain ⟨before, behind, rfl, rfl⟩ := isBoundary
  obtain ⟨lines, each, whole, counted⟩ := before.exists_lines
  have absent := before.not_mem_lastLine
  have located := index.locate_build lines before.lastLine behind each absent
  have widened := index.widen?_build lines before.lastLine behind each absent
  rw [← List.append_assoc, ← whole] at located widened
  rw [Text.position_size, position, located, widened, counted]
  rfl

/-- The positions that documents look up with an index of lines. -/
def lines (index : LineIndex Index) : Lines Index where
  index := index.build
  locate := index.position
  locate_index _ _ isBoundary := index.position_build isBoundary

/-- What is left of a text behind some of its lines. -/
def behindLines : Nat → Text → Text
  | 0, text => text
  | count + 1, text =>
      behindLines count ((text.dropWhile fun character => character ≠ '\n').drop 1)

theorem behindLines_flatten
    {lines : List Text}
    (each : ∀ line ∈ lines, line.IsLine)
    (rest : Text) :
    behindLines lines.length (lines.flatten ++ rest) = rest := by
  induction lines with
  | nil => rfl
  | cons first others ih =>
      obtain ⟨content, absent, rfl⟩ := each first List.mem_cons_self
      have passed : ∀ character ∈ content, decide (character ≠ '\n') = true :=
        fun character member => decide_eq_true fun isBreak => absent (isBreak ▸ member)
      rw [List.flatten_cons, List.append_assoc, List.append_assoc, List.length_cons, behindLines,
        List.dropWhile_append_of_pos passed]
      simpa using ih fun line member => each line (List.mem_cons_of_mem _ member)

/-- The line of a place that lines and a part of the next one lead up to. -/
theorem ending_flatten
    {lines : List Text}
    (each : ∀ line ∈ lines, line.IsLine)
    {front : Text}
    (absent : '\n' ∉ front) :
    (lines.flatten ++ front).count '\n' = lines.length ∧
      Text.lastLine (lines.flatten ++ front) = front := by
  have counted : lines.flatten.count '\n' = lines.length := by
    induction lines with
    | nil => rfl
    | cons first others ih =>
        obtain ⟨content, none, rfl⟩ := each first List.mem_cons_self
        have later := ih fun line member => each line (List.mem_cons_of_mem _ member)
        simp [later, List.count_eq_zero_of_not_mem none]
  have ended : Text.lastLine lines.flatten = [] := by
    rcases List.eq_nil_or_concat lines with rfl | ⟨others, last, rfl⟩
    · rfl
    · obtain ⟨content, _, rfl⟩ := each last (by simp)
      rw [List.concat_eq_append, List.flatten_append, List.flatten_singleton, ← List.append_assoc,
        Text.lastLine_append_of_mem _ List.mem_cons_self]
      rfl
  rw [List.count_append, List.count_eq_zero_of_not_mem absent, counted,
    Text.lastLine_append_of_not_mem _ absent, ended]
  exact ⟨rfl, rfl⟩

/-- An index that is the text itself, where every place is looked up anew. -/
def ofText : LineIndex Text where
  build := id
  locate text offset :=
    match text.cut? offset with
    | some (before, _) => ⟨before.count '\n', before.lastLine.size⟩
    | none => ⟨0, 0⟩
  widen? text located :=
    ((behindLines located.line text).cut? located.bytes).map fun parts =>
      ⟨located.line, parts.1.utf16Length⟩
  locate_build lines front behind each absent := by
    obtain ⟨counted, last⟩ := ending_flatten each absent
    rw [id, ← List.append_assoc, Text.cut?_size_append]
    simp only [counted, last]
  widen?_build lines front behind each absent := by
    rw [id, behindLines_flatten each, Text.cut?_size_append]
    rfl

end LineIndex

/-! ## Answers with their ranges -/

/-- A range between two positions. -/
structure Range where
  start : Position
  stop : Position
deriving DecidableEq, Repr

namespace Range

/-- The range of a span, given the positions of offsets. -/
def ofSpan (position : Nat → Position) (span : Span) : Range :=
  ⟨position span.start, position span.stop⟩

/-- A range as a value. -/
def encode (range : Range) : Json :=
  OpenDocument.encodeRange range.start range.stop

/-- A range that can be folded as a value. -/
def encodeFolding (range : Range) : Json :=
  .object
    [("endCharacter", .ofNat range.stop.column),
     ("endLine", .ofNat range.stop.line),
     ("kind", .string "region"),
     ("startCharacter", .ofNat range.start.column),
     ("startLine", .ofNat range.start.line)]

/-- One range lies in another. -/
def Within (inner outer : Range) : Prop :=
  outer.start.UpTo inner.start ∧ inner.stop.UpTo outer.stop

end Range

/-- A symbol of a document as it is answered: a name, two ranges and the symbols in it. -/
inductive DocumentSymbol where
  | node (name : String) (range selection : Range) (children : List DocumentSymbol)

namespace DocumentSymbol

/-- The range of a symbol. -/
def range : DocumentSymbol → Range
  | node _ range _ _ => range

mutual

/-- The ranges of a symbol and of the symbols in it, a symbol before those in it. -/
def ranges : DocumentSymbol → List Range
  | node _ range _ children => range :: allRanges children

def allRanges : List DocumentSymbol → List Range
  | [] => []
  | first :: rest => first.ranges ++ allRanges rest

end

mutual

/-- A symbol with the symbols in it as a value. -/
def encode : DocumentSymbol → Json
  | node name range selection children =>
      let inside :=
        if children.isEmpty then [] else [("children", Json.array (encodeAll children))]
      .object (inside ++
        [("kind", .ofNat OpenDocument.functionSymbolKind),
         ("name", .string name),
         ("range", range.encode),
         ("selectionRange", selection.encode)])

def encodeAll : List DocumentSymbol → List Json
  | [] => []
  | first :: rest => first.encode :: encodeAll rest

end

/-- Symbols beside each other have ranges one behind the other. -/
def Apart (symbols : List DocumentSymbol) : Prop :=
  symbols.Pairwise fun earlier later => earlier.range.stop.UpTo later.range.start

/--
The range of a symbol goes forward and is selected at its start, where nothing of it is covered.
It encloses the ranges of the symbols in it, which are one behind the other.
-/
inductive Arranged : DocumentSymbol → Prop
  | node
      {name : String}
      {range : Range}
      {children : List DocumentSymbol}
      (forward : range.start.Before range.stop)
      (each : ∀ child ∈ children, child.Arranged)
      (within : ∀ child ∈ children, child.range.Within range)
      (apart : Apart children) :
      Arranged (.node name range ⟨range.start, range.start⟩ children)

end DocumentSymbol

mutual

/-- The answer about a symbol, given the positions of offsets. -/
def documentSymbol (position : Nat → Position) : Symbol → DocumentSymbol
  | .node region entry children =>
      .node entry.displayName (.ofSpan position region.span)
        ⟨position entry.offset, position entry.offset⟩ (documentSymbols position children)

def documentSymbols (position : Nat → Position) : List Symbol → List DocumentSymbol
  | [] => []
  | first :: rest => documentSymbol position first :: documentSymbols position rest

end

section Documents

variable (position : Nat → Position)

theorem documentSymbols_eq_map (symbols : List Symbol) :
    documentSymbols position symbols = symbols.map (documentSymbol position) := by
  induction symbols with
  | nil => rfl
  | cons first rest ih => rw [documentSymbols, ih, List.map_cons]

mutual

theorem encode_documentSymbol :
    (symbol : Symbol) → (documentSymbol position symbol).encode = encodeSymbolBy position symbol
  | .node region entry children => by
      have empty : (documentSymbols position children).isEmpty = children.isEmpty := by
        rw [documentSymbols_eq_map, List.isEmpty_map]
      rw [documentSymbol, DocumentSymbol.encode, encodeSymbolBy, empty,
        encodeAll_documentSymbols children]
      rfl

theorem encodeAll_documentSymbols :
    (symbols : List Symbol) →
      DocumentSymbol.encodeAll (documentSymbols position symbols) = encodeEachBy position symbols
  | [] => by rw [documentSymbols, DocumentSymbol.encodeAll, encodeEachBy]
  | first :: rest => by
      rw [documentSymbols, DocumentSymbol.encodeAll, encodeEachBy, encode_documentSymbol first,
        encodeAll_documentSymbols rest]

end

mutual

/-- The ranges in the answer about a symbol are those of the regions in it. -/
theorem ranges_documentSymbol (parent? : Option Region) :
    (symbol : Symbol) →
      (documentSymbol position symbol).ranges =
        (symbol.placements parent?).map fun placement =>
          Range.ofSpan position placement.region.span
  | .node region entry children => by
      rw [documentSymbol, DocumentSymbol.ranges, Symbol.placements, List.map_cons,
        allRanges_documentSymbols (some region) children]

theorem allRanges_documentSymbols (parent? : Option Region) :
    (symbols : List Symbol) →
      DocumentSymbol.allRanges (documentSymbols position symbols) =
        (Symbol.allPlacements parent? symbols).map fun placement =>
          Range.ofSpan position placement.region.span
  | [] => by rw [documentSymbols, DocumentSymbol.allRanges, Symbol.allPlacements, List.map_nil]
  | first :: rest => by
      rw [documentSymbols, DocumentSymbol.allRanges, Symbol.allPlacements, List.map_append,
        ranges_documentSymbol parent? first, allRanges_documentSymbols parent? rest]

end

end Documents

/-- Symbols beside each other, each of them arranged. -/
structure DocumentSymbol.Forest (symbols : List DocumentSymbol) : Prop where
  each : ∀ symbol ∈ symbols, symbol.Arranged
  apart : DocumentSymbol.Apart symbols

end Server

/-! ## Symbols of an element -/

/-- The region of a symbol. -/
def Symbol.region : Symbol → Region
  | .node region _ _ => region

/-- A symbol of a forest is placed with its region. -/
theorem Symbol.region_mem_allPlacements
    (parent? : Option Region)
    {symbols : List Symbol}
    {symbol : Symbol}
    (member : symbol ∈ symbols) :
    symbol.region ∈ (allPlacements parent? symbols).map Placement.region := by
  induction symbols with
  | nil => cases member
  | cons first rest ih =>
      rw [allPlacements, List.map_append, List.mem_append]
      rcases List.mem_cons.mp member with rfl | later
      · obtain ⟨own, entry, children⟩ := symbol
        exact Or.inl (by simp [placements, region])
      · exact Or.inr (ih later)

namespace Element

/-- The symbols of elements are placed with the regions of these elements. -/
theorem map_region_allPlacements
    (offset : Nat)
    (elements : List Element) :
    (Symbol.allPlacements none (allSymbols offset elements)).map Placement.region =
      regions offset elements := by
  have placed := placements_allSymbols [] offset elements
  rw [List.findSome?_nil] at placed
  rw [placed, Placement.map_region_ofLineage?, map_fst_allLineages, regions]

theorem allSymbols_singleton
    (offset : Nat)
    (element : Element) :
    allSymbols offset [element] = element.symbols offset := by
  rw [allSymbols, allSymbols, List.append_nil]

open Server

variable {text : Text}

/-- The regions of elements start and stop between characters of a text. -/
def Bounded (text : Text) (offset : Nat) (elements : List Element) : Prop :=
  ∀ region ∈ regions offset elements,
    text.IsBoundary region.span.start ∧ text.IsBoundary region.span.stop

/-- The answer about the symbols of an element is a forest, wherever the element stands. -/
def Arranges (text : Text) (element : Element) : Prop :=
  ∀ offset, Bounded text offset [element] →
    DocumentSymbol.Forest (documentSymbols text.position (element.symbols offset))

theorem exists_region_of_mem
    {offset : Nat}
    {elements : List Element}
    {symbol : DocumentSymbol}
    (member : symbol ∈ documentSymbols text.position (allSymbols offset elements)) :
    ∃ region ∈ regions offset elements, symbol.range = .ofSpan text.position region.span := by
  rw [documentSymbols_eq_map] at member
  obtain ⟨original, listed, rfl⟩ := List.mem_map.mp member
  have placed := Symbol.region_mem_allPlacements none listed
  rw [map_region_allPlacements] at placed
  obtain ⟨region, entry, children⟩ := original
  exact ⟨region, placed, by rw [documentSymbol]; rfl⟩

/-- Elements laid end to end have their symbols one behind the other. -/
theorem forest_allSymbols
    {elements : List Element}
    (sound : ∀ element ∈ elements, element.Sound)
    (arranges : ∀ element ∈ elements, element.Arranges text)
    {offset : Nat}
    (bounded : Bounded text offset elements) :
    DocumentSymbol.Forest (documentSymbols text.position (allSymbols offset elements)) := by
  induction elements generalizing offset with
  | nil =>
      rw [allSymbols, documentSymbols]
      exact ⟨by simp, .nil⟩
  | cons first rest ih =>
      have split := regions_append offset [first] rest
      simp only [List.singleton_append, List.map_cons, List.map_nil, List.sum_cons, List.sum_nil,
        Nat.add_zero] at split
      have front : Bounded text offset [first] := fun region member =>
        bounded region (split ▸ List.mem_append_left _ member)
      have back : Bounded text (offset + first.width) rest := fun region member =>
        bounded region (split ▸ List.mem_append_right _ member)
      have here := arranges first List.mem_cons_self offset front
      have there := ih (fun element member => sound element (List.mem_cons_of_mem _ member))
        (fun element member => arranges element (List.mem_cons_of_mem _ member)) back
      have laminates : ∀ element ∈ first :: rest, element.Laminates :=
        fun element member => (laminates_of_sound element (sound element member)).1
      have inside := (laminates first List.mem_cons_self offset).inside
      have behind := (laminar_regions (fun element member =>
        laminates element (List.mem_cons_of_mem _ member)) (offset + first.width)).inside
      rw [allSymbols, documentSymbols_eq_map, List.map_append, ← documentSymbols_eq_map,
        ← documentSymbols_eq_map]
      refine ⟨fun symbol member => ?_, List.pairwise_append.mpr ⟨here.apart, there.apart,
        fun earlier isEarlier later isLater => ?_⟩⟩
      · rcases List.mem_append.mp member with early | late
        · exact here.each symbol early
        · exact there.each symbol late
      · rw [← allSymbols_singleton] at isEarlier
        obtain ⟨region, listed, range⟩ := exists_region_of_mem isEarlier
        obtain ⟨other, otherListed, otherRange⟩ := exists_region_of_mem isLater
        have stops := (inside region listed).2.2
        have starts := (behind other otherListed).1
        rw [range, otherRange]
        exact Text.position_upTo (front region listed).2 (back other otherListed).1
          (stops.trans starts)

/-- The symbols of a sound element are arranged: each in the region of the closest definition. -/
theorem arranges_of_sound (element : Element) (sound : element.Sound) : element.Arranges text := by
  induction element using Element.induct with
  | token inner =>
      intro offset _
      rw [symbols, documentSymbols]
      exact ⟨by simp, .nil⟩
  | node kind extent children ih =>
      intro offset bounded
      have laminar := (laminates_of_sound _ sound).1 offset
      rw [Bounded, regions_node] at bounded
      rw [regions_node] at laminar
      have below : DocumentSymbol.Forest
          (documentSymbols text.position (allSymbols offset children)) := by
        refine forest_allSymbols sound.children
          (fun child member => ih child member (sound.children child member)) ?_
        exact fun region member => bounded region (List.mem_append_right _ member)
      rw [symbols]
      cases found : Region.ofNode? ⟨offset, kind, extent, children⟩ with
      | none => exact below
      | some region =>
          rw [found] at bounded laminar
          obtain ⟨isStart, isStop⟩ := bounded region List.mem_cons_self
          have forward := (laminar.inside region List.mem_cons_self).2.1
          simp only [documentSymbols, documentSymbol]
          refine ⟨fun symbol member => ?_, List.pairwise_singleton _ _⟩
          rw [List.mem_singleton.mp member]
          refine .node (Text.position_before isStart isStop forward) below.each
            (fun child listed => ?_) below.apart
          obtain ⟨inner, isInner, range⟩ := exists_region_of_mem listed
          have contained := Span.contains_iff.mp (contains_of_mem_regions sound found inner isInner)
          obtain ⟨innerStart, innerStop⟩ := bounded inner (List.mem_cons_of_mem _ isInner)
          rw [range]
          exact ⟨Text.position_upTo isStart innerStart contained.1,
            Text.position_upTo innerStop isStop contained.2⟩

end Element

namespace Server

variable {Index : Type}

/-- A range starts and stops at the positions of a span, counted in a text. -/
def Range.Locates (text : Text) (span : Span) (range : Range) : Prop :=
  (∃ before behind, text = before ++ behind ∧ Text.size before = span.start ∧
    range.start = ⟨before.count '\n', before.lastLine.utf16Length⟩) ∧
  ∃ before behind, text = before ++ behind ∧ Text.size before = span.stop ∧
    range.stop = ⟨before.count '\n', before.lastLine.utf16Length⟩

theorem Range.locates_ofSpan
    {text : Text}
    {span : Span}
    (isStart : text.IsBoundary span.start)
    (isStop : text.IsBoundary span.stop) :
    Range.Locates text span (.ofSpan text.position span) := by
  obtain ⟨before, behind, whole, start⟩ := isStart
  obtain ⟨front, rest, otherWhole, stop⟩ := isStop
  refine ⟨⟨before, behind, whole, start.symm, ?_⟩, front, rest, otherWhole, stop.symm, ?_⟩
  · rw [ofSpan, start, whole]
    exact Text.position_size before behind
  · rw [ofSpan, stop, otherWhole]
    exact Text.position_size front rest

/-- The bounds of the regions of a text are between its characters. -/
theorem isBoundary_of_mem_bounds
    {text : Text}
    {bound : Nat}
    (member : bound ∈ (foldRegions text).flatMap fun region =>
      [region.span.start, region.span.stop]) :
    text.IsBoundary bound := by
  obtain ⟨region, listed, isBound⟩ := List.mem_flatMap.mp member
  rcases List.mem_pair.mp isBound with rfl | rfl
  · exact (isBoundary_of_mem_foldRegions listed).1
  · exact (isBoundary_of_mem_foldRegions listed).2

theorem start_lt_stop_of_mem_foldRegions
    {text : Text}
    {region : Region}
    (listed : region ∈ foldRegions text) :
    region.span.start < region.span.stop := by
  obtain ⟨chunk, roots, _⟩ := exists_chunk text
  rw [foldRegions_eq_regions roots] at listed
  exact (((Element.laminates_of_sound _ chunk.sound_root).1 0).inside region listed).2.1

/-- The symbols of a text. -/
def symbolsOf (text : Text) : List DocumentSymbol :=
  documentSymbols text.position (Symbol.forest (foldRegions text) (outline (foldRegions text)))

/-- The symbols of a text have the ranges of its regions, in order. -/
theorem allRanges_symbolsOf (text : Text) :
    DocumentSymbol.allRanges (symbolsOf text) =
      (foldRegions text).map fun region => Range.ofSpan text.position region.span := by
  obtain ⟨chunk, roots, _⟩ := exists_chunk text
  rw [symbolsOf, allRanges_documentSymbols _ none, forest_eq_symbols roots,
    ← Element.allSymbols_singleton, foldRegions_eq_regions roots,
    ← Element.map_region_allPlacements, List.map_map]
  rfl

theorem forest_symbolsOf (text : Text) : DocumentSymbol.Forest (symbolsOf text) := by
  obtain ⟨chunk, roots, _⟩ := exists_chunk text
  rw [symbolsOf, forest_eq_symbols roots]
  refine Element.arranges_of_sound _ chunk.sound_root 0 fun region listed => ?_
  rw [← foldRegions_eq_regions roots] at listed
  exact isBoundary_of_mem_foldRegions listed

/-- What a document with an index of lines keeps of a text that was parsed. -/
def IndexedDocument.parsed
    (index : LineIndex Index)
    (number : Nat)
    (text : Text) :
    IndexedDocument Index :=
  ⟨⟨number, text⟩, index.build text, foldRegions text, LuaFold.outline (foldRegions text)⟩

/--
The answers about a text, from any index of lines, have one range for each region, at the
positions of its bounds: a number of line feeds and of UTF-16 code units behind the last of them.
The ranges of symbols are these in the same order.  Every range goes forward, the ranges of
symbols are nested and one behind the other, and a symbol is selected at its start.  The bounds
of regions have different positions wherever they are different.
-/
theorem answers_arranged
    (index : LineIndex Index)
    (text : Text)
    (number : Nat) :
    let document := IndexedDocument.parsed index number text
    let bounds := (foldRegions text).flatMap fun region => [region.span.start, region.span.stop]
    ∃ (ranges : List Range) (symbols : List DocumentSymbol),
      (Sink.indexed index.lines).answer .foldingRanges document =
          .ofList Range.encodeFolding ranges ∧
      (Sink.indexed index.lines).answer .symbols document =
          .array (DocumentSymbol.encodeAll symbols) ∧
      (∀ question, (Sink.indexed index.lines).answer question document =
        Sink.plain.answer question document.plain) ∧
      List.Forall₂ (fun region => Range.Locates text region.span) (foldRegions text) ranges ∧
      DocumentSymbol.allRanges symbols = ranges ∧
      (∀ range ∈ ranges, range.start.Before range.stop) ∧
      DocumentSymbol.Forest symbols ∧
      ∀ first ∈ bounds, ∀ second ∈ bounds, first ≠ second →
        index.position document.index first ≠ index.position document.index second := by
  intro document bounds
  have coherent : document.Coherent index.lines := ⟨rfl, Or.inr rfl, rfl⟩
  refine ⟨(foldRegions text).map fun region => .ofSpan text.position region.span,
    symbolsOf text, ?_, ?_, Sink.answer_indexed coherent, ?_, allRanges_symbolsOf text, ?_,
    forest_symbolsOf text, ?_⟩
  · rw [Sink.answer_indexed coherent]
    show Json.array _ = Json.array _
    rw [List.map_map]
    rfl
  · rw [Sink.answer_indexed coherent, symbolsOf, encodeAll_documentSymbols]
    exact (Question.answerBy_position .symbols document.plain).symm
  · refine List.forall₂_map_right_iff.mpr (List.forall₂_same.mpr fun region listed => ?_)
    obtain ⟨isStart, isStop⟩ := isBoundary_of_mem_foldRegions listed
    exact Range.locates_ofSpan isStart isStop
  · intro range member
    obtain ⟨region, listed, rfl⟩ := List.mem_map.mp member
    obtain ⟨isStart, isStop⟩ := isBoundary_of_mem_foldRegions listed
    exact Text.position_before isStart isStop (start_lt_stop_of_mem_foldRegions listed)
  · intro first isFirst second isSecond different same
    have located := isBoundary_of_mem_bounds isFirst
    have otherLocated := isBoundary_of_mem_bounds isSecond
    refine different (Text.eq_of_position_eq located otherLocated ?_)
    rw [← index.position_build located, ← index.position_build otherLocated]
    exact same

/-- A line with characters of two code units in front of a function. -/
def widened : Text :=
  "local s = '💾💾' function g() return s end".toList

/-- The one region of this line is looked up in an index that is the line itself. -/
theorem answers_arranged_widened :
    foldRegions widened = [⟨"g", ⟨21, 46⟩⟩] ∧
      ∃ ranges, (Sink.indexed LineIndex.ofText.lines).answer .foldingRanges
          (.parsed .ofText 0 widened) = .ofList Range.encodeFolding ranges ∧
        List.Forall₂ (fun region => Range.Locates widened region.span) (foldRegions widened)
          ranges := by
  obtain ⟨ranges, _, answered, _, _, located, _⟩ := answers_arranged LineIndex.ofText widened 0
  exact ⟨by decide +kernel, ranges, answered, located⟩

end Server

end LuaFold
