import LuaFold.Fold.Symbol
import LuaFold.Proofs.Fold.Laminar
import LuaFold.Proofs.Tree.Lineage

/-!
# Symbol forests follow the tree

A stack of open symbols sees nothing of a tree but its regions, in order.  While it takes the
regions of some elements, the symbols that were open before stay open, and everything opened
behind them lies in these elements.  Closing that again adds to the innermost of the earlier
symbols just what the tree nests in it.  So a symbol ends up in the symbol of the closest closed
definition around its own.
-/

namespace LuaFold

/-- The entry of a region in an outline. -/
def Region.entry (region : Region) : OutlineEntry :=
  ⟨region.name, region.span.start⟩

theorem outline_eq_map_entry (regions : List Region) : outline regions = regions.map Region.entry :=
  rfl

namespace Symbol

/-! ## Closing and adding -/

namespace Arrangement

/-- The spans of the open symbols, innermost first. -/
def spans (arrangement : Arrangement) : List Span :=
  arrangement.opened.map fun symbol => symbol.region.span

/-- Open a symbol inside the innermost open one. -/
def enter (arrangement : Arrangement) (region : Region) : Arrangement :=
  ⟨⟨region, region.entry, []⟩ :: arrangement.opened, arrangement.roots⟩

/-- Add finished symbols to the innermost open one, or to the roots. -/
def addAll (arrangement : Arrangement) (symbols : List Symbol) : Arrangement :=
  match arrangement.opened with
  | [] => ⟨[], symbols.reverse ++ arrangement.roots⟩
  | inner :: opened =>
    ⟨⟨inner.region, inner.entry, symbols.reverse ++ inner.children⟩ :: opened, arrangement.roots⟩

/-- Insert regions with their entries, one after the other. -/
def insertAll (arrangement : Arrangement) (regions : List Region) : Arrangement :=
  regions.foldl (fun reached region => reached.insert region region.entry) arrangement

variable {arrangement : Arrangement}

@[simp]
theorem spans_enter
    (arrangement : Arrangement)
    (region : Region) :
    (arrangement.enter region).spans = region.span :: arrangement.spans :=
  rfl

@[simp]
theorem spans_addAll
    (arrangement : Arrangement)
    (symbols : List Symbol) :
    (arrangement.addAll symbols).spans = arrangement.spans := by
  obtain ⟨_ | ⟨inner, opened⟩, roots⟩ := arrangement
  · rfl
  · rfl

@[simp]
theorem addAll_nil (arrangement : Arrangement) : arrangement.addAll [] = arrangement := by
  obtain ⟨_ | ⟨inner, opened⟩, roots⟩ := arrangement
  · rfl
  · rfl

theorem addAll_append
    (arrangement : Arrangement)
    (first second : List Symbol) :
    arrangement.addAll (first ++ second) = (arrangement.addAll first).addAll second := by
  obtain ⟨_ | ⟨inner, opened⟩, roots⟩ := arrangement
  · simp [addAll]
  · simp [addAll]

/-- A symbol that is closed takes the symbols added to it along. -/
theorem close_addAll_enter
    (arrangement : Arrangement)
    (region : Region)
    (symbols : List Symbol) :
    ((arrangement.enter region).addAll symbols).close =
      arrangement.addAll [.node region region.entry symbols] := by
  obtain ⟨_ | ⟨inner, opened⟩, roots⟩ := arrangement
  · simp [enter, addAll, close, add, Unfinished.finish]
  · simp [enter, addAll, close, add, Unfinished.finish]

theorem spans_close (arrangement : Arrangement) :
    arrangement.close.spans = arrangement.spans.tail := by
  obtain ⟨_ | ⟨inner, _ | ⟨outer, opened⟩⟩, roots⟩ := arrangement
  · rfl
  · rfl
  · rfl

theorem closeAll_add_one
    (count : Nat)
    (arrangement : Arrangement) :
    closeAll (count + 1) arrangement = (closeAll count arrangement).close := by
  induction count generalizing arrangement with
  | zero => rfl
  | succ count ih => exact ih arrangement.close

/-- Symbols are closed up to the first that contains a span. -/
theorem closeUntil_eq_closeAll
    {span : Span}
    {passed kept : List Span}
    {fuel : Nat}
    (opened : arrangement.spans = passed ++ kept)
    (enough : passed.length ≤ fuel)
    (passes : ∀ inner ∈ passed, inner.contains span = false)
    (stops : ∀ inner ∈ kept.head?, inner.contains span = true) :
    closeUntil span fuel arrangement = closeAll passed.length arrangement := by
  induction passed generalizing arrangement fuel with
  | nil =>
      cases fuel with
      | zero => rfl
      | succ fuel =>
          obtain ⟨_ | ⟨inner, others⟩, roots⟩ := arrangement
          · rfl
          · refine if_pos (stops inner.region.span ?_)
            rw [List.nil_append] at opened
            simp [← opened, spans]
  | cons first passed ih =>
      cases fuel with
      | zero => cases enough
      | succ fuel =>
          obtain ⟨_ | ⟨inner, others⟩, roots⟩ := arrangement
          · cases opened
          · obtain ⟨rfl, behind⟩ := List.cons.inj opened
            have outside := passes inner.region.span List.mem_cons_self
            refine (if_neg (ne_true_of_eq_false outside)).trans ?_
            refine ih ?_ (Nat.le_of_succ_le_succ enough) fun other member =>
              passes other (List.mem_cons_of_mem _ member)
            rw [spans_close]
            exact behind

/-! ## Growing -/

/--
An arrangement reached from another by inserting the regions of elements up to an offset.  Behind
the symbols that were open before it has opened others, which end before this offset; closing
these leaves the symbols of the elements added to what there was.
-/
def Grown
    (start : Arrangement)
    (offset : Nat)
    (symbols : List Symbol)
    (reached : Arrangement) :
    Prop :=
  ∃ pending, reached.spans = pending ++ start.spans ∧ (∀ span ∈ pending, span.stop ≤ offset) ∧
    closeAll pending.length reached = start.addAll symbols

theorem grown_refl (start : Arrangement) (offset : Nat) : Grown start offset [] start :=
  ⟨[], rfl, by simp, (addAll_nil start).symm⟩

/-- A region behind all pending ones is opened inside the symbol that was innermost before. -/
theorem Grown.insert
    {start reached : Symbol.Arrangement}
    {offset : Nat}
    {symbols : List Symbol}
    (grown : Grown start offset symbols reached)
    {region : Region}
    (behind : offset ≤ region.span.start)
    (nonempty : region.span.start < region.span.stop)
    (inside : ∀ span ∈ start.spans.head?, span.contains region.span = true) :
    reached.insert region region.entry = (start.addAll symbols).enter region := by
  obtain ⟨pending, opened, before, closed⟩ := grown
  have enough : pending.length ≤ reached.opened.length := by
    have lengths := congrArg List.length opened
    rw [spans, List.length_map, List.length_append] at lengths
    omega
  have passes : ∀ span ∈ pending, span.contains region.span = false := by
    intro span member
    have bound := before span member
    refine Bool.eq_false_iff.mpr fun contains => ?_
    have stops := (Span.contains_iff.mp contains).2
    omega
  rw [Arrangement.insert, closeUntil_eq_closeAll opened enough passes inside, closed]
  rfl

/-- Closing a symbol adds it, with what was nested in it, to the symbol around it. -/
theorem Grown.leave
    {start reached : Symbol.Arrangement}
    {offset : Nat}
    {before symbols : List Symbol}
    {region : Region}
    (grown : Grown ((start.addAll before).enter region) offset symbols reached)
    (ends : region.span.stop ≤ offset) :
    Grown start offset (before ++ [.node region region.entry symbols]) reached := by
  obtain ⟨pending, opened, stops, closed⟩ := grown
  refine ⟨pending ++ [region.span], ?_, ?_, ?_⟩
  · simpa using opened
  · intro span member
    rcases List.mem_append.mp member with early | last
    · exact stops span early
    · rw [List.mem_singleton.mp last]
      exact ends
  · rw [List.length_append, List.length_singleton, closeAll_add_one, closed, close_addAll_enter,
      addAll_append]

theorem insertAll_append
    (start : Arrangement)
    (first second : List Region) :
    start.insertAll (first ++ second) = (start.insertAll first).insertAll second :=
  List.foldl_append

theorem insertAll_cons
    (start : Arrangement)
    (region : Region)
    (rest : List Region) :
    start.insertAll (region :: rest) = (start.insert region region.entry).insertAll rest :=
  rfl

end Arrangement

/-- The forest of regions with their own entries. -/
theorem forest_outline (regions : List Region) :
    forest regions (outline regions) =
      (Arrangement.closeAll (Arrangement.insertAll ⟨[], []⟩ regions).opened.length
        (Arrangement.insertAll ⟨[], []⟩ regions)).roots.reverse := by
  have inserted : (regions.zip (outline regions)).foldl
      (fun arrangement placed => Arrangement.insert arrangement placed.1 placed.2)
      (⟨[], []⟩ : Arrangement) = Arrangement.insertAll ⟨[], []⟩ regions := by
    have paired : (regions.map id).zip (regions.map Region.entry) = _ := List.zip_map'
    rw [List.map_id] at paired
    rw [outline_eq_map_entry, paired, List.foldl_map]
    rfl
  exact congrArg (fun arrangement : Arrangement =>
    (Arrangement.closeAll arrangement.opened.length arrangement).roots.reverse) inserted

end Symbol

/-! ## The nesting of a tree -/

namespace Element

mutual

/-- The closed definitions in and below an element as a forest, nested as in the tree. -/
def symbols (offset : Nat) : Element → List Symbol
  | .token _ => []
  | .node kind extent children =>
      match Region.ofNode? ⟨offset, kind, extent, children⟩ with
      | some region => [.node region region.entry (allSymbols offset children)]
      | none => allSymbols offset children

def allSymbols (offset : Nat) : List Element → List Symbol
  | [] => []
  | first :: rest => first.symbols offset ++ allSymbols (offset + first.width) rest

end

/-- The region of a definition contains the regions below it. -/
theorem contains_of_mem_regions
    {offset : Nat}
    {kind : Kind}
    {extent : Extent}
    {children : List Element}
    (sound : (node kind extent children).Sound)
    {region : Region}
    (found : Region.ofNode? ⟨offset, kind, extent, children⟩ = some region) :
    ∀ below ∈ regions offset children, region.span.contains below.span = true := by
  obtain ⟨inner, outer, within, _, before, _, behind, _⟩ := exists_laminar_between sound found
    (fun child member => (laminates_of_sound child (sound.children child member)).1)
    (fun kind extent inside member =>
      (laminates_of_sound _ (sound.children _ member)).2 kind extent inside rfl)
  intro below member
  have bounds := within.inside below member
  refine Span.contains_iff.mpr ⟨?_, ?_⟩
  · omega
  · omega

/-- Inserting the regions of an element lets an arrangement grow by the symbols of the element. -/
def Grows (element : Element) : Prop :=
  ∀ offset {start reached : Symbol.Arrangement} {before : List Symbol},
    (∀ region ∈ regions offset [element],
      ∀ span ∈ start.spans.head?, span.contains region.span = true) →
    start.Grown offset before reached →
    start.Grown (offset + element.width) (before ++ element.symbols offset)
      (reached.insertAll (regions offset [element]))

theorem grown_insertAll
    {elements : List Element}
    (grows : ∀ element ∈ elements, element.Grows)
    (offset : Nat)
    {start reached : Symbol.Arrangement}
    {before : List Symbol}
    (inside : ∀ region ∈ regions offset elements,
      ∀ span ∈ start.spans.head?, span.contains region.span = true)
    (grown : start.Grown offset before reached) :
    start.Grown (offset + (elements.map width).sum) (before ++ allSymbols offset elements)
      (reached.insertAll (regions offset elements)) := by
  induction elements generalizing offset before reached with
  | nil => simpa [allSymbols, regions, allNodes, Symbol.Arrangement.insertAll] using grown
  | cons first rest ih =>
      have split := regions_append offset [first] rest
      simp only [List.singleton_append, List.map_cons, List.map_nil, List.sum_cons, List.sum_nil,
        Nat.add_zero] at split
      rw [split] at inside ⊢
      have here := grows first List.mem_cons_self offset
        (fun region member => inside region (List.mem_append_left _ member)) grown
      have there := ih (fun element member => grows element (List.mem_cons_of_mem first member))
        (offset + first.width)
        (fun region member => inside region (List.mem_append_right _ member)) here
      rw [Symbol.Arrangement.insertAll_append, allSymbols, ← List.append_assoc, List.map_cons,
        List.sum_cons, ← Nat.add_assoc]
      exact there

/-- The arrangement of the regions of a sound element follows the nesting of the element. -/
theorem grows_of_sound (element : Element) (sound : element.Sound) : element.Grows := by
  induction element using Element.induct with
  | token inner =>
      intro offset start reached before _ grown
      rw [regions_token, symbols, List.append_nil]
      obtain ⟨pending, opened, stops, closed⟩ := grown
      exact ⟨pending, opened, fun span member => (stops span member).trans (Nat.le_add_right _ _),
        closed⟩
  | node kind extent children ih =>
      intro offset start reached before inside grown
      have grows : ∀ child ∈ children, child.Grows :=
        fun child member => ih child member (sound.children child member)
      have laminar := (laminates_of_sound _ sound).1 offset
      have width : (node kind extent children).width = (children.map Element.width).sum := by
        rw [sound.measured.eq_branch, width_branch]
      rw [regions_node] at inside laminar ⊢
      rw [symbols]
      cases found : Region.ofNode? ⟨offset, kind, extent, children⟩ with
      | none =>
          rw [found] at inside
          rw [width]
          exact grown_insertAll grows offset inside grown
      | some region =>
          rw [found] at inside laminar
          have bounds := laminar.inside region List.mem_cons_self
          have entered := grown.insert bounds.1 bounds.2.1 (inside region List.mem_cons_self)
          -- inside its own symbol the definition starts with nothing pending
          have around : ∀ below ∈ regions offset children,
              ∀ span ∈ ((start.addAll before).enter region).spans.head?,
                span.contains below.span = true := by
            rintro below member span ⟨⟩
            exact contains_of_mem_regions sound found below member
          have below := grown_insertAll grows offset around
            (Symbol.Arrangement.grown_refl _ offset)
          rw [← width, List.nil_append] at below
          refine Symbol.Arrangement.Grown.leave ?_ bounds.2.2
          rw [Option.toList_some, List.singleton_append, Symbol.Arrangement.insertAll_cons, entered]
          exact below

end Element

/-! ## Symbols in preorder -/

/-- A symbol as a list shows it: its region and entry, and the region of the symbol around it. -/
structure Placement where
  region : Region
  entry : OutlineEntry
  parent? : Option Region
deriving DecidableEq, Repr

namespace Symbol

mutual

/-- A symbol and all symbols below it, a symbol before those below it. -/
def placements (parent? : Option Region) : Symbol → List Placement
  | .node region entry children =>
      ⟨region, entry, parent?⟩ :: allPlacements (some region) children

/-- The symbols of a forest in preorder, the roots of which stand in a symbol or in none. -/
def allPlacements (parent? : Option Region) : List Symbol → List Placement
  | [] => []
  | first :: rest => first.placements parent? ++ allPlacements parent? rest

end

theorem allPlacements_append
    (parent? : Option Region)
    (first second : List Symbol) :
    allPlacements parent? (first ++ second) =
      allPlacements parent? first ++ allPlacements parent? second := by
  induction first with
  | nil => rfl
  | cons symbol rest ih => simp [allPlacements, ih]

end Symbol

/--
The placement that a node asks for, given its proper ancestors: if it is a closed definition, its
own region below that of the closest ancestor that is a closed definition.
-/
def Placement.ofLineage? (lineage : Node × List Node) : Option Placement :=
  (Region.ofNode? lineage.1).map fun region =>
    ⟨region, region.entry, lineage.2.findSome? Region.ofNode?⟩

theorem Placement.map_region_ofLineage? (lineages : List (Node × List Node)) :
    (lineages.filterMap ofLineage?).map Placement.region =
      (lineages.map Prod.fst).filterMap Region.ofNode? := by
  rw [List.map_filterMap, List.filterMap_map]
  refine List.filterMap_congr fun lineage _ => ?_
  cases found : Region.ofNode? lineage.1 with
  | none => simp [ofLineage?, found]
  | some region => simp [ofLineage?, found]

namespace Element

mutual

/-- A symbol stands in the symbol of the closest closed definition around its node. -/
theorem placements_symbols
    (opened : List Node)
    (offset : Nat) :
    (element : Element) →
      Symbol.allPlacements (opened.findSome? Region.ofNode?) (element.symbols offset) =
        (element.lineages opened offset).filterMap Placement.ofLineage?
  | .token inner => by simp [symbols, lineages, Symbol.allPlacements]
  | .node kind extent children => by
      have below := placements_allSymbols (⟨offset, kind, extent, children⟩ :: opened) offset
        children
      rw [symbols, lineages]
      cases found : Region.ofNode? ⟨offset, kind, extent, children⟩ with
      | none =>
          rw [List.findSome?_cons, found] at below
          simp [Placement.ofLineage?, found, below]
      | some region =>
          rw [List.findSome?_cons, found] at below
          simp [Placement.ofLineage?, found, Symbol.allPlacements, Symbol.placements, below]

theorem placements_allSymbols
    (opened : List Node)
    (offset : Nat) :
    (elements : List Element) →
      Symbol.allPlacements (opened.findSome? Region.ofNode?) (allSymbols offset elements) =
        (allLineages opened offset elements).filterMap Placement.ofLineage?
  | [] => rfl
  | first :: rest => by
      have here := placements_symbols opened offset first
      have there := placements_allSymbols opened (offset + first.width) rest
      rw [allSymbols, allLineages, Symbol.allPlacements_append, List.filterMap_append, here, there]

end

end Element

/-- The forest of a text nests the closed definitions as its tree does. -/
theorem forest_eq_symbols
    {text : Text}
    {chunk : Chunk text}
    (roots : (parse text).tree.roots = [chunk.root]) :
    Symbol.forest (foldRegions text) (outline (foldRegions text)) = chunk.root.symbols 0 := by
  have nothing : ∀ region ∈ Element.regions 0 [chunk.root],
      ∀ span ∈ (Symbol.Arrangement.mk [] []).spans.head?, span.contains region.span = true := by
    rintro region member span ⟨⟩
  have grown := Element.grows_of_sound chunk.root chunk.sound_root 0 nothing
    (Symbol.Arrangement.grown_refl ⟨[], []⟩ 0)
  obtain ⟨pending, opened, _, closed⟩ := grown
  have count : (Symbol.Arrangement.insertAll ⟨[], []⟩
      (Element.regions 0 [chunk.root])).opened.length = pending.length := by
    have lengths := congrArg List.length opened
    simpa [Symbol.Arrangement.spans] using lengths
  rw [Symbol.forest_outline, foldRegions_eq_regions roots, count, closed]
  simp [Symbol.Arrangement.addAll]

/--
The symbol forest of a text is the nesting of the closed definitions in its tree.  In preorder it
has one symbol for each closed definition, in the order of the tree, and each symbol stands in
that of the closest proper ancestor of its node that is a closed definition, or is a root where
there is none.  So its regions and entries are those of the text in order, no two of them alike.
The proper ancestors of a node are what a path leads through down to the node.
-/
theorem forest_follows_tree (text : Text) :
    ∃ root, (parse text).tree.root? = some root ∧
      Symbol.allPlacements none
          (Symbol.forest (foldRegions text) (outline (foldRegions text))) =
        root.lineages.filterMap Placement.ofLineage? ∧
      (root.lineages.map Prod.fst = root.preorder ∧
        ∀ node ancestors, (node, ancestors) ∈ root.lineages ↔
          ∃ path, root.descend? path = some (node :: ancestors)) ∧
      (root.lineages.filterMap Placement.ofLineage?).map Placement.region = foldRegions text ∧
      (root.lineages.filterMap Placement.ofLineage?).map Placement.entry =
        outline (foldRegions text) ∧
      (foldRegions text).Nodup := by
  obtain ⟨chunk, roots, _⟩ := exists_chunk text
  have regions : (chunk.node.lineages.filterMap Placement.ofLineage?).map Placement.region =
      foldRegions text := by
    rw [Placement.map_region_ofLineage?, Node.map_fst_lineages, foldRegions_eq roots,
      ← chunk.preorder_node]
  refine ⟨chunk.node, Chunk.root?_eq roots, ?_, ⟨chunk.node.map_fst_lineages, ?_⟩, regions, ?_, ?_⟩
  · rw [forest_eq_symbols roots, Node.lineages_eq]
    exact Element.placements_symbols [] 0 chunk.root
  · exact fun node ancestors => chunk.node.mem_lineages_iff (node, ancestors)
  · rw [outline_eq_map_entry, ← regions, List.map_map]
    refine List.map_congr_left fun placement member => ?_
    obtain ⟨lineage, _, isPlacement⟩ := List.mem_filterMap.mp member
    obtain ⟨region, _, rfl⟩ := Option.map_eq_some_iff.mp isPlacement
    rfl
  · have ordered := ((Element.laminates_of_sound chunk.root chunk.sound_root).1 0).ordered
    rw [← foldRegions_eq_regions roots] at ordered
    refine List.nodup_iff_pairwise_ne.mpr (ordered.imp ?_)
    rintro region _ precedes rfl
    exact Nat.lt_irrefl _ precedes.1

end LuaFold
