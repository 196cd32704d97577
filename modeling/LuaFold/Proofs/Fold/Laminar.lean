import LuaFold.Proofs.Fold.Validity

/-!
# Regions are nested or disjoint

The regions of elements laid end to end lie in their bytes, one element after the other.  The
region of a definition starts inside the first token of its node and stops inside the last one,
while the regions below lie between these tokens.  So of two regions the one listed first also
starts first, and it either stops before the other starts or encloses it.
-/

namespace LuaFold

namespace Region

/-- One region starts before another, and is disjoint from it or encloses it. -/
def Precedes (first second : Region) : Prop :=
  first.span.start < second.span.start ∧
    (first.span.stop ≤ second.span.start ∨ second.span.stop < first.span.stop)

/-- Regions with bytes in them, all between two offsets, each one preceding those behind it. -/
structure Laminar (start stop : Nat) (regions : List Region) : Prop where
  inside : ∀ region ∈ regions, start ≤ region.span.start ∧
    region.span.start < region.span.stop ∧ region.span.stop ≤ stop
  ordered : regions.Pairwise Precedes

namespace Laminar

theorem nil (start stop : Nat) : Laminar start stop [] :=
  ⟨by simp, List.Pairwise.nil⟩

/-- Regions in one part of a text and regions in the part behind it. -/
theorem append
    {start middle stop : Nat}
    {first second : List Region}
    (before : Laminar start middle first)
    (behind : Laminar middle stop second)
    (forward : start ≤ middle)
    (onward : middle ≤ stop) :
    Laminar start stop (first ++ second) := by
  refine ⟨?_, ?_⟩
  · intro region member
    rcases List.mem_append.mp member with early | late
    · have bounds := before.inside region early
      omega
    · have bounds := behind.inside region late
      omega
  · refine List.pairwise_append.mpr ⟨before.ordered, behind.ordered, ?_⟩
    intro region early other late
    have bounds := before.inside region early
    have otherBounds := behind.inside other late
    exact ⟨by omega, Or.inl (by omega)⟩

theorem around
    {start stop inner outer : Nat}
    {region : Region}
    {regions : List Region}
    (within : Laminar inner outer regions)
    (opens : start ≤ region.span.start)
    (before : region.span.start < inner)
    (between : inner ≤ outer)
    (behind : outer < region.span.stop)
    (closes : region.span.stop ≤ stop) :
    Laminar start stop (region :: regions) := by
  refine ⟨?_, List.pairwise_cons.mpr ⟨?_, within.ordered⟩⟩
  · intro other member
    rcases List.mem_cons.mp member with rfl | below
    · omega
    · have bounds := within.inside other below
      omega
  · intro other below
    have bounds := within.inside other below
    exact ⟨by omega, Or.inr (by omega)⟩

end Laminar

end Region

namespace Element

/-- The regions in and below elements laid end to end from an offset. -/
def regions (offset : Nat) (elements : List Element) : List Region :=
  (allNodes offset elements).filterMap Region.ofNode?

theorem regions_append
    (offset : Nat)
    (first second : List Element) :
    regions offset (first ++ second) =
      regions offset first ++ regions (offset + (first.map width).sum) second := by
  rw [regions, allNodes_append, List.filterMap_append]
  rfl

theorem regions_token (offset : Nat) (inner : Token) : regions offset [.token inner] = [] := by
  simp [regions, allNodes, nodes]

/-- Measured and formed, with a character in every token before the end of the text. -/
structure Sound (element : Element) : Prop where
  measured : element.Measured
  formed : element.shape.Formed
  nonempty : ∀ token ∈ element.tokens, token.kind ≠ .eof → token.text ≠ []

theorem Sound.children
    {kind : Kind}
    {extent : Extent}
    {children : List Element}
    (sound : (Element.node kind extent children).Sound) :
    ∀ child ∈ children, child.Sound := by
  intro child member
  refine ⟨sound.measured.children child member, formed_children sound.formed child member, ?_⟩
  intro token inside
  refine sound.nonempty token ?_
  rw [tokens_node]
  exact List.mem_flatMap.mpr ⟨child, member, inside⟩

/-- The regions of an element lie in it. -/
def Laminates (element : Element) : Prop :=
  ∀ offset, Region.Laminar offset (offset + element.width) (regions offset [element])

theorem laminar_regions
    {elements : List Element}
    (laminates : ∀ element ∈ elements, element.Laminates)
    (offset : Nat) :
    Region.Laminar offset (offset + (elements.map width).sum) (regions offset elements) := by
  induction elements generalizing offset with
  | nil => exact .nil _ _
  | cons first rest ih =>
      have here := laminates first (by simp) offset
      have there := ih (fun element member => laminates element (by simp [member]))
        (offset + first.width)
      have split := regions_append offset [first] rest
      simp only [List.singleton_append, List.map_cons, List.map_nil, List.sum_cons, List.sum_nil,
        Nat.add_zero] at split
      rw [split]
      refine here.append ?_ (Nat.le_add_right _ _) ?_
      · simpa [Nat.add_assoc] using there
      · simp

end Element

namespace ClosedDefinition

/-- What stands between the first keyword of a definition and its body. -/
def between (definition : ClosedDefinition) : List Element :=
  (definition.localKeyword?.map fun _ => Element.token definition.keyword).toList
    ++ definition.name

theorem children_eq
    (definition : ClosedDefinition)
    (extent : Extent) :
    definition.children extent = .token definition.first ::
      (definition.between ++ [.node .funcBody extent definition.bodyChildren]) := by
  obtain ⟨localKeyword?, keyword, name, body, closing⟩ := definition
  cases localKeyword? <;> simp [children, first, between]

theorem middle_eq (definition : ClosedDefinition) :
    definition.middle = (definition.between ++ definition.body).flatMap Element.tokens := by
  obtain ⟨localKeyword?, keyword, name, body, closing⟩ := definition
  cases localKeyword? <;> simp [middle, between]

theorem kind_first_ne_eof (definition : ClosedDefinition) : definition.first.kind ≠ .eof := by
  obtain ⟨localKeyword?, keyword, name, body, closing, isLocal, isFunction, isEnd⟩ := definition
  cases localKeyword? with
  | none => simp [first, isFunction]
  | some token => simp [first, isLocal token rfl]

/-- What stands between the first keyword and the `end` is in the definition or in its body. -/
theorem mem_children_or_body
    (definition : ClosedDefinition)
    (extent : Extent)
    {element : Element}
    (member : element ∈ definition.between ++ definition.body) :
    element ∈ definition.children extent ∨ element ∈ definition.bodyChildren := by
  rcases List.mem_append.mp member with inBetween | inBody
  · exact Or.inl (by simp [children_eq, inBetween])
  · exact Or.inr (List.mem_append_left _ inBody)

/-- The regions in a definition are those between its first keyword and its `end`. -/
theorem regions_children
    (definition : ClosedDefinition)
    (extent : Extent)
    (offset : Nat) :
    Element.regions offset (definition.children extent) =
      Element.regions (offset + definition.first.width)
        (definition.between ++ definition.body) := by
  have body : ∀ start, Element.regions start
      [.node .funcBody extent definition.bodyChildren] =
        Element.regions start definition.body := by
    intro start
    have noRegion : Region.ofNode? ⟨start, .funcBody, extent, definition.bodyChildren⟩ = none := rfl
    have split := Element.regions_append start definition.body [.token definition.closing]
    rw [Element.regions_token, List.append_nil] at split
    rw [← split, Element.regions, Element.allNodes, Element.nodes, Element.allNodes,
      List.append_nil, List.filterMap_cons_none noRegion]
    rfl
  have split := Element.regions_append offset [.token definition.first]
    (definition.between ++ [.node .funcBody extent definition.bodyChildren])
  rw [Element.regions_token, List.nil_append] at split
  rw [children_eq, ← List.singleton_append, split, Element.regions_append, body,
    Element.regions_append]
  simp

end ClosedDefinition

namespace Element

/--
The regions in a definition lie between its first keyword and its `end`.  What stands there is in
the definition or in its body.
-/
theorem exists_laminar_between
    {offset : Nat}
    {kind : Kind}
    {extent : Extent}
    {children : List Element}
    (sound : (node kind extent children).Sound)
    {region : Region}
    (found : Region.ofNode? ⟨offset, kind, extent, children⟩ = some region)
    (below : ∀ child ∈ children, child.Laminates)
    (deeper : ∀ kind extent inside, node kind extent inside ∈ children →
      ∀ element ∈ inside, element.Laminates) :
    ∃ inner outer, Region.Laminar inner outer (regions offset children) ∧
      offset ≤ region.span.start ∧
      region.span.start < inner ∧
      inner ≤ outer ∧
      outer < region.span.stop ∧
      region.span.stop ≤ offset + (node kind extent children).width := by
  obtain ⟨definition, bodyExtent, _, parts, _, span⟩ :=
    @exists_closedDefinition ⟨offset, kind, extent, children⟩ region sound.formed found
  replace parts : children = definition.children bodyExtent := parts
  have body : Element.node .funcBody bodyExtent definition.bodyChildren ∈ children := by
    rw [parts, definition.children_eq]
    simp
  have measured : ∀ element ∈ definition.between ++ definition.body, element.Measured := by
    intro element member
    rcases definition.mem_children_or_body bodyExtent member with here | there
    · exact (sound.children element (parts ▸ here)).measured
    · exact ((sound.children _ body).children element there).measured
  have laminates : ∀ element ∈ definition.between ++ definition.body, element.Laminates := by
    intro element member
    rcases definition.mem_children_or_body bodyExtent member with here | there
    · exact below element (parts ▸ here)
    · exact deeper _ _ _ body element there
  have tokens : (node kind extent children).tokens = definition.first ::
      (definition.middle ++ [definition.closing]) := by
    rw [tokens_node, parts, definition.flatMap_tokens_children, definition.tokens_eq]
  have trimmed := @Node.trimmedSpan_eq ⟨offset, kind, extent, children⟩ _ _ _ sound.measured
    tokens definition.isTrivia_first definition.isTrivia_closing
  rw [← span] at trimmed
  have start : region.span.start = offset + Trivia.runWidth definition.first.leading := by
    rw [trimmed]
    rfl
  have stop : region.span.stop = offset + definition.first.width +
      (definition.middle.map Token.width).sum + Trivia.runWidth definition.closing.leading +
      definition.closing.innerWidth := by
    rw [trimmed]
    simp [Token.span, Nat.add_assoc]
  have width := sound.measured.width_eq
  simp only [tokens, List.map_cons, List.map_append, List.map_nil, List.sum_cons,
    List.sum_append, List.sum_nil] at width
  -- the order is strict because the first keyword and the `end` have bytes of their own
  have opening : 0 < definition.first.innerWidth := by
    refine Nat.pos_of_ne_zero fun empty => ?_
    exact sound.nonempty definition.first (by simp [tokens]) definition.kind_first_ne_eof
      (Text.size_eq_zero_iff.mp empty)
  have closing : 0 < definition.closing.innerWidth := by
    refine Nat.pos_of_ne_zero fun empty => ?_
    exact sound.nonempty definition.closing (by simp [tokens]) (by simp [definition.isEnd])
      (Text.size_eq_zero_iff.mp empty)
  have firstWidth : definition.first.width = Trivia.runWidth definition.first.leading +
      definition.first.innerWidth + Trivia.runWidth definition.first.trailing := rfl
  have closingWidth : definition.closing.width = Trivia.runWidth definition.closing.leading +
      definition.closing.innerWidth + Trivia.runWidth definition.closing.trailing := rfl
  have within := laminar_regions laminates (offset + definition.first.width)
  rw [sum_width measured, ← definition.middle_eq] at within
  have inside := definition.regions_children bodyExtent offset
  rw [← parts] at inside
  rw [inside]
  exact ⟨_, _, within, by omega, by omega, by omega, by omega, by omega⟩

theorem regions_node
    (offset : Nat)
    (kind : Kind)
    (extent : Extent)
    (children : List Element) :
    regions offset [.node kind extent children] =
      (Region.ofNode? ⟨offset, kind, extent, children⟩).toList ++ regions offset children := by
  rw [regions, allNodes, nodes, allNodes, List.append_nil, List.filterMap_cons]
  cases Region.ofNode? ⟨offset, kind, extent, children⟩ with
  | none => rfl
  | some region => rfl

/--
The regions of a sound element lie in it, and those of its children lie in them.  Knowing this
of the children of a body is what keeps the regions in a definition off its own `end`.
-/
theorem laminates_of_sound (element : Element) :
    element.Sound → element.Laminates ∧
      ∀ kind extent children, element = .node kind extent children →
        ∀ child ∈ children, child.Laminates := by
  -- a definition needs its grandchildren in the body, so the claim is made for children too
  induction element using Element.induct with
  | token inner =>
      intro _
      refine ⟨fun offset => ?_, by simp⟩
      rw [regions_token]
      exact .nil _ _
  | node kind extent children ih =>
      intro sound
      have below : ∀ child ∈ children, child.Laminates :=
        fun child member => (ih child member (sound.children child member)).1
      refine ⟨fun offset => ?_, fun _ _ _ same => by cases same; exact below⟩
      rw [regions_node]
      cases found : Region.ofNode? ⟨offset, kind, extent, children⟩ with
      | none =>
          rw [sound.measured.eq_branch, width_branch]
          exact laminar_regions below offset
      | some region =>
          obtain ⟨_, _, within, opens, before, between, behind, closes⟩ :=
            exists_laminar_between sound found below fun kind extent inside member =>
              (ih _ member (sound.children _ member)).2 kind extent inside rfl
          exact within.around opens before between behind closes

end Element

theorem Chunk.sound_root {text : Text} (chunk : Chunk text) : chunk.root.Sound := by
  refine ⟨chunk.measured_root, chunk.formed, fun token member notEnd => ?_⟩
  rw [chunk.tokens_root] at member
  exact (significant_of_mem_tokenize member notEnd).text

/-- The regions of a text are those of the root of its chunk. -/
theorem foldRegions_eq_regions
    {text : Text}
    {chunk : Chunk text}
    (roots : (parse text).tree.roots = [chunk.root]) :
    foldRegions text = Element.regions 0 [chunk.root] := by
  rw [foldRegions_eq roots, Element.regions, Element.allNodes, Element.allNodes, List.append_nil]

/--
The regions of a text form a strict laminar family: each one starts before those listed behind
it, and is disjoint from them or properly encloses them.  No two share a start or a stop.
-/
theorem foldRegions_laminar (text : Text) :
    (foldRegions text).Pairwise Region.Precedes ∧
      ((foldRegions text).map fun region => region.span.start).Nodup ∧
      ((foldRegions text).map fun region => region.span.stop).Nodup := by
  obtain ⟨chunk, roots, _⟩ := exists_chunk text
  obtain ⟨inside, ordered⟩ := (Element.laminates_of_sound chunk.root chunk.sound_root).1 0
  rw [foldRegions_eq_regions roots]
  refine ⟨ordered, List.pairwise_map.mpr ?_, List.pairwise_map.mpr ?_⟩
  · exact ordered.imp fun precedes => Nat.ne_of_lt precedes.1
  · refine ordered.imp_of_mem fun _ second precedes => ?_
    have bounds := inside _ second
    rcases precedes.2 with disjoint | enclosed
    · omega
    · omega

end LuaFold
