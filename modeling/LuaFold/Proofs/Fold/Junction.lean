import LuaFold.Proofs.Fold.Formatting
import LuaFold.Proofs.Grammar.Abreast.Chunk
import LuaFold.Proofs.Parse.Nesting
import LuaFold.Proofs.Token.Junction

/-!
# Regions and diagnostics of joined texts

A text without diagnostics is parsed on its own, whatever stands behind it in another line, behind
a semicolon.  The elements of its statements are those of the whole, except for the semicolon; the
elements of the other text follow, up to formatting.  So the regions of both texts are those of the
whole, the latter further on, and so are the diagnostics of the other text.
-/

namespace LuaFold

open Grammar

/-! ## Landmarks further on -/

/-- The same landmark, a number of tokens further on. -/
def Landmark.shift (mark : Landmark) (distance : Nat) : Landmark :=
  ⟨mark.name, mark.first + distance, mark.last + distance⟩

/-- Only a definition has a landmark. -/
theorem Node.landmark?_of_ofKind?
    {node : Node}
    (undefined : DefinitionForm.ofKind? node.kind = none)
    (index : Nat) :
    node.landmark? index = none := by
  simp [landmark?, title?, Region.ofNode?, FunctionDefinition.ofNode?, undefined]

theorem Node.landmark?_shift
    (node : Node)
    (formed : node.element.shape.Formed)
    (index distance : Nat) :
    node.landmark? (index + distance) = (node.landmark? index).map (·.shift distance) := by
  cases found : Region.ofNode? node with
  | none => simp [landmark?, title?, found]
  | some region =>
      obtain ⟨definition, _, _, children, _⟩ := exists_closedDefinition formed found
      simp only [landmark?, title?, found, definition.tokens_element children, Landmark.shift,
        List.length_cons, Option.map_some, Option.some.injEq, Landmark.mk.injEq, true_and]
      omega

namespace Element

mutual

theorem landmarks_shift (index distance : Nat) :
    (element : Element) → element.shape.Formed →
      element.landmarks (index + distance) =
        (element.landmarks index).map (·.shift distance)
  | .token inner, _ => by simp [landmarks]
  | .node kind extent children, formed => by
      have here := Node.landmark?_shift ⟨0, kind, extent, children⟩ formed index distance
      have below := allLandmarks_shift index distance children (formed_children formed)
      rw [landmarks, landmarks, here, below, List.map_append]
      cases Node.landmark? ⟨0, kind, extent, children⟩ index <;> rfl

theorem allLandmarks_shift (index distance : Nat) :
    (elements : List Element) → (∀ element ∈ elements, element.shape.Formed) →
      allLandmarks (index + distance) elements =
        (allLandmarks index elements).map (·.shift distance)
  | [], _ => rfl
  | first :: rest, formed => by
      have here := landmarks_shift index distance first (formed first (by simp))
      have there := allLandmarks_shift (index + first.tokens.length) distance rest
        fun element member => formed element (by simp [member])
      rw [Nat.add_right_comm] at there
      rw [allLandmarks, allLandmarks, here, there, List.map_append]

end

theorem allLandmarks_append
    (index : Nat)
    (before behind : List Element) :
    allLandmarks index (before ++ behind) =
      allLandmarks index before ++
        allLandmarks (index + (before.flatMap tokens).length) behind := by
  induction before generalizing index with
  | nil => simp [allLandmarks]
  | cons first rest ih => simp [allLandmarks, ih, Nat.add_assoc]

/-- A node that is no definition has the landmarks of its children. -/
theorem allLandmarks_branch
    {kind : Kind}
    (undefined : DefinitionForm.ofKind? kind = none)
    (index : Nat)
    (children : List Element) :
    allLandmarks index [.branch kind children] = allLandmarks index children := by
  simp [allLandmarks, branch, landmarks, Node.landmark?_of_ofKind?, undefined]

/-- A token has no landmark. -/
theorem allLandmarks_token
    (index : Nat)
    (inner : Token) :
    allLandmarks index [.token inner] = [] := by
  simp [allLandmarks, landmarks]

/-- A chunk has the landmarks of its statements. -/
theorem allLandmarks_chunk
    (statements : List Element)
    (ending : Token) :
    allLandmarks 0 [.branch .chunk [.branch .block statements, .token ending]] =
      allLandmarks 0 statements := by
  have split : [branch .block statements, .token ending] =
      [branch .block statements] ++ [.token ending] := rfl
  rw [allLandmarks_branch rfl, split, allLandmarks_append, allLandmarks_branch rfl,
    allLandmarks_token, List.append_nil]

end Element

/-! ## Statements of a chunk -/

namespace Action

/-- Performing a word over tokens puts elements into the empty block of a chunk. -/
def Fills (word : List Action) (taken : List Token) (elements : List Element) : Prop :=
  ∀ rest, Assembly.performAll ⟨taken ++ rest, [[], [], []]⟩ word =
    ⟨rest, [elements.reverse, [], []]⟩

theorem Assembles.fills
    {word : List Action}
    {taken : List Token}
    {elements : List Element}
    (assembles : Assembles word taken elements) :
    Fills word taken elements := by
  intro rest
  rw [assembles, List.append_nil]

theorem Fills.append
    {first second : List Action}
    {taken more : List Token}
    {elements others : List Element}
    (before : Fills first taken elements)
    (behind : Assembles second more others) :
    Fills (first ++ second) (taken ++ more) (elements ++ others) := by
  intro rest
  rw [Assembly.performAll_append, List.append_assoc, before, behind, List.reverse_append]

/-- The actions of a chunk put a block of its statements and the end of the text together. -/
theorem Fills.assemble
    {word : List Action}
    {taken : List Token}
    {elements : List Element}
    (fills : Fills word taken elements)
    (ending : Token) :
    Action.assemble (chunkActions word) (taken ++ [ending]) =
      [.branch .chunk [.branch .block elements, .token ending]] := by
  rw [Action.assemble, chunkActions, Assembly.new, Assembly.performAll_cons,
    Assembly.performAll_cons, Assembly.performAll_append]
  simp only [Assembly.perform]
  rw [fills [ending]]
  simp [Assembly.perform, Assembly.roots]

/-- Before a node is completed it is open, with its children. -/
theorem perform_complete_eq
    {kind : Kind}
    {assembly : Assembly}
    {tokens : List Token}
    {frame other : List Element}
    {frames : List (List Element)}
    (performed : assembly.perform (.complete kind) = ⟨tokens, frame :: other :: frames⟩) :
    ∃ inner outer, assembly = ⟨tokens, inner :: outer :: other :: frames⟩ ∧
      frame = .branch kind inner.reverse :: outer := by
  obtain ⟨ahead, opened⟩ := assembly
  match opened with
  | [] | [_] => simp [Assembly.perform] at performed
  | inner :: outer :: others =>
    simp only [Assembly.perform, Assembly.mk.injEq, List.cons.injEq] at performed
    obtain ⟨rfl, rfl, rfl⟩ := performed
    exact ⟨inner, outer, rfl, rfl⟩

/-- A node that is completed one token later holds this token too. -/
theorem Fills.later
    {word : List Action}
    {kind : Kind}
    {taken : List Token}
    {elements : List Element}
    (fills : Fills (word ++ [.complete kind]) taken elements)
    (token : Token) :
    ∃ before children, elements = before ++ [.branch kind children] ∧
      Fills (word ++ [.advance, .complete kind]) (taken ++ [token])
        (before ++ [.branch kind (children ++ [.token token])]) := by
  have opened (rest : List Token) : ∃ inner outer,
      Assembly.performAll ⟨taken ++ rest, [[], [], []]⟩ word =
        ⟨rest, inner :: outer :: [[], []]⟩ ∧
      elements.reverse = .branch kind inner.reverse :: outer := by
    have performed := fills rest
    rw [Assembly.performAll_append] at performed
    exact perform_complete_eq performed
  obtain ⟨inner, outer, _, last⟩ := opened []
  refine ⟨outer.reverse, inner.reverse, ?_, fun rest => ?_⟩
  · rw [← List.reverse_reverse elements, last, List.reverse_cons]
  · -- which node is open does not depend on the tokens behind
    obtain ⟨innerHere, outerHere, performed, lastHere⟩ := opened (token :: rest)
    rw [last, List.cons.injEq, Element.branch_inj, List.reverse_inj] at lastHere
    obtain ⟨⟨_, rfl⟩, rfl⟩ := lastHere
    rw [Assembly.performAll_append, List.append_assoc, List.singleton_append, performed]
    simp [Assembly.perform]

/-- The semicolon behind the statements of a text leaves their landmarks alone. -/
theorem Fills.continues
    {word joined : List Action}
    {taken : List Token}
    {elements : List Element}
    (fills : Fills word taken elements)
    (continues : Continues word joined)
    (token : Token) :
    ∃ others, Fills joined (taken ++ [token]) others ∧
      others.flatMap Element.tokens = elements.flatMap Element.tokens ++ [token] ∧
      ∀ index, Element.allLandmarks index others = Element.allLandmarks index elements := by
  cases continues with
  | statement =>
      refine ⟨elements ++ [.branch .emptyStmt [.token token]], fills.append ?_, ?_, fun index => ?_⟩
      · intro rest frame frames
        simp [Assembly.perform]
      · simp [Element.branch]
      · rw [Element.allLandmarks_append, Element.allLandmarks_branch rfl,
          Element.allLandmarks_token, List.append_nil]
  | returned word =>
      obtain ⟨before, children, rfl, filled⟩ := fills.later token
      refine ⟨_, filled, ?_, fun index => ?_⟩
      · simp [Element.branch]
      · rw [Element.allLandmarks_append, Element.allLandmarks_append,
          Element.allLandmarks_branch rfl, Element.allLandmarks_branch rfl,
          Element.allLandmarks_append, Element.allLandmarks_token, List.append_nil]

end Action

/-- The statements of a text, put together from its tokens without formatting. -/
structure Body (text : Text) where
  kinds : List Kind
  inner : List Token
  last : List Trivia
  elements : List Element
  tokens_eq : tokenize text = inner ++ [.endOfText last]
  kinds_eq : inner.map Token.kind = kinds
  absent : Kind.eof ∉ kinds
  assembles : Action.Assembles (bodyOf kinds).actions.reverse (inner.map Token.plain) elements
  tokens_elements : elements.flatMap Element.tokens = inner.map Token.plain
  measured : ∀ element ∈ elements, element.Measured
  formed : ∀ element ∈ elements, element.shape.Formed

theorem exists_body (text : Text) : Nonempty (Body text) := by
  obtain ⟨inner, last, tokens, significant⟩ := tokenize_eq text
  have absent : Kind.eof ∉ inner.map Token.kind := by
    intro member
    obtain ⟨token, inside, isEnd⟩ := List.mem_map.mp member
    exact (significant token inside).kind_ne_eof isEnd
  obtain ⟨_, _, shapes, builds, formed, leaves⟩ := bodyOf_builds absent
  have kinds : (inner.map Token.plain).map Token.kind = shapes.flatMap Shape.leaves := by
    rw [leaves, List.map_map]
    rfl
  obtain ⟨elements, filled, assembles⟩ := builds.assembles (inner.map Token.plain) kinds
  refine ⟨⟨_, inner, last, elements, tokens, rfl, absent, assembles, filled.tokens_eq,
    filled.measured, fun element member => formed element.shape ?_⟩⟩
  rw [← filled.shapes_eq]
  exact List.mem_map_of_mem member

namespace Body

variable {text : Text} (body : Body text)

theorem map_kind_eq : (tokenize text).map Token.kind = body.kinds ++ [.eof] := by
  rw [body.tokens_eq, List.map_append, body.kinds_eq]
  rfl

theorem faults_eq : (parse text).faults = (bodyOf body.kinds).faults.reverse := by
  show (run ((tokenize text).map Token.kind)).2 = _
  rw [body.map_kind_eq, run_eq_bodyOf body.absent]

/-- The landmarks of a text are those of its statements. -/
theorem landmarksOf_eq : landmarksOf text = Element.allLandmarks 0 body.elements := by
  have roots : (parse text).tree.roots = Action.assemble (actionsOf text) (tokenize text) := rfl
  rw [landmarksOf, ← Element.allLandmarks_plain, roots, ← Action.assemble_plain, actionsOf,
    body.map_kind_eq, run_eq_bodyOf body.absent, body.tokens_eq, List.map_append]
  rw [List.map_singleton, body.assembles.fills.assemble, Element.allLandmarks_chunk]

/-- Landmarks stand at tokens in front of the end of the text. -/
theorem bounds : ∀ mark ∈ landmarksOf text,
    mark.first < body.inner.length ∧ mark.last < body.inner.length := by
  have marks := Element.marks_allNodes (body.inner.map Token.plain) [] [] body.elements
    body.measured body.formed (by simp [body.tokens_elements])
  intro mark member
  rw [body.landmarksOf_eq] at member
  obtain ⟨forward, bound⟩ := marks.bounds mark member
  rw [List.length_map] at bound
  omega

end Body

/-! ## Joined texts -/

namespace Junction

variable {first second : Text} (junction : Junction first second) (front : Body first)
  (back : Body second)

include junction in
theorem inner_eq : junction.inner = front.inner := by
  have tokens := junction.tokens_first.symm.trans front.tokens_eq
  exact (List.append_inj' tokens rfl).1

/-- The tokens of the second text are spelled in the whole as in the text. -/
theorem map_plain_joined :
    (tokenize (first ++ '\n' :: ';' :: second)).map Token.plain =
      front.inner.map Token.plain ++ junction.semicolon.plain ::
        (back.inner.map Token.plain ++ [(Token.endOfText back.last).plain]) := by
  have plain : (junction.token :: junction.others).map Token.plain =
      (tokenize second).map Token.plain := by
    rw [junction.tokens_second]
    rfl
  rw [back.tokens_eq, List.map_append] at plain
  rw [junction.tokens_joined, junction.inner_eq front, List.map_append, List.map_cons, plain]
  rfl

include junction in
theorem map_kind_joined :
    (tokenize (first ++ '\n' :: ';' :: second)).map Token.kind =
      front.kinds ++ .semicolon :: (back.kinds ++ [.eof]) := by
  have kinds (tokens : List Token) :
      (tokens.map Token.plain).map Token.kind = tokens.map Token.kind := by
    rw [List.map_map]
    rfl
  have spelled := congrArg (List.map Token.kind) (junction.map_plain_joined front back)
  rw [kinds, List.map_append, kinds, front.kinds_eq, List.map_cons, List.map_append, kinds,
    back.kinds_eq] at spelled
  exact spelled

section Silent

variable (silent : (parse first).faults = [])

include junction silent

/-- The actions and the faults of joined texts are made of those of both. -/
theorem exists_run_joined :
    ∃ word, Continues (bodyOf front.kinds).actions.reverse word ∧
      actionsOf (first ++ '\n' :: ';' :: second) =
        chunkActions (word ++ (bodyOf back.kinds).actions.reverse) ∧
      (parse (first ++ '\n' :: ';' :: second)).faults =
        (parse second).faults.map (further (front.inner.length + 1)) := by
  have quiet : (bodyOf front.kinds).faults = [] := by
    rwa [front.faults_eq, List.reverse_eq_nil_iff] at silent
  obtain ⟨word, continues, whole⟩ := run_semicolon front.absent back.absent quiet
  have lengths : front.kinds.length = front.inner.length := by
    rw [← front.kinds_eq, List.length_map]
  rw [← junction.map_kind_joined front back, lengths, ← back.faults_eq] at whole
  exact ⟨word, continues, congrArg Prod.fst whole, congrArg Prod.snd whole⟩

include back in
/-- The landmarks of joined texts are those of both. -/
theorem landmarksOf_joined :
    landmarksOf (first ++ '\n' :: ';' :: second) =
      landmarksOf first ++ (landmarksOf second).map (·.shift (front.inner.length + 1)) := by
  obtain ⟨word, continues, actions, _⟩ := junction.exists_run_joined front back silent
  obtain ⟨elements, filled, tokens, same⟩ :=
    front.assembles.fills.continues continues junction.semicolon.plain
  have whole := (filled.append back.assembles).assemble (Token.endOfText back.last).plain
  have taken : (elements.flatMap Element.tokens).length = front.inner.length + 1 := by
    rw [tokens, front.tokens_elements, List.length_append, List.length_map]
    rfl
  have spelled : (tokenize (first ++ '\n' :: ';' :: second)).map Token.plain =
      front.inner.map Token.plain ++ [junction.semicolon.plain] ++ back.inner.map Token.plain ++
        [(Token.endOfText back.last).plain] := by
    rw [junction.map_plain_joined front back]
    simp
  calc
    landmarksOf (first ++ '\n' :: ';' :: second)
        = Element.allLandmarks 0 (Action.assemble (actionsOf (first ++ '\n' :: ';' :: second))
            ((tokenize (first ++ '\n' :: ';' :: second)).map Token.plain)) := by
          rw [Action.assemble_plain, Element.allLandmarks_plain]
          rfl
    _ = Element.allLandmarks 0 (elements ++ back.elements) := by
          rw [actions, spelled, whole, Element.allLandmarks_chunk]
    _ = Element.allLandmarks 0 elements ++
          Element.allLandmarks (0 + (front.inner.length + 1)) back.elements := by
          rw [Element.allLandmarks_append, taken]
    _ = landmarksOf first ++
          (landmarksOf second).map (·.shift (front.inner.length + 1)) := by
          rw [same, Element.allLandmarks_shift _ _ _ back.formed, ← front.landmarksOf_eq,
            ← back.landmarksOf_eq]

end Silent

end Junction

/-- The same region, a number of bytes further on. -/
def Region.shift (region : Region) (distance : Nat) : Region :=
  ⟨region.name, region.span.shift distance⟩

/-- The same diagnostic, a number of bytes further on. -/
def Diagnostic.shift (diagnostic : Diagnostic) (distance : Nat) : Diagnostic :=
  ⟨diagnostic.message, diagnostic.span.shift distance⟩

theorem Diagnostic.sorted_shift
    (diagnostics : List Diagnostic)
    (distance : Nat) :
    Diagnostic.sorted (diagnostics.map (·.shift distance)) =
      (Diagnostic.sorted diagnostics).map (·.shift distance) := by
  refine (List.map_mergeSort fun first _ second _ => ?_).symm
  simp [Diagnostic.shift]

namespace Junction

variable {first second : Text} (junction : Junction first second) (front : Body first)
  (back : Body second)

include junction

/-- The tokens of the first text stand where they stand in it. -/
theorem getD_spans_front
    {index : Nat}
    (inside : index < front.inner.length) :
    (Token.spans (tokenize (first ++ '\n' :: ';' :: second))).getD index (.empty 0) =
      (Token.spans (tokenize first)).getD index (.empty 0) := by
  have length := Text.length_layOut Token.width 0 front.inner
  have alone : Token.layOut (tokenize first) = Text.layOut Token.width 0 front.inner ++
      Text.layOut Token.width (0 + (front.inner.map Token.width).sum) [.endOfText front.last] := by
    rw [front.tokens_eq]
    exact Text.layOut_append _ _ _ _
  rw [Token.getD_spans_eq, Token.getD_spans_eq, junction.spans_joined, junction.inner_eq front,
    alone, List.map_append,
    List.getElem?_append_left (by simpa [length] using inside),
    List.getElem?_append_left (by simpa [length] using inside)]

/-- The tokens of the second text stand further on. -/
theorem getD_spans_back
    {index : Nat}
    (inside : index < (tokenize second).length) :
    (Token.spans (tokenize (first ++ '\n' :: ';' :: second))).getD
        (index + (front.inner.length + 1)) (.empty 0) =
      ((Token.spans (tokenize second)).getD index (.empty 0)).shift (Text.size first + 2) := by
  have length := Text.length_layOut Token.width 0 front.inner
  have stands : index < (Token.layOut (tokenize second)).length := by
    rwa [Token.layOut, Text.length_layOut]
  have beyond : index + (front.inner.length + 1) - front.inner.length = index + 1 := by omega
  rw [Token.getD_spans_eq, Token.getD_spans_eq, junction.spans_joined, junction.inner_eq front,
    List.getElem?_append_right (by rw [List.length_map, length]; omega), List.length_map, length,
    beyond, List.getElem?_cons_succ, List.getElem?_map]
  simp [stands]

include front back

/-- The regions of joined texts are those of both, the latter further on. -/
theorem foldRegions_joined (silent : (parse first).faults = []) :
    foldRegions (first ++ '\n' :: ';' :: second) =
      foldRegions first ++ (foldRegions second).map (·.shift (Text.size first + 2)) := by
  rw [(foldRegions_eq_map_region _).1, (foldRegions_eq_map_region first).1,
    (foldRegions_eq_map_region second).1, junction.landmarksOf_joined front back silent,
    List.map_append, List.map_map, List.map_map]
  congr 1
  · refine List.map_congr_left fun mark member => ?_
    obtain ⟨opening, closing⟩ := front.bounds mark member
    have starts := junction.getD_spans_front front opening
    have stops := junction.getD_spans_front front closing
    exact congrArg₂ (fun start stop => Region.mk mark.name ⟨start.start, stop.stop⟩) starts stops
  · refine List.map_congr_left fun mark member => ?_
    obtain ⟨forward, closing⟩ := (foldRegions_eq_map_region second).2 mark member
    have starts := junction.getD_spans_back front (forward.trans closing)
    have stops := junction.getD_spans_back front closing
    exact congrArg₂ (fun start stop => Region.mk mark.name ⟨start.start, stop.stop⟩) starts stops

/-- The diagnostics of joined texts are those of the second one, further on. -/
theorem diagnostics_joined (silent : (parse first).faults = []) :
    (parse (first ++ '\n' :: ';' :: second)).diagnostics =
      (parse second).diagnostics.map (·.shift (Text.size first + 2)) := by
  obtain ⟨_, _, _, faults⟩ := junction.exists_run_joined front back silent
  have lexical : (parse (first ++ '\n' :: ';' :: second)).lexicalDiagnostics =
      (parse second).lexicalDiagnostics.map (·.shift (Text.size first + 2)) := by
    rw [Parse.lexicalDiagnostics, Parse.lexicalDiagnostics, List.map_map]
    have broken : Token.allFaults (parse (first ++ '\n' :: ';' :: second)).tokens = _ :=
      junction.allFaults_joined
    rw [broken, List.map_map]
    rfl
  have reported : (parse (first ++ '\n' :: ';' :: second)).syntaxDiagnostics =
      (parse second).syntaxDiagnostics.map (·.shift (Text.size first + 2)) := by
    rw [Parse.syntaxDiagnostics, Parse.syntaxDiagnostics, faults, List.map_map, List.map_map]
    refine List.map_congr_left fun fault member => ?_
    have stands := junction.getD_spans_back front (fault_lt_length second fault member)
    exact congrArg (Diagnostic.mk fault.1.message) stands
  rw [Parse.diagnostics, Parse.diagnostics, lexical, reported, ← List.map_append,
    Diagnostic.sorted_shift]

end Junction

/--
A text without diagnostics is parsed apart from whatever follows it in another line, behind a
semicolon: the regions of the whole are its own regions and, further on, those of the other text,
and the diagnostics of the whole are those of the other text, further on, in the same order.
-/
theorem parse_behind_semicolon
    {first second : Text}
    (silent : (parse first).diagnostics = [])
    (unmarked : second.head? ≠ some '#') :
    foldRegions (first ++ '\n' :: ';' :: second) =
        foldRegions first ++ (foldRegions second).map (·.shift (Text.size first + 2)) ∧
      (parse (first ++ '\n' :: ';' :: second)).diagnostics =
        (parse second).diagnostics.map (·.shift (Text.size first + 2)) := by
  obtain ⟨unbroken, faultless⟩ := diagnostics_eq_nil_iff.mp silent
  obtain ⟨junction⟩ := exists_junction (List.map_eq_nil_iff.mp unbroken) unmarked
  obtain ⟨front⟩ := exists_body first
  obtain ⟨back⟩ := exists_body second
  exact ⟨junction.foldRegions_joined front back faultless,
    junction.diagnostics_joined front back faultless⟩

theorem parse_behind_semicolon_return :
    let first := "local function f() end return f -- last".toList
    let second := " --[[ more ]] function g() end x = ".toList
    ((parse first).diagnostics = [] ∧ second.head? ≠ some '#') ∧
      foldRegions (first ++ '\n' :: ';' :: second) =
          foldRegions first ++ (foldRegions second).map (·.shift (Text.size first + 2)) ∧
        (parse (first ++ '\n' :: ';' :: second)).diagnostics =
          (parse second).diagnostics.map (·.shift (Text.size first + 2)) := by
  intro first second
  have silent : (parse first).diagnostics = [] :=
    diagnostics_eq_nil_iff.mpr (by decide +kernel)
  have unmarked : second.head? ≠ some '#' := by decide +kernel
  exact ⟨⟨silent, unmarked⟩, parse_behind_semicolon silent unmarked⟩

end LuaFold
