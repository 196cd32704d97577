import LuaFold.Proofs.Parse.Schema
import LuaFold.Proofs.Token.Grammar

/-!
# The names of regions

Between its keyword and its body a definition holds names, points and colons and nothing else,
however much is missing there and whatever trivia stands between them.  The trivia is no part of
a name, so what a name is written with are the characters of words, points and colons.
-/

namespace LuaFold

namespace Text

/-- A character that the name of a function may be written with. -/
def isNamePart (character : Char) : Bool :=
  isWordPart character || character = '.' || character = ':'

theorem isNamePart_of_isWordPart
    {character : Char}
    (part : isWordPart character = true) :
    isNamePart character = true := by
  simp [isNamePart, part]

end Text

/-- Whether tokens of a kind can stand in the name of a function. -/
def Kind.isSegment (kind : Kind) : Bool :=
  kind = .name || kind = .dot || kind = .colon

namespace Lexeme

theorem isNamePart_of_isSegment
    {first : Char}
    {rest : Text}
    (segment : (read first rest).kind.isSegment = true) :
    ∀ character ∈ (read first rest).cut.taken, Text.isNamePart character = true := by
  revert segment
  refine read_cases (motive := fun lexeme => lexeme.kind.isSegment = true →
    ∀ character ∈ lexeme.cut.taken, Text.isNamePart character = true) ?_ ?_ ?_ ?_ ?_
  · intro _ _ character member
    exact Text.isNamePart_of_isWordPart
      ((Text.maximalRun_longest Text.isWordPart (first :: rest)).inside character member)
  · exact fun _ segment => absurd segment Bool.false_ne_true
  · exact fun _ segment => absurd segment Bool.false_ne_true
  · exact fun _ _ segment => absurd segment Bool.false_ne_true
  · intro _ _ _ _ _ segment
    have marked := Kind.marked_symbol first rest
    generalize (symbol (first :: rest)).kind = kind at marked segment
    generalize (symbol (first :: rest)).cut.taken = taken at marked ⊢
    generalize (symbol (first :: rest)).cut.rest = behind at marked
    cases marked with
    | operator spelled longest =>
        have every : Kind.operators.all (fun entry =>
            !entry.2.isSegment || entry.1.all Text.isNamePart) = true := by decide
        have own := List.all_eq_true.mp every _ (Kind.mem_operators_iff.mpr spelled)
        rw [segment] at own
        exact List.all_eq_true.mp own
    | unknown none => exact absurd segment (by decide)

end Lexeme

/-- The texts of names, points and colons. -/
theorem Token.isNamePart_of_isSegment
    {text : Text}
    {token : Token}
    (member : token ∈ tokenize text)
    (segment : token.kind.isSegment = true) :
    ∀ character ∈ token.text, Text.isNamePart character = true := by
  have significant : token.kind ≠ .eof := by
    rintro same
    rw [same] at segment
    exact absurd segment (by decide)
  obtain ⟨offset, listed⟩ := Text.exists_mem_layOut Token.width 0 member
  obtain ⟨_, first, rest, _, _, recognised⟩ := Token.exists_recognised listed significant
  rw [recognised.kind] at segment
  rw [recognised.text]
  exact Lexeme.isNamePart_of_isSegment segment

/-- The tokens of a dotted name. -/
theorem Element.isSegment_of_funcName
    {extent : Extent}
    {parts : List Element}
    (formed : (node .funcName extent parts).shape.Formed) :
    ∀ inner ∈ (node .funcName extent parts).tokens, inner.kind.isSegment = true := by
  have node : Node.Typed ⟨0, .funcName, extent, parts⟩ := Node.typed_of_formed formed
  have typed := node.funcName rfl
  obtain ⟨tokens, rfl⟩ := eq_map_token fun kind member =>
    Form.holds_funcName _ (map_slot_mem_form formed) kind member
  intro inner member
  have inside : inner ∈ tokens := by simpa [List.flatMap_map] using member
  have slot := typed.1 (.token inner.kind)
    (List.mem_map.mpr ⟨.token inner, List.mem_map_of_mem inside, slot_eq_token.mpr ⟨_, rfl, rfl⟩⟩)
  simpa [Kind.isSegment, or_assoc] using slot

/-- What stands for the name of a definition holds names, points and colons only. -/
theorem Outlined.isSegment
    {form : DefinitionForm}
    {node : Node}
    {front : Option Token}
    {keyword : Token}
    {name : List Element}
    {extent : Extent}
    {body : List Element}
    (outlined : Outlined form node front keyword name extent body)
    (formed : node.element.shape.Formed) :
    ∀ inner ∈ name.flatMap Element.tokens, inner.kind.isSegment = true := by
  have children := outlined.children
  have isName := outlined.isName
  cases form with
  | statement =>
      rcases isName with rfl | ⟨nameExtent, parts, rfl⟩
      · simp
      · have formedName : (Element.node .funcName nameExtent parts).shape.Formed :=
          Element.formed_children formed _ (by simp [children])
        simpa using Element.isSegment_of_funcName formedName
  | localStatement =>
      rcases isName with rfl | ⟨inner, rfl, isName⟩
      · simp
      · simp [Kind.isSegment, isName]
  | expression =>
      subst isName
      simp

/-- A region is named by names, points and colons, without any trivia between them. -/
theorem isNamePart_of_mem_foldRegions
    {text : Text}
    {region : Region}
    (member : region ∈ foldRegions text) :
    ∀ character ∈ region.name.toList, Text.isNamePart character = true := by
  obtain ⟨chunk, roots, _⟩ := exists_chunk text
  rw [foldRegions_eq roots] at member
  obtain ⟨node, inTree, found⟩ := List.mem_filterMap.mp member
  obtain ⟨_, formed, before, behind, tokens, _⟩ :=
    chunk.root.stands_of_mem_nodes 0 chunk.measured_root chunk.formed node inTree
  obtain ⟨definition, isDefinition, isRegion⟩ := Option.bind_eq_some_iff.mp found
  obtain ⟨form, defines, rfl⟩ := Option.map_eq_some_iff.mp isDefinition
  obtain ⟨front, keyword, name, extent, body, outlined⟩ := exists_outlined formed defines
  have named : region.name = String.ofList ((name.flatMap Element.tokens).flatMap Token.text) := by
    rw [Region.ofDefinition?, Option.ite_none_right_eq_some] at isRegion
    rw [← outlined.name?_eq formed, ← Option.some.inj isRegion.2]
  intro character inName
  rw [named, String.toList_ofList] at inName
  obtain ⟨inner, inside, written⟩ := List.mem_flatMap.mp inName
  have inNode : inner ∈ node.element.tokens := by
    refine (Element.tokens_node _ _ _).symm ▸ List.mem_flatMap.mpr ?_
    obtain ⟨part, inParts, inPart⟩ := List.mem_flatMap.mp inside
    exact ⟨part, by simp [outlined.children, inParts], inPart⟩
  have inText : inner ∈ tokenize text := by
    rw [← chunk.tokens_root, tokens]
    simp [inNode]
  exact Token.isNamePart_of_isSegment inText (outlined.isSegment formed inner inside) character
    written

end LuaFold
