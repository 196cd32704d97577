import LuaFold.Proofs.Fold.Landmark

/-!
# Formatting does not change the parse

Two texts that differ only in their blank space, line breaks and comments have tokens that are
spelled alike.  The grammar sees their kinds and nothing else, so it decides on the same actions
and reports the same faults at the same tokens.  The trees are the same without formatting, and
regions run between the same tokens under the same names.
-/

namespace LuaFold

variable {first second : Text}

/-- Texts spelled alike have the same tree up to formatting. -/
theorem map_plain_roots
    (same : (tokenize first).map Token.spelling = (tokenize second).map Token.spelling) :
    (parse first).tree.roots.map Element.plain = (parse second).tree.roots.map Element.plain := by
  show (Action.assemble (actionsOf first) (tokenize first)).map Element.plain =
    (Action.assemble (actionsOf second) (tokenize second)).map Element.plain
  rw [← Action.assemble_plain, ← Action.assemble_plain, actionsOf, actionsOf,
    Token.map_kind_of_spelling same, Token.map_plain_of_spelling same]

/-- Texts spelled alike have the same faults at the same tokens. -/
theorem faults_of_spelling
    (same : (tokenize first).map Token.spelling = (tokenize second).map Token.spelling) :
    (parse first).faults = (parse second).faults := by
  show (Grammar.run ((tokenize first).map Token.kind)).2 =
    (Grammar.run ((tokenize second).map Token.kind)).2
  rw [Token.map_kind_of_spelling same]

/-- The landmarks of the tree of a text. -/
def landmarksOf (text : Text) : List Landmark :=
  Element.allLandmarks 0 (parse text).tree.roots

/-- The regions of a text are those between its landmarks. -/
theorem foldRegions_eq_map_region (text : Text) :
    foldRegions text = (landmarksOf text).map (Landmark.region (parse text).tokenSpans) ∧
      ∀ mark ∈ landmarksOf text, mark.first < mark.last ∧
        mark.last < (tokenize text).length := by
  obtain ⟨chunk, roots, _⟩ := exists_chunk text
  have marks := Element.marks_nodes (tokenize text) [] [] chunk.root chunk.measured_root
    chunk.formed (by simp [chunk.tokens_root])
  have all : landmarksOf text = chunk.root.landmarks 0 := by
    simp [landmarksOf, roots, Element.allLandmarks]
  rw [foldRegions_eq roots, all]
  exact ⟨marks.regions, marks.bounds⟩

theorem landmarksOf_eq
    (same : (tokenize first).map Token.spelling = (tokenize second).map Token.spelling) :
    landmarksOf first = landmarksOf second := by
  rw [landmarksOf, landmarksOf, ← Element.allLandmarks_plain, map_plain_roots same,
    Element.allLandmarks_plain]

/--
Two texts are parsed alike: they have the same tree up to formatting; the diagnostics of their
syntax have the same messages at the same tokens, in the same order; and their regions have the
same names and run between the same tokens.
-/
structure ParsedAlike (first second : Text) : Prop where
  tree : (parse first).tree.roots.map Element.plain = (parse second).tree.roots.map Element.plain
  diagnostics : ∃ faults : List (SyntaxFault × Nat),
    (∀ fault ∈ faults,
      fault.2 < (tokenize first).length ∧ fault.2 < (tokenize second).length) ∧
    (parse first).syntaxDiagnostics = faults.map (fun (fault, index) =>
      ⟨fault.message, (parse first).tokenSpans.getD index (.empty 0)⟩) ∧
    (parse second).syntaxDiagnostics = faults.map (fun (fault, index) =>
      ⟨fault.message, (parse second).tokenSpans.getD index (.empty 0)⟩)
  regions : ∃ marks : List Landmark,
    (∀ mark ∈ marks, mark.first < mark.last ∧
      mark.last < (tokenize first).length ∧ mark.last < (tokenize second).length) ∧
    foldRegions first = marks.map (Landmark.region (parse first).tokenSpans) ∧
    foldRegions second = marks.map (Landmark.region (parse second).tokenSpans)

/-- Texts whose tokens are spelled alike are parsed alike, whatever their formatting. -/
theorem parsedAlike_of_spelling
    (same : (tokenize first).map Token.spelling = (tokenize second).map Token.spelling) :
    ParsedAlike first second := by
  have lengths : (tokenize first).length = (tokenize second).length := by
    simpa using congrArg List.length same
  refine ⟨map_plain_roots same, ⟨(parse first).faults, ?_, rfl, ?_⟩, landmarksOf first, ?_, ?_, ?_⟩
  · intro fault member
    have bound := fault_lt_length first fault member
    exact ⟨bound, lengths ▸ bound⟩
  · rw [faults_of_spelling same]
    rfl
  · intro mark member
    obtain ⟨forward, bound⟩ := (foldRegions_eq_map_region first).2 mark member
    exact ⟨forward, bound, lengths ▸ bound⟩
  · exact (foldRegions_eq_map_region first).1
  · rw [landmarksOf_eq same]
    exact (foldRegions_eq_map_region second).1

theorem parsedAlike_of_spelling_commented :
    let plain := "function a.b(c) return ( end x = ".toList
    let formatted := "--[[ two\nlines ]] function a . b(c)\n\treturn ( end -- broken\nx= ".toList
    (tokenize plain).map Token.spelling = (tokenize formatted).map Token.spelling ∧
      ParsedAlike plain formatted := by
  intro plain formatted
  have same : (tokenize plain).map Token.spelling = (tokenize formatted).map Token.spelling := by
    decide +kernel
  exact ⟨same, parsedAlike_of_spelling same⟩

end LuaFold
