import LuaFold.Parse
import LuaFold.Proofs.Grammar.Chunk
import LuaFold.Proofs.Token.Coverage
import LuaFold.Proofs.Tree.Rebuild

/-!
# Parsing keeps the text

For every text the grammar forms one chunk, and its actions put the tokens of the text into one
measured element, each of them once and in order.  The log of these actions is written and
replayed without a failure, and the calls that it makes are accepted over the text.
-/

namespace LuaFold

open Grammar

/-- The kinds of the tokens of a text end with the end of the text, which is nowhere else. -/
theorem map_kind_tokenize (text : Text) :
    ∃ kinds, (tokenize text).map Token.kind = kinds ++ [.eof] ∧ Kind.eof ∉ kinds := by
  obtain ⟨inner, leading, all, significant⟩ := tokenize_eq text
  refine ⟨inner.map Token.kind, by simp [all, Token.endOfText], ?_⟩
  intro member
  obtain ⟨token, inside, isEnd⟩ := List.mem_map.mp member
  exact (significant token inside).kind_ne_eof isEnd

/-- The actions decided on over the tokens of a text. -/
def actionsOf (text : Text) : List Action :=
  (run ((tokenize text).map Token.kind)).1

/-- What a text is parsed into: a formed chunk over all of its tokens. -/
structure Chunk (text : Text) where
  statements : List Element
  ending : Token
  isEnd : ending.kind = .eof
  formed : (Element.branch .chunk [.branch .block statements, .token ending]).shape.Formed
  measured : ∀ statement ∈ statements, statement.Measured
  tokens : statements.flatMap Element.tokens ++ [ending] = tokenize text

namespace Chunk

variable {text : Text}

/-- The root of the tree of a chunk. -/
def root (chunk : Chunk text) : Element :=
  .branch .chunk [.branch .block chunk.statements, .token chunk.ending]

theorem tokens_root (chunk : Chunk text) : chunk.root.tokens = tokenize text := by
  simp [root, Element.branch, chunk.tokens]

theorem measured_children (chunk : Chunk text) :
    ∀ child ∈ [Element.branch .block chunk.statements, .token chunk.ending], child.Measured := by
  intro child member
  rcases List.mem_cons.mp member with rfl | last
  · exact .node .block chunk.measured
  · rw [List.mem_singleton.mp last]
    exact .token chunk.ending

theorem measured_root (chunk : Chunk text) : chunk.root.Measured :=
  .node .chunk chunk.measured_children

/-- The calls of a chunk build it over the text, without the faults in its tokens. -/
theorem build_calls (chunk : Chunk text) :
    SyntaxTree.build text chunk.root.calls = .ok ⟨[chunk.root.bare]⟩ := by
  have built : SyntaxTree.build (chunk.root.tokens.flatMap Token.fullText) chunk.root.calls =
      .ok ⟨[chunk.root.bare]⟩ := SyntaxTree.build_calls chunk.measured_children
  rwa [chunk.tokens_root, flatMap_fullText_tokenize] at built

/-- The last token of a text is its end, and no other token is. -/
theorem tokenize_eq (chunk : Chunk text) :
    ∃ inner, tokenize text = inner ++ [chunk.ending] ∧ ∀ token ∈ inner, token.kind ≠ .eof := by
  obtain ⟨inner, leading, all, significant⟩ := LuaFold.tokenize_eq text
  have same := chunk.tokens.trans all
  obtain ⟨_, last⟩ := List.append_inj' same rfl
  rw [List.singleton_inj.mp last]
  exact ⟨inner, all, fun token member => (significant token member).kind_ne_eof⟩

end Chunk

/-- Every text is parsed into a chunk, and its actions form the root of this chunk. -/
theorem exists_chunk (text : Text) :
    ∃ chunk : Chunk text, (parse text).tree.roots = [chunk.root] ∧
      Action.Forms (actionsOf text) chunk.root.shape := by
  obtain ⟨kinds, tokenKinds, absent⟩ := map_kind_tokenize text
  obtain ⟨block, forms, formed, leaves, _⟩ := run_forms absent
  rw [← tokenKinds] at forms leaves
  obtain ⟨root, filled, performed⟩ := forms.assembles (tokenize text) leaves.symm
  have rootShape : root.shape = .node .chunk [.node .block block, .leaf .eof] := by
    simpa using filled.shapes_eq
  have measured : root.Measured := by simpa using filled.measured
  have tokens : root.tokens = tokenize text := by simpa using filled.tokens_eq
  have assembled : (parse text).tree.roots = [root] := by
    have whole := performed [] [] []
    rw [List.append_nil] at whole
    exact congrArg Assembly.roots whole
  obtain ⟨_, _, rfl, shapes⟩ := Element.shape_eq_node.mp rootShape
  obtain ⟨first, _, rfl, firstShape, shapes⟩ := List.map_eq_cons_iff.mp shapes
  obtain ⟨last, rfl, lastShape⟩ := List.map_eq_singleton_iff.mp shapes
  obtain ⟨_, statements, rfl, _⟩ := Element.shape_eq_node.mp firstShape
  obtain ⟨ending, rfl, isEnd⟩ := Element.shape_eq_leaf.mp lastShape
  have measuredBlock : (Element.node .block _ statements).Measured :=
    measured.children _ List.mem_cons_self
  rw [measured.eq_branch, measuredBlock.eq_branch] at rootShape assembled
  refine ⟨⟨statements, ending, isEnd, rootShape ▸ formed, measuredBlock.children, ?_⟩,
    assembled, rootShape ▸ forms⟩
  simpa using tokens

/-- Faults of the syntax stand at tokens. -/
theorem fault_lt_length (text : Text) :
    ∀ fault ∈ (parse text).faults, fault.2 < (tokenize text).length := by
  obtain ⟨kinds, tokenKinds, absent⟩ := map_kind_tokenize text
  obtain ⟨_, _, _, _, placed⟩ := run_forms absent
  rw [← tokenKinds, List.length_map] at placed
  exact placed

/-- The log of a chunk is written and replays to the calls of its tree. -/
theorem exists_log
    {text : Text}
    (chunk : Chunk text)
    (forms : Action.Forms (actionsOf text) chunk.root.shape) :
    ∃ events completed?, EventLog.new.performAll (actionsOf text) =
        some ⟨events, (tokenize text).length, [], completed?⟩ ∧
      Event.replay (tokenize text) events = some chunk.root.calls := by
  have stand : chunk.root.tokens <+: (tokenize text).drop 0 := by
    rw [chunk.tokens_root, List.drop_zero]
  obtain ⟨before, kind, after, links, logged⟩ := forms.logs chunk.root rfl 0 stand
  refine ⟨before ++ .start kind none :: after, some before.length, ?_, ?_⟩
  · have written := logged .new rfl
    rw [chunk.tokens_root] at written
    simpa [EventLog.new] using written
  · have replayed := links.replays []
    simpa [Event.replay] using replayed

/--
Parsing keeps every text.  The block of the text stops at the end of the text and faults stand
at tokens; the log of the parse closes every node and replays to calls that are accepted over
the text.  The tokens of the tree are the tokens of the text, where they stand in it, and the
tree is one chunk of a block and the end of the text.
-/
theorem parse_lossless (text : Text) :
    (blockOf ((tokenize text).map Token.kind)).ahead = [.eof] ∧
      (∀ fault ∈ (parse text).faults, fault.2 < (tokenize text).length) ∧
      (∃ log,
        EventLog.new.performAll (actionsOf text) = some log ∧
        log.opened = [] ∧
        Event.replay (tokenize text) log.events = some (parse text).tree.calls) ∧
      SyntaxTree.build text (parse text).tree.calls = .ok (parse text).tree.bare ∧
      (parse text).tree.tokens = Token.layOut (tokenize text) ∧
      (parse text).tree.text = text ∧
      ∃ statements inner ending,
        tokenize text = inner ++ [ending] ∧
        ending.kind = .eof ∧
        (∀ token ∈ inner, token.kind ≠ .eof) ∧
        (parse text).tree.roots =
          [.branch .chunk [.branch .block statements, .token ending]] := by
  obtain ⟨chunk, roots, forms⟩ := exists_chunk text
  have tokens : (parse text).tree.tokens = Token.layOut (tokenize text) := by
    rw [SyntaxTree.tokens_eq_layOut, roots]
    · simp [chunk.tokens_root]
    · rw [roots]
      simpa using chunk.measured_root
  have calls : (parse text).tree.calls = chunk.root.calls := by
    simp [SyntaxTree.calls_eq, roots]
  refine ⟨?_, fault_lt_length text, ?_, ?_, tokens, ?_, ?_⟩
  · obtain ⟨kinds, tokenKinds, absent⟩ := map_kind_tokenize text
    rw [tokenKinds]
    exact ahead_blockOf absent
  · obtain ⟨events, completed, written, replayed⟩ := exists_log chunk forms
    exact ⟨_, written, rfl, calls ▸ replayed⟩
  · rw [calls, SyntaxTree.bare, roots]
    exact chunk.build_calls
  · rw [SyntaxTree.text, tokens]
    exact (Text.flatMap_layOut _ _ _ _).trans (flatMap_fullText_tokenize text)
  · obtain ⟨inner, all, others⟩ := chunk.tokenize_eq
    exact ⟨chunk.statements, inner, chunk.ending, all, chunk.isEnd, others, roots⟩

end LuaFold
