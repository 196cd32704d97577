import LuaFold.Proofs.Grammar.EventLog
import LuaFold.Proofs.Grammar.Ledger.Statement
import LuaFold.Proofs.Parse.Lossless
import LuaFold.Proofs.Token.Scanner
import LuaFold.Proofs.Token.Stretch
import LuaFold.Proofs.Tree.Narrowing
import LuaFold.Proofs.Tree.Remembered
import Mathlib.Algebra.Order.BigOperators.Group.List

/-!
# Numbers on the way to a tree

Every stretch of a text but its end takes a byte, so a text has no more tokens and trivia pieces
than bytes, up to one.  The log of a text has at most nine events for each token at every moment,
and it is replayed to no more calls than that.  So the length of a text alone tells that every
number fits that is made narrow on the way from its tokens to its arena, and that places of 32 bits
are enough for it.
-/

namespace LuaFold

/-! ## Stretches and tokens of a text -/

/-- No trivia piece of a text is empty. -/
theorem width_pos_ofTrivia
    {text : Text}
    {token : Token}
    (member : token ∈ tokenize text)
    {piece : Trivia}
    (around : piece ∈ token.leading ++ token.trailing) :
    0 < (Stretch.ofTrivia piece).width :=
  Text.size_pos ((Scanner.all_new text).2.1.nonempty piece (List.mem_flatMap_of_mem member around))

/-- The stretches of a significant token take a byte each. -/
theorem width_pos_of_mem_stretches
    {text : Text}
    {token : Token}
    (member : token ∈ tokenize text)
    (significant : token.Significant)
    {stretch : Stretch}
    (inside : stretch ∈ token.stretches) :
    0 < stretch.width := by
  rw [Token.stretches, List.mem_append, List.mem_cons, List.mem_map, List.mem_map] at inside
  rcases inside with ⟨piece, leads, rfl⟩ | rfl | ⟨piece, trails, rfl⟩
  · exact width_pos_ofTrivia member (List.mem_append_left _ leads)
  · exact Text.size_pos significant.text
  · exact width_pos_ofTrivia member (List.mem_append_right _ trails)

/-- The stretches of a text take all of its bytes. -/
theorem sum_width_stretches_tokenize (text : Text) :
    (((tokenize text).flatMap Token.stretches).map Stretch.width).sum = Text.size text := by
  have each : ∀ tokens : List Token, ((tokens.flatMap Token.stretches).map Stretch.width).sum =
      (tokens.map Token.width).sum := by
    intro tokens
    induction tokens with
    | nil => rfl
    | cons token rest ih => simp [ih, Token.sum_width_stretches]
  rw [each, Token.sum_width, flatMap_fullText_tokenize]

/-- A text has no more stretches than bytes, except for its end. -/
theorem length_stretches_tokenize_le (text : Text) :
    ((tokenize text).flatMap Token.stretches).length ≤ Text.size text + 1 := by
  obtain ⟨inner, leading, all, significant⟩ := tokenize_eq text
  have split : (tokenize text).flatMap Token.stretches =
      inner.flatMap Token.stretches ++ leading.map Stretch.ofTrivia ++
        [.ofToken (Token.endOfText leading)] := by
    simp [all, Token.stretches, Token.endOfText]
  have filled : ∀ stretch ∈ inner.flatMap Token.stretches ++ leading.map Stretch.ofTrivia,
      0 < stretch.width := by
    intro stretch member
    rcases List.mem_append.mp member with early | late
    · obtain ⟨token, isInner, inside⟩ := List.mem_flatMap.mp early
      have isToken : token ∈ tokenize text := all ▸ List.mem_append_left _ isInner
      exact width_pos_of_mem_stretches isToken (significant token isInner) inside
    · obtain ⟨piece, leads, rfl⟩ := List.mem_map.mp late
      have isEnd : Token.endOfText leading ∈ tokenize text :=
        all ▸ List.mem_append_right _ (.head _)
      exact width_pos_ofTrivia isEnd (List.mem_append_left _ leads)
  have counted := List.length_le_sum_of_one_le
    ((inner.flatMap Token.stretches ++ leading.map Stretch.ofTrivia).map Stretch.width)
    (List.forall_mem_map.mpr filled)
  have bytes := sum_width_stretches_tokenize text
  rw [split, List.map_append, List.sum_append] at bytes
  rw [split, List.length_append, List.length_singleton]
  rw [List.length_map] at counted
  omega

theorem length_tokenize_le (text : Text) : (tokenize text).length ≤ Text.size text + 1 := by
  have each : ∀ token : Token, 1 ≤ token.stretches.length := by
    intro token
    rw [Token.stretches, List.length_append, List.length_cons]
    omega
  have counted := List.length_le_sum_of_one_le
    ((tokenize text).map fun token => token.stretches.length)
    (List.forall_mem_map.mpr fun token _ => each token)
  rw [List.length_map, ← List.length_flatMap] at counted
  exact counted.trans (length_stretches_tokenize_le text)

/-- What the calls of an element say of the tokens that they push is said of its stretches. -/
theorem Element.flatMap_calls
    {Part : Type}
    {parts : Call → List Part}
    {part : Stretch → Part}
    (start : ∀ kind, parts (.start kind) = [])
    (finish : parts .finish = [])
    (token : ∀ token, parts (Event.tokenCall token) = token.stretches.map part)
    (element : Element) :
    element.calls.flatMap parts = (element.tokens.flatMap Token.stretches).map part := by
  induction element using Element.induct with
  | token inner => simpa using token inner
  | node kind extent children ih =>
    have inside : children.flatMap (fun child => child.calls.flatMap parts) =
        children.flatMap fun child => (child.tokens.flatMap Token.stretches).map part :=
      List.flatMap_congr ih
    simpa [start, finish, List.flatMap_assoc, List.map_flatMap] using inside

theorem Element.flatMap_kinds_calls (element : Element) :
    element.calls.flatMap Call.kinds =
      (element.tokens.flatMap Token.stretches).map Stretch.kind := by
  refine flatMap_calls (fun _ => rfl) rfl (fun token => ?_) element
  simp [Event.tokenCall, Call.kinds, Token.stretches, Stretch.ofToken, Stretch.ofTrivia,
    Trivia.measure, Function.comp_def]

theorem Element.flatMap_lengths_calls (element : Element) :
    element.calls.flatMap Call.lengths =
      (element.tokens.flatMap Token.stretches).map Stretch.width := by
  refine flatMap_calls (fun _ => rfl) rfl (fun token => ?_) element
  simp [Event.tokenCall, Call.lengths, Token.stretches, Stretch.ofToken, Stretch.ofTrivia,
    Stretch.width, Trivia.measure, Trivia.width, Token.innerWidth, Function.comp_def]

/-! ## Logs of texts -/

/-- The actions of a text add at most nine entries to its log for each token. -/
theorem countP_actionsOf_le (text : Text) :
    (actionsOf text).countP Action.isEntry ≤ 9 * (tokenize text).length := by
  obtain ⟨kinds, tokenKinds, absent⟩ := map_kind_tokenize text
  have counted := Grammar.countP_run_le absent
  rwa [← tokenKinds, List.length_map] at counted

/-- The log of a text can be written up to every moment, and has grown by few entries by then. -/
theorem exists_log_grown
    {text : Text}
    {done rest : List Action}
    (split : actionsOf text = done ++ rest) :
    ∃ log, EventLog.new.performAll done = some log ∧ log.Grown (9 * (tokenize text).length) := by
  obtain ⟨chunk, _, forms⟩ := exists_chunk text
  obtain ⟨events, completed?, written, _⟩ := exists_log chunk forms
  rw [split, EventLog.performAll_append] at written
  obtain ⟨log, performed, _⟩ := Option.bind_eq_some_iff.mp written
  have counted := countP_actionsOf_le text
  rw [split, List.countP_append] at counted
  exact ⟨log, performed, (EventLog.grown_new.performAll performed).mono (by omega)⟩

theorem staysNarrow_actionsOf
    {text : Text}
    (short : 9 * (Text.size text + 1) < 2 ^ 32) :
    EventLog.StaysNarrow (actionsOf text) := by
  intro done action rest split
  obtain ⟨log, performed, grown⟩ := exists_log_grown split
  refine ⟨log, performed, fun number member => ?_⟩
  have tokens := length_tokenize_le text
  have bound : number ≤ 9 * (tokenize text).length := by
    cases action with
    | start | precede => exact List.mem_singleton.mp member ▸ grown.length_le
    | advance => exact List.mem_singleton.mp member ▸ grown.position_le
    | complete | abandon => cases member
  unfold IsNarrow UInt32.size
  omega

/-! ## Calls of texts -/

/-- Calls that build a tree are performed by an arena, up to every moment. -/
theorem exists_builder
    {text : Text}
    {tree : SyntaxTree}
    {done rest : List Call}
    (built : SyntaxTree.build text (done ++ rest) = .ok tree) :
    ∃ builder, done.foldlM ArenaBuilder.perform (.new text) = .ok builder := by
  have agree := Arena.build_agree text (done ++ rest)
  rw [built] at agree
  cases accepted : Arena.build text (done ++ rest) with
  | error fault =>
    rw [accepted] at agree
    cases agree
  | ok arena =>
    obtain ⟨last, performed, _⟩ := exists_of_bind_eq_ok accepted
    rw [List.foldlM_append] at performed
    obtain ⟨builder, before, _⟩ := exists_of_bind_eq_ok performed
    exact ⟨builder, before⟩

theorem staysNarrow_calls
    {text : Text}
    (short : 9 * (Text.size text + 1) < 2 ^ 32)
    (chunk : Chunk text)
    {events : List Event}
    (few : events.length ≤ 9 * (tokenize text).length)
    (replayed : Event.replay (tokenize text) events = some chunk.root.calls) :
    ArenaBuilder.StaysNarrow text chunk.root.calls := by
  intro done call rest split
  obtain ⟨builder, performed⟩ := exists_builder (split ▸ chunk.build_calls)
  refine ⟨builder, performed, fun number member => ?_⟩
  have tokens := length_tokenize_le text
  have calls : chunk.root.calls.length ≤ events.length :=
    (Event.length_replay replayed).trans_le List.countP_le_length
  have kinds : (chunk.root.calls.flatMap Call.kinds).length ≤ Text.size text + 1 := by
    rw [Element.flatMap_kinds_calls, chunk.tokens_root, List.length_map]
    exact length_stretches_tokenize_le text
  have bytes : Call.bytes chunk.root.calls = Text.size text := by
    rw [Call.bytes, Element.flatMap_lengths_calls, chunk.tokens_root]
    exact sum_width_stretches_tokenize text
  rw [List.append_cons] at split
  rw [split, Call.bytes, List.flatMap_append, List.sum_append, ← Call.bytes] at bytes
  rw [split, List.flatMap_append, List.length_append] at kinds
  rw [split, List.length_append, List.length_append] at calls
  have bounded := ArenaBuilder.le_of_mem_narrowed performed member
  unfold IsNarrow UInt32.size
  omega

/--
The log of every text is linear.  At most nine events are added to it for each token, so it has no
more at any moment, and its forward pointers only lead forward.  It is replayed to the calls of the
tree of the text, which an arena accepts.  If nine times the bytes of the text and one more fit
into 32 bits, then so does every number that is made narrow on the way, and with places of 32 bits
the log and the arena are the same.
-/
theorem parse_linear (text : Text) :
    (actionsOf text).countP Action.isEntry ≤ 9 * (tokenize text).length ∧
      (∀ done rest, actionsOf text = done ++ rest →
        ∃ log, EventLog.new.performAll done = some log ∧
          log.events.length ≤ 9 * (tokenize text).length ∧
          ∀ kind distance, .start kind (some distance) ∈ log.events → 0 < distance) ∧
      ∃ log builder, EventLog.new.performAll (actionsOf text) = some log ∧
        Event.replay (tokenize text) log.events = some (parse text).tree.calls ∧
        (parse text).tree.calls.foldlM ArenaBuilder.perform (.new text) = .ok builder ∧
        (9 * (Text.size text + 1) < 2 ^ 32 →
          EventLog.StaysNarrow (actionsOf text) ∧
            ArenaBuilder.StaysNarrow text (parse text).tree.calls ∧
            (actionsOf text).foldlM EventLog.performNarrowly .new = some log ∧
            (parse text).tree.calls.foldlM ArenaBuilder.performNarrowly (.new text) =
              some builder) := by
  obtain ⟨chunk, roots, forms⟩ := exists_chunk text
  obtain ⟨events, completed?, written, replayed⟩ := exists_log chunk forms
  obtain ⟨log, performed, grown⟩ := exists_log_grown (List.append_nil (actionsOf text)).symm
  cases written.symm.trans performed
  have calls : (parse text).tree.calls = chunk.root.calls := by
    simp [SyntaxTree.calls_eq, roots]
  have built := chunk.build_calls
  rw [← List.append_nil chunk.root.calls] at built
  obtain ⟨builder, accepted⟩ := exists_builder built
  rw [calls]
  refine ⟨countP_actionsOf_le text, fun done rest split => ?_, _, builder, written, replayed,
    accepted, fun short => ?_⟩
  · obtain ⟨log, performed, grown⟩ := exists_log_grown split
    exact ⟨log, performed, grown.length_le, grown.forward⟩
  · have logged := staysNarrow_actionsOf short
    have stored := staysNarrow_calls short chunk grown.length_le replayed
    refine ⟨logged, stored, logged.foldlM_eq.trans written, ?_⟩
    rw [stored.foldlM_eq, accepted]
    rfl

/-- Loops without a header add nine events for each token but four, and their numbers fit. -/
theorem parse_linear_loops :
    let text := "for for".toList
    (actionsOf text).countP Action.isEntry = 9 * (tokenize text).length - 4 ∧
      (∃ log, EventLog.new.performAll (actionsOf text) = some log ∧
        log.events.length ≤ 9 * (tokenize text).length) ∧
      9 * (Text.size text + 1) < 2 ^ 32 ∧
      EventLog.StaysNarrow (actionsOf text) ∧
      ArenaBuilder.StaysNarrow text (parse text).tree.calls ∧
      (∃ log, (actionsOf text).foldlM EventLog.performNarrowly .new = some log) ∧
      ∃ builder, (parse text).tree.calls.foldlM ArenaBuilder.performNarrowly (.new text) =
        some builder := by
  intro text
  obtain ⟨_, moments, last, builder, _, _, _, narrow⟩ := parse_linear text
  obtain ⟨log, performed, few, _⟩ := moments _ [] (List.append_nil _).symm
  have short : 9 * (Text.size text + 1) < 2 ^ 32 := by decide
  obtain ⟨logged, stored, same, alike⟩ := narrow short
  exact ⟨by decide +kernel, ⟨log, performed, few⟩, short, logged, stored, ⟨last, same⟩,
    ⟨builder, alike⟩⟩

end LuaFold
