import LuaFold.Proofs.Text.Layout
import LuaFold.Proofs.Token.Coverage
import LuaFold.Token.Scanner

/-!
# Scanning is reading

A scanner between two pieces has read a number of whole tokens; its cursor, its buffer and its
faults are what these tokens account for.  The next token that it returns is the next one that
is read from what is ahead, at the offset and with the trivia that it has there.
-/

namespace LuaFold

namespace Trivia

theorem triviaFaults_append
    (offset : Nat)
    (first second : List Trivia) :
    Token.triviaFaults (Text.layOut width offset (first ++ second)) =
      Token.triviaFaults (Text.layOut width offset first) ++
        Token.triviaFaults (Text.layOut width (offset + (first.map width).sum) second) := by
  rw [Text.layOut_append, Token.triviaFaults, List.filterMap_append]
  rfl

/-- A first line is the front of its text, and not empty. -/
theorem firstLine?_eq_some
    {text rest : Text}
    {piece : Trivia}
    (found : firstLine? text = some (piece, rest)) :
    piece.text ++ rest = text ∧ piece.text ≠ [] := by
  unfold firstLine? at found
  split at found
  · next mark =>
    cases found
    refine ⟨(Cut.longest _ text).whole, ?_⟩
    cases text with
    | nil => cases mark
    | cons first rest =>
        cases Option.some.inj mark
        simp [Cut.longest, Text.isLineEnd]
  · cases found

end Trivia

namespace Scanner

/-- A scanner between two pieces of its text. -/
structure Placed (scanner : Scanner) : Prop where
  inside : scanner.remaining ≤ scanner.size
  begun : scanner.ahead = scanner.remaining

section Advance

variable {scanner : Scanner} {taken rest : Text}

theorem offset_advance
    (placed : scanner.Placed)
    (whole : taken ++ rest = scanner.rest)
    (fault? : Option LexicalFault) :
    (scanner.advance rest fault?).offset = scanner.offset + Text.size taken := by
  have inside := placed.inside
  simp only [offset, advance, remaining, ← whole, Text.size_append] at inside ⊢
  omega

theorem length_advance
    (placed : scanner.Placed)
    (whole : taken ++ rest = scanner.rest)
    (fault? : Option LexicalFault) :
    (scanner.advance rest fault?).length = Text.size taken := by
  have begun := placed.begun
  simp only [length, advance, remaining, begun, ← whole, Text.size_append]
  omega

/-- The span of a piece runs from where it began to the cursor. -/
theorem span_advance
    (placed : scanner.Placed)
    (whole : taken ++ rest = scanner.rest)
    (fault? : Option LexicalFault) :
    (scanner.advance rest fault?).span =
      ⟨scanner.offset, scanner.offset + Text.size taken⟩ := by
  rw [span, offset_advance placed whole, length_advance placed whole, Nat.add_sub_cancel]

theorem faults_advance
    (placed : scanner.Placed)
    (whole : taken ++ rest = scanner.rest)
    (fault? : Option LexicalFault) :
    (scanner.advance rest fault?).faults = scanner.faults ++ (fault?.map fun fault =>
      (fault, ⟨scanner.offset, scanner.offset + Text.size taken⟩)).toList := by
  rw [← span_advance placed whole fault?]
  rfl

theorem placed_restart_advance
    (placed : scanner.Placed)
    (whole : taken ++ rest = scanner.rest)
    (fault? : Option LexicalFault) :
    (scanner.advance rest fault?).restart.Placed := by
  have inside := placed.inside
  refine ⟨?_, rfl⟩
  simp only [remaining, ← whole, Text.size_append] at inside
  simp only [remaining, restart, advance]
  omega

end Advance

/-- At the end of the text the cursor stays where it is. -/
theorem readKind_of_nil
    {scanner : Scanner}
    (ended : scanner.rest = []) :
    scanner.readKind = (.eof, scanner.advance [] none) := by
  obtain ⟨size, rest, ahead, trivia, faults⟩ := scanner
  cases ended
  simp [readKind, advance]

/-- What a scanner did to get behind pieces of trivia. -/
structure Took (first : Scanner) (pieces : List Trivia) (last : Scanner) : Prop where
  placed : last.Placed
  size : last.size = first.size
  whole : pieces.flatMap Trivia.text ++ last.rest = first.rest
  offset : last.offset = first.offset + (pieces.map Trivia.width).sum
  trivia : last.trivia = first.trivia ++ pieces.map Trivia.measure
  faults : last.faults = first.faults ++
    Token.triviaFaults (Text.layOut Trivia.width first.offset pieces)
  nonempty : ∀ piece ∈ pieces, piece.text ≠ []

namespace Took

theorem refl {scanner : Scanner} (placed : scanner.Placed) : Took scanner [] scanner :=
  ⟨placed, rfl, rfl, rfl, by simp, by simp [Token.triviaFaults], by simp⟩

theorem trans
    {first middle last : Scanner}
    {pieces more : List Trivia}
    (before : Took first pieces middle)
    (behind : Took middle more last) :
    Took first (pieces ++ more) last := by
  refine ⟨behind.placed, behind.size.trans before.size, ?_, ?_, ?_, ?_, ?_⟩
  · rw [List.flatMap_append, List.append_assoc, behind.whole, before.whole]
  · rw [behind.offset, before.offset, List.map_append, List.sum_append, Nat.add_assoc]
  · rw [behind.trivia, before.trivia, List.map_append, List.append_assoc]
  · rw [behind.faults, before.faults, before.offset, Trivia.triviaFaults_append,
      List.append_assoc]
  · intro piece member
    rcases List.mem_append.mp member with early | late
    · exact before.nonempty piece early
    · exact behind.nonempty piece late

/-- One piece of trivia. -/
theorem take
    {scanner : Scanner}
    (placed : scanner.Placed)
    {piece : Trivia}
    {rest : Text}
    (whole : piece.text ++ rest = scanner.rest)
    (nonempty : piece.text ≠ []) :
    Took scanner [piece] (scanner.take piece rest) := by
  have restarted := placed_restart_advance placed whole piece.fault?
  refine ⟨⟨restarted.inside, rfl⟩, rfl, by simpa using whole, ?_, ?_, ?_,
    by simpa using nonempty⟩
  · show (scanner.advance rest piece.fault?).offset = _
    rw [offset_advance placed whole]
    simp [Trivia.width]
  · have read := length_advance placed whole piece.fault?
    simp only [Scanner.take, restart, push, read]
    rfl
  · have recorded := faults_advance placed whole piece.fault?
    simp only [Scanner.take, restart, push, recorded]
    cases fault : piece.fault? <;> simp [Token.triviaFaults, fault, Trivia.width]

/-- Behind the trivia before it a token has the bytes that it says it has. -/
theorem span_eq
    {first last : Scanner}
    {token : Token}
    (took : Took first token.leading last) :
    ⟨last.offset, last.offset + Text.size token.text⟩ = token.span first.offset := by
  rw [took.offset, Trivia.sum_width, ← Trivia.runWidth_eq_size]
  rfl

end Took

/-- A scanner reads the run of trivia that is ahead of it. -/
theorem took_readTrivia
    (lineBreaks : Bool)
    {scanner : Scanner}
    (placed : scanner.Placed) :
    ∃ pieces, Took scanner pieces (scanner.readTrivia lineBreaks) ∧
      ∀ earlier, (Trivia.readRun lineBreaks earlier scanner.rest).1 =
        earlier.reverse ++ pieces := by
  fun_induction readTrivia lineBreaks scanner with
  | case1 scanner piece rest read ih =>
      have first := Took.take placed (Trivia.read?_text_append read) (Trivia.read?_text_ne_nil read)
      obtain ⟨pieces, others, run⟩ := ih first.placed
      refine ⟨piece :: pieces, first.trans others, fun earlier => ?_⟩
      rw [Trivia.readRun_of_read read, ← rest_take scanner piece rest, run]
      simp
  | case2 scanner read =>
      refine ⟨[], .refl placed, fun earlier => ?_⟩
      rw [Trivia.readRun_of_none read]
      simp

theorem took_readLeading
    {scanner : Scanner}
    (placed : scanner.Placed) :
    Took scanner (Trivia.readLeading (decide (scanner.offset = 0)) scanner.rest).1
      scanner.readLeading := by
  unfold readLeading Trivia.readLeading
  simp only [decide_eq_true_eq]
  cases found : if scanner.offset = 0 then Trivia.firstLine? scanner.rest else none with
  | none =>
      obtain ⟨pieces, took, run⟩ := took_readTrivia true placed
      rw [run []]
      exact took
  | some line =>
      have first : Trivia.firstLine? scanner.rest = some (line.1, line.2) := by
        split at found
        · exact found
        · cases found
      obtain ⟨whole, nonempty⟩ := Trivia.firstLine?_eq_some first
      have took := Took.take placed whole nonempty
      obtain ⟨pieces, others, run⟩ := took_readTrivia true took.placed
      have read := run [line.1]
      rw [rest_take] at read
      rw [read]
      exact took.trans others

end Scanner

/-- A token as a scanner returns it that found its trivia at an offset, behind other pieces. -/
def Token.scanned (token : Token) (offset pieces : Nat) : Scanned :=
  let middle := pieces + token.leading.length
  ⟨token.kind, token.span offset, ⟨pieces, middle⟩, ⟨middle, middle + token.trailing.length⟩⟩

namespace Token

/-- Tokens as a scanner returns them, one after the other. -/
def scannedFrom (offset pieces : Nat) : List Token → List Scanned
  | [] => []
  | token :: rest =>
      token.scanned offset pieces ::
        scannedFrom (offset + token.width)
          (pieces + token.leading.length + token.trailing.length) rest

/-- What a scanner returns of a token that is being read. -/
def Reading.scanned (reading : Reading) : Scanned :=
  ⟨reading.token.kind, reading.token.span reading.offset, reading.leading, reading.trailing⟩

private theorem foldl_following
    (offset : Nat)
    (earlier : List Reading)
    (tokens : List Token) :
    (((Text.layOut width offset tokens).foldl
      (fun read (offset, token) => Reading.following read.head? offset token :: read)
      earlier).reverse.map Reading.scanned) =
      earlier.reverse.map Reading.scanned ++ scannedFrom offset
        ((earlier.head?.map fun previous => previous.trailing.stop).getD 0) tokens := by
  induction tokens generalizing offset earlier with
  | nil => simp [scannedFrom]
  | cons token rest ih =>
      rw [Text.layOut_cons, List.foldl_cons, ih, scannedFrom]
      simp [Reading.following, Reading.scanned, scanned]

/-- The readings of tokens are what a scanner returns of them. -/
theorem map_scanned_readings (tokens : List Token) :
    (readings tokens).map Reading.scanned = scannedFrom 0 0 tokens :=
  foldl_following 0 [] tokens

/-- Reading reads the next token, and goes on unless this is the end of the text. -/
theorem readAll_step
    (atStart : Bool)
    (tokens : List Token)
    (text : Text) :
    readAll atStart tokens text =
      if (readNext atStart text).1.kind = .eof then ((readNext atStart text).1 :: tokens).reverse
      else readAll false ((readNext atStart text).1 :: tokens) (readNext atStart text).2 := by
  rw [readAll]
  unfold readNext
  split
  · next leading read => simp [read, endOfText]
  · next leading first rest read =>
    have significant : (Lexeme.read first rest).kind ≠ .eof := by
      intro isEnd
      have significant := Lexeme.isSignificant_read first rest
      rw [isEnd] at significant
      exact absurd significant (by decide)
    simp [read, significant]

end Token

namespace Scanner

/-- A scanner that has read tokens of a text and nothing else. -/
structure After (text : Text) (tokens : List Token) (scanner : Scanner) : Prop where
  placed : scanner.Placed
  size : scanner.size = Text.size text
  whole : tokens.flatMap Token.fullText ++ scanner.rest = text
  trivia : scanner.trivia = (Token.allTrivia tokens).map Trivia.measure
  faults : scanner.faults = Token.allFaults tokens
  nonempty : ∀ piece ∈ Token.allTrivia tokens, piece.text ≠ []
  started : tokens ≠ [] → scanner.rest = [] ∨ 0 < scanner.offset

namespace After

variable {text : Text} {tokens : List Token} {scanner : Scanner}

theorem new (text : Text) : After text [] (.new text) := by
  refine ⟨⟨Nat.le_refl _, rfl⟩, rfl, rfl, rfl, rfl, by simp [Token.allTrivia], by simp⟩

theorem offset (after : After text tokens scanner) :
    scanner.offset = (tokens.map Token.width).sum := by
  have sizes := congrArg Text.size after.whole
  rw [Text.size_append, ← Token.sum_width] at sizes
  rw [Scanner.offset, after.size, remaining]
  omega

/-- The first line counts only before the first token. -/
theorem readLeading_eq (after : After text tokens scanner) :
    Trivia.readLeading (decide (scanner.offset = 0)) scanner.rest =
      Trivia.readLeading tokens.isEmpty scanner.rest := by
  cases tokens with
  | nil =>
      have offset := after.offset
      rw [offset]
      rfl
  | cons first others =>
      rcases after.started (by simp) with done | moved
      · rw [done]
        simp [Trivia.readLeading, Trivia.firstLine?]
      · rw [decide_eq_false (Nat.ne_of_gt moved)]
        rfl

/-- A token is read between its trivia, and its faults are recorded in the order of the text. -/
theorem snoc
    (after : After text tokens scanner)
    {token : Token}
    {before behind : Scanner}
    {rest : Text}
    (leading : Took scanner token.leading before)
    (whole : token.text ++ rest = before.rest)
    (trailing : Took (before.advance rest token.fault?).restart token.trailing behind)
    (started : token.text ≠ [] ∨ behind.rest = []) :
    After text (tokens ++ [token]) behind := by
  have stop : (before.advance rest token.fault?).restart.offset =
      (token.span scanner.offset).stop := by
    show (before.advance rest token.fault?).offset = _
    rw [offset_advance leading.placed whole, ← leading.span_eq]
  have faults : (before.advance rest token.fault?).restart.faults = scanner.faults ++
      Token.triviaFaults (token.leadingPlaced scanner.offset) ++
        (token.fault?.map fun fault => (fault, token.span scanner.offset)).toList := by
    show (before.advance rest token.fault?).faults = _
    rw [faults_advance leading.placed whole, leading.faults, leading.span_eq]
    rfl
  refine ⟨trailing.placed, ?_, ?_, ?_, ?_, ?_, fun _ => ?_⟩
  · rw [trailing.size, ← after.size, ← leading.size]
    rfl
  · rw [← after.whole, ← leading.whole, ← whole]
    have behindToken : _ = rest := trailing.whole
    rw [← behindToken]
    simp [Token.fullText]
  · have buffer : (before.advance rest token.fault?).restart.trivia = before.trivia := rfl
    rw [trailing.trivia, buffer, leading.trivia, after.trivia]
    simp [Token.allTrivia]
  · rw [trailing.faults, faults, stop, after.faults, Token.allFaults, Token.allFaults,
      Token.layOut, Token.layOut, Text.layOut_append, List.flatMap_append, Nat.zero_add,
      ← after.offset]
    simp [Token.faults, Token.trailingPlaced]
  · intro piece member
    rw [Token.allTrivia, List.flatMap_append, List.flatMap_singleton] at member
    rcases List.mem_append.mp member with early | late
    · exact after.nonempty piece early
    · rcases List.mem_append.mp late with front | back
      · exact leading.nonempty piece front
      · exact trailing.nonempty piece back
  · rcases started with nonempty | done
    · have positive := Text.size_pos nonempty
      rw [trailing.offset, stop]
      simp only [Token.span, Token.innerWidth]
      omega
    · exact Or.inl done

/-- What a scanner returns once it is known what it reads at its cursor. -/
theorem next_of_readKind
    (after : After text tokens scanner)
    {token : Token}
    {rest : Text}
    (leading : Took scanner token.leading scanner.readLeading)
    (whole : token.text ++ rest = scanner.readLeading.rest)
    (kind : scanner.readLeading.readKind =
      (token.kind, scanner.readLeading.advance rest token.fault?))
    (trailing : (Trivia.readTrailing rest).1 = token.trailing)
    (started : token.text ≠ [] ∨ (Trivia.readTrailing rest).2 = []) :
    scanner.next.1 = token.scanned scanner.offset scanner.trivia.length ∧
      scanner.next.2.rest = (Trivia.readTrailing rest).2 ∧
      After text (tokens ++ [token]) scanner.next.2 := by
  let inside := scanner.readLeading.advance rest token.fault?
  have placed : inside.restart.Placed := placed_restart_advance leading.placed whole token.fault?
  have behind : scanner.next.2 = inside.restart.readTrivia false := by
    simp only [next, kind, inside]
  have ahead : scanner.next.2.rest = (Trivia.readTrailing rest).2 := by
    rw [behind, rest_readTrivia false inside.restart []]
    rfl
  obtain ⟨pieces, took, run⟩ := took_readTrivia false placed
  have same : pieces = token.trailing := by
    rw [← trailing]
    exact (run []).symm
  rw [same, ← behind] at took
  refine ⟨?_, ahead, after.snoc leading whole took (started.imp_right ahead.trans)⟩
  have span : inside.span = token.span scanner.offset := by
    rw [span_advance leading.placed whole, leading.span_eq]
  have buffer : scanner.readLeading.trivia.length =
      scanner.trivia.length + token.leading.length := by simp [leading.trivia]
  have buffers : scanner.next.2.trivia.length =
      scanner.readLeading.trivia.length + token.trailing.length := by
    rw [took.trivia, List.length_append, List.length_map]
    rfl
  rw [Token.scanned, ← buffer, ← buffers, ← span]
  simp only [next, kind, inside]

/-- The next token that a scanner returns is the next one that is read from what is ahead. -/
theorem next (after : After text tokens scanner) :
    let read := Token.readNext tokens.isEmpty scanner.rest
    scanner.next.1 = read.1.scanned scanner.offset scanner.trivia.length ∧
      scanner.next.2.rest = read.2 ∧ After text (tokens ++ [read.1]) scanner.next.2 := by
  have leading := took_readLeading after.placed
  have ahead := rest_readLeading scanner
  rw [after.readLeading_eq] at leading ahead
  unfold Token.readNext
  split
  · next pieces read =>
    rw [read] at leading ahead
    have none : Trivia.readTrailing [] = ([], []) := Trivia.readRun_of_none rfl []
    have ended : (Token.endOfText pieces).text ++ [] = scanner.readLeading.rest := ahead.symm
    have returned := after.next_of_readKind leading ended ?_ (by rw [none]; rfl)
      (Or.inr (by rw [none]))
    · rwa [none] at returned
    · exact readKind_of_nil ahead
  · next pieces first rest read =>
    rw [read] at leading ahead
    refine after.next_of_readKind leading ?_ ?_ rfl (Or.inl (Lexeme.taken_read_ne_nil first rest))
    · rw [ahead]
      exact (Lexeme.read first rest).cut.whole
    · rw [readKind, ahead]

/-- Where a scanner stands behind one more token. -/
theorem offset_snoc
    {token : Token}
    {later : Scanner}
    (after : After text tokens scanner)
    (more : After text (tokens ++ [token]) later) :
    later.offset = scanner.offset + token.width ∧ later.trivia.length =
      scanner.trivia.length + token.leading.length + token.trailing.length := by
  refine ⟨?_, ?_⟩
  · simp [after.offset, more.offset]
  · simp [after.trivia, more.trivia, Token.allTrivia, Nat.add_assoc]

/-- Asking for a number of tokens gives as many tokens as are read from what is ahead. -/
theorem many
    (after : After text tokens scanner)
    (count : Nat) :
    let read := Token.readMany tokens.isEmpty scanner.rest count
    (scanner.many count).1 = Token.scannedFrom scanner.offset scanner.trivia.length read ∧
      After text (tokens ++ read) (scanner.many count).2 := by
  induction count generalizing tokens scanner with
  | zero => exact ⟨rfl, by simpa [Token.readMany, Scanner.many] using after⟩
  | succ count ih =>
      obtain ⟨returned, ahead, more⟩ := after.next
      obtain ⟨offset, pieces⟩ := after.offset_snoc more
      obtain ⟨others, last⟩ := ih more
      have started : (tokens ++ [(Token.readNext tokens.isEmpty scanner.rest).1]).isEmpty = false :=
        by simp
      rw [started, ahead] at others last
      refine ⟨?_, ?_⟩
      · rw [Scanner.many, Token.readMany, Token.scannedFrom, others, returned, offset, pieces]
      · simpa [Token.readMany, Scanner.many] using last

/-- The tokens up to the end of the text are those that are read from what is ahead. -/
theorem all (after : After text tokens scanner) :
    ∃ read, (∀ earlier, Token.readAll tokens.isEmpty earlier scanner.rest =
        earlier.reverse ++ read) ∧
      scanner.all.1 = Token.scannedFrom scanner.offset scanner.trivia.length read ∧
      After text (tokens ++ read) scanner.all.2 := by
  induction scanner using Scanner.all.induct generalizing tokens with
  | case1 scanner ended =>
      obtain ⟨returned, _, more⟩ := after.next
      rw [Scanner.all, dif_pos ended]
      have kind : (Token.readNext tokens.isEmpty scanner.rest).1.kind = .eof := by
        rw [returned] at ended
        exact ended
      refine ⟨_, fun earlier => ?_, by rw [returned]; rfl, more⟩
      rw [Token.readAll_step, if_pos kind, List.reverse_cons]
  | case2 scanner goesOn ih =>
      obtain ⟨returned, ahead, more⟩ := after.next
      rw [Scanner.all, dif_neg goesOn]
      obtain ⟨offset, pieces⟩ := after.offset_snoc more
      have kind : (Token.readNext tokens.isEmpty scanner.rest).1.kind ≠ .eof := by
        rw [returned] at goesOn
        exact goesOn
      obtain ⟨others, run, scanned, last⟩ := ih more
      refine ⟨_ :: others, fun earlier => ?_, ?_, by simpa using last⟩
      · have started : (tokens ++ [(Token.readNext tokens.isEmpty scanner.rest).1]).isEmpty =
            false := by simp
        rw [started, ahead] at run
        rw [Token.readAll_step, if_neg kind, run]
        simp
      · rw [Token.scannedFrom, ← offset, ← pieces, ← scanned, returned]

end After

/-- A scanner reads a whole text as it is tokenized, and nothing is ahead of it then. -/
theorem all_new (text : Text) :
    (new text).all.1 = Token.scannedFrom 0 0 (tokenize text) ∧
      After text (tokenize text) (new text).all.2 ∧ (new text).all.2.rest = [] := by
  obtain ⟨read, run, scanned, after⟩ := (After.new text).all
  have same : tokenize text = read := run []
  rw [← same] at scanned after
  rw [List.nil_append] at after
  have start : (new text).offset = 0 := Nat.sub_self _
  rw [start] at scanned
  refine ⟨scanned, after, ?_⟩
  have whole := after.whole
  rwa [flatMap_fullText_tokenize, List.append_right_eq_self] at whole

/-- At the end of its text a scanner returns the end, and stays as it is. -/
theorem next_of_nil
    {scanner : Scanner}
    (placed : scanner.Placed)
    (ended : scanner.rest = []) :
    scanner.next = (⟨.eof, .empty scanner.offset, .empty scanner.trivia.length,
      .empty scanner.trivia.length⟩, scanner) := by
  have still : ∀ lineBreaks, scanner.readTrivia lineBreaks = scanner := by
    intro lineBreaks
    rw [readTrivia]
    split
    · next piece rest read =>
      rw [ended] at read
      cases read
    · rfl
  have leading : scanner.readLeading = scanner := by
    rw [readLeading, ended]
    simp [Trivia.firstLine?, still]
  have kind : scanner.readKind = (.eof, scanner) := by
    rw [readKind, ended]
  have restarted : scanner.restart = scanner := by
    rw [restart, ← placed.begun]
  have length : scanner.length = 0 := by
    rw [Scanner.length, placed.begun, Nat.sub_self]
  simp [next, leading, kind, restarted, still, span, length, Span.empty]

/-- Asked again and again at the end of its text, a scanner returns the end every time. -/
theorem many_of_nil
    {scanner : Scanner}
    (placed : scanner.Placed)
    (ended : scanner.rest = [])
    (count : Nat) :
    scanner.many count = (List.replicate count ⟨.eof, .empty scanner.offset,
      .empty scanner.trivia.length, .empty scanner.trivia.length⟩, scanner) := by
  induction count with
  | zero => rfl
  | succ count ih => rw [many, next_of_nil placed ended, ih, List.replicate_succ]

end Scanner

end LuaFold
