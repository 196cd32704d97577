import LuaFold.Proofs.Token.Continuation
import LuaFold.Proofs.Token.Coverage

/-!
# Tokens of joined texts

Two texts are joined by a line feed and a semicolon.  Where the first one is not broken anywhere,
the tokens of the whole are those of the first one without its end, the semicolon, and those of the
second one.  The trivia at the start of the second text stands behind the semicolon, so it is
taken from the first token of the second text; nothing else changes, and every token of the second
text, and every fault in it, stands further on by the bytes in front.
-/

namespace LuaFold

/-! ## Places further on -/

theorem Text.layOut_shift
    {Item : Type}
    (width : Item → Nat)
    (offset distance : Nat)
    (items : List Item) :
    Text.layOut width (offset + distance) items =
      (Text.layOut width offset items).map fun placed => (placed.1 + distance, placed.2) := by
  induction items generalizing offset with
  | nil => rfl
  | cons item rest ih =>
      have behind := ih (offset + width item)
      rw [Nat.add_right_comm] at behind
      simp [behind]

namespace Token

/-- A fault a number of bytes further on. -/
def shiftFault (distance : Nat) (fault : LexicalFault × Span) : LexicalFault × Span :=
  (fault.1, fault.2.shift distance)

theorem span_shift
    (token : Token)
    (offset distance : Nat) :
    token.span (offset + distance) = (token.span offset).shift distance := by
  simp only [span, Span.shift, Span.mk.injEq]
  omega

theorem triviaFaults_shift
    (offset distance : Nat)
    (pieces : List Trivia) :
    triviaFaults (Text.layOut Trivia.width (offset + distance) pieces) =
      (triviaFaults (Text.layOut Trivia.width offset pieces)).map (shiftFault distance) := by
  rw [Text.layOut_shift, triviaFaults, triviaFaults, List.filterMap_map, List.map_filterMap]
  congr 1
  funext placed
  obtain ⟨start, piece⟩ := placed
  simp only [Function.comp_apply]
  cases piece.fault? with
  | none => rfl
  | some fault =>
      have stop : start + distance + piece.width = start + piece.width + distance := by omega
      simp [shiftFault, Span.shift, stop]

theorem faults_shift
    (token : Token)
    (offset distance : Nat) :
    token.faults (offset + distance) = (token.faults offset).map (shiftFault distance) := by
  rw [faults, faults, leadingPlaced, trailingPlaced, span_shift, Span.shift_stop,
    triviaFaults_shift, triviaFaults_shift]
  cases token.fault? with
  | none => simp [leadingPlaced, trailingPlaced]
  | some fault => simp [leadingPlaced, trailingPlaced, shiftFault]

/-- What tokens hold at a place further on is what they hold at the place, further on. -/
theorem flatMap_layOut_shift
    {Content : Type}
    {content : Nat × Token → List Content}
    {move : Content → Content}
    (distance : Nat)
    (moves : ∀ offset token,
      content (offset + distance, token) = (content (offset, token)).map move)
    (offset : Nat)
    (tokens : List Token) :
    (Text.layOut width (offset + distance) tokens).flatMap content =
      ((Text.layOut width offset tokens).flatMap content).map move := by
  rw [Text.layOut_shift, List.flatMap_map, List.map_flatMap]
  congr 1
  funext placed
  exact moves placed.1 placed.2

/-! ## Trivia that a token before takes -/

/-- A token with further trivia in front. -/
def behind (pieces : List Trivia) (token : Token) : Token :=
  { token with leading := pieces ++ token.leading }

theorem width_behind
    (pieces : List Trivia)
    (token : Token) :
    (token.behind pieces).width = Trivia.runWidth pieces + token.width := by
  simp only [behind, width, innerWidth, Trivia.runWidth_eq_size, List.flatMap_append,
    Text.size_append]
  omega

theorem span_behind
    (pieces : List Trivia)
    (token : Token)
    (offset : Nat) :
    (token.behind pieces).span offset = token.span (offset + Trivia.runWidth pieces) := by
  simp only [behind, span, innerWidth, Trivia.runWidth_eq_size, List.flatMap_append,
    Text.size_append, Nat.add_assoc]

theorem faults_behind
    (pieces : List Trivia)
    (token : Token)
    (offset : Nat) :
    (token.behind pieces).faults offset =
      triviaFaults (Text.layOut Trivia.width offset pieces) ++
        token.faults (offset + Trivia.runWidth pieces) := by
  have stands : (token.behind pieces).leadingPlaced offset =
      Text.layOut Trivia.width offset pieces ++
        token.leadingPlaced (offset + Trivia.runWidth pieces) := by
    have total : Trivia.runWidth pieces = (pieces.map Trivia.width).sum := by
      rw [Trivia.runWidth_eq_size, Trivia.sum_width]
    rw [total]
    exact Text.layOut_append _ _ _ _
  have trailing : (token.behind pieces).trailingPlaced offset =
      token.trailingPlaced (offset + Trivia.runWidth pieces) := by
    rw [trailingPlaced, trailingPlaced, span_behind]
    rfl
  rw [faults, faults, stands, trailing, span_behind, triviaFaults, List.filterMap_append]
  simp only [List.append_assoc]
  rfl

/-- Sound trivia has no faults. -/
theorem triviaFaults_of_sound
    {pieces : List Trivia}
    (sound : Trivia.Sound pieces)
    (offset : Nat) :
    triviaFaults (Text.layOut Trivia.width offset pieces) = [] := by
  refine List.filterMap_eq_nil_iff.mpr fun placed member => ?_
  simp [sound placed.2 (Text.mem_of_mem_layOut member)]

theorem Sound.faults
    {token : Token}
    (sound : token.Sound)
    (offset : Nat) :
    token.faults offset = [] := by
  rw [Token.faults, leadingPlaced, trailingPlaced, triviaFaults_of_sound sound.leading,
    triviaFaults_of_sound sound.trailing, sound.fault?]
  rfl

end Token

/-! ## Joined texts -/

/-- How the tokens of two texts make up those of the texts with a semicolon between them. -/
structure Junction (first second : Text) where
  inner : List Token
  last : List Trivia
  leading : List Trivia
  trailing : List Trivia
  token : Token
  others : List Token
  tokens_first : tokenize first = inner ++ [.endOfText last]
  tokens_second : tokenize second = token.behind trailing :: others
  tokens_joined : tokenize (first ++ '\n' :: ';' :: second) =
    inner ++ ⟨leading, .semicolon, [';'], trailing, none⟩ :: token :: others
  sound : ∀ token ∈ inner, token.Sound
  leading_sound : Trivia.Sound leading

/-- An unbroken text is joined to any text but one that begins with a first line of its own. -/
theorem exists_junction
    {first second : Text}
    (silent : Token.allFaults (tokenize first) = [])
    (unmarked : second.head? ≠ some '#') :
    Nonempty (Junction first second) := by
  obtain ⟨inner, last, tokens, _⟩ := tokenize_eq first
  have sound := Token.sound_of_allFaults silent
  rw [tokens] at sound
  obtain ⟨leading, leadingSound, joined⟩ := Token.readAll_line tokens sound second
  obtain ⟨token, others, behind, whole⟩ := Token.readAll_readTrailing unmarked
  rw [behind] at joined
  exact ⟨inner, last, leading, _, token, others, tokens, whole, joined,
    fun token member => sound token (by simp [member]), leadingSound⟩

namespace Junction

variable {first second : Text} (junction : Junction first second)

/-- The semicolon between the texts. -/
def semicolon : Token :=
  ⟨junction.leading, .semicolon, [';'], junction.trailing, none⟩

/-- Everything in front of the semicolon is the first text and the line feed. -/
theorem size_front :
    (junction.inner.map Token.width).sum + Trivia.runWidth junction.leading =
      Text.size first + 1 := by
  have whole := congrArg Text.size
    (flatMap_fullText_tokenize (first ++ '\n' :: ';' :: second))
  have behind := congrArg Text.size (flatMap_fullText_tokenize second)
  rw [← Token.sum_width, junction.tokens_joined] at whole
  rw [← Token.sum_width, junction.tokens_second] at behind
  have lineFeed : '\n'.utf8Size = 1 := by decide
  have mark : ';'.utf8Size = 1 := by decide
  have semicolon : junction.semicolon.width =
      Trivia.runWidth junction.leading + 1 + Trivia.runWidth junction.trailing := by
    simp [Token.width, Token.innerWidth, Junction.semicolon, mark]
  simp only [List.map_append, List.map_cons, List.sum_append, List.sum_cons,
    Token.width_behind, Text.size_append, Text.size_cons, lineFeed, mark] at whole behind
  rw [Junction.semicolon] at semicolon
  omega

section Content

variable {Content : Type} (content : Nat × Token → List Content)
  (move : Nat → Content → Content)

/-- What the tokens of joined texts hold, where the second text stands further on. -/
theorem flatMap_joined
    (moves : ∀ distance offset token,
      content (offset + distance, token) = (content (offset, token)).map (move distance)) :
    (Token.layOut (tokenize (first ++ '\n' :: ';' :: second))).flatMap content =
      (Text.layOut Token.width 0 junction.inner).flatMap content ++
        (content ((junction.inner.map Token.width).sum, junction.semicolon) ++
          ((Text.layOut Token.width (Trivia.runWidth junction.trailing)
            (junction.token :: junction.others)).flatMap content).map
              (move (Text.size first + 2))) := by
  have mark : ';'.utf8Size = 1 := by decide
  have front := junction.size_front
  have start : (junction.inner.map Token.width).sum + junction.semicolon.width =
      Trivia.runWidth junction.trailing + (Text.size first + 2) := by
    simp only [Token.width, Token.innerWidth, Junction.semicolon, Text.size_cons, Text.size_nil,
      mark]
    omega
  rw [Token.layOut, junction.tokens_joined, Text.layOut_append, Text.layOut_cons,
    List.flatMap_append, List.flatMap_cons, Nat.zero_add]
  have behind := Token.flatMap_layOut_shift (Text.size first + 2) (moves (Text.size first + 2))
    (Trivia.runWidth junction.trailing) (junction.token :: junction.others)
  rw [← behind, ← start]
  rfl

end Content

/-- The second text stands in itself with the trivia that the semicolon takes from it. -/
theorem layOut_second :
    Token.layOut (tokenize second) = (0, junction.token.behind junction.trailing) ::
      Text.layOut Token.width
        (Trivia.runWidth junction.trailing + junction.token.width) junction.others := by
  rw [junction.tokens_second, Token.layOut, Text.layOut_cons, Token.width_behind, Nat.zero_add]

/-- The spans of the tokens of joined texts. -/
theorem spans_joined :
    (Token.layOut (tokenize (first ++ '\n' :: ';' :: second))).map
        (fun placed => placed.2.span placed.1) =
      (Text.layOut Token.width 0 junction.inner).map (fun placed => placed.2.span placed.1) ++
        junction.semicolon.span (junction.inner.map Token.width).sum ::
          ((Token.layOut (tokenize second)).map fun placed => placed.2.span placed.1).map
            (·.shift (Text.size first + 2)) := by
  have joined := junction.flatMap_joined (fun placed => [placed.2.span placed.1])
    (fun distance span => span.shift distance) fun distance offset token => by
      simp [Token.span_shift]
  simp only [← List.map_eq_flatMap] at joined
  rw [joined, junction.layOut_second]
  simp [Token.span_behind]

include junction in
/-- The faults of joined texts are those of the second one. -/
theorem allFaults_joined :
    Token.allFaults (tokenize (first ++ '\n' :: ';' :: second)) =
      (Token.allFaults (tokenize second)).map (Token.shiftFault (Text.size first + 2)) := by
  have inner : (Text.layOut Token.width 0 junction.inner).flatMap
      (fun placed => placed.2.faults placed.1) = [] := by
    refine List.flatMap_eq_nil_iff.mpr fun placed member => ?_
    exact (junction.sound placed.2 (Text.mem_of_mem_layOut member)).faults placed.1
  have mark : ';'.utf8Size = 1 := by decide
  have stop : (junction.semicolon.span (junction.inner.map Token.width).sum).stop =
      0 + (Text.size first + 2) := by
    have front := junction.size_front
    simp only [Token.span, Token.innerWidth, semicolon, Text.size_cons, Text.size_nil, mark]
    omega
  have semicolon : junction.semicolon.faults (junction.inner.map Token.width).sum =
      (Token.triviaFaults (Text.layOut Trivia.width 0 junction.trailing)).map
        (Token.shiftFault (Text.size first + 2)) := by
    rw [Token.faults, Token.leadingPlaced, Token.trailingPlaced, stop]
    have leading := Token.triviaFaults_of_sound junction.leading_sound
      (junction.inner.map Token.width).sum
    rw [← Token.triviaFaults_shift]
    simp [Junction.semicolon, leading]
  have joined := junction.flatMap_joined (fun placed => placed.2.faults placed.1)
    Token.shiftFault fun distance offset token => token.faults_shift offset distance
  rw [inner, semicolon, List.nil_append, ← List.map_append] at joined
  refine joined.trans (congrArg (List.map _) ?_)
  rw [Token.allFaults, junction.layOut_second, Text.layOut_cons]
  simp [Token.faults_behind]

end Junction

end LuaFold
