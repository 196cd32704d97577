import LuaFold.Token.Reading

/-!
# Coverage of a text by its tokens

Reading puts every character of a text into exactly one piece: a trivia piece or a token.  Put
end to end the pieces give the text back.  The last token is the end of the text; the tokens
before it are significant, none of them empty.
-/

namespace LuaFold

namespace Trivia

/-- A run of trivia and the rest are the text, behind the pieces read before. -/
theorem readRun_whole
    (lineBreaks : Bool)
    (pieces : List Trivia)
    (text : Text) :
    (readRun lineBreaks pieces text).1.flatMap Trivia.text ++ (readRun lineBreaks pieces text).2 =
      pieces.reverse.flatMap Trivia.text ++ text := by
  fun_induction readRun lineBreaks pieces text with
  | case1 pieces text piece rest read ih =>
      rw [ih, ← read?_text_append read]
      simp
  | case2 pieces text read => rfl

theorem readTrailing_whole (text : Text) :
    (readTrailing text).1.flatMap Trivia.text ++ (readTrailing text).2 = text :=
  readRun_whole false [] text

theorem readLeading_whole
    (atStart : Bool)
    (text : Text) :
    (readLeading atStart text).1.flatMap Trivia.text ++ (readLeading atStart text).2 = text := by
  unfold readLeading
  split
  · next piece rest found =>
    rw [readRun_whole]
    cases atStart with
    | false => simp at found
    | true =>
        simp only [↓reduceIte, firstLine?] at found
        split at found
        · cases found
          simpa using (Cut.longest _ text).whole
        · cases found
  · exact readRun_whole true [] text

end Trivia

namespace Kind

/-- Whether a kind is one of tokens that stand before the end of a text. -/
def isSignificant (kind : Kind) : Bool :=
  kind ≠ .eof && !kind.isTrivia

theorem isSignificant_of_reserved
    {word : List Char}
    {kind : Kind}
    (found : ofKeyword? word = some kind) :
    kind.isSignificant = true := by
  obtain ⟨entry, listed, rfl⟩ := Option.map_eq_some_iff.mp found
  have all : ∀ entry ∈ reservedWords, entry.2.isSignificant = true := by decide
  exact all entry (List.mem_of_find?_eq_some listed)

theorem isSignificant_of_operator
    {text written : Text}
    {kind : Kind}
    (found : operator? text = some (written, kind)) :
    kind.isSignificant = true := by
  have all : ∀ entry ∈ operators, entry.2.isSignificant = true := by decide
  exact all _ (List.mem_of_find?_eq_some found)

end Kind

namespace Lexeme

theorem isSignificant_word (text : Text) : (word text).kind.isSignificant = true := by
  unfold word
  cases found : Kind.ofKeyword? (Cut.longest Text.isWordPart text).taken with
  | none => simp [found, Kind.isSignificant, Kind.isTrivia]
  | some kind => simpa [found] using Kind.isSignificant_of_reserved found

theorem isSignificant_symbol (text : Text) : (symbol text).kind.isSignificant = true := by
  unfold symbol
  split
  · next written kind found => exact Kind.isSignificant_of_operator found
  · rfl

/-- What is recognised before the end of a text is significant. -/
theorem isSignificant_read
    (first : Char)
    (rest : Text) :
    (read first rest).kind.isSignificant = true := by
  unfold read
  split
  · exact isSignificant_word _
  split
  · rfl
  split
  · rfl
  split
  · rfl
  · exact isSignificant_symbol _

end Lexeme

namespace Token

/-- A token that is neither trivia nor the end of a text, with at least one character. -/
structure Significant (token : Token) : Prop where
  kind : token.kind.isSignificant = true
  text : token.text ≠ []

theorem Significant.kind_ne_eof
    {token : Token}
    (significant : token.Significant) :
    token.kind ≠ .eof := by
  intro isEnd
  have kind := significant.kind
  rw [isEnd] at kind
  exact absurd kind (by decide)

/-- Reading goes on behind the tokens already read, to the end of the text. -/
theorem readAll_eq
    (atStart : Bool)
    (tokens : List Token)
    (text : Text) :
    ∃ inner leading, readAll atStart tokens text =
        tokens.reverse ++ inner ++ [endOfText leading] ∧
      (∀ token ∈ inner, token.Significant) ∧
      (inner ++ [endOfText leading]).flatMap fullText = text := by
  fun_induction readAll atStart tokens text with
  | case1 atStart tokens text leading read =>
      refine ⟨[], leading, by simp, by simp, ?_⟩
      have whole := Trivia.readLeading_whole atStart text
      simpa [read, endOfText, fullText] using whole
  | case2 atStart tokens text leading first rest read lexeme trailing ih =>
      obtain ⟨inner, last, all, significant, covered⟩ := ih
      refine ⟨⟨leading, lexeme.kind, lexeme.cut.taken, trailing.1, lexeme.fault?⟩ :: inner,
        last, ?_, ?_, ?_⟩
      · rw [all]
        simp
      · intro token member
        rcases List.mem_cons.mp member with rfl | later
        · exact ⟨Lexeme.isSignificant_read first rest, Lexeme.taken_read_ne_nil first rest⟩
        · exact significant token later
      · calc
          _ = leading.flatMap Trivia.text ++ (lexeme.cut.taken ++
                (trailing.1.flatMap Trivia.text ++ trailing.2)) := by
            rw [List.cons_append, List.flatMap_cons, covered]
            simp [fullText]
          _ = leading.flatMap Trivia.text ++ (first :: rest) := by
            rw [Trivia.readTrailing_whole, lexeme.cut.whole]
          _ = text := by
            simpa [read] using Trivia.readLeading_whole atStart text

end Token

/-- The tokens of a text are significant up to the end of the text, which comes last. -/
theorem tokenize_eq (text : Text) :
    ∃ inner leading, tokenize text = inner ++ [Token.endOfText leading] ∧
      ∀ token ∈ inner, token.Significant := by
  obtain ⟨inner, leading, all, significant, _⟩ := Token.readAll_eq true [] text
  exact ⟨inner, leading, all, significant⟩

/-- Every token of a text but its end is significant. -/
theorem significant_of_mem_tokenize
    {text : Text}
    {token : Token}
    (member : token ∈ tokenize text)
    (notEnd : token.kind ≠ .eof) :
    token.Significant := by
  obtain ⟨inner, leading, all, significant⟩ := tokenize_eq text
  rw [all] at member
  rcases List.mem_append.mp member with before | last
  · exact significant token before
  · rw [List.mem_singleton.mp last] at notEnd
    exact absurd rfl notEnd

/-- The tokens of a text with their trivia are the text. -/
theorem flatMap_fullText_tokenize (text : Text) :
    (tokenize text).flatMap Token.fullText = text := by
  obtain ⟨inner, leading, all, _, covered⟩ := Token.readAll_eq true [] text
  rw [tokenize, all]
  exact covered

end LuaFold
