import LuaFold.Proofs.Token.Occurrence
import LuaFold.Token.Grammar

/-!
# Tokens follow the lexical grammar

The tests and tables of the recognisers agree with what the lexical grammar writes out.  Each
recogniser takes what the lexical grammar prescribes of its kind of token.  So every token of a text
is as prescribed by the bytes where it begins, and the faults recorded for these bytes are the ones
that the grammar knows.
-/

namespace LuaFold

/-! ## Tests and tables -/

namespace Text

/-- A word is begun by a letter of the language. -/
theorem isLetter_eq_isWordStart : isLetter = isWordStart := by
  funext character
  have upper : character.isUpper = ('A' ≤ character && character ≤ 'Z') :=
    Bool.decide_and _ _
  have alpha : character.isAlpha =
      (character.isUpper || ('a' ≤ character && character ≤ 'z')) := rfl
  rw [isLetter, isWordStart, alpha, upper, Bool.or_comm (_ && _)]

/-- A word is gone on with by a letter or a digit. -/
theorem isLetterOrDigit_eq_isWordPart : isLetterOrDigit = isWordPart := by
  funext character
  have alphanum : character.isAlphanum =
      (character.isAlpha || ('0' ≤ character && character ≤ '9')) := rfl
  rw [isLetterOrDigit, isWordPart, isLetter_eq_isWordStart, isWordStart, alphanum,
    Bool.or_right_comm]

theorem isBreak_eq_isLineEnd : isBreak = isLineEnd := rfl

end Text

theorem LongBracket.ending_eq_closing (level : Nat) : ending level = closing level := rfl

namespace Kind

/-- The reserved words are the words of the language, each with the kind that has it. -/
theorem mem_reservedWords_iff
    {word : Text}
    {kind : Kind} :
    (word, kind) ∈ reservedWords ↔ kind.word? = some word := by
  constructor
  · intro listed
    have all : ∀ entry ∈ reservedWords, entry.2.word? = some entry.1 := by decide
    exact all _ listed
  · intro spelled
    cases kind <;> cases spelled <;> decide

/-- The operators are the symbols of the language, each with the kind that has it. -/
theorem mem_operators_iff
    {written : Text}
    {kind : Kind} :
    (written, kind) ∈ operators ↔ kind.symbol? = some written := by
  constructor
  · intro listed
    have all : ∀ entry ∈ operators, entry.2.symbol? = some entry.1 := by decide
    exact all _ listed
  · intro spelled
    cases kind <;> cases spelled <;> decide

end Kind

/-- What passes a test is not a character that fails it. -/
theorem Text.ne_of_passed
    {test : Char → Bool}
    {character other : Char}
    (passed : test character = true)
    (failed : test other = false) :
    character ≠ other := by
  rintro rfl
  exact Bool.false_ne_true (failed.symm.trans passed)

/-! ## Words -/

/-- The longest front part whose characters pass a test is a maximal run. -/
theorem Text.maximalRun_longest
    (test : Char → Bool)
    (text : Text) :
    MaximalRun test (Cut.longest test text).taken (Cut.longest test text).rest := by
  induction text with
  | nil => exact ⟨by simp [Cut.longest], rfl⟩
  | cons first rest ih =>
      by_cases passed : test first = true
      · refine ⟨?_, ?_⟩
        · simpa [Cut.longest, passed] using ih.inside
        · simpa [Cut.longest, passed] using ih.ends
      · exact ⟨by simp [Cut.longest, passed], by simp [Cut.longest, passed]⟩

/-- No word is reserved twice, so the first entry of a reserved word is its only one. -/
theorem Kind.ofWord_getD (word : Text) : OfWord word ((ofKeyword? word).getD .name) := by
  rw [ofKeyword?]
  cases found : reservedWords.find? fun entry => entry.1 = word with
  | none =>
      refine .name fun kind spelled => ?_
      have other := List.find?_eq_none.mp found _ (mem_reservedWords_iff.mpr spelled)
      simp at other
  | some entry =>
      obtain ⟨written, kind⟩ := entry
      obtain rfl : written = word := by simpa using List.find?_some found
      exact .reserved (mem_reservedWords_iff.mp (List.mem_of_find?_eq_some found))

/-! ## Long brackets -/

namespace Text

/-- A pattern that is found stands there, and nowhere before. -/
theorem indexOf?_go_eq_some
    {pattern text : Text}
    {passed place : Nat}
    (found : indexOf?.go pattern passed text = some place) :
    ∃ front behind,
      text = front ++ pattern ++ behind ∧
      place = passed + front.length ∧
      ∀ other, other ++ pattern <+: text → front.length ≤ other.length := by
  induction text generalizing passed with
  | nil =>
      rw [indexOf?.go] at found
      split at found
      · next here =>
        obtain ⟨behind, whole⟩ := List.isPrefixOf_iff_prefix.mp here
        cases found
        exact ⟨[], behind, by simpa using whole.symm, rfl, fun _ _ => Nat.zero_le _⟩
      · cases found
  | cons first rest ih =>
      rw [indexOf?.go] at found
      split at found
      · next here =>
        obtain ⟨behind, whole⟩ := List.isPrefixOf_iff_prefix.mp here
        cases found
        exact ⟨[], behind, by simpa using whole.symm, rfl, fun _ _ => Nat.zero_le _⟩
      · next elsewhere =>
        obtain ⟨front, behind, rfl, rfl, earliest⟩ := ih found
        refine ⟨first :: front, behind, rfl, by simp; omega, fun other stands => ?_⟩
        cases other with
        | nil => exact absurd (List.isPrefixOf_iff_prefix.mpr stands) elsewhere
        | cons character other =>
            have later := earliest other (List.cons_prefix_cons.mp stands).2
            simpa using later

/-- A pattern that is not found does not stand anywhere in the text. -/
theorem indexOf?_go_eq_none
    {pattern text : Text}
    {passed : Nat}
    (missed : indexOf?.go pattern passed text = none) :
    ¬ pattern <:+: text := by
  induction text generalizing passed with
  | nil =>
      rw [indexOf?.go] at missed
      split at missed
      · cases missed
      · next elsewhere =>
        intro stands
        rw [List.infix_nil.mp stands] at elsewhere
        exact elsewhere rfl
  | cons first rest ih =>
      rw [indexOf?.go] at missed
      split at missed
      · cases missed
      · next elsewhere =>
        intro stands
        rcases List.infix_cons_iff.mp stands with here | later
        · exact elsewhere (List.isPrefixOf_iff_prefix.mpr here)
        · exact ih missed later

end Text

namespace LongBracket

theorem length_opening (level : Nat) : (opening level).length = level + 2 := by
  simp [opening]

theorem takeWhile_equals
    (level : Nat)
    (behind : Text) :
    (List.replicate level '=' ++ '[' :: behind).takeWhile (· = '=') =
      List.replicate level '=' := by
  rw [List.takeWhile_append_of_pos (by simp)]
  simp

/-- A text has a level just when it begins with the opening bracket of the level. -/
theorem level?_eq_some_iff
    {text : Text}
    {level : Nat} :
    level? text = some level ↔ opening level <+: text := by
  constructor
  · intro found
    unfold level? at found
    split at found
    · next rest =>
      dsimp only at found
      split at found
      · next bracket =>
        cases found
        have equals : rest.takeWhile (· = '=') =
            List.replicate (rest.takeWhile (· = '=')).length '=' :=
          List.eq_replicate_iff.mpr ⟨rfl, fun character member => by
            simpa using (Text.maximalRun_longest (· = '=') rest).inside character member⟩
        have whole : rest.takeWhile (· = '=') ++ rest.dropWhile (· = '=') = rest :=
          List.takeWhile_append_dropWhile
        generalize rest.takeWhile (· = '=') = front at *
        rw [← whole, List.getElem?_append_right (Nat.le_refl _), Nat.sub_self,
          ← List.head?_eq_getElem?] at bracket
        obtain ⟨behind, same⟩ := List.head?_eq_some_iff.mp bracket
        refine ⟨behind, ?_⟩
        rw [← whole, same, opening, ← equals]
        simp
      · cases found
    · cases found
  · rintro ⟨behind, rfl⟩
    have rest : opening level ++ behind = '[' :: (List.replicate level '=' ++ '[' :: behind) := by
      simp [opening]
    rw [rest, level?, takeWhile_equals]
    simp

/-- Cutting a long bracket takes what the bracket takes. -/
theorem takes_cut
    {level : Nat}
    {text : Text}
    (opens : opening level <+: text) :
    Takes level (cut level text).1.taken (cut level text).1.rest (cut level text).2 := by
  obtain ⟨inner, rfl⟩ := opens
  unfold cut
  rw [List.drop_left' (length_opening level)]
  split
  · next place found =>
    obtain ⟨inside, behind, rfl, here, first⟩ := Text.indexOf?_go_eq_some found
    rw [← ending_eq_closing] at first ⊢
    have whole : opening level ++ (inside ++ ending level ++ behind) =
        opening level ++ inside ++ ending level ++ behind := by simp
    have taken : level + 2 + place + (level + 2) =
        (opening level ++ inside ++ ending level).length := by
      simp only [List.length_append, length_opening, ending_eq_closing, length_closing]
      omega
    simp only [Cut.characters, whole, taken, List.take_left, List.drop_left]
    exact .closed first
  · next missed => exact .unclosed (Text.indexOf?_go_eq_none missed)

end LongBracket

/-! ## Short strings -/

namespace ShortString

/-- The inside of a short string is passed over. -/
theorem length_inside
    {quote : Char}
    {inside : Text}
    (within : Inside quote inside)
    (count : Nat)
    (rest : Text) :
    length quote count (inside ++ rest) = length quote (count + inside.length) rest := by
  induction within generalizing count with
  | nil => rfl
  | plain unquoted unescaped unbroken later ih =>
      rw [List.cons_append, length_cons unescaped, ← Text.isBreak_eq_isLineEnd, unbroken,
        if_neg Bool.false_ne_true, if_neg unquoted, ih, List.length_cons]
      congr 1
      omega
  | escaped character later ih =>
      rw [List.cons_append, List.cons_append, length, ih, List.length_cons, List.length_cons]
      congr 1
      omega

/-- The inside of a short string goes up to a quote, the end of a line or a last backslash. -/
theorem exists_inside
    (quote : Char)
    (text : Text) :
    ∃ inside rest,
      text = inside ++ rest ∧
      Inside quote inside ∧
      (rest.head?.all Text.isBreak = true ∨ (∃ behind, rest = quote :: behind) ∨
        rest = ['\\']) := by
  rw [Text.isBreak_eq_isLineEnd]
  fun_induction length quote 0 text with
  | case1 count => exact ⟨[], [], rfl, .nil, Or.inl rfl⟩
  | case2 count => exact ⟨[], ['\\'], rfl, .nil, Or.inr (Or.inr rfl)⟩
  | case3 count second rest ih =>
      obtain ⟨inside, behind, rfl, within, ends⟩ := ih
      exact ⟨'\\' :: second :: inside, behind, rfl, .escaped second within, ends⟩
  | case4 count first rest alone escape ends =>
      exact ⟨[], first :: rest, rfl, .nil, Or.inl (by simpa using ends)⟩
  | case5 count rest alone escape ends =>
      exact ⟨[], quote :: rest, rfl, .nil, Or.inr (Or.inl ⟨rest, rfl⟩)⟩
  | case6 count first rest alone escape ends other ih =>
      obtain ⟨inside, behind, rfl, within, ending⟩ := ih
      have unbroken : Text.isLineEnd first = false := by simpa using ends
      rw [← Text.isBreak_eq_isLineEnd] at unbroken
      exact ⟨first :: inside, behind, rfl,
        .plain other (ne_escape alone escape) unbroken within, ending⟩

theorem length_of_ends
    {quote : Char}
    {rest : Text}
    (ends : rest.head?.all Text.isBreak = true)
    (count : Nat) :
    length quote count rest = (count, false) := by
  cases rest with
  | nil => rfl
  | cons first rest =>
      have broken : Text.isLineEnd first = true := ends
      have unescaped : first ≠ '\\' := by
        rintro rfl
        exact absurd broken (by decide)
      rw [length_cons unescaped, if_pos broken]

theorem length_quote
    {quote : Char}
    (isQuote : quote = '"' ∨ quote = '\'')
    (count : Nat)
    (rest : Text) :
    length quote count (quote :: rest) = (count + 1, true) := by
  rcases isQuote with rfl | rfl <;> rfl

/-- A short string is closed by the first quote behind its inside. -/
theorem length_closed
    {quote : Char}
    (isQuote : quote = '"' ∨ quote = '\'')
    {inside : Text}
    (within : Inside quote inside)
    (rest : Text) :
    length quote 1 (inside ++ quote :: rest) = ((quote :: (inside ++ [quote])).length, true) := by
  rw [length_inside within, length_quote isQuote]
  simp only [List.length_cons, List.length_append, List.length_nil, Prod.mk.injEq, and_true]
  omega

theorem takes_shortString
    {quote : Char}
    (isQuote : quote = '"' ∨ quote = '\'')
    (rest : Text) :
    Takes quote (Lexeme.shortString quote rest).cut.taken
      (Lexeme.shortString quote rest).cut.rest (length quote 1 rest).2 := by
  obtain ⟨inside, behind, rfl, within, ends⟩ := exists_inside quote rest
  have taken (more : Text) : quote :: (inside ++ more) = (quote :: inside) ++ more := rfl
  have front : 1 + inside.length = (quote :: inside).length := by
    rw [List.length_cons, Nat.add_comm]
  simp only [Lexeme.shortString, Cut.characters]
  rcases ends with ends | ⟨later, rfl⟩ | rfl
  · rw [length_inside within, length_of_ends ends, front, taken, List.take_left, List.drop_left]
    exact .unclosed within ends
  · have whole : quote :: (inside ++ quote :: later) = quote :: (inside ++ [quote]) ++ later := by
      simp
    rw [length_closed isQuote within, whole, List.take_left, List.drop_left]
    exact .closed within
  · have cutOff : 1 + inside.length + 1 = (quote :: (inside ++ ['\\'])).length := by
      simp
      omega
    rw [length_inside within, length, cutOff, List.take_length, List.drop_length]
    exact .unescaped within

end ShortString

/-! ## Operators -/

namespace Kind

/-- No operator begins one that is listed behind it. -/
theorem operators_pairwise :
    operators.Pairwise fun earlier later => ¬ earlier.1 <+: later.1 := by
  decide

/-- The first operator that fits is the longest one. -/
theorem longest_of_operator?
    {text written : Text}
    {kind : Kind}
    (found : operator? text = some (written, kind)) :
    ∀ entry ∈ operators, entry.1 <+: text → entry.1.length ≤ written.length := by
  obtain ⟨here, before, behind, all, none⟩ := List.find?_eq_some_iff_append.mp found
  have ordered := operators_pairwise
  rw [all] at ordered ⊢
  have later := (List.pairwise_cons.mp (List.pairwise_append.mp ordered).2.1).1
  intro entry listed stands
  rcases List.mem_append.mp listed with early | late
  · have missed := none entry early
    rw [List.isPrefixOf_iff_prefix.mpr stands] at missed
    cases missed
  · rcases List.mem_cons.mp late with rfl | late
    · exact Nat.le_refl _
    · by_contra longer
      exact later entry late (List.prefix_of_prefix_length_le
        (List.isPrefixOf_iff_prefix.mp here) stands (Nat.le_of_not_le longer))

theorem marked_symbol
    (first : Char)
    (rest : Text) :
    Marked (Lexeme.symbol (first :: rest)).kind (Lexeme.symbol (first :: rest)).cut.taken
      (Lexeme.symbol (first :: rest)).cut.rest := by
  unfold Lexeme.symbol
  split
  · next written kind found =>
    have listed := List.mem_of_find?_eq_some found
    have longest := longest_of_operator? found
    obtain ⟨stands, _⟩ := List.find?_eq_some_iff_append.mp found
    obtain ⟨behind, whole⟩ := List.isPrefixOf_iff_prefix.mp stands
    rw [← whole] at longest ⊢
    simp only [Cut.characters, List.take_left, List.drop_left]
    exact .operator (mem_operators_iff.mp listed) fun other symbol spelled prefixed =>
      longest _ (mem_operators_iff.mpr spelled) prefixed
  · next missed =>
    refine .unknown fun other symbol spelled stands => ?_
    exact List.find?_eq_none.mp missed _ (mem_operators_iff.mpr spelled)
      (List.isPrefixOf_iff_prefix.mpr stands)

theorem fault?_symbol (text : Text) : (Lexeme.symbol text).fault? = none := by
  unfold Lexeme.symbol
  split <;> rfl

theorem OfWord.ne_number
    {word : Text}
    {kind : Kind}
    (ofWord : OfWord word kind) :
    kind ≠ .number := by
  cases ofWord with
  | reserved spelled =>
      rintro rfl
      cases spelled
  | name free => decide

theorem Marked.ne_number
    {taken behind : Text}
    {kind : Kind}
    (marked : Marked kind taken behind) :
    kind ≠ .number := by
  cases marked with
  | operator spelled longest =>
      rintro rfl
      cases spelled
  | unknown none => decide

end Kind

/-! ## Recognised lexemes -/

theorem Numeral.begins_iff
    {first : Char}
    {rest : Text} :
    Begins (first :: rest) ↔
      (first.isDigit || (first = '.' && rest.head?.any Char.isDigit)) = true := by
  constructor
  · rintro (isDigit | isDigit)
    · simp [isDigit]
    · simp [isDigit]
  · intro begins
    rcases Bool.or_eq_true_iff.mp begins with digit | point
    · exact .digit digit
    · obtain ⟨same, behind⟩ := Bool.and_eq_true_iff.mp point
      obtain rfl := of_decide_eq_true same
      cases rest with
      | nil => cases behind
      | cons digit rest => exact .point behind

theorem Text.not_isWordStart_of_isDigit
    {character : Char}
    (isDigit : character.isDigit = true) :
    isWordStart character = false := by
  have other : character ≠ '_' := ne_of_passed isDigit (by decide)
  delta isWordStart Char.isAlpha Char.isUpper Char.isLower
  grind [Char.isDigit]

/-- Nothing that begins a numeral begins a word. -/
theorem Numeral.Begins.not_isWordStart
    {first : Char}
    {rest : Text}
    (begins : Begins (first :: rest)) :
    Text.isWordStart first = false := by
  cases begins with
  | digit isDigit => exact Text.not_isWordStart_of_isDigit isDigit
  | point isDigit => decide

namespace Lexeme

section Read

variable {first : Char} {rest : Text}

theorem read_word (start : Text.isWordStart first = true) :
    read first rest = word (first :: rest) :=
  if_pos start

theorem read_numeral (begins : Numeral.Begins (first :: rest)) :
    read first rest = numeral (first :: rest) := by
  rw [read, begins.not_isWordStart, if_neg Bool.false_ne_true,
    if_pos (Numeral.begins_iff.mp begins)]

theorem read_shortString (isQuote : first = '"' ∨ first = '\'') :
    read first rest = shortString first rest := by
  rcases isQuote with rfl | rfl <;> rfl

theorem read_longString
    {level : Nat}
    (opens : LongBracket.opening level <+: first :: rest) :
    read first rest = longString level (first :: rest) := by
  obtain rfl : first = '[' := by
    obtain ⟨behind, whole⟩ := opens
    exact (List.cons.inj whole).1.symm
  have found := LongBracket.level?_eq_some_iff.mpr opens
  simp only [read, found]
  rfl

/-- What begins in no other way is an operator or unknown. -/
theorem read_symbol
    (start : Text.isWordStart first = false)
    (unbegun : ¬ Numeral.Begins (first :: rest))
    (double : first ≠ '"')
    (single : first ≠ '\'')
    (unopened : ∀ level, ¬ LongBracket.opening level <+: first :: rest) :
    read first rest = symbol (first :: rest) := by
  have level : LongBracket.level? (first :: rest) = none :=
    Option.eq_none_iff_forall_ne_some.mpr fun level found =>
      unopened level (LongBracket.level?_eq_some_iff.mp found)
  rw [read, start, if_neg Bool.false_ne_true, if_neg (mt Numeral.begins_iff.mpr unbegun),
    if_neg (by simp [double, single]), level]

/-- What is recognised depends on how it begins. -/
theorem read_cases
    {motive : Lexeme (first :: rest) → Prop}
    (ofWord : Text.isWordStart first = true → motive (word (first :: rest)))
    (ofNumeral : Numeral.Begins (first :: rest) → motive (numeral (first :: rest)))
    (ofShortString : first = '"' ∨ first = '\'' → motive (shortString first rest))
    (ofLongString : ∀ level, LongBracket.opening level <+: first :: rest →
      motive (longString level (first :: rest)))
    (ofSymbol : Text.isWordStart first = false → ¬ Numeral.Begins (first :: rest) →
      first ≠ '"' → first ≠ '\'' → (∀ level, ¬ LongBracket.opening level <+: first :: rest) →
      motive (symbol (first :: rest))) :
    motive (read first rest) := by
  by_cases start : Text.isWordStart first = true
  · exact read_word start ▸ ofWord start
  by_cases begins : Numeral.Begins (first :: rest)
  · exact read_numeral begins ▸ ofNumeral begins
  by_cases isQuote : first = '"' ∨ first = '\''
  · exact read_shortString isQuote ▸ ofShortString isQuote
  by_cases opens : ∃ level, LongBracket.opening level <+: first :: rest
  · obtain ⟨level, opens⟩ := opens
    exact read_longString opens ▸ ofLongString level opens
  · obtain ⟨double, single⟩ := not_or.mp isQuote
    have unopened := not_exists.mp opens
    have wordless := Bool.eq_false_iff.mpr start
    exact read_symbol wordless begins double single unopened ▸
      ofSymbol wordless begins double single unopened

end Read

/-- Only what begins like a numeral is recognised as one. -/
theorem kind_read_eq_number_iff
    {first : Char}
    {rest : Text} :
    (read first rest).kind = .number ↔ Numeral.Begins (first :: rest) := by
  constructor
  · intro number
    by_contra unbegun
    by_cases start : Text.isWordStart first = true
    · rw [read_word start] at number
      exact (Kind.ofWord_getD _).ne_number number
    by_cases isQuote : first = '"' ∨ first = '\''
    · rw [read_shortString isQuote] at number
      cases number
    by_cases opens : ∃ level, LongBracket.opening level <+: first :: rest
    · obtain ⟨level, opens⟩ := opens
      rw [read_longString opens] at number
      cases number
    · rw [read_symbol (by simpa using start) unbegun (not_or.mp isQuote).1 (not_or.mp isQuote).2
        (not_exists.mp opens)] at number
      exact (Kind.marked_symbol first rest).ne_number number
  · intro begins
    rw [read_numeral begins]
    rfl

/-- What is recognised is as the lexical grammar prescribes. -/
theorem prescribed_read
    (first : Char)
    (rest : Text) :
    Prescribed (read first rest).kind (read first rest).cut.taken (read first rest).cut.rest
      (read first rest).fault? := by
  have whole := (read first rest).cut.whole
  refine ⟨?_, ?_, ?_, ?_, ?_⟩
  · rw [whole, Text.isLetter_eq_isWordStart, Text.isLetterOrDigit_eq_isWordPart]
    intro start
    rw [read_word start]
    exact ⟨Text.maximalRun_longest _ _, Kind.ofWord_getD _, rfl⟩
  · rw [whole]
    intro level opens
    rw [read_longString opens]
    exact ⟨rfl, _, LongBracket.takes_cut opens, rfl⟩
  · rw [whole]
    intro quote isQuote begins
    cases Option.some.inj begins
    rw [read_shortString isQuote]
    exact ⟨rfl, _, ShortString.takes_shortString isQuote rest, rfl⟩
  · rw [whole]
    exact kind_read_eq_number_iff
  · rw [whole, Text.isLetter_eq_isWordStart]
    intro start unopened double single other
    have symbol := read_symbol start (mt kind_read_eq_number_iff.mpr other)
      (fun same => double (congrArg some same)) (fun same => single (congrArg some same)) unopened
    rw [symbol]
    exact ⟨Kind.marked_symbol first rest, Kind.fault?_symbol _⟩

end Lexeme

/-! ## Tokens -/

/--
Every significant token of a text is what the lexical grammar prescribes at the offset where the
token begins, and the faults recorded for its bytes are the one that it is prescribed to have, if
any.
-/
theorem tokens_prescribed
    {text : Text}
    {offset : Nat}
    {token : Token}
    (listed : (offset, token) ∈ Token.layOut (tokenize text))
    (significant : token.kind ≠ .eof) :
    ∃ front behind, front ++ (token.text ++ behind) = text ∧
      (token.span offset).start = Text.size front ∧
      Lexeme.Prescribed token.kind token.text behind token.fault? ∧
      ∀ fault span, (fault, span) ∈ Token.allFaults (tokenize text) ∧
          span.Overlaps (token.span offset) ↔
        token.fault? = some fault ∧ span = token.span offset := by
  obtain ⟨front, rest, rfl, follows⟩ := Token.exists_follows listed significant
  obtain ⟨first, later, rfl, kind, taken, fault?⟩ := follows.recognised
  refine ⟨front, (Lexeme.read first later).cut.rest, ?_, follows.start, ?_, ?_⟩
  · rw [taken, (Lexeme.read first later).cut.whole]
  · rw [kind, taken, fault?]
    exact Lexeme.prescribed_read first later
  · intro fault span
    constructor
    · rintro ⟨found, overlaps⟩
      exact follows.fault_of_overlaps found overlaps
    · rintro ⟨broken, rfl⟩
      have inside := follows.start_lt_stop
      exact ⟨Token.mem_allFaults_of_fault? listed broken, inside, inside⟩

/-- A string whose second quote is escaped, so that the line ends before the string does. -/
theorem tokens_prescribed_escaped :
    let text := "x = 'a\\'b\ny".toList
    let token : Token := ⟨[], .string, "'a\\'b".toList, [], some .unfinishedString⟩
    (4, token) ∈ Token.layOut (tokenize text) ∧
      token.kind ≠ .eof ∧
      ∃ front behind, front ++ (token.text ++ behind) = text ∧
        (token.span 4).start = Text.size front ∧
        Lexeme.Prescribed token.kind token.text behind token.fault? ∧
        ∀ fault span, (fault, span) ∈ Token.allFaults (tokenize text) ∧
            span.Overlaps (token.span 4) ↔
          token.fault? = some fault ∧ span = token.span 4 := by
  intro text token
  have listed : (4, token) ∈ Token.layOut (tokenize text) := by decide +kernel
  exact ⟨listed, by decide, tokens_prescribed listed (by decide)⟩

end LuaFold
