import LuaFold.Proofs.Token.Grammar
import LuaFold.Token.Literal

/-!
# Short string literals

A short string is read up to the first quote or line end that does not stand right behind a
backslash.  So a literal is read whole just when none of its escape sequences goes over a line
break any further than that, and otherwise it is left open at the line break.
-/

namespace LuaFold

namespace ShortString

/-! ## Escape sequences -/

/-- What passes a test that the quotes and the backslash fail is none of them. -/
theorem apart_of_passed
    {test : Char → Bool}
    {character : Char}
    (passed : test character = true)
    (double : test '"' = false)
    (single : test '\'' = false)
    (backslash : test '\\' = false) :
    character ≠ '"' ∧ character ≠ '\'' ∧ character ≠ '\\' :=
  ⟨Text.ne_of_passed passed double, Text.ne_of_passed passed single,
    Text.ne_of_passed passed backslash⟩

/-- Behind its first character an escape sequence has neither quotes nor backslashes. -/
theorem Escape.exists_tail
    {escape : Text}
    (isEscape : Escape escape) :
    ∃ first tail, escape = first :: tail ∧
      ∀ character ∈ tail, character ≠ '"' ∧ character ≠ '\'' ∧ character ≠ '\\' := by
  have hexadecimal {digit : Char} (isDigit : Text.isHexDigit digit = true) :
      digit ≠ '"' ∧ digit ≠ '\'' ∧ digit ≠ '\\' :=
    apart_of_passed isDigit (by decide) (by decide) (by decide)
  cases isEscape with
  | letter listed => exact ⟨_, [], rfl, by simp⟩
  | hexadecimal high low =>
      exact ⟨'x', _, rfl, List.forall_mem_cons.mpr
        ⟨hexadecimal high, List.forall_mem_singleton.mpr (hexadecimal low)⟩⟩
  | decimal some short isDigit =>
      obtain ⟨first, tail, rfl⟩ := List.exists_cons_of_ne_nil some
      exact ⟨first, tail, rfl, fun character member =>
        apart_of_passed (isDigit character (List.mem_cons_of_mem _ member))
          (by decide) (by decide) (by decide)⟩
  | codePoint some isDigit =>
      refine ⟨'u', _, rfl, List.forall_mem_cons.mpr ⟨by decide, ?_⟩⟩
      refine List.forall_mem_append.mpr ⟨?_, ?_⟩
      · exact fun digit member => hexadecimal (isDigit digit member)
      · exact List.forall_mem_singleton.mpr (by decide)
  | lineBreak listed =>
      simp only [List.mem_cons, List.not_mem_nil, or_false] at listed
      rcases listed with rfl | rfl | rfl | rfl
      · exact ⟨'\n', [], rfl, by simp⟩
      · exact ⟨'\r', [], rfl, by simp⟩
      · exact ⟨'\r', ['\n'], rfl, by simp⟩
      · exact ⟨'\n', ['\r'], rfl, by simp⟩
  | skipped isSpace =>
      exact ⟨'z', _, rfl, fun character member =>
        apart_of_passed (isSpace character member) (by decide) (by decide) (by decide)⟩

/-! ## Line breaks inside -/

variable {quote : Char}

/-- A text begins like the inside of a short string and has a line end behind that. -/
def Breaks (quote : Char) (text : Text) : Prop :=
  ∃ inside last behind, text = inside ++ last :: behind ∧ Inside quote inside ∧
    Text.isLineEnd last = true

theorem Inside.append
    {front behind : Text}
    (early : Inside quote front)
    (late : Inside quote behind) :
    Inside quote (front ++ behind) := by
  induction early with
  | nil => exact late
  | plain unquoted unescaped unbroken later ih => exact .plain unquoted unescaped unbroken ih
  | escaped character later ih => exact .escaped character ih

theorem Inside.breaks
    {front behind : Text}
    (early : Inside quote front)
    (late : Breaks quote behind) :
    Breaks quote (front ++ behind) := by
  obtain ⟨inside, last, rest, rfl, within, ends⟩ := late
  exact ⟨front ++ inside, last, rest, (List.append_assoc ..).symm, early.append within, ends⟩

theorem Breaks.append
    {text : Text}
    (breaks : Breaks quote text)
    (more : Text) :
    Breaks quote (text ++ more) := by
  obtain ⟨inside, last, behind, rfl, within, ends⟩ := breaks
  exact ⟨inside, last, behind ++ more, by simp, within, ends⟩

/-- A text of plain characters and line ends is inside as a whole, or up to its first line end. -/
theorem inside_or_breaks
    {text : Text}
    (apart : ∀ character ∈ text, character ≠ quote ∧ character ≠ '\\') :
    (∀ character ∈ text, Text.isLineEnd character = false) ∧ Inside quote text ∨
      (∃ character ∈ text, Text.isLineEnd character = true) ∧ Breaks quote text := by
  induction text with
  | nil => exact Or.inl ⟨by simp, .nil⟩
  | cons first rest ih =>
      obtain ⟨⟨unquoted, unescaped⟩, later⟩ := List.forall_mem_cons.mp apart
      cases ends : Text.isLineEnd first with
      | true =>
          exact Or.inr ⟨⟨first, List.mem_cons_self, ends⟩, [], first, rest, rfl, .nil, ends⟩
      | false =>
          rcases ih later with ⟨unbroken, within⟩ | ⟨⟨character, member, broken⟩, breaks⟩
          · exact Or.inl ⟨List.forall_mem_cons.mpr ⟨ends, unbroken⟩,
              .plain unquoted unescaped ends within⟩
          · exact Or.inr ⟨⟨character, List.mem_cons_of_mem _ member, broken⟩,
              (Inside.plain unquoted unescaped ends .nil).breaks breaks⟩

/-- A line end that is not escaped leaves a short string open. -/
theorem length_of_breaks
    {text : Text}
    (breaks : Breaks quote text)
    (count : Nat) :
    (length quote count text).2 = false := by
  obtain ⟨inside, last, behind, rfl, within, ends⟩ := breaks
  have ending : (last :: behind).head?.all Text.isLineEnd = true := ends
  rw [length_inside within, length_of_ends ending]

/-! ## Elements -/

/--
An element without line ends behind its second character is inside a short string, and one with
such a line end breaks it.
-/
theorem Element.inside_or_breaks
    {element : Text}
    (isElement : Element quote element)
    (isQuote : quote = '"' ∨ quote = '\'') :
    (∀ character ∈ element.drop 2, Text.isLineEnd character = false) ∧ Inside quote element ∨
      (∃ character ∈ element.drop 2, Text.isLineEnd character = true) ∧ Breaks quote element := by
  cases isElement with
  | plain unquoted unescaped unbroken =>
      exact Or.inl ⟨by simp, .plain unquoted unescaped unbroken .nil⟩
  | escaped isEscape =>
      obtain ⟨first, tail, rfl, apart⟩ := isEscape.exists_tail
      have head : Inside quote ['\\', first] := .escaped first .nil
      have other : ∀ character ∈ tail, character ≠ quote ∧ character ≠ '\\' := by
        intro character member
        obtain ⟨double, single, unescaped⟩ := apart character member
        rcases isQuote with rfl | rfl
        · exact ⟨double, unescaped⟩
        · exact ⟨single, unescaped⟩
      exact (ShortString.inside_or_breaks other).imp
        (And.imp_right head.append) (And.imp_right head.breaks)

namespace Literal

/-- What is between the quotes of a literal is inside, or it has a line end that is not. -/
theorem inside_or_breaks (literal : Literal) :
    literal.Unbroken ∧ Inside literal.quote literal.elements.flatten ∨
      ¬ literal.Unbroken ∧ Breaks literal.quote literal.elements.flatten := by
  obtain ⟨quote, elements, isQuote, isElement⟩ := literal
  simp only [Unbroken]
  induction elements with
  | nil => exact Or.inl ⟨by simp, .nil⟩
  | cons element elements ih =>
      obtain ⟨here, later⟩ := List.forall_mem_cons.mp isElement
      simp only [List.forall_mem_cons, List.flatten_cons]
      rcases here.inside_or_breaks isQuote with ⟨unbroken, within⟩ | ⟨broken, breaks⟩
      · rcases ih later with ⟨rest, behind⟩ | ⟨rest, behind⟩
        · exact Or.inl ⟨⟨unbroken, rest⟩, within.append behind⟩
        · exact Or.inr ⟨fun all => rest all.2, within.breaks behind⟩
      · obtain ⟨character, member, ends⟩ := broken
        refine Or.inr ⟨fun all => ?_, breaks.append _⟩
        exact Bool.false_ne_true ((all.1 character member).symm.trans ends)

/-- A literal without a break is closed by its own last quote. -/
theorem length_eq_of_unbroken
    {literal : Literal}
    (unbroken : literal.Unbroken)
    (rest : Text) :
    length literal.quote 1 (literal.elements.flatten ++ literal.quote :: rest) =
      (literal.text.length, true) := by
  have within : Inside literal.quote literal.elements.flatten :=
    (literal.inside_or_breaks.resolve_right fun broken => broken.1 unbroken).2
  exact length_closed literal.isQuote within rest

/-- What is recognised at a literal is a string, which is the literal just when it is closed. -/
theorem read_text
    (literal : Literal)
    (rest : Text) :
    ∃ first later, literal.text ++ rest = first :: later ∧
      (Lexeme.read first later).kind = .string ∧
      (literal.Unbroken → (Lexeme.read first later).cut.taken = literal.text ∧
        (Lexeme.read first later).fault? = none) ∧
      (¬ literal.Unbroken → (Lexeme.read first later).fault? = some .unfinishedString) := by
  have shown : literal.text ++ rest =
      literal.quote :: (literal.elements.flatten ++ literal.quote :: rest) := by
    simp [text]
  refine ⟨literal.quote, _, shown, ?_⟩
  rw [Lexeme.read_shortString literal.isQuote]
  refine ⟨rfl, fun unbroken => ?_, fun broken => ?_⟩
  · simp only [Lexeme.shortString, length_eq_of_unbroken unbroken, ← shown, Cut.characters,
      List.take_left]
    exact ⟨trivial, rfl⟩
  · have breaks := (literal.inside_or_breaks.resolve_left fun whole => broken whole.1).2
    simp only [Lexeme.shortString, length_of_breaks (breaks.append _)]
    rfl

end Literal

end ShortString

/-! ## Tokens -/

/--
Where a token begins at a short string literal, it is a string token with the text of the literal
and without a fault just when the literal is unbroken.  Otherwise it is reported as unfinished.
-/
theorem shortString_whole_iff_unbroken
    {front rest : Text}
    {offset : Nat}
    {token : Token}
    {literal : ShortString.Literal}
    (follows : Token.Follows front (literal.text ++ rest) offset token) :
    ((token.kind = .string ∧
        token.text = literal.text ∧
        ∀ entry ∈ Token.allFaults (tokenize (front ++ (literal.text ++ rest))),
          ¬ entry.2.Overlaps (token.span offset)) ↔
        literal.Unbroken) ∧
      (¬ literal.Unbroken → (.unfinishedString, token.span offset) ∈
        Token.allFaults (tokenize (front ++ (literal.text ++ rest)))) := by
  obtain ⟨first, later, same, recognised⟩ := follows.recognised
  obtain ⟨_, _, shown, isString, whole, broken⟩ := literal.read_text rest
  obtain ⟨rfl, rfl⟩ := List.cons.inj (same.symm.trans shown)
  refine ⟨⟨?_, fun unbroken => ?_⟩, fun breaks => ?_⟩
  · rintro ⟨_, _, silent⟩
    by_contra breaks
    have reported := recognised.fault?.trans (broken breaks)
    rw [follows.fault?_eq_none_iff.mpr silent] at reported
    cases reported
  · obtain ⟨taken, sound⟩ := whole unbroken
    exact ⟨recognised.kind.trans isString, recognised.text.trans taken,
      follows.fault?_eq_none_iff.mp (recognised.fault?.trans sound)⟩
  · exact Token.mem_allFaults_of_fault? follows.listed (recognised.fault?.trans (broken breaks))

/-- A literal with an escape sequence of each form, and with a line break of one character. -/
def ShortString.Literal.varied : Literal where
  quote := '\''
  elements := [['a'], ['\\', '\''], ['\\', 'x', '4', '1'], ['\\', '6', '5'],
    ['\\', 'u', '\x7b', '4', '1', '\x7d'], ['\\', 'z', ' ', '\t'], ['\\', '\n'], ['"']]
  isQuote := Or.inr rfl
  isElement := by
    simp only [List.forall_mem_cons, List.not_mem_nil, false_imp_iff, implies_true, and_true]
    exact ⟨.plain (by decide) (by decide) (by decide), .escaped (.letter (by decide)),
      .escaped (.hexadecimal (by decide) (by decide)),
      .escaped (.decimal (by decide) (by decide) (List.all_eq_true.mp (by decide))),
      .escaped (@Escape.codePoint ['4', '1'] (by decide) (List.all_eq_true.mp (by decide))),
      .escaped (.skipped (List.all_eq_true.mp (by decide))), .escaped (.lineBreak (by decide)),
      .plain (by decide) (by decide) (by decide)⟩

theorem shortString_whole_iff_unbroken_varied :
    let literal := ShortString.Literal.varied
    let token : Token := ⟨[], .string, literal.text, [], none⟩
    Token.Follows "x = ".toList (literal.text ++ "\ny".toList) 4 token ∧
      ((token.kind = .string ∧
          token.text = literal.text ∧
          ∀ entry ∈ Token.allFaults (tokenize ("x = ".toList ++ (literal.text ++ "\ny".toList))),
            ¬ entry.2.Overlaps (token.span 4)) ↔
          literal.Unbroken) ∧
      literal.Unbroken := by
  intro literal token
  have follows : Token.Follows "x = ".toList (literal.text ++ "\ny".toList) 4 token :=
    ⟨by decide +kernel, by decide, by decide +kernel⟩
  exact ⟨follows, (shortString_whole_iff_unbroken follows).1, by decide⟩

/-- A literal that goes over a line break of two characters. -/
def ShortString.Literal.continued : Literal where
  quote := '"'
  elements := [['a'], ['\\', '\r', '\n'], ['b']]
  isQuote := Or.inl rfl
  isElement := by
    simp only [List.forall_mem_cons, List.not_mem_nil, false_imp_iff, implies_true, and_true]
    exact ⟨.plain (by decide) (by decide) (by decide), .escaped (.lineBreak (by decide)),
      .plain (by decide) (by decide) (by decide)⟩

/-- Not every short string literal is read whole. -/
theorem not_whole_continued :
    let literal := ShortString.Literal.continued
    let token : Token := ⟨[], .string, ['"', 'a', '\\', '\r'], [], some .unfinishedString⟩
    Token.Follows [] (literal.text ++ []) 0 token ∧
      ¬ (token.kind = .string ∧
        token.text = literal.text ∧
        ∀ entry ∈ Token.allFaults (tokenize ([] ++ (literal.text ++ []))),
          ¬ entry.2.Overlaps (token.span 0)) := by
  intro literal token
  refine ⟨⟨by decide +kernel, by decide, by decide +kernel⟩, fun whole => ?_⟩
  exact absurd whole.2.1 (by decide)

end LuaFold
