import LuaFold.Proofs.Token.Numeral

/-!
# Trivia follows the lexical grammar

A run of trivia is read piece by piece, and each piece takes what the lexical grammar prescribes.
Neither a piece nor a token stops inside a run of blanks, so blank space is one piece from its first
blank to its last.  The trivia behind a token stops before the line does; what the next token has in
front of it therefore begins with a line break.
-/

namespace LuaFold

namespace Cut

variable {text : Text} (cut : Cut text)

theorem take_taken : text.take cut.taken.length = cut.taken :=
  calc
    _ = (cut.taken ++ cut.rest).take cut.taken.length := by rw [cut.whole]
    _ = cut.taken := List.take_left

theorem drop_taken : text.drop cut.taken.length = cut.rest :=
  calc
    _ = (cut.taken ++ cut.rest).drop cut.taken.length := by rw [cut.whole]
    _ = cut.rest := List.drop_left

end Cut

/-! ## Blanks -/

namespace Text

/-- No run of blanks goes over the place between two parts of a text. -/
def Parted (front behind : Text) : Prop :=
  front.getLast?.any isBlank = true → behind.head?.any isBlank = false

theorem isBlank_of_isWordPart
    {character : Char}
    (isPart : isWordPart character = true) :
    isBlank character = false := by
  have space : character ≠ ' ' := ne_of_passed isPart (by decide)
  have tab : character ≠ '\t' := ne_of_passed isPart (by decide)
  have vertical : character ≠ '\x0b' := ne_of_passed isPart (by decide)
  have feed : character ≠ '\x0c' := ne_of_passed isPart (by decide)
  simp [isBlank, space, tab, vertical, feed]

theorem isBlank_of_isLineEnd
    {character : Char}
    (ends : isLineEnd character = true) :
    isBlank character = false := by
  obtain rfl | rfl : character = '\n' ∨ character = '\r' := by simpa [isLineEnd] using ends
  · decide
  · decide

namespace Parted

variable {front taken behind : Text}

theorem of_behind (printed : behind.head?.any isBlank = false) : Parted front behind :=
  fun _ => printed

theorem of_front (printed : ∀ character ∈ front, isBlank character = false) :
    Parted front behind := by
  intro blank
  obtain ⟨last, isLast, passed⟩ := Option.any_eq_true _ _ |>.mp blank
  exact absurd passed (by simp [printed last (List.mem_of_getLast? isLast)])

theorem of_last
    (front : Text)
    {last : Char}
    (printed : isBlank last = false) :
    Parted (front ++ [last]) behind := by
  intro blank
  simp [printed] at blank

/-- A place behind a part that is not empty does not depend on what is before the part. -/
theorem append_left
    (parted : Parted taken behind)
    (nonempty : taken ≠ [])
    (front : Text) :
    Parted (front ++ taken) behind := by
  rwa [Parted, List.getLast?_append, List.getLast?_eq_some_getLast nonempty, Option.some_or,
    ← List.getLast?_eq_some_getLast nonempty]

end Parted

/-- What goes up to the end of a line has no blank behind it. -/
theorem not_isBlank_of_ends
    {behind : Text}
    (ends : behind.head?.any (fun character => !isLineEnd character) = false) :
    behind.head?.any isBlank = false :=
  any_head?_of_imp ends fun character blank => by
    rw [Bool.not_eq_true']
    by_contra broken
    exact Bool.false_ne_true
      ((isBlank_of_isLineEnd (Bool.eq_true_of_not_eq_false broken)).symm.trans blank)

end Text

/-! ## Parts do not stop inside blanks -/

theorem LongBracket.Takes.parted
    {level : Nat}
    {taken behind : Text}
    {closed : Bool}
    (takes : Takes level taken behind closed) :
    Text.Parted taken behind := by
  cases takes with
  | @closed inside behind first =>
      have last : opening level ++ inside ++ ending level =
          (opening level ++ inside ++ ']' :: List.replicate level '=') ++ [']'] := by
        simp [ending]
      rw [last]
      exact .of_last _ (by decide)
  | unclosed never => exact .of_behind rfl

theorem ShortString.Takes.parted
    {quote : Char}
    {taken behind : Text}
    {closed : Bool}
    (takes : Takes quote taken behind closed)
    (isQuote : quote = '"' ∨ quote = '\'') :
    Text.Parted taken behind := by
  cases takes with
  | @closed inside behind within =>
      have printed : Text.isBlank quote = false := by rcases isQuote with rfl | rfl <;> decide
      exact .of_last (quote :: inside) printed
  | unclosed within ends =>
      refine .of_behind (Text.not_isBlank_of_ends ?_)
      cases behind with
      | nil => rfl
      | cons first rest => simpa [Text.isBreak_eq_isLineEnd] using ends
  | unescaped within => exact .of_behind rfl

theorem Kind.Marked.parted
    {kind : Kind}
    {taken behind : Text}
    (marked : Marked kind taken behind)
    (printed : taken.head?.any Text.isBlank = false) :
    Text.Parted taken behind := by
  cases marked with
  | operator spelled longest =>
      have all : ∀ entry ∈ operators, entry.1.any Text.isBlank = false := by decide
      have printed := List.any_eq_false.mp (all _ (mem_operators_iff.mpr spelled))
      exact .of_front fun character member => Bool.eq_false_iff.mpr (printed character member)
  | unknown none => exact .of_front (by simpa using printed)

namespace Numeral

/-- The characters that a numeral may be written with. -/
theorem Parts.Spelled.not_isBlank
    {parts : Parts}
    (spelled : parts.Spelled) :
    ∀ character ∈ parts.text, Text.isBlank character = false := by
  have ofDigit {digit : Char} (isDigit : parts.isDigit digit = true) :
      Text.isBlank digit = false :=
    Text.isBlank_of_isWordPart (isWordPart_of_isDigit isDigit)
  intro character member
  simp only [text, List.mem_append] at member
  rcases member with isBase | isWhole | isFraction | isExponent
  · cases base : parts.base? with
    | none => simp [base] at isBase
    | some letter =>
        have isLetter := spelled.base letter base
        simp only [base, Option.elim_some, List.mem_cons, List.not_mem_nil, or_false] at isBase
        rcases isBase with rfl | rfl
        · decide
        · rcases isLetter with rfl | rfl <;> decide
  · exact ofDigit (spelled.whole character isWhole)
  · cases fraction : parts.fraction? with
    | none => simp [fraction, fractionText] at isFraction
    | some digits =>
        rw [fraction, fractionText, Option.elim_some] at isFraction
        rcases List.mem_cons.mp isFraction with rfl | isDigit
        · decide
        · exact ofDigit (spelled.fraction digits fraction character isDigit)
  · cases exponent : parts.exponent? with
    | none => simp [exponent, exponentText] at isExponent
    | some written =>
        obtain ⟨isMark, isSign, isDigit⟩ := spelled.exponent written exponent
        rw [exponent, exponentText, Option.elim_some, Exponent.text] at isExponent
        simp only [List.mem_cons, List.mem_append, Option.mem_toList] at isExponent
        rcases isExponent with rfl | sign | digit
        · exact Text.isBlank_of_isWordPart (isMark_cases isMark).1
        · rcases isSign character sign with rfl | rfl <;> decide
        · exact Text.isBlank_of_isWordPart (Text.isWordPart_of_isDigit (isDigit character digit))

theorem parted_numeral
    {text : Text}
    (begins : Begins text)
    (behind : Text) :
    Text.Parted (Lexeme.numeral text).cut.taken behind := by
  obtain ⟨parts, spelled, _, same⟩ := exists_parts begins
  refine .of_front fun character member => ?_
  rcases List.mem_append.mp member with early | late
  · exact spelled.not_isBlank character (same ▸ early)
  · have passed : Text.isWordPart character = true ∨ character = '.' := by
      unfold spoiled at late
      split at late
      · simpa using (Text.maximalRun_longest _ _).inside character late
      · cases late
    rcases passed with isPart | rfl
    · exact Text.isBlank_of_isWordPart isPart
    · decide

end Numeral

/-- A token does not stop inside a run of blanks, unless it begins with one. -/
theorem Lexeme.parted_read
    {first : Char}
    {rest : Text}
    (printed : Text.isBlank first = false) :
    Text.Parted (read first rest).cut.taken (read first rest).cut.rest := by
  refine read_cases (motive := fun lexeme => Text.Parted lexeme.cut.taken lexeme.cut.rest)
    ?word ?numeral ?shortString ?longString ?symbol
  case word =>
    intro _
    exact .of_front fun character member =>
      Text.isBlank_of_isWordPart ((Text.maximalRun_longest _ _).inside character member)
  case numeral =>
    intro begins
    exact Numeral.parted_numeral begins _
  case shortString =>
    intro isQuote
    exact (ShortString.takes_shortString isQuote rest).parted isQuote
  case longString =>
    intro level opens
    exact (LongBracket.takes_cut opens).parted
  case symbol =>
    intro _ _ _ _ _
    refine (Kind.marked_symbol first rest).parted ?_
    have whole := (symbol (first :: rest)).cut.whole
    cases taken : (symbol (first :: rest)).cut.taken with
    | nil => rfl
    | cons character others =>
        rw [taken, List.cons_append] at whole
        rw [(List.cons.inj whole).1]
        exact printed

namespace Trivia

/-- A piece of trivia does not stop inside a run of blanks. -/
theorem Prescribed.parted
    {before behind : Text}
    {piece : Trivia}
    (prescribed : Prescribed before behind piece) :
    Text.Parted piece.text behind := by
  cases prescribed with
  | whitespace nonempty begins maximal => exact .of_behind maximal.ends
  | lineFeed => exact .of_last [] (by decide)
  | pair => exact .of_last ['\r'] (by decide)
  | carriageReturn single => exact .of_last [] (by decide)
  | lineComment unopened maximal => exact .of_behind (Text.not_isBlank_of_ends maximal.ends)
  | firstLine start maximal => exact .of_behind (Text.not_isBlank_of_ends maximal.ends)
  | @blockComment level bracket closed takes =>
      have nonempty : bracket ≠ [] := by cases takes <;> simp [LongBracket.opening]
      exact takes.parted.append_left nonempty ['-', '-']

/-! ## Pieces and runs -/

/-- A line feed, or a carriage return with the line feed behind it if there is one. -/
theorem prescribed_lineBreak
    {first : Char}
    {rest : Text}
    (before : Text)
    (ends : Text.isLineEnd first = true) :
    Prescribed before (lineBreak (first :: rest)).rest
      ⟨.newline, (lineBreak (first :: rest)).taken, none⟩ := by
  unfold lineBreak
  obtain rfl | rfl : first = '\n' ∨ first = '\r' := by simpa [Text.isLineEnd] using ends
  · exact .lineFeed
  · cases rest with
    | nil => exact .carriageReturn (by simp [Cut.characters])
    | cons second rest =>
        by_cases feed : second = '\n'
        · subst feed
          exact .pair
        · have single : ¬ ('\r' :: second :: rest)[1]? = some '\n' := by simpa using feed
          rw [if_neg (by simpa using feed)]
          exact .carriageReturn (by simpa [Cut.characters] using feed)

theorem prescribed_blockComment
    (before : Text)
    {rest : Text}
    {level : Nat}
    (opens : LongBracket.level? rest = some level) :
    let bracket := LongBracket.cut level rest
    let cut := Cut.characters (2 + bracket.1.taken.length) ('-' :: '-' :: rest)
    Prescribed before cut.rest
      ⟨.blockComment, cut.taken, if bracket.2 then none else some .unfinishedLongComment⟩ := by
  intro bracket cut
  have takes := LongBracket.takes_cut (LongBracket.level?_eq_some_iff.mp opens)
  have taken : cut.taken = '-' :: '-' :: bracket.1.taken := by
    simp only [cut, Cut.characters, Nat.add_comm 2, List.take_succ_cons, bracket.1.take_taken]
  have behind : cut.rest = bracket.1.rest := by
    simp only [cut, Cut.characters, Nat.add_comm 2, List.drop_succ_cons, bracket.1.drop_taken]
  rw [taken, behind]
  exact .blockComment takes

theorem prescribed_lineComment
    (before : Text)
    {rest : Text}
    (unopened : LongBracket.level? rest = none) :
    let cut := Cut.longest (fun character => !Text.isLineEnd character) ('-' :: '-' :: rest)
    Prescribed before cut.rest ⟨.lineComment, cut.taken, none⟩ := by
  intro cut
  have run : Text.MaximalRun _ cut.taken cut.rest := Text.maximalRun_longest _ _
  have whole := cut.whole
  have taken : cut.taken = '-' :: '-' :: rest.takeWhile fun character =>
      !Text.isLineEnd character := by
    simp [cut, Cut.longest, Text.isLineEnd]
  rw [taken] at run whole ⊢
  have behind : (rest.takeWhile fun character => !Text.isLineEnd character) ++ cut.rest = rest := by
    simpa using whole
  refine .lineComment (fun level isOpen => ?_) run
  rw [behind] at isOpen
  have opens := LongBracket.level?_eq_some_iff.mpr isOpen
  rw [unopened] at opens
  cases opens

/-- A comment goes on to the end of its line, unless it is a long bracket. -/
theorem prescribed_comment (before rest : Text) :
    let found := comment ('-' :: '-' :: rest)
    Prescribed before found.2.1.rest ⟨found.1, found.2.1.taken, found.2.2⟩ := by
  have drops : ('-' :: '-' :: rest).drop 2 = rest := rfl
  simp only [comment, drops]
  cases opens : LongBracket.level? rest with
  | some level => exact prescribed_blockComment before opens
  | none => exact prescribed_lineComment before opens

variable {before text rest : Text} {piece : Trivia} {lineBreaks : Bool}

/-- A piece takes what is prescribed where no blank stands before it. -/
theorem prescribed_read?
    (parted : Text.Parted before text)
    (read : read? lineBreaks text = some (piece, rest)) :
    Prescribed before rest piece := by
  cases text with
  | nil => cases read
  | cons first later =>
      simp only [read?] at read
      split at read
      · next blank =>
        cases read
        have begins : before.getLast?.any Text.isBlank = false := by
          by_contra blanks
          have printed := parted (Bool.eq_true_of_not_eq_false blanks)
          simp [blank] at printed
        refine .whitespace ?_ begins (Text.maximalRun_longest Text.isBlank (first :: later))
        simp [Cut.longest, blank]
      split at read
      · next breaks =>
        cases read
        exact prescribed_lineBreak before (Bool.and_eq_true_iff.mp breaks).2
      split at read
      · next hyphens =>
        cases read
        simp only [Bool.and_eq_true, decide_eq_true_eq] at hyphens
        obtain ⟨rfl, second⟩ := hyphens
        obtain ⟨tail, rfl⟩ := List.head?_eq_some_iff.mp second
        exact prescribed_comment before tail
      · cases read

/-- Each piece in a run of trivia is read where the pieces before it stop. -/
theorem exists_read?_of_readRun
    {early late : List Trivia}
    (run : (readRun lineBreaks [] text).1 = early ++ piece :: late) :
    ∃ ahead behind, early.flatMap Trivia.text ++ ahead = text ∧
      read? lineBreaks ahead = some (piece, behind) ∧
      ∀ before, Text.Parted before text →
        Text.Parted (before ++ early.flatMap Trivia.text) ahead := by
  induction early generalizing text with
  | nil =>
      cases read : read? lineBreaks text with
      | none => simp [readRun_of_none read] at run
      | some found =>
          obtain ⟨first, rest⟩ := found
          rw [readRun_cons read] at run
          obtain ⟨rfl, _⟩ := List.cons.inj run
          exact ⟨text, rest, rfl, read, fun before parted => by simpa using parted⟩
  | cons earlier early ih =>
      cases read : read? lineBreaks text with
      | none => simp [readRun_of_none read] at run
      | some found =>
          obtain ⟨first, rest⟩ := found
          rw [readRun_cons read] at run
          obtain ⟨rfl, others⟩ := List.cons.inj run
          obtain ⟨ahead, behind, whole, found, next⟩ := ih others
          refine ⟨ahead, behind, ?_, found, fun before parted => ?_⟩
          · rw [List.flatMap_cons, List.append_assoc, whole, read?_text_append read]
          · rw [List.flatMap_cons, ← List.append_assoc]
            exact next _ ((prescribed_read? parted read).parted.append_left
              (read?_text_ne_nil read) before)

/-- In a run of trivia each piece takes what is prescribed. -/
theorem prescribed_readRun
    (parted : Text.Parted before text)
    {early late : List Trivia}
    (run : (readRun lineBreaks [] text).1 = early ++ piece :: late) :
    ∃ behind, early.flatMap Trivia.text ++ (piece.text ++ behind) = text ∧
      Prescribed (before ++ early.flatMap Trivia.text) behind piece := by
  obtain ⟨ahead, behind, whole, read, next⟩ := exists_read?_of_readRun run
  exact ⟨behind, by rw [read?_text_append read, whole], prescribed_read? (next before parted) read⟩

theorem prescribed_firstLine? (found : firstLine? text = some (piece, rest)) :
    Prescribed [] rest piece := by
  unfold firstLine? at found
  split at found
  · next mark =>
    cases found
    obtain ⟨later, rfl⟩ := List.head?_eq_some_iff.mp mark
    have run := Text.maximalRun_longest (fun character => !Text.isLineEnd character)
      ('#' :: later)
    have taken : (Cut.longest (fun character => !Text.isLineEnd character) ('#' :: later)).taken =
        '#' :: later.takeWhile fun character => !Text.isLineEnd character := by
      simp [Cut.longest, Text.isLineEnd]
    rw [taken] at run ⊢
    exact .firstLine rfl run
  · cases found

/-- In front of a token each piece takes what is prescribed. -/
theorem prescribed_readLeading
    {atStart : Bool}
    (start : atStart = true → before = [])
    (parted : Text.Parted before text)
    {early late : List Trivia}
    (run : (readLeading atStart text).1 = early ++ piece :: late) :
    ∃ behind, early.flatMap Trivia.text ++ (piece.text ++ behind) = text ∧
      Prescribed (before ++ early.flatMap Trivia.text) behind piece := by
  rw [readLeading_eq] at run
  cases found : if atStart then firstLine? text else none with
  | none =>
      rw [found] at run
      exact prescribed_readRun parted run
  | some line =>
      rw [found] at run
      obtain ⟨first, rest⟩ := line
      obtain ⟨isStart, found⟩ : atStart = true ∧ firstLine? text = some (first, rest) := by
        cases atStart <;> simp_all
      obtain rfl := start isStart
      obtain ⟨whole, nonempty⟩ := firstLine?_eq_some found
      have line := prescribed_firstLine? found
      cases early with
      | nil =>
          obtain ⟨rfl, _⟩ := List.cons.inj run
          exact ⟨rest, whole, line⟩
      | cons earlier early =>
          obtain ⟨rfl, others⟩ := List.cons.inj run
          obtain ⟨behind, inside, prescribed⟩ := prescribed_readRun line.parted others
          refine ⟨behind, ?_, prescribed⟩
          rw [List.flatMap_cons, List.append_assoc, inside, whole]

/-! ## Line breaks -/

theorem not_isBlank_of_read? (stops : read? lineBreaks text = none) :
    text.head?.any Text.isBlank = false := by
  cases text with
  | nil => rfl
  | cons first rest => exact (read?_cons_eq_none.mp stops).1

/-- Where line breaks do not count, no line break is read. -/
theorem kind_ne_newline (read : read? false text = some (piece, rest)) :
    piece.kind ≠ .newline := by
  cases text with
  | nil => cases read
  | cons first later =>
      simp only [read?, Bool.false_and, Bool.false_eq_true, ↓reduceIte] at read
      split at read
      · cases read
        exact TriviaKind.noConfusion
      split at read
      · cases read
        unfold comment
        split
        · exact TriviaKind.noConfusion
        · exact TriviaKind.noConfusion
      · cases read

/-- What is read only where line breaks count is a line break. -/
theorem kind_eq_newline
    (stops : read? false text = none)
    (read : read? true text = some (piece, rest)) :
    piece.kind = .newline := by
  cases text with
  | nil => cases read
  | cons first later =>
      obtain ⟨printed, _, single⟩ := read?_cons_eq_none.mp stops
      simp only [read?, printed, Bool.false_eq_true, ↓reduceIte] at read
      split at read
      · cases read
        rfl
      split at read
      · next hyphens => exact absurd (by simpa using hyphens) single
      · cases read

end Trivia

/-! ## Tokens -/

namespace Token

theorem leading_readNext
    (atStart : Bool)
    (text : Text) :
    (readNext atStart text).1.leading = (Trivia.readLeading atStart text).1 := by
  unfold readNext
  split <;> simp_all [endOfText]

/-- What has trivia behind it is significant. -/
theorem kind_ne_eof_of_trailing
    {atStart : Bool}
    {text : Text}
    {token : Token}
    (read : (readNext atStart text).1 = token)
    (more : token.trailing ≠ []) :
    token.kind ≠ .eof := by
  subst read
  intro ends
  obtain ⟨leading, none⟩ := readLeading_of_eof ends
  rw [readNext_of_nil none] at more
  exact more rfl

section Listed

variable {text : Text} {early late : List Token} {token : Token}
  (tokens : tokenize text = early ++ token :: late)
include tokens

/-- Each piece in front of a token takes what is prescribed. -/
theorem prescribed_leading
    {front behind : List Trivia}
    {piece : Trivia}
    (leading : token.leading = front ++ piece :: behind) :
    ∃ rest, early.flatMap fullText ++ front.flatMap Trivia.text ++ (piece.text ++ rest) = text ∧
      Trivia.Prescribed (early.flatMap fullText ++ front.flatMap Trivia.text) rest piece := by
  obtain ⟨ahead, whole, rfl, stops⟩ := readAll_ahead tokens
  rw [leading_readNext] at leading
  have start : (true && early.isEmpty) = true → early.flatMap fullText = [] := by
    intro first
    rw [List.isEmpty_iff.mp first, List.flatMap_nil]
  have parted : Text.Parted (early.flatMap fullText) ahead := by
    cases early with
    | nil => exact .of_front (by simp)
    | cons _ _ => exact .of_behind (Trivia.not_isBlank_of_read? (stops (List.cons_ne_nil _ _)))
  obtain ⟨rest, inside, prescribed⟩ := Trivia.prescribed_readLeading start parted leading
  exact ⟨rest, by rw [List.append_assoc, inside, whole], prescribed⟩

/-- Each piece behind a token takes what is prescribed. -/
theorem prescribed_trailing
    {front behind : List Trivia}
    {piece : Trivia}
    (trailing : token.trailing = front ++ piece :: behind) :
    ∃ before rest, before ++ (piece.text ++ rest) = text ∧
      before = early.flatMap fullText ++ (token.leading.flatMap Trivia.text ++ token.text) ++
        front.flatMap Trivia.text ∧
      Trivia.Prescribed before rest piece := by
  obtain ⟨ahead, whole, next, _⟩ := readAll_ahead tokens
  have significant := kind_ne_eof_of_trailing next (by simp [trailing])
  obtain ⟨first, later, recognised, inside, stops, others⟩ := recognised_readNext next significant
  have parted := (Lexeme.parted_read (Trivia.read?_cons_eq_none.mp stops).1).append_left
    (Lexeme.taken_read_ne_nil first later)
    (early.flatMap fullText ++ token.leading.flatMap Trivia.text)
  obtain ⟨rest, run, prescribed⟩ := Trivia.prescribed_readRun parted (others.symm.trans trailing)
  rw [← recognised.text] at prescribed
  refine ⟨_, rest, ?_, by rw [List.append_assoc _ _ token.text], prescribed⟩
  have cut := (Lexeme.read first later).cut.whole
  rw [← whole, ← inside, ← cut, ← run, recognised.text]
  simp

end Listed

/-- Each piece of trivia takes what is prescribed where it stands. -/
theorem exists_prescribed
    {text : Text}
    {offset : Nat}
    {token : Token}
    (listed : (offset, token) ∈ layOut (tokenize text))
    {start : Nat}
    {piece : Trivia}
    (placed : (start, piece) ∈ token.leadingPlaced offset ++ token.trailingPlaced offset) :
    ∃ before behind,
      before ++ (piece.text ++ behind) = text ∧
      start = Text.size before ∧
      Trivia.Prescribed before behind piece := by
  obtain ⟨early, late, tokens, rfl⟩ := Text.exists_split_of_mem_layOut listed
  rcases List.mem_append.mp placed with leading | trailing
  · obtain ⟨front, behind, pieces, rfl⟩ := Text.exists_split_of_mem_layOut leading
    obtain ⟨rest, whole, prescribed⟩ := prescribed_leading tokens pieces
    exact ⟨_, rest, whole, by simp [sum_width, Trivia.sum_width], prescribed⟩
  · obtain ⟨front, behind, pieces, rfl⟩ := Text.exists_split_of_mem_layOut trailing
    obtain ⟨before, rest, whole, rfl, prescribed⟩ := prescribed_trailing tokens pieces
    refine ⟨_, rest, whole, ?_, prescribed⟩
    simp [sum_width, Trivia.sum_width, span, Trivia.runWidth_eq_size, innerWidth, Nat.add_assoc]

end Token

/--
The trivia of a text.  Each piece takes what the lexical grammar prescribes, and the faults recorded
for its bytes are the one that it is prescribed to have, if any.  No line break stands behind a
token; what stands in front of a token, if it is not the first one, begins with a line break.
-/
structure Trivia.Arranged (text : Text) : Prop where
  prescribed : ∀ offset token, (offset, token) ∈ Token.layOut (tokenize text) →
    ∀ start piece, (start, piece) ∈ token.leadingPlaced offset ++ token.trailingPlaced offset →
      ∃ before behind, before ++ (piece.text ++ behind) = text ∧ start = Text.size before ∧
        Trivia.Prescribed before behind piece ∧
        ∀ fault span, (fault, span) ∈ Token.allFaults (tokenize text) ∧
            span.Overlaps ⟨start, start + piece.width⟩ ↔
          piece.fault? = some fault ∧ span = ⟨start, start + piece.width⟩
  trailing : ∀ token ∈ tokenize text, ∀ piece ∈ token.trailing, piece.kind ≠ .newline
  leading : ∀ early token late, tokenize text = early ++ token :: late → early ≠ [] →
    ∀ piece ∈ token.leading.head?, piece.kind = .newline

theorem Trivia.Prescribed.text_ne_nil
    {before behind : Text}
    {piece : Trivia}
    (prescribed : Prescribed before behind piece) :
    piece.text ≠ [] := by
  cases prescribed with
  | whitespace nonempty begins maximal => exact nonempty
  | _ => exact List.cons_ne_nil _ _

/-- The trivia of every text is arranged as the lexical grammar prescribes. -/
theorem trivia_arranged (text : Text) : Trivia.Arranged text := by
  refine ⟨fun offset token listed start piece placed => ?_, fun token member piece inside => ?_,
    fun early token late tokens more piece first => ?_⟩
  · obtain ⟨before, behind, whole, place, prescribed⟩ := Token.exists_prescribed listed placed
    refine ⟨before, behind, whole, place, prescribed, fun fault span => ?_⟩
    have stretch := Token.mem_allStretches_of_trivia listed placed
    constructor
    · rintro ⟨found, overlaps⟩
      exact Token.own_fault_of_overlaps stretch found overlaps
    · rintro ⟨broken, rfl⟩
      have positive : start < start + piece.width :=
        Nat.lt_add_of_pos_right (Text.size_pos prescribed.text_ne_nil)
      exact ⟨Token.mem_allFaults_of_stretch stretch broken, positive, positive⟩
  · obtain ⟨early, late, tokens⟩ := List.append_of_mem member
    obtain ⟨ahead, _, next, _⟩ := Token.readAll_ahead tokens
    have significant := Token.kind_ne_eof_of_trailing next (List.ne_nil_of_mem inside)
    obtain ⟨_, _, _, _, _, trailing⟩ := Token.recognised_readNext next significant
    obtain ⟨front, back, pieces⟩ := List.append_of_mem inside
    obtain ⟨_, _, _, read, _⟩ := Trivia.exists_read?_of_readRun (trailing.symm.trans pieces)
    exact Trivia.kind_ne_newline read
  · obtain ⟨ahead, _, rfl, stops⟩ := Token.readAll_ahead tokens
    obtain ⟨others, leading⟩ := List.head?_eq_some_iff.mp first
    have run : (Trivia.readRun true [] ahead).1 = [] ++ piece :: others := by
      have unstarted : (true && early.isEmpty) = false := by simp [more]
      rwa [Token.leading_readNext, unstarted] at leading
    obtain ⟨_, _, here, read, _⟩ := Trivia.exists_read?_of_readRun run
    rw [List.flatMap_nil, List.nil_append] at here
    subst here
    exact Trivia.kind_eq_newline (stops more) read

end LuaFold
