import LuaFold.Proofs.Token.Scanner
import Mathlib.Data.List.Find

/-!
# Texts that go on in another line

A text may go on behind a line feed.  What is read of it stays what it was, except that the
trivia at its end runs on through the line feed.  For a line feed belongs to no token, and to
a comment or a string only as long as these are open; and then they are broken at the end of
the text.
-/

namespace LuaFold

/-! ## Characters -/

namespace Text

variable {behind : Text}

/-- What stops at a line feed takes the same of a text that goes on behind one. -/
theorem takeWhile_line
    {test : Char → Bool}
    (stops : test '\n' = false)
    (text : Text) :
    (text ++ '\n' :: behind).takeWhile test = text.takeWhile test := by
  induction text with
  | nil => simp [stops]
  | cons first rest ih =>
      by_cases passed : test first = true
      · simp [passed, ih]
      · simp [passed]

theorem getElem?_line
    {character : Char}
    (other : character ≠ '\n')
    (text : Text)
    {place : Nat}
    (inside : place ≤ text.length) :
    (text ++ '\n' :: behind)[place]? = some character ↔ text[place]? = some character := by
  rcases Nat.lt_or_eq_of_le inside with before | rfl
  · rw [List.getElem?_append_left before]
  · simpa using other.symm

theorem head?_line
    {character : Char}
    (other : character ≠ '\n')
    (text : Text) :
    (text ++ '\n' :: behind).head? = some character ↔ text.head? = some character := by
  simpa [List.head?_eq_getElem?] using getElem?_line other text (Nat.zero_le _)

theorem length_pos_of_head?_ne_none
    {text : Text}
    (found : text.head? ≠ none) :
    1 ≤ text.length :=
  List.length_pos_iff.mpr fun empty => found (by rw [empty, List.head?_nil])

theorem any_head?_line
    {test : Char → Bool}
    (stops : test '\n' = false)
    (text : Text) :
    (text ++ '\n' :: behind).head?.any test = text.head?.any test := by
  cases text with
  | nil => simp [stops]
  | cons first rest => rfl

/-- A pattern without line feeds stands at the front of a text or it does not. -/
theorem isPrefixOf_line
    {pattern : Text}
    (unbroken : '\n' ∉ pattern)
    (text : Text) :
    pattern.isPrefixOf (text ++ '\n' :: behind) = pattern.isPrefixOf text := by
  induction pattern generalizing text with
  | nil => simp
  | cons first rest ih =>
      obtain ⟨other, unbroken⟩ := not_or.mp (List.mem_cons.not.mp unbroken)
      cases text with
      | nil => simp [List.isPrefixOf, Ne.symm other]
      | cons character text => simp [List.isPrefixOf, ih unbroken]

/-- A pattern that is found in a text is found there when the text goes on. -/
theorem indexOf?_go_append
    {pattern : Text}
    (more : Text)
    {passed place : Nat}
    {text : Text}
    (found : indexOf?.go pattern passed text = some place) :
    indexOf?.go pattern passed (text ++ more) = some place ∧
      passed ≤ place ∧
      place + pattern.length ≤ passed + text.length := by
  induction text generalizing passed with
  | nil =>
      rw [indexOf?.go] at found
      split at found
      · next here =>
        cases found
        obtain rfl : pattern = [] := List.prefix_nil.mp (List.isPrefixOf_iff_prefix.mp here)
        refine ⟨?_, Nat.le_refl _, Nat.le_refl _⟩
        cases more <;> simp [indexOf?.go]
      · cases found
  | cons first rest ih =>
      rw [indexOf?.go] at found
      rw [List.cons_append, indexOf?.go]
      split at found
      · next here =>
        cases found
        have here := List.isPrefixOf_iff_prefix.mp here
        have longer : pattern.isPrefixOf (first :: (rest ++ more)) = true :=
          List.isPrefixOf_iff_prefix.mpr (here.trans (List.prefix_append _ more))
        exact ⟨if_pos longer, Nat.le_refl _, Nat.add_le_add_left here.length_le _⟩
      · next elsewhere =>
        obtain ⟨later, behind, inside⟩ := ih found
        simp only [List.length_cons]
        refine ⟨?_, by omega, by omega⟩
        have missed : ¬ pattern.isPrefixOf (first :: (rest ++ more)) = true := by
          intro here
          have here := List.isPrefixOf_iff_prefix.mp here
          have short : pattern.length ≤ (first :: rest).length := by
            rw [List.length_cons]
            omega
          exact elsewhere (List.isPrefixOf_iff_prefix.mpr
            (List.prefix_of_prefix_length_le here (List.prefix_append (first :: rest) more) short))
        rw [if_neg missed]
        exact later

theorem indexOf?_append
    {pattern text : Text}
    (more : Text)
    {place : Nat}
    (found : indexOf? pattern text = some place) :
    indexOf? pattern (text ++ more) = some place ∧ place + pattern.length ≤ text.length := by
  obtain ⟨later, _, inside⟩ := indexOf?_go_append more found
  exact ⟨later, by omega⟩

end Text

/-! ## Cuts -/

namespace Cut

/-- A cut takes of a text that goes on what another takes of the text. -/
def Kept {text more : Text} (short : Cut text) (long : Cut (text ++ more)) : Prop :=
  long.taken = short.taken

variable {text more behind : Text}

theorem Kept.rest
    {short : Cut text}
    {long : Cut (text ++ more)}
    (kept : short.Kept long) :
    long.rest = short.rest ++ more := by
  have whole : long.taken ++ long.rest = short.taken ++ (short.rest ++ more) := by
    rw [long.whole, ← List.append_assoc, short.whole]
  rw [kept] at whole
  exact List.append_cancel_left whole

theorem kept_nothing : (nothing text).Kept (nothing (text ++ more)) :=
  rfl

theorem kept_characters
    {count : Nat}
    (inside : count ≤ text.length) :
    (characters count text).Kept (characters count (text ++ more)) :=
  List.take_append_of_le_length inside

theorem kept_longest
    {test : Char → Bool}
    (stops : test '\n' = false) :
    (longest test text).Kept (longest test (text ++ '\n' :: behind)) :=
  Text.takeWhile_line stops text

theorem Kept.andThen
    {short : Cut text}
    {long : Cut (text ++ more)}
    (kept : short.Kept long)
    {next : (rest : Text) → Cut rest}
    (nexts : (next short.rest).Kept (next (short.rest ++ more))) :
    (short.andThen next).Kept (long.andThen next) := by
  have taken : (next long.rest).taken = (next short.rest).taken :=
    (congrArg (fun rest => (next rest).taken) kept.rest).trans nexts
  show long.taken ++ (next long.rest).taken = short.taken ++ (next short.rest).taken
  rw [kept, taken]

end Cut

/-! ## Numerals -/

namespace Numeral

variable {behind : Text}

theorem kept_optional
    {test : Char → Bool}
    (stops : test '\n' = false)
    (text : Text) :
    (optional test text).Kept (optional test (text ++ '\n' :: behind)) := by
  cases text with
  | nil => simp [optional, stops, Cut.Kept, Cut.nothing]
  | cons first rest =>
      by_cases passed : test first = true <;>
        simp [optional, passed, Cut.Kept, Cut.nothing, Cut.characters]

theorem kept_fraction
    {digit : Char → Bool}
    (stops : digit '\n' = false)
    (text : Text) :
    (fraction digit text).Kept (fraction digit (text ++ '\n' :: behind)) := by
  have point : ((text ++ '\n' :: behind).head? = some '.' ∧
      (text ++ '\n' :: behind)[1]? ≠ some '.') ↔
        (text.head? = some '.' ∧ text[1]? ≠ some '.') := by
    cases text with
    | nil => simp
    | cons first rest =>
        exact and_congr Iff.rfl (not_congr (Text.getElem?_line (by decide) _ (by simp)))
  simp only [fraction, Bool.and_eq_true, decide_eq_true_eq, point]
  split
  · next here =>
    have positive : 1 ≤ text.length := Text.length_pos_of_head?_ne_none (by simp [here.1])
    exact (Cut.kept_characters positive).andThen (Cut.kept_longest stops)
  · exact Cut.kept_nothing

theorem kept_exponent
    {mark : Char → Bool}
    (stops : mark '\n' = false)
    (text : Text) :
    (exponent mark text).Kept (exponent mark (text ++ '\n' :: behind)) := by
  unfold exponent
  rw [Text.any_head?_line stops]
  split
  · next here =>
    have positive : 1 ≤ text.length :=
      Text.length_pos_of_head?_ne_none fun none => by simp [none] at here
    exact ((Cut.kept_characters positive).andThen (kept_optional (by decide) _)).andThen
      (Cut.kept_longest (by decide))
  · exact Cut.kept_nothing

theorem isHexadecimal_line (text : Text) :
    isHexadecimal (text ++ '\n' :: behind) = isHexadecimal text := by
  cases text with
  | nil => simp [isHexadecimal]
  | cons first rest =>
      have second {character : Char} (other : character ≠ '\n') :
          (first :: rest ++ '\n' :: behind)[1]? = some character ↔
            (first :: rest)[1]? = some character :=
        Text.getElem?_line other (first :: rest) (by simp)
      rw [Bool.eq_iff_iff]
      simp only [isHexadecimal, Bool.and_eq_true, Bool.or_eq_true, decide_eq_true_eq]
      exact and_congr Iff.rfl (or_congr (second (by decide)) (second (by decide)))

theorem kept_pattern
    (first : Char)
    (rest : Text) :
    (pattern (first :: rest)).Kept (pattern (first :: rest ++ '\n' :: behind)) := by
  unfold pattern
  rw [isHexadecimal_line]
  split
  · next hexadecimal =>
    have two : 2 ≤ (first :: rest).length := by
      cases rest with
      | nil => simp [isHexadecimal] at hexadecimal
      | cons second rest => simp
    exact (((Cut.kept_characters two).andThen (Cut.kept_longest (by decide))).andThen
      (kept_fraction (by decide) _)).andThen (kept_exponent (by decide) _)
  · have digits : ((Cut.characters 1 (first :: rest)).andThen (.longest Char.isDigit)).Kept
        ((Cut.characters 1 (first :: rest ++ '\n' :: behind)).andThen (.longest Char.isDigit)) :=
      (Cut.kept_characters (by simp)).andThen (Cut.kept_longest (by decide))
    dsimp only
    refine Cut.Kept.andThen ?_ (kept_exponent (by decide) _)
    have head : (first :: rest ++ '\n' :: behind).head? = (first :: rest).head? := rfl
    rw [head]
    split
    · exact digits
    · exact digits.andThen (kept_fraction (by decide) _)

theorem kept_spoiled (text : Text) :
    (spoiled text).Kept (spoiled (text ++ '\n' :: behind)) := by
  unfold spoiled
  rw [Text.any_head?_line (by decide)]
  split
  · exact Cut.kept_longest (by decide)
  · exact Cut.kept_nothing

end Numeral

/-! ## Strings -/

namespace ShortString

theorem length_le
    (quote : Char)
    (count : Nat)
    (text : Text) :
    (length quote count text).1 ≤ count + text.length := by
  fun_induction length quote count text <;> grind

theorem ne_escape
    {first : Char}
    {rest : Text}
    (alone : first = '\\' → rest = [] → False)
    (escape : ∀ second later, first = '\\' → rest = second :: later → False) :
    first ≠ '\\' := by
  intro same
  cases rest with
  | nil => exact alone same rfl
  | cons second later => exact escape second later same rfl

theorem length_cons
    {quote first : Char}
    (other : first ≠ '\\')
    (count : Nat)
    (rest : Text) :
    length quote count (first :: rest) =
      if Text.isLineEnd first then (count, false)
      else if first = quote then (count + 1, true) else length quote (count + 1) rest := by
  rw [length]
  · exact fun same _ => other same
  · exact fun _ _ same _ => other same

/-- A string that is closed stays closed in the same place. -/
theorem length_append
    (quote : Char)
    (count : Nat)
    (text more : Text)
    (closed : (length quote count text).2 = true) :
    length quote count (text ++ more) = length quote count text := by
  fun_induction length quote count text with
  | case1 count => cases closed
  | case2 count => cases closed
  | case3 count second rest ih =>
      rw [List.cons_append, List.cons_append, length]
      exact ih closed
  | case4 count first rest alone escape ends => cases closed
  | case5 count rest alone escape ends =>
      rw [List.cons_append, length_cons (ne_escape alone escape), if_neg ends, if_pos rfl]
  | case6 count first rest alone escape ends other ih =>
      rw [List.cons_append, length_cons (ne_escape alone escape), if_neg ends, if_neg other]
      exact ih closed

end ShortString

namespace LongBracket

variable {behind : Text}

theorem level?_cons_of_ne
    {first : Char}
    (other : first ≠ '[')
    (rest : Text) :
    level? (first :: rest) = none := by
  unfold level?
  split
  · next same => exact absurd (List.cons.inj same).1 other
  · rfl

theorem level?_line (text : Text) : level? (text ++ '\n' :: behind) = level? text := by
  cases text with
  | nil => exact level?_cons_of_ne (by decide) behind
  | cons first rest =>
      rcases eq_or_ne first '[' with rfl | other
      · have inside : (rest.takeWhile (· = '=')).length ≤ rest.length :=
          (List.takeWhile_prefix _).length_le
        have equals : (rest ++ '\n' :: behind).takeWhile (· = '=') = rest.takeWhile (· = '=') :=
          Text.takeWhile_line (by decide) rest
        simp only [List.cons_append, level?, equals,
          Text.getElem?_line (by decide : '[' ≠ '\n') rest inside]
      · rw [List.cons_append, level?_cons_of_ne other, level?_cons_of_ne other]

/-- The opening bracket stands in the text. -/
theorem le_length_of_level?
    {text : Text}
    {level : Nat}
    (opens : level? text = some level) :
    level + 2 ≤ text.length := by
  unfold level? at opens
  split at opens
  · next rest =>
    dsimp only at opens
    split at opens
    · next second =>
      cases opens
      have inside := (List.getElem?_eq_some_iff.mp second).1
      rw [List.length_cons]
      omega
    · cases opens
  · cases opens

theorem length_closing (level : Nat) : (closing level).length = level + 2 := by
  simp [closing]

/-- A bracket that is closed stays closed in the same place. -/
theorem kept_cut
    {level : Nat}
    {text : Text}
    (more : Text)
    (opens : level + 2 ≤ text.length)
    (closed : (cut level text).2 = true) :
    (cut level text).1.Kept (cut level (text ++ more)).1 ∧
      (cut level (text ++ more)).2 = true := by
  unfold cut at closed ⊢
  split at closed
  · next place found =>
    obtain ⟨later, inside⟩ := Text.indexOf?_append more found
    rw [length_closing, List.length_drop] at inside
    rw [List.drop_append_of_le_length opens, later]
    exact ⟨Cut.kept_characters (by omega), rfl⟩
  · cases closed

end LongBracket

/-! ## Tokens -/

namespace Kind

theorem operator?_line
    {behind : Text}
    (text : Text) :
    operator? (text ++ '\n' :: behind) = operator? text := by
  have unbroken : ∀ entry ∈ operators, '\n' ∉ entry.1 := by decide
  refine List.find?_congr fun entry member => ?_
  rw [Text.isPrefixOf_line (unbroken entry member)]

end Kind

namespace Lexeme

variable {text more behind : Text}

/-- A token at the front of a text that goes on is the one at the front of the text. -/
structure Kept (short : Lexeme text) (long : Lexeme (text ++ more)) : Prop where
  kind : long.kind = short.kind
  cut : short.cut.Kept long.cut
  fault? : long.fault? = short.fault?

theorem kept_word (text : Text) : (word text).Kept (word (text ++ '\n' :: behind)) := by
  have cut : (Cut.longest Text.isWordPart text).Kept
      (Cut.longest Text.isWordPart (text ++ '\n' :: behind)) :=
    Cut.kept_longest (by decide)
  refine ⟨?_, cut, rfl⟩
  rw [word, word, cut]

theorem kept_numeral
    (first : Char)
    (rest : Text) :
    (numeral (first :: rest)).Kept (numeral (first :: rest ++ '\n' :: behind)) := by
  have pattern : (Numeral.pattern (first :: rest)).Kept
      (Numeral.pattern (first :: rest ++ '\n' :: behind)) :=
    Numeral.kept_pattern first rest
  have spoiled := @Numeral.kept_spoiled behind (Numeral.pattern (first :: rest)).rest
  have taken : (Numeral.spoiled (Numeral.pattern (first :: rest ++ '\n' :: behind)).rest).taken =
      (Numeral.spoiled (Numeral.pattern (first :: rest)).rest).taken :=
    (congrArg (fun rest => (Numeral.spoiled rest).taken) pattern.rest).trans spoiled
  refine ⟨rfl, pattern.andThen spoiled, ?_⟩
  rw [numeral, numeral, taken]

/-- A short string without a fault is closed. -/
theorem closed_shortString
    {quote : Char}
    {rest : Text}
    (sound : (shortString quote rest).fault? = none) :
    (ShortString.length quote 1 rest).2 = true := by
  simpa [shortString] using sound

/-- A long string without a fault is closed. -/
theorem closed_longString
    {level : Nat}
    (sound : (longString level text).fault? = none) :
    (LongBracket.cut level text).2 = true := by
  simpa [longString] using sound

theorem kept_shortString
    {quote : Char}
    {rest : Text}
    (more : Text)
    (sound : (shortString quote rest).fault? = none) :
    @Kept (quote :: rest) more (shortString quote rest) (shortString quote (rest ++ more)) := by
  have same := ShortString.length_append quote 1 rest more (closed_shortString sound)
  have inside := ShortString.length_le quote 1 rest
  rw [Nat.add_comm, ← List.length_cons] at inside
  refine ⟨rfl, ?_, ?_⟩
  · rw [shortString, shortString, same]
    exact Cut.kept_characters inside
  · rw [shortString, shortString, same]

theorem kept_longString
    {level : Nat}
    (more : Text)
    (opens : level + 2 ≤ text.length)
    (sound : (longString level text).fault? = none) :
    (longString level text).Kept (longString level (text ++ more)) := by
  have closed := closed_longString sound
  obtain ⟨kept, closedLater⟩ := LongBracket.kept_cut more opens closed
  refine ⟨rfl, kept, ?_⟩
  rw [longString, longString, closed, closedLater]

theorem kept_symbol
    (first : Char)
    (rest : Text) :
    (symbol (first :: rest)).Kept (symbol (first :: rest ++ '\n' :: behind)) := by
  have same := @Kind.operator?_line behind (first :: rest)
  unfold symbol
  rw [same]
  split
  · next written kind found =>
    have front : written.isPrefixOf (first :: rest) = true :=
      @List.find?_some _ (fun entry : Text × Kind => entry.1.isPrefixOf (first :: rest)) _ _ found
    have front := List.isPrefixOf_iff_prefix.mp front
    exact ⟨rfl, Cut.kept_characters front.length_le, rfl⟩
  · exact ⟨rfl, Cut.kept_characters (by simp), rfl⟩

/-- A token that is not broken is read from a text that goes on behind a line feed. -/
theorem kept_read
    {first : Char}
    {rest : Text}
    (sound : (read first rest).fault? = none) :
    @Kept (first :: rest) ('\n' :: behind) (read first rest)
      (read first (rest ++ '\n' :: behind)) := by
  have digit : (rest ++ '\n' :: behind).head?.any Char.isDigit = rest.head?.any Char.isDigit :=
    Text.any_head?_line (by decide) rest
  have level := @LongBracket.level?_line behind (first :: rest)
  rw [List.cons_append] at level
  unfold read at sound ⊢
  rw [digit]
  split
  · exact kept_word (first :: rest)
  split
  · exact kept_numeral first rest
  split
  · next wordless numberless quoted =>
    rw [if_neg wordless, if_neg numberless, if_pos quoted] at sound
    exact kept_shortString _ sound
  · next wordless numberless unquoted =>
    rw [if_neg wordless, if_neg numberless, if_neg unquoted] at sound
    rw [level]
    cases opens : LongBracket.level? (first :: rest) with
    | none => exact kept_symbol first rest
    | some found =>
        rw [opens] at sound
        exact kept_longString _ (LongBracket.le_length_of_level? opens) sound

end Lexeme

/-! ## Trivia -/

namespace Trivia

/-- No piece in a run of trivia is broken. -/
def Sound (pieces : List Trivia) : Prop :=
  ∀ piece ∈ pieces, piece.fault? = none

section Runs

variable {lineBreaks : Bool} {text rest : Text} {piece : Trivia}

theorem readRun_eq
    (lineBreaks : Bool)
    (pieces : List Trivia)
    (text : Text) :
    readRun lineBreaks pieces text =
      (pieces.reverse ++ (readRun lineBreaks [] text).1, (readRun lineBreaks [] text).2) := by
  induction size : text.length using Nat.strong_induction_on generalizing pieces text with
  | _ _ ih =>
      subst size
      cases read : read? lineBreaks text with
      | none => rw [readRun_of_none read, readRun_of_none read, List.reverse_nil, List.append_nil]
      | some found =>
          obtain ⟨piece, rest⟩ := found
          have shorter := read?_rest_length_lt read
          rw [readRun_of_read read, readRun_of_read read, ih _ shorter _ rest rfl,
            ih _ shorter [piece] rest rfl]
          simp

theorem readRun_cons (read : read? lineBreaks text = some (piece, rest)) :
    readRun lineBreaks [] text =
      (piece :: (readRun lineBreaks [] rest).1, (readRun lineBreaks [] rest).2) := by
  rw [readRun_of_read read, readRun_eq]
  rfl

end Runs

section Line

variable {behind : Text}

theorem kept_comment
    {text : Text}
    (two : 2 ≤ text.length)
    (sound : (comment text).2.2 = none) :
    (comment (text ++ '\n' :: behind)).1 = (comment text).1 ∧
      (comment text).2.1.Kept (comment (text ++ '\n' :: behind)).2.1 ∧
      (comment (text ++ '\n' :: behind)).2.2 = none := by
  have drop : (text ++ '\n' :: behind).drop 2 = text.drop 2 ++ '\n' :: behind :=
    List.drop_append_of_le_length two
  unfold comment at sound ⊢
  rw [drop, LongBracket.level?_line]
  cases opens : LongBracket.level? (text.drop 2) with
  | none => exact ⟨rfl, Cut.kept_longest (by decide), rfl⟩
  | some level =>
      simp only [opens] at sound
      have closed : (LongBracket.cut level (text.drop 2)).2 = true := by simpa using sound
      obtain ⟨kept, closedLater⟩ := LongBracket.kept_cut ('\n' :: behind)
        (LongBracket.le_length_of_level? opens) closed
      have inside := (LongBracket.cut level (text.drop 2)).1.length_add_length
      rw [List.length_drop] at inside
      dsimp only
      rw [closedLater, kept]
      exact ⟨rfl, Cut.kept_characters (by omega), rfl⟩

/-- A carriage return at the end of a text takes in the line feed behind it. -/
theorem kept_lineBreak
    {first : Char}
    {rest : Text}
    (other : first :: rest ≠ ['\r']) :
    (lineBreak (first :: rest)).Kept (lineBreak (first :: rest ++ '\n' :: behind)) := by
  have pair : ((first :: rest ++ '\n' :: behind).head? = some '\r' ∧
      (first :: rest ++ '\n' :: behind)[1]? = some '\n') ↔
        ((first :: rest).head? = some '\r' ∧ (first :: rest)[1]? = some '\n') := by
    cases rest with
    | nil =>
        have returns : first ≠ '\r' := fun same => other (by rw [same])
        simp [returns]
    | cons second rest => rfl
  simp only [lineBreak, Bool.and_eq_true, decide_eq_true_eq, pair]
  split
  · next here =>
    refine Cut.kept_characters ?_
    cases rest with
    | nil => simp at here
    | cons second rest => simp
  · exact Cut.kept_characters (by simp)

theorem kept_piece
    {text more : Text}
    {short : Cut text}
    {long : Cut (text ++ more)}
    (kept : short.Kept long)
    (kind : TriviaKind)
    (fault? : Option LexicalFault) :
    some (Trivia.mk kind long.taken fault?, long.rest) =
      some (Trivia.mk kind short.taken fault?, short.rest ++ more) := by
  rw [kept.rest, show long.taken = short.taken from kept]

/-- A piece that is not broken is read from a text that goes on behind a line feed. -/
theorem read?_line
    {lineBreaks : Bool}
    {text rest : Text}
    {piece : Trivia}
    (read : read? lineBreaks text = some (piece, rest))
    (sound : piece.fault? = none)
    (other : text ≠ ['\r'] ∨ lineBreaks = false) :
    read? lineBreaks (text ++ '\n' :: behind) = some (piece, rest ++ '\n' :: behind) := by
  cases text with
  | nil => cases read
  | cons first later =>
      have hyphen : (later ++ '\n' :: behind).head? = some '-' ↔ later.head? = some '-' :=
        Text.head?_line (by decide) later
      rw [List.cons_append]
      simp only [read?, hyphen] at read ⊢
      split at read
      · next blank =>
        cases read
        rw [if_pos blank]
        have blanks : (Cut.longest Text.isBlank (first :: later)).Kept
            (Cut.longest Text.isBlank (first :: later ++ '\n' :: behind)) :=
          Cut.kept_longest (by decide)
        exact kept_piece blanks _ _
      split at read
      · next printed breaks =>
        cases read
        rw [if_neg printed, if_pos breaks]
        rw [Bool.and_eq_true] at breaks
        have other : first :: later ≠ ['\r'] :=
          other.resolve_right fun none => by simp [none] at breaks
        exact kept_piece (kept_lineBreak other) _ _
      split at read
      · next printed unbroken hyphens =>
        cases read
        rw [if_neg printed, if_neg unbroken, if_pos hyphens]
        have two : 2 ≤ (first :: later).length := by
          cases later with
          | nil => simp at hyphens
          | cons second later => simp
        obtain ⟨kind, cut, soundLater⟩ := @kept_comment behind _ two sound
        rw [List.cons_append] at kind soundLater
        refine (kept_piece cut _ _).trans ?_
        rw [kind, soundLater, show (comment (first :: later)).2.2 = none from sound]
      · cases read

theorem read?_cons_eq_none
    {lineBreaks : Bool}
    {first : Char}
    {rest : Text} :
    read? lineBreaks (first :: rest) = none ↔
      Text.isBlank first = false ∧
        (lineBreaks && Text.isLineEnd first) = false ∧
        ¬ (first = '-' ∧ rest.head? = some '-') := by
  simp only [read?, Bool.and_eq_true, decide_eq_true_eq]
  split
  · next blank => simp [blank]
  split
  · next breaks => simp [breaks]
  split
  · next hyphens => simp [hyphens]
  · next printed unbroken hyphens => simp_all

/-- Where a text has no trivia, it has none when it goes on. -/
theorem read?_line_none
    {lineBreaks : Bool}
    {text : Text}
    (missing : read? lineBreaks text = none)
    (more : text ≠ [] ∨ lineBreaks = false) :
    read? lineBreaks (text ++ '\n' :: behind) = none := by
  cases text with
  | nil =>
      obtain rfl := more.resolve_left fun nonempty => nonempty rfl
      exact read?_cons_eq_none.mpr ⟨rfl, rfl, by simp⟩
  | cons first later =>
      obtain ⟨printed, unbroken, single⟩ := read?_cons_eq_none.mp missing
      refine read?_cons_eq_none.mpr ⟨printed, unbroken, fun hyphens => single ⟨hyphens.1, ?_⟩⟩
      exact (Text.head?_line (by decide) later).mp hyphens.2

/-- Behind a token that does not end its line, the trivia up to the line feed stays the same. -/
theorem readTrailing_line
    {text : Text}
    (sound : Sound (readTrailing text).1) :
    readTrailing (text ++ '\n' :: behind) =
      ((readTrailing text).1, (readTrailing text).2 ++ '\n' :: behind) := by
  rw [readTrailing, readTrailing] at *
  induction size : text.length using Nat.strong_induction_on generalizing text with
  | _ _ ih =>
      subst size
      cases read : read? false text with
      | none =>
          rw [readRun_of_none read, readRun_of_none (read?_line_none read (Or.inr rfl))]
      | some found =>
          obtain ⟨piece, rest⟩ := found
          rw [readRun_cons read] at sound ⊢
          obtain ⟨here, sound⟩ := List.forall_mem_cons.mp sound
          rw [readRun_cons (read?_line read here (Or.inr rfl)),
            ih _ (read?_rest_length_lt read) sound rfl]

/-- The trivia in front of a token stays the same. -/
theorem readRun_line
    {text : Text}
    (sound : Sound (readRun true [] text).1)
    (more : (readRun true [] text).2 ≠ []) :
    readRun true [] (text ++ '\n' :: behind) =
      ((readRun true [] text).1, (readRun true [] text).2 ++ '\n' :: behind) := by
  induction size : text.length using Nat.strong_induction_on generalizing text with
  | _ _ ih =>
      subst size
      cases read : read? true text with
      | none =>
          rw [readRun_of_none read] at more ⊢
          rw [readRun_of_none (read?_line_none read (Or.inl more))]
      | some found =>
          obtain ⟨piece, rest⟩ := found
          rw [readRun_cons read] at sound more ⊢
          obtain ⟨here, sound⟩ := List.forall_mem_cons.mp sound
          have other : text ≠ ['\r'] := by
            rintro rfl
            cases read
            have ends : (readRun true [] []).2 = [] := by rw [readRun_of_none rfl]
            exact more ends
          rw [readRun_cons (read?_line read here (Or.inl other)),
            ih _ (read?_rest_length_lt read) sound more rfl]

/--
The trivia at the end of a text runs on through a line feed to a token behind it.  It need not be
made of the same pieces, for a carriage return takes in the line feed.
-/
theorem readRun_through
    {text : Text}
    (sound : Sound (readRun true [] text).1)
    (ends : (readRun true [] text).2 = [])
    (token : read? true behind = none) :
    (readRun true [] (text ++ '\n' :: behind)).2 = behind ∧
      Sound (readRun true [] (text ++ '\n' :: behind)).1 := by
  induction size : text.length using Nat.strong_induction_on generalizing text with
  | _ _ ih =>
      subst size
      cases read : read? true text with
      | none =>
          rw [readRun_of_none read] at ends
          obtain rfl : text = [] := ends
          have feed : read? true ('\n' :: behind) = some (⟨.newline, ['\n'], none⟩, behind) := rfl
          rw [List.nil_append, readRun_cons feed, readRun_of_none token]
          exact ⟨rfl, by simp [Sound]⟩
      | some found =>
          obtain ⟨piece, rest⟩ := found
          rw [readRun_cons read] at sound ends
          obtain ⟨here, sound⟩ := List.forall_mem_cons.mp sound
          by_cases other : text = ['\r']
          · subst other
            have feed : read? true ('\r' :: '\n' :: behind) =
                some (⟨.newline, ['\r', '\n'], none⟩, behind) := rfl
            rw [List.singleton_append, readRun_cons feed, readRun_of_none token]
            exact ⟨rfl, by simp [Sound]⟩
          · obtain ⟨through, whole⟩ := ih _ (read?_rest_length_lt read) sound ends rfl
            rw [readRun_cons (read?_line read here (Or.inl other))]
            exact ⟨through, List.forall_mem_cons.mpr ⟨here, whole⟩⟩

theorem firstLine?_line (text : Text) :
    firstLine? (text ++ '\n' :: behind) =
      (firstLine? text).map fun (piece, rest) => (piece, rest ++ '\n' :: behind) := by
  have mark : (text ++ '\n' :: behind).head? = some '#' ↔ text.head? = some '#' :=
    Text.head?_line (by decide) text
  simp only [firstLine?, mark]
  split
  · have kept : (Cut.longest (fun character => !Text.isLineEnd character) text).Kept
        (Cut.longest (fun character => !Text.isLineEnd character) (text ++ '\n' :: behind)) :=
      Cut.kept_longest (by decide)
    exact kept_piece kept _ _
  · rfl

/-- A first line that is a comment comes in front of all other trivia. -/
theorem readLeading_eq
    (atStart : Bool)
    (text : Text) :
    readLeading atStart text =
      match if atStart then firstLine? text else none with
      | some (piece, rest) => (piece :: (readRun true [] rest).1, (readRun true [] rest).2)
      | none => readRun true [] text := by
  rw [readLeading]
  cases if atStart then firstLine? text else none with
  | none => rfl
  | some found => exact readRun_eq true [found.1] found.2

/-- The trivia in front of a token stays the same. -/
theorem readLeading_line
    {atStart : Bool}
    {text : Text}
    (sound : Sound (readLeading atStart text).1)
    (more : (readLeading atStart text).2 ≠ []) :
    readLeading atStart (text ++ '\n' :: behind) =
      ((readLeading atStart text).1, (readLeading atStart text).2 ++ '\n' :: behind) := by
  rw [readLeading_eq] at sound more
  rw [readLeading_eq, readLeading_eq, firstLine?_line]
  cases atStart with
  | false => exact readRun_line sound more
  | true =>
      cases found : firstLine? text with
      | none =>
          simp only [found, ↓reduceIte] at sound more
          exact readRun_line sound more
      | some first =>
          simp only [found, ↓reduceIte] at sound more
          obtain ⟨_, sound⟩ := List.forall_mem_cons.mp sound
          simp only [Option.map_some, ↓reduceIte, readRun_line sound more]

/-- The trivia at the end of a text runs on to a token behind the line feed. -/
theorem readLeading_through
    {atStart : Bool}
    {text : Text}
    (sound : Sound (readLeading atStart text).1)
    (ends : (readLeading atStart text).2 = [])
    (token : read? true behind = none) :
    (readLeading atStart (text ++ '\n' :: behind)).2 = behind ∧
      Sound (readLeading atStart (text ++ '\n' :: behind)).1 := by
  rw [readLeading_eq] at sound ends
  rw [readLeading_eq, firstLine?_line]
  cases atStart with
  | false => exact readRun_through sound ends token
  | true =>
      cases found : firstLine? text with
      | none =>
          simp only [found, ↓reduceIte] at sound ends
          exact readRun_through sound ends token
      | some first =>
          simp only [found, ↓reduceIte] at sound ends
          obtain ⟨here, sound⟩ := List.forall_mem_cons.mp sound
          obtain ⟨through, whole⟩ := readRun_through sound ends token
          exact ⟨through, List.forall_mem_cons.mpr ⟨here, whole⟩⟩

end Line

end Trivia

/-! ## Tokens of a text -/

namespace Trivia

/-- Where line breaks do not count, nothing is read that is not read where they do. -/
theorem read?_true
    {text rest : Text}
    {piece : Trivia}
    (read : read? false text = some (piece, rest)) :
    read? true text = some (piece, rest) := by
  cases text with
  | nil => cases read
  | cons first later =>
      simp only [read?] at read ⊢
      split at read
      · next blank => rw [if_pos blank, read]
      split at read
      · next impossible => cases impossible
      split at read
      · next printed unbroken hyphens =>
        obtain rfl : first = '-' := by simp_all
        rw [if_neg printed, if_neg (by decide), if_pos hyphens, read]
      · cases read

/-- The trivia that ends a line is the front of the trivia that goes on over the line. -/
theorem readRun_readTrailing (text : Text) :
    readRun true [] text =
      ((readTrailing text).1 ++ (readRun true [] (readTrailing text).2).1,
        (readRun true [] (readTrailing text).2).2) := by
  rw [readTrailing]
  induction size : text.length using Nat.strong_induction_on generalizing text with
  | _ _ ih =>
      subst size
      cases read : read? false text with
      | none => rw [readRun_of_none read]; rfl
      | some found =>
          obtain ⟨piece, rest⟩ := found
          rw [readRun_cons read, readRun_cons (read?_true read),
            ih _ (read?_rest_length_lt read) rest rfl]
          rfl

theorem sound_of_triviaFaults
    {offset : Nat}
    {pieces : List Trivia}
    (silent : Token.triviaFaults (Text.layOut width offset pieces) = []) :
    Sound pieces := by
  intro piece member
  obtain ⟨place, listed⟩ := Text.exists_mem_layOut width offset member
  have none := List.filterMap_eq_nil_iff.mp silent (place, piece) listed
  simpa using none

end Trivia

namespace Token

/-- Neither a token nor the trivia around it is broken. -/
structure Sound (token : Token) : Prop where
  leading : Trivia.Sound token.leading
  fault? : token.fault? = none
  trailing : Trivia.Sound token.trailing

theorem sound_of_faults
    {token : Token}
    {offset : Nat}
    (silent : token.faults offset = []) :
    token.Sound := by
  rw [faults, List.append_eq_nil_iff, List.append_eq_nil_iff] at silent
  obtain ⟨⟨leading, here⟩, trailing⟩ := silent
  refine ⟨Trivia.sound_of_triviaFaults leading, ?_, Trivia.sound_of_triviaFaults trailing⟩
  simpa using here

theorem sound_of_allFaults
    {tokens : List Token}
    (silent : allFaults tokens = []) :
    ∀ token ∈ tokens, token.Sound := by
  intro token member
  obtain ⟨place, listed⟩ := Text.exists_mem_layOut width 0 member
  exact sound_of_faults (List.flatMap_eq_nil_iff.mp silent (place, token) listed)

theorem readNext_rest_length_lt
    {atStart : Bool}
    {text : Text}
    (more : (readNext atStart text).1.kind ≠ .eof) :
    (readNext atStart text).2.length < text.length := by
  unfold readNext at more ⊢
  have before := Trivia.readLeading_rest_length_le atStart text
  split at more
  · exact absurd rfl more
  · next leading first rest read =>
    have inside := Lexeme.rest_read_length_lt first rest
    have after := Trivia.readTrailing_rest_length_le (Lexeme.read first rest).cut.rest
    simp only [read] at before ⊢
    omega

theorem readAll_behind
    (atStart : Bool)
    (tokens : List Token)
    (text : Text) :
    readAll atStart tokens text = tokens.reverse ++ readAll atStart [] text := by
  induction size : text.length using Nat.strong_induction_on generalizing atStart tokens text with
  | _ _ ih =>
      subst size
      rw [readAll_step, readAll_step atStart []]
      split
      · simp
      · next more =>
        have shorter := readNext_rest_length_lt more
        rw [ih _ shorter _ _ _ rfl, ih _ shorter _ [_] _ rfl]
        simp

theorem readAll_cons
    (atStart : Bool)
    (text : Text) :
    readAll atStart [] text = (readNext atStart text).1 ::
      if (readNext atStart text).1.kind = .eof then []
      else readAll false [] (readNext atStart text).2 := by
  rw [readAll_step]
  split
  · rfl
  · rw [readAll_behind]
    rfl

theorem readNext_of_nil
    {atStart : Bool}
    {text : Text}
    {leading : List Trivia}
    (read : Trivia.readLeading atStart text = (leading, [])) :
    readNext atStart text = (endOfText leading, []) := by
  rw [readNext, read]

/-- Only the end of a text is read as its end. -/
theorem readLeading_of_eof
    {atStart : Bool}
    {text : Text}
    (ends : (readNext atStart text).1.kind = .eof) :
    ∃ leading, Trivia.readLeading atStart text = (leading, []) := by
  unfold readNext at ends
  split at ends
  · next leading read => exact ⟨leading, read⟩
  · next leading first rest read =>
    have significant := Lexeme.isSignificant_read first rest
    rw [show (Lexeme.read first rest).kind = .eof from ends] at significant
    exact absurd significant (by decide)

theorem readNext_of_cons
    {atStart : Bool}
    {text rest : Text}
    {leading : List Trivia}
    {first : Char}
    (read : Trivia.readLeading atStart text = (leading, first :: rest)) :
    readNext atStart text =
      (⟨leading, (Lexeme.read first rest).kind, (Lexeme.read first rest).cut.taken,
          (Trivia.readTrailing (Lexeme.read first rest).cut.rest).1,
          (Lexeme.read first rest).fault?⟩,
        (Trivia.readTrailing (Lexeme.read first rest).cut.rest).2) := by
  rw [readNext, read]

/-- A token that is not broken is read from a text that goes on behind a line feed. -/
theorem readNext_line
    {atStart : Bool}
    {text : Text}
    (more : (readNext atStart text).1.kind ≠ .eof)
    (sound : (readNext atStart text).1.Sound)
    (behind : Text) :
    readNext atStart (text ++ '\n' :: behind) =
      ((readNext atStart text).1, (readNext atStart text).2 ++ '\n' :: behind) := by
  cases read : Trivia.readLeading atStart text with
  | mk leading text' =>
      cases text' with
      | nil =>
          rw [readNext_of_nil read] at more
          exact absurd rfl more
      | cons first rest =>
          rw [readNext_of_cons read] at sound ⊢
          have before : Trivia.readLeading atStart (text ++ '\n' :: behind) =
              (leading, first :: (rest ++ '\n' :: behind)) := by
            have kept := @Trivia.readLeading_line behind atStart text
            rw [read] at kept
            exact kept sound.leading (by simp)
          obtain ⟨kind, cut, fault?⟩ := @Lexeme.kept_read behind _ _ sound.fault?
          have trailing := @Trivia.readTrailing_line behind _ sound.trailing
          have taken : (Lexeme.read first (rest ++ '\n' :: behind)).cut.taken =
              (Lexeme.read first rest).cut.taken := cut
          rw [readNext_of_cons before, kind, taken, fault?, cut.rest, trailing]

theorem readNext_semicolon
    {atStart : Bool}
    {text behind : Text}
    {leading : List Trivia}
    (read : Trivia.readLeading atStart text = (leading, ';' :: behind)) :
    readNext atStart text =
      (⟨leading, .semicolon, [';'], (Trivia.readTrailing behind).1, none⟩,
        (Trivia.readTrailing behind).2) := by
  rw [readNext_of_cons read]
  rfl

/-- The tokens of a text stay the same up to its end, and a semicolon is read behind them. -/
theorem readAll_line
    {atStart : Bool}
    {text : Text}
    {inner : List Token}
    {last : List Trivia}
    (tokens : readAll atStart [] text = inner ++ [endOfText last])
    (sound : ∀ token ∈ inner ++ [endOfText last], token.Sound)
    (behind : Text) :
    ∃ leading, Trivia.Sound leading ∧
      readAll atStart [] (text ++ '\n' :: ';' :: behind) =
        inner ++ ⟨leading, .semicolon, [';'], (Trivia.readTrailing behind).1, none⟩ ::
          readAll false [] (Trivia.readTrailing behind).2 := by
  induction size : text.length using Nat.strong_induction_on generalizing atStart text inner with
  | _ _ ih =>
      subst size
      rw [readAll_cons atStart text] at tokens
      by_cases ends : (readNext atStart text).1.kind = .eof
      · obtain ⟨leading, read⟩ := readLeading_of_eof ends
        rw [if_pos ends, readNext_of_nil read] at tokens
        obtain rfl : inner = [] := by
          have lengths := congrArg List.length tokens
          rw [List.length_append] at lengths
          exact List.length_eq_zero_iff.mp (by simpa using lengths)
        cases tokens
        have through := @Trivia.readLeading_through (';' :: behind) atStart text
        rw [read] at through
        obtain ⟨rest, soundLeading⟩ := through (sound _ List.mem_cons_self).leading rfl rfl
        refine ⟨_, soundLeading, ?_⟩
        rw [readAll_cons, readNext_semicolon (Prod.ext rfl rest)]
        rfl
      · rw [if_neg ends] at tokens
        cases inner with
        | nil => exact absurd (congrArg Token.kind (List.cons.inj tokens).1) ends
        | cons first inner =>
            obtain ⟨here, later⟩ := List.cons.inj tokens
            obtain ⟨soundHere, sound⟩ := List.forall_mem_cons.mp sound
            rw [← here] at soundHere
            obtain ⟨leading, soundLeading, read⟩ :=
              ih _ (readNext_rest_length_lt ends) later sound rfl
            refine ⟨leading, soundLeading, ?_⟩
            rw [readAll_cons, readNext_line ends soundHere, if_neg ends, read, here]
            rfl

/-- Trivia at the start of a text may be left to a token before it. -/
theorem readAll_readTrailing
    {text : Text}
    (unmarked : text.head? ≠ some '#') :
    ∃ token others, readAll false [] (Trivia.readTrailing text).2 = token :: others ∧
      readAll true [] text =
        { token with leading := (Trivia.readTrailing text).1 ++ token.leading } :: others := by
  have leading : Trivia.readLeading true text =
      ((Trivia.readTrailing text).1 ++
          (Trivia.readLeading false (Trivia.readTrailing text).2).1,
        (Trivia.readLeading false (Trivia.readTrailing text).2).2) := by
    have unmarked : Trivia.firstLine? text = none := if_neg unmarked
    rw [Trivia.readLeading_eq, Trivia.readLeading_eq]
    simp only [unmarked, ↓reduceIte, Bool.false_eq_true]
    exact Trivia.readRun_readTrailing text
  have next : readNext true text =
      ({ (readNext false (Trivia.readTrailing text).2).1 with
          leading := (Trivia.readTrailing text).1 ++
            (readNext false (Trivia.readTrailing text).2).1.leading },
        (readNext false (Trivia.readTrailing text).2).2) := by
    cases read : Trivia.readLeading false (Trivia.readTrailing text).2 with
    | mk pieces rest =>
        rw [read] at leading
        cases rest with
        | nil =>
            rw [readNext_of_nil leading, readNext_of_nil read]
            rfl
        | cons first rest => rw [readNext_of_cons leading, readNext_of_cons read]
  rw [readAll_cons true text, readAll_cons false, next]
  exact ⟨_, _, rfl, rfl⟩

end Token

end LuaFold
