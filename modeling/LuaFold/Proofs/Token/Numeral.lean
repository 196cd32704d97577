import LuaFold.Proofs.Token.Grammar
import LuaFold.Token.Literal

/-!
# Numerals

What is read at a numeral is made of the parts that a numeral has, and it goes at least as far as
any numeral there.  The one thing that is not looked at is whether digits have been read, so a
numeral that goes unreported is one of the manual, or it lacks digits.  A numeral of the manual that
nothing sticks to is read whole.
-/

namespace LuaFold

namespace Cut

/-- A cut takes one text and leaves another. -/
structure Yields {text : Text} (cut : Cut text) (taken rest : Text) : Prop where
  taken : cut.taken = taken
  rest : cut.rest = rest

/-- One cut after another takes what both take. -/
theorem Yields.andThen
    {text taken rest taken' rest' : Text}
    {cut : Cut text}
    {next : (rest : Text) → Cut rest}
    (first : cut.Yields taken rest)
    (second : (next rest).Yields taken' rest') :
    (cut.andThen next).Yields (taken ++ taken') rest' := by
  obtain ⟨rfl, rfl⟩ := first
  obtain ⟨rfl, rfl⟩ := second
  exact ⟨rfl, rfl⟩

theorem taken_andThen
    {text : Text}
    (first : Cut text)
    (next : (rest : Text) → Cut rest) :
    (first.andThen next).taken = first.taken ++ (next first.rest).taken :=
  rfl

theorem yields_characters (front behind : Text) :
    (characters front.length (front ++ behind)).Yields front behind :=
  ⟨List.take_left, List.drop_left⟩

end Cut

/-- The longest front part is the maximal run that the text begins with. -/
theorem Text.MaximalRun.longest
    {test : Char → Bool}
    {run behind : Text}
    (maximal : MaximalRun test run behind) :
    (Cut.longest test (run ++ behind)).Yields run behind := by
  have stops : behind.takeWhile test = [] ∧ behind.dropWhile test = behind := by
    cases behind with
    | nil => exact ⟨rfl, rfl⟩
    | cons first rest =>
        have failed : test first = false := maximal.ends
        simp [failed]
  refine ⟨?_, ?_⟩
  · simp only [Cut.longest, List.takeWhile_append_of_pos maximal.inside, stops, List.append_nil]
  · simp only [Cut.longest, List.dropWhile_append_of_pos maximal.inside, stops]

namespace Text

theorem any_head?_append
    {test : Char → Bool}
    {front behind : Text}
    (early : front.head?.any test = false)
    (late : behind.head?.any test = false) :
    (front ++ behind).head?.any test = false := by
  cases front with
  | nil => exact late
  | cons first rest => exact early

theorem any_head?_of_imp
    {test other : Char → Bool}
    {text : Text}
    (failed : text.head?.any other = false)
    (stronger : ∀ character, test character = true → other character = true) :
    text.head?.any test = false := by
  cases text with
  | nil => rfl
  | cons first rest =>
      rw [List.head?_cons, Option.any_some] at failed ⊢
      exact Bool.eq_false_iff.mpr fun passed =>
        Bool.false_ne_true (failed.symm.trans (stronger first passed))

theorem isWordPart_of_isHexDigit
    {character : Char}
    (isDigit : isHexDigit character = true) :
    isWordPart character = true := by
  delta isWordPart Char.isAlphanum Char.isAlpha Char.isUpper Char.isLower
  grind [isHexDigit, Char.isDigit, Char.le_def]

theorem isWordPart_of_isDigit
    {character : Char}
    (isDigit : character.isDigit = true) :
    isWordPart character = true :=
  isWordPart_of_isHexDigit (by simp [isHexDigit, isDigit])

end Text

theorem Lexeme.fault?_numeral (text : Text) :
    (numeral text).fault? =
      if (Numeral.spoiled (Numeral.pattern text).rest).taken = [] then none
      else some .malformedNumber := by
  simp only [numeral, List.isEmpty_iff]

namespace Numeral

/-! ## What is read is made of parts -/

theorem exists_fraction
    (digit : Char → Bool)
    (text : Text) :
    ∃ fraction? : Option Text, (fraction digit text).taken = fractionText fraction? ∧
      ∀ digits ∈ fraction?, ∀ character ∈ digits, digit character = true := by
  unfold fraction
  split
  · next pointed =>
    have head : text.head? = some '.' := by
      simp only [Bool.and_eq_true, decide_eq_true_eq] at pointed
      exact pointed.1
    obtain ⟨rest, rfl⟩ := List.head?_eq_some_iff.mp head
    refine ⟨some (Cut.longest digit rest).taken, rfl, fun digits member => ?_⟩
    cases Option.mem_some_iff.mp member
    exact (Text.maximalRun_longest digit rest).inside
  · exact ⟨none, rfl, by simp⟩

theorem exists_optional
    (test : Char → Bool)
    (text : Text) :
    ∃ found? : Option Char, (optional test text).taken = found?.toList ∧
      ∀ character ∈ found?, test character = true := by
  cases text with
  | nil => exact ⟨none, rfl, by simp⟩
  | cons first rest =>
      by_cases passed : test first = true
      · exact ⟨some first, by simp [optional, passed, Cut.characters], by simpa using passed⟩
      · exact ⟨none, by simp [optional, passed, Cut.nothing], by simp⟩

theorem exists_exponent
    (isMark : Char → Bool)
    (text : Text) :
    ∃ exponent? : Option Exponent, (exponent isMark text).taken = exponentText exponent? ∧
      ∀ written ∈ exponent?, written.Spelled isMark := by
  unfold exponent
  split
  · next marked =>
    cases text with
    | nil => cases marked
    | cons first rest =>
        obtain ⟨sign?, signed, isSign⟩ :=
          exists_optional (fun sign => sign = '+' || sign = '-') rest
        let digits := Cut.longest Char.isDigit
          (optional (fun sign => sign = '+' || sign = '-') rest).rest
        refine ⟨some ⟨first, sign?, digits.taken⟩, ?_, fun written member => ?_⟩
        · exact congrArg (fun sign => first :: (sign ++ digits.taken)) signed
        · cases Option.mem_some_iff.mp member
          exact ⟨marked, by simpa using isSign, (Text.maximalRun_longest Char.isDigit _).inside⟩
  · exact ⟨none, rfl, by simp⟩

/-- Behind any start digits are read, then a fraction and then an exponent. -/
theorem exists_stages
    (digit isMark : Char → Bool)
    {text : Text}
    (start : Cut text) :
    ∃ run fraction? exponent?, (∀ character ∈ run, digit character = true) ∧
      (∀ digits ∈ fraction?, ∀ character ∈ digits, digit character = true) ∧
      (∀ written ∈ exponent?, written.Spelled isMark) ∧
      start.taken ++ (run ++ (fractionText fraction? ++ exponentText exponent?)) =
        (((start.andThen (.longest digit)).andThen (fraction digit)).andThen
          (exponent isMark)).taken := by
  let run := Cut.longest digit start.rest
  obtain ⟨fraction?, pointed, isFraction⟩ := exists_fraction digit run.rest
  obtain ⟨exponent?, scaled, isExponent⟩ := exists_exponent isMark (fraction digit run.rest).rest
  refine ⟨run.taken, fraction?, exponent?, (Text.maximalRun_longest digit start.rest).inside,
    isFraction, isExponent, ?_⟩
  rw [← pointed, ← scaled, ← List.append_assoc, ← List.append_assoc]
  rfl

theorem isHexadecimal_iff {text : Text} :
    isHexadecimal text = true ↔
      ∃ base rest, text = '0' :: base :: rest ∧ (base = 'x' ∨ base = 'X') := by
  constructor
  · intro hexadecimal
    match text, hexadecimal with
    | first :: base :: rest, hexadecimal =>
        simp only [isHexadecimal, List.head?_cons, Option.some.injEq, List.getElem?_cons_succ,
          List.getElem?_cons_zero, Bool.and_eq_true, Bool.or_eq_true, decide_eq_true_eq]
          at hexadecimal
        obtain ⟨rfl, isBase⟩ := hexadecimal
        exact ⟨base, rest, rfl, isBase⟩
    | [first], hexadecimal => simp [isHexadecimal] at hexadecimal
  · rintro ⟨base, rest, rfl, rfl | rfl⟩ <;> rfl

theorem isHexadecimal_point (rest : Text) : isHexadecimal ('.' :: rest) = false := by
  simp [isHexadecimal]

/-! The recogniser starts differently for each of the three forms of a numeral. -/

theorem pattern_hexadecimal
    {base : Char}
    (isBase : base = 'x' ∨ base = 'X')
    (rest : Text) :
    pattern ('0' :: base :: rest) =
      (((Cut.characters 2 ('0' :: base :: rest)).andThen (.longest Text.isHexDigit)).andThen
        (fraction Text.isHexDigit)).andThen (exponent fun mark => mark = 'p' || mark = 'P') :=
  if_pos (isHexadecimal_iff.mpr ⟨base, rest, rfl, isBase⟩)

theorem pattern_digit
    {first : Char}
    {rest : Text}
    (isDigit : first.isDigit = true)
    (decimal : isHexadecimal (first :: rest) = false) :
    pattern (first :: rest) =
      (((Cut.characters 1 (first :: rest)).andThen (.longest Char.isDigit)).andThen
        (fraction Char.isDigit)).andThen (exponent fun mark => mark = 'e' || mark = 'E') := by
  have unpointed : ¬ (first :: rest).head? = some '.' := by
    intro same
    cases same
    exact absurd isDigit (by decide)
  rw [pattern, decimal, if_neg Bool.false_ne_true]
  simp only [if_neg unpointed]

theorem pattern_point (rest : Text) :
    pattern ('.' :: rest) =
      ((Cut.characters 1 ('.' :: rest)).andThen (.longest Char.isDigit)).andThen
        (exponent fun mark => mark = 'e' || mark = 'E') := by
  rw [pattern, isHexadecimal_point, if_neg Bool.false_ne_true]
  rfl

/-- What is read of a numeral has the parts of one, and a decimal numeral has digits. -/
theorem exists_parts
    {text : Text}
    (begins : Begins text) :
    ∃ parts : Parts,
      parts.Spelled ∧
      (parts.base? = none → parts.mantissa ≠ []) ∧
      parts.text = (pattern text).taken := by
  by_cases hexadecimal : isHexadecimal text = true
  · obtain ⟨base, rest, rfl, isBase⟩ := isHexadecimal_iff.mp hexadecimal
    rw [pattern_hexadecimal isBase]
    obtain ⟨run, fraction?, exponent?, isRun, isFraction, isExponent, taken⟩ :=
      exists_stages Text.isHexDigit (fun mark => mark = 'p' || mark = 'P')
        (.characters 2 ('0' :: base :: rest))
    exact ⟨⟨some base, run, fraction?, exponent?⟩,
      ⟨by simpa using isBase, isRun, isFraction, isExponent⟩, by simp, taken⟩
  · cases begins with
    | @digit first rest isDigit =>
        rw [pattern_digit isDigit (Bool.eq_false_iff.mpr hexadecimal)]
        obtain ⟨run, fraction?, exponent?, isRun, isFraction, isExponent, taken⟩ :=
          exists_stages Char.isDigit (fun mark => mark = 'e' || mark = 'E')
            (.characters 1 (first :: rest))
        exact ⟨⟨none, first :: run, fraction?, exponent?⟩, ⟨by simp,
          List.forall_mem_cons.mpr ⟨isDigit, isRun⟩, isFraction, isExponent⟩,
          by simp [Parts.mantissa], taken⟩
    | @point digit rest isDigit =>
        -- The point itself begins the numeral here, so the run behind it is the fraction.
        rw [pattern_point]
        let behind := Cut.longest Char.isDigit (digit :: rest)
        have nonempty : behind.taken ≠ [] := by simp [behind, Cut.longest, isDigit]
        have digits := (Text.maximalRun_longest Char.isDigit (digit :: rest)).inside
        obtain ⟨exponent?, scaled, isExponent⟩ :=
          exists_exponent (fun mark => mark = 'e' || mark = 'E') behind.rest
        refine ⟨⟨none, [], some behind.taken, exponent?⟩, ⟨by simp, by simp,
          fun _ member => Option.mem_some_iff.mp member ▸ digits, isExponent⟩,
          fun _ => nonempty, ?_⟩
        simp only [Parts.text, ← scaled]
        rfl

/-! ## Numerals are read as far as they go -/

section Exact

variable {digit isMark : Char → Bool} {fraction? : Option Text} {exponent? : Option Exponent}
  {behind : Text}

theorem yields_fraction
    (isFraction : ∀ digits ∈ fraction?, ∀ character ∈ digits,
      digit character = true)
    (unpointed : digit '.' = false)
    (ends : behind.head?.any (fun character => digit character || character = '.') = false) :
    (fraction digit (fractionText fraction? ++ behind)).Yields (fractionText fraction?) behind := by
  have apart : behind.head?.any digit = false ∧ behind.head? ≠ some '.' := by
    cases behind with
    | nil => simp
    | cons first rest => simpa using ends
  cases fraction? with
  | none =>
      have skipped : fraction digit behind = .nothing behind := if_neg (by simp [apart.2])
      rw [fractionText, Option.elim_none, List.nil_append, skipped]
      exact ⟨rfl, rfl⟩
  | some digits =>
      have maximal : Text.MaximalRun digit digits behind := ⟨isFraction digits rfl, apart.1⟩
      have single : (digits ++ behind).head? ≠ some '.' := by
        cases digits with
        | nil => exact apart.2
        | cons first rest =>
            intro same
            cases same
            exact absurd (maximal.inside '.' List.mem_cons_self) (by simp [unpointed])
      have pointed : fraction digit ('.' :: (digits ++ behind)) =
          (Cut.characters 1 ('.' :: (digits ++ behind))).andThen (.longest digit) := by
        rw [List.head?_eq_getElem?] at single
        exact if_pos (by simp [single])
      rw [fractionText, Option.elim_some, List.cons_append, pointed]
      exact (Cut.yields_characters ['.'] (digits ++ behind)).andThen maximal.longest

theorem yields_optional
    {test : Char → Bool}
    {found? : Option Char}
    (passed : ∀ character ∈ found?, test character = true)
    (ends : found? = none → behind.head?.any test = false) :
    (optional test (found?.toList ++ behind)).Yields found?.toList behind := by
  cases found? with
  | none =>
      cases behind with
      | nil => exact ⟨rfl, rfl⟩
      | cons first rest =>
          have failed : test first = false := ends rfl
          exact ⟨by simp [optional, failed, Cut.nothing], by simp [optional, failed, Cut.nothing]⟩
  | some character =>
      have here : test character = true := passed character rfl
      exact ⟨by simp [optional, here, Cut.characters], by simp [optional, here, Cut.characters]⟩

/--
No sign stands right behind the mark of an exponent without a sign.  If the exponent has no digits
either, such a sign would be read with it.
-/
def Exponent.Unsigned (behind : Text) (exponent : Exponent) : Prop :=
  exponent.sign? = none →
    (exponent.digits ++ behind).head?.any (fun sign => sign = '+' || sign = '-') = false

/-- The digits of an exponent keep signs away from its mark. -/
theorem Exponent.Spelled.unsigned
    {exponent : Exponent}
    (spelled : exponent.Spelled isMark)
    (digits : exponent.digits ≠ []) :
    exponent.Unsigned behind := by
  intro _
  obtain ⟨first, rest, same⟩ := List.exists_cons_of_ne_nil digits
  have isDigit := spelled.digits first (by rw [same]; exact List.mem_cons_self)
  have plus : first ≠ '+' := Text.ne_of_passed isDigit (by decide)
  have minus : first ≠ '-' := Text.ne_of_passed isDigit (by decide)
  simp [same, plus, minus]

/-- An exponent is read as it is written. -/
theorem yields_exponent
    (isExponent : ∀ written ∈ exponent?, written.Spelled isMark)
    (unsigned : ∀ written ∈ exponent?, written.Unsigned behind)
    (unmarked : behind.head?.any isMark = false)
    (ends : behind.head?.any Char.isDigit = false) :
    (exponent isMark (exponentText exponent? ++ behind)).Yields (exponentText exponent?)
      behind := by
  cases exponent? with
  | none =>
      have skipped : exponent isMark behind = .nothing behind := if_neg (by simp [unmarked])
      rw [exponentText, Option.elim_none, List.nil_append, skipped]
      exact ⟨rfl, rfl⟩
  | some written =>
      obtain ⟨mark, sign?, digits⟩ := written
      have spelled := isExponent _ rfl
      have marked : exponent isMark (mark :: (sign?.toList ++ (digits ++ behind))) =
          ((Cut.characters 1 (mark :: (sign?.toList ++ (digits ++ behind)))).andThen
            (optional fun sign => sign = '+' || sign = '-')).andThen (.longest Char.isDigit) :=
        if_pos (by simpa using spelled.mark)
      have first := Cut.yields_characters [mark] (sign?.toList ++ (digits ++ behind))
      have maximal : Text.MaximalRun Char.isDigit digits behind := ⟨spelled.digits, ends⟩
      have whole := (first.andThen (yields_optional (by simpa using spelled.sign)
        (unsigned _ rfl))).andThen maximal.longest
      rw [exponentText, Option.elim_some, Exponent.text, List.cons_append, List.append_assoc,
        marked]
      simpa using whole

/-- Of an exponent at least what is written is read. -/
theorem prefix_exponent
    (isExponent : ∀ written ∈ exponent?, written.Spelled isMark)
    (unmarked : behind.head?.any isMark = false)
    (ends : behind.head?.any Char.isDigit = false) :
    exponentText exponent? <+: (exponent isMark (exponentText exponent? ++ behind)).taken := by
  by_cases unsigned : ∀ written ∈ exponent?, written.Unsigned behind
  · have read := yields_exponent isExponent unsigned unmarked ends
    exact ⟨[], (List.append_nil _).trans read.taken.symm⟩
  · obtain ⟨written, same, signed⟩ :
        ∃ written ∈ exponent?, ¬ written.Unsigned behind := by
      simpa using unsigned
    obtain rfl := Option.mem_def.mp same
    obtain ⟨unsigned, _⟩ := Classical.not_imp.mp signed
    have empty : written.digits = [] := by
      by_contra digits
      exact signed ((isExponent written rfl).unsigned digits)
    have bare : exponentText (some written) = [written.mark] := by
      simp [exponentText, Exponent.text, unsigned, empty]
    have marked : exponent isMark (written.mark :: behind) =
        ((Cut.characters 1 (written.mark :: behind)).andThen
          (optional fun sign => sign = '+' || sign = '-')).andThen (.longest Char.isDigit) :=
      if_pos (by simpa using (isExponent written rfl).mark)
    rw [bare, List.singleton_append, marked]
    exact ⟨_, (List.append_assoc [written.mark] _ _).symm⟩

end Exact

namespace Parts

theorem isDigit_point (parts : Parts) : parts.isDigit '.' = false := by
  unfold isDigit
  split <;> decide

variable {parts : Parts} {character : Char}

theorem isWordPart_of_isDigit (isDigit : parts.isDigit character = true) :
    Text.isWordPart character = true := by
  unfold Parts.isDigit at isDigit
  split at isDigit
  · exact Text.isWordPart_of_isHexDigit isDigit
  · exact Text.isWordPart_of_isDigit isDigit

theorem isDigit_of_hexadecimal
    {letter : Char}
    (base : parts.base? = some letter) :
    parts.isDigit = Text.isHexDigit :=
  if_pos (by simp [base])

theorem isDigit_of_decimal (base : parts.base? = none) : parts.isDigit = Char.isDigit :=
  if_neg (by simp [base])

theorem isMark_of_hexadecimal
    {letter : Char}
    (base : parts.base? = some letter) :
    parts.isMark = fun mark => mark = 'p' || mark = 'P' :=
  if_pos (by simp [base])

theorem isMark_of_decimal (base : parts.base? = none) :
    parts.isMark = fun mark => mark = 'e' || mark = 'E' :=
  if_neg (by simp [base])

/-- A mark of an exponent continues words, and it is neither a digit nor a point. -/
theorem isMark_cases (isMark : parts.isMark character = true) :
    Text.isWordPart character = true ∧ (parts.isDigit character || character = '.') = false := by
  cases base : parts.base? with
  | some letter =>
      rw [isMark_of_hexadecimal base] at isMark
      rw [isDigit_of_hexadecimal base]
      obtain rfl | rfl : character = 'p' ∨ character = 'P' := by simpa using isMark
      · decide
      · decide
  | none =>
      rw [isMark_of_decimal base] at isMark
      rw [isDigit_of_decimal base]
      obtain rfl | rfl : character = 'e' ∨ character = 'E' := by simpa using isMark
      · decide
      · decide

/-- A numeral as it is written up to its exponent. -/
def unscaled (parts : Parts) : Text :=
  (parts.base?.elim [] fun base => ['0', base]) ++ (parts.whole ++ fractionText parts.fraction?)

theorem unscaled_append (parts : Parts) :
    parts.unscaled ++ exponentText parts.exponent? = parts.text := by
  simp [unscaled, text]

/-- What is read of a text is a numeral up to its exponent, and then an exponent if there is one. -/
def Leads (parts : Parts) (text behind : Text) : Prop :=
  ∃ start : Cut text, pattern text = start.andThen (Numeral.exponent parts.isMark) ∧
    start.Yields parts.unscaled (exponentText parts.exponent? ++ behind)

/-- What does not stick to a numeral goes on neither with a mark nor with a digit. -/
theorem ends_of_detached
    (parts : Parts)
    {behind : Text}
    (detached : Detached behind) :
    behind.head?.any parts.isMark = false ∧ behind.head?.any Char.isDigit = false :=
  ⟨Text.any_head?_of_imp detached fun character isMark => by simp [(isMark_cases isMark).1],
    Text.any_head?_of_imp detached fun character isDigit => by
      simp [Text.isWordPart_of_isDigit isDigit]⟩

section Spelled

variable {behind : Text} (spelled : parts.Spelled) (detached : Detached behind)
include spelled detached

/-- Neither digits nor a point go on where the exponent or what is behind it begins. -/
theorem Spelled.ends_exponent :
    (exponentText parts.exponent? ++ behind).head?.any
      (fun character => parts.isDigit character || character = '.') = false := by
  refine Text.any_head?_append ?_ (Text.any_head?_of_imp detached fun character passed => ?_)
  · cases some : parts.exponent? with
    | none => rfl
    | some written => exact (isMark_cases (spelled.exponent written some).mark).2
  · rcases Bool.or_eq_true_iff.mp passed with isDigit | point
    · simp [isWordPart_of_isDigit isDigit]
    · simp [of_decide_eq_true point]

/-- The digits of the whole part end with it. -/
theorem Spelled.ends_whole :
    (fractionText parts.fraction? ++ (exponentText parts.exponent? ++ behind)).head?.any
      parts.isDigit = false := by
  refine Text.any_head?_append ?_ (Text.any_head?_of_imp (spelled.ends_exponent detached)
    fun character isDigit => by simp [isDigit])
  cases parts.fraction? with
  | none => rfl
  | some digits => exact parts.isDigit_point

/-- The digits and the fraction of a numeral are read as they are written. -/
theorem Spelled.yields_mantissa
    {text taken run : Text}
    {start : Cut text}
    (isRun : ∀ digit ∈ run, parts.isDigit digit = true)
    (begun : start.Yields taken (run ++
      (fractionText parts.fraction? ++ (exponentText parts.exponent? ++ behind)))) :
    ((start.andThen (.longest parts.isDigit)).andThen (Numeral.fraction parts.isDigit)).Yields
      (taken ++ run ++ fractionText parts.fraction?) (exponentText parts.exponent? ++ behind) := by
  have maximal : Text.MaximalRun parts.isDigit run _ := ⟨isRun, spelled.ends_whole detached⟩
  exact (begun.andThen maximal.longest).andThen
    (yields_fraction spelled.fraction parts.isDigit_point (spelled.ends_exponent detached))

/-- Behind a first digit a decimal numeral has no letter that would make it hexadecimal. -/
theorem Spelled.isHexadecimal_eq_false
    {run : Text}
    (decimal : parts.base? = none)
    (isRun : ∀ digit ∈ run, digit.isDigit = true)
    (first : Char) :
    isHexadecimal (first :: (run ++
      (fractionText parts.fraction? ++ (exponentText parts.exponent? ++ behind)))) = false := by
  let isBase (character : Char) : Bool := character = 'x' || character = 'X'
  have failed : (run ++ (fractionText parts.fraction? ++
      (exponentText parts.exponent? ++ behind))).head?.any isBase = false := by
    refine Text.any_head?_append ?_ (Text.any_head?_append ?_ (Text.any_head?_append ?_
      (Text.any_head?_of_imp detached fun character base => ?_)))
    · cases run with
      | nil => rfl
      | cons digit rest =>
          have isDigit := isRun digit List.mem_cons_self
          have small : digit ≠ 'x' := Text.ne_of_passed isDigit (by decide)
          have large : digit ≠ 'X' := Text.ne_of_passed isDigit (by decide)
          simp [isBase, small, large]
    · cases parts.fraction? <;> rfl
    · cases some : parts.exponent? with
      | none => rfl
      | some written =>
          have mark := (spelled.exponent written some).mark
          have small : parts.isMark 'x' = false := by
            rw [isMark_of_decimal decimal]
            decide
          have large : parts.isMark 'X' = false := by
            rw [isMark_of_decimal decimal]
            decide
          simp [exponentText, Exponent.text, isBase, Text.ne_of_passed mark small,
            Text.ne_of_passed mark large]
    · obtain rfl | rfl : character = 'x' ∨ character = 'X' := by simpa [isBase] using base
      · decide
      · decide
  rw [Bool.eq_false_iff]
  intro hexadecimal
  obtain ⟨base, rest, same, isBase⟩ := isHexadecimal_iff.mp hexadecimal
  rw [(List.cons.inj same).2] at failed
  rcases isBase with rfl | rfl <;> cases failed

theorem Spelled.leads_hexadecimal
    {letter : Char}
    (base : parts.base? = some letter) :
    parts.Leads (parts.text ++ behind) behind := by
  have shown : parts.text ++ behind = '0' :: letter :: (parts.whole ++
      (fractionText parts.fraction? ++ (exponentText parts.exponent? ++ behind))) := by
    simp [text, base]
  have read := spelled.yields_mantissa detached spelled.whole
    (Cut.yields_characters ['0', letter] _)
  rw [isDigit_of_hexadecimal base] at read
  rw [shown, Leads, pattern_hexadecimal (spelled.base letter base), isMark_of_hexadecimal base]
  exact ⟨_, rfl, by simpa [unscaled, base] using read⟩

theorem Spelled.leads_digit
    {first : Char}
    {run : Text}
    (base : parts.base? = none)
    (whole : parts.whole = first :: run) :
    parts.Leads (parts.text ++ behind) behind := by
  have shown : parts.text ++ behind = first :: (run ++
      (fractionText parts.fraction? ++ (exponentText parts.exponent? ++ behind))) := by
    simp [text, base, whole]
  have digits := spelled.whole
  rw [whole] at digits
  obtain ⟨isDigit, isRun⟩ := List.forall_mem_cons.mp digits
  have read := spelled.yields_mantissa detached isRun (Cut.yields_characters [first] _)
  rw [isDigit_of_decimal base] at isDigit isRun read
  rw [shown, Leads, pattern_digit isDigit
    (spelled.isHexadecimal_eq_false detached base isRun first), isMark_of_decimal base]
  exact ⟨_, rfl, by simpa [unscaled, base, whole] using read⟩

theorem Spelled.leads_point
    {digits : Text}
    (base : parts.base? = none)
    (whole : parts.whole = [])
    (fraction : parts.fraction? = some digits) :
    parts.Leads (parts.text ++ behind) behind := by
  have shown : parts.text ++ behind =
      '.' :: (digits ++ (exponentText parts.exponent? ++ behind)) := by
    simp [text, base, whole, fraction, fractionText]
  have ends : (exponentText parts.exponent? ++ behind).head?.any parts.isDigit = false :=
    Text.any_head?_of_imp (spelled.ends_exponent detached) fun character isDigit => by
      simp [isDigit]
  have maximal : Text.MaximalRun parts.isDigit digits (exponentText parts.exponent? ++ behind) :=
    ⟨spelled.fraction digits fraction, ends⟩
  have read := (Cut.yields_characters ['.'] _).andThen maximal.longest
  rw [isDigit_of_decimal base] at read
  rw [shown, Leads, pattern_point, isMark_of_decimal base]
  exact ⟨_, rfl, by simpa [unscaled, base, whole, fraction, fractionText] using read⟩

/-- A numeral that nothing sticks to is read as it is written, up to its exponent. -/
theorem Spelled.leads (begins : Begins (parts.text ++ behind)) :
    parts.Leads (parts.text ++ behind) behind := by
  cases base : parts.base? with
  | some letter => exact spelled.leads_hexadecimal detached base
  | none =>
      cases whole : parts.whole with
      | cons first run => exact spelled.leads_digit detached base whole
      | nil =>
          cases fraction : parts.fraction? with
          | some digits => exact spelled.leads_point detached base whole fraction
          | none =>
              -- Without digits and a point there is nothing that a numeral could begin with.
              have shown : parts.text ++ behind = exponentText parts.exponent? ++ behind := by
                simp [text, base, whole, fraction, fractionText]
              have ends := spelled.ends_exponent detached
              rw [← shown, isDigit_of_decimal base] at ends
              generalize parts.text ++ behind = all at begins ends
              cases begins with
              | digit first => simp [first] at ends
              | point second => simp at ends

/-- Where a numeral begins that nothing sticks to, at least what is written of it is read. -/
theorem Spelled.prefix_pattern (begins : Begins (parts.text ++ behind)) :
    parts.text <+: (pattern (parts.text ++ behind)).taken := by
  obtain ⟨start, pattern, taken, rest⟩ := spelled.leads detached begins
  obtain ⟨unmarked, ends⟩ := parts.ends_of_detached detached
  have last := prefix_exponent spelled.exponent unmarked ends
  have written : parts.text = start.taken ++ exponentText parts.exponent? := by
    rw [taken, unscaled_append]
  have whole := (List.prefix_append_right_inj start.taken).mpr (rest ▸ last)
  rw [← written, ← Cut.taken_andThen, ← pattern] at whole
  exact whole

/-- Where a numeral begins that neither a sign nor anything else goes on with, it is read whole. -/
theorem Spelled.yields_pattern
    (begins : Begins (parts.text ++ behind))
    (unsigned : ∀ written ∈ parts.exponent?, written.Unsigned behind) :
    (pattern (parts.text ++ behind)).Yields parts.text behind := by
  obtain ⟨start, pattern, read⟩ := spelled.leads detached begins
  obtain ⟨unmarked, ends⟩ := parts.ends_of_detached detached
  have whole := read.andThen (yields_exponent spelled.exponent unsigned unmarked ends)
  rwa [unscaled_append, ← pattern] at whole

omit detached in
/-- A numeral begins as one, unless it is a decimal one without digits. -/
theorem Spelled.begins (digits : parts.base? = none → parts.mantissa ≠ []) :
    Begins (parts.text ++ behind) := by
  cases base : parts.base? with
  | some letter =>
      have zero : Char.isDigit '0' = true := by decide
      simpa [text, base] using Begins.digit zero
  | none =>
      have isWhole := spelled.whole
      have isFraction := spelled.fraction
      rw [isDigit_of_decimal base] at isWhole isFraction
      cases whole : parts.whole with
      | cons first run =>
          rw [whole] at isWhole
          simpa [text, base, whole] using Begins.digit (isWhole first List.mem_cons_self)
      | nil =>
          have nonempty := digits base
          rw [mantissa, whole, List.nil_append] at nonempty
          obtain ⟨behindPoint, fraction⟩ : ∃ digits, parts.fraction? = some digits :=
            Option.ne_none_iff_exists'.mp fun none => nonempty (by rw [none]; rfl)
          rw [fraction, Option.getD_some] at nonempty
          obtain ⟨first, run, rfl⟩ := List.exists_cons_of_ne_nil nonempty
          have isDigit := isFraction _ fraction first List.mem_cons_self
          simpa [text, base, whole, fraction, fractionText] using Begins.point isDigit

/-- A numeral that nothing goes on with is recognised whole, and nothing spoils it. -/
theorem Spelled.recognised
    (digits : parts.base? = none → parts.mantissa ≠ [])
    (unsigned : ∀ written ∈ parts.exponent?, written.Unsigned behind) :
    (Lexeme.numeral (parts.text ++ behind)).cut.Yields parts.text behind ∧
      (Lexeme.numeral (parts.text ++ behind)).fault? = none := by
  have read := spelled.yields_pattern detached (spelled.begins digits) unsigned
  have unspoiled : spoiled behind = .nothing behind := by
    refine if_neg (Bool.eq_false_iff.mp ?_)
    exact Text.any_head?_of_imp detached fun character isPart => by simp [isPart]
  have rest : (spoiled behind).Yields [] behind := by
    rw [unspoiled]
    exact ⟨rfl, rfl⟩
  refine ⟨?_, ?_⟩
  · have whole := read.andThen rest
    rw [List.append_nil] at whole
    exact whole
  · rw [Lexeme.fault?_numeral, read.rest, unspoiled]
    rfl

end Spelled

end Parts

/-- The beginning of a hexadecimal numeral is not a numeral. -/
theorem not_valid_base
    {letter : Char}
    (isBase : letter = 'x' ∨ letter = 'X') :
    ¬ Valid ['0', letter] := by
  rintro ⟨⟨base?, whole, fraction?, exponent?⟩, spelled, complete, same⟩
  cases base? with
  | some base =>
      have rest : whole ++ (fractionText fraction? ++ exponentText exponent?) = [] :=
        (List.cons.inj (List.cons.inj same).2).2
      obtain ⟨unwhole, behind⟩ := List.append_eq_nil_iff.mp rest
      cases fraction? with
      | none => exact complete.mantissa (by simp [Parts.mantissa, unwhole])
      | some digits => cases (List.append_eq_nil_iff.mp behind).1
  | none =>
      cases whole with
      | nil =>
          cases fraction? with
          | none => exact complete.mantissa rfl
          | some digits => cases (List.cons.inj same).1
      | cons first run =>
          -- The letter behind the first digit would make it a hexadecimal numeral.
          have detached : Detached [] := rfl
          have decimal := spelled.isHexadecimal_eq_false detached rfl
            (List.forall_mem_cons.mp spelled.whole).2 first
          have shown : first :: (run ++ (fractionText fraction? ++
              (exponentText exponent? ++ []))) = ['0', letter] := by
            rw [List.append_nil]
            exact same
          rw [shown] at decimal
          exact Bool.false_ne_true
            (decimal.symm.trans (isHexadecimal_iff.mpr ⟨letter, [], rfl, isBase⟩))

/-! ## What spoils a numeral -/

/-- Nothing sticks to what spoils a numeral. -/
theorem detached_rest_spoiled
    {text : Text}
    (spoils : (spoiled text).taken ≠ []) :
    Detached (spoiled text).rest := by
  unfold spoiled at spoils ⊢
  split
  · exact (Text.maximalRun_longest _ text).ends
  · next attached =>
    rw [if_neg attached] at spoils
    exact absurd rfl spoils

theorem taken_spoiled_eq_nil_iff
    {text : Text}
    (begins : Begins text) :
    (spoiled (pattern text).rest).taken = [] ↔
      Valid (Lexeme.numeral text).cut.taken ∨ LacksDigits (Lexeme.numeral text).cut.taken := by
  have taken : (Lexeme.numeral text).cut.taken =
      (pattern text).taken ++ (spoiled (pattern text).rest).taken := rfl
  constructor
  · intro unspoiled
    obtain ⟨parts, spelled, decimal, same⟩ := exists_parts begins
    rw [taken, unspoiled, List.append_nil, ← same]
    by_cases lacks : parts.base?.isSome = true ∧ parts.mantissa = [] ∨
        ∃ exponent ∈ parts.exponent?, exponent.digits = []
    · exact Or.inr ⟨parts, spelled, lacks, rfl⟩
    · obtain ⟨hexadecimal, exponents⟩ := not_or.mp lacks
      refine Or.inl ⟨parts, spelled, ⟨?_, ?_⟩, rfl⟩
      · intro empty
        cases base : parts.base? with
        | none => exact decimal base empty
        | some letter => exact hexadecimal ⟨by simp [base], empty⟩
      · exact fun exponent written empty => exponents ⟨exponent, written, empty⟩
  · intro written
    obtain ⟨parts, spelled, same⟩ : ∃ parts : Parts, parts.Spelled ∧
        parts.text = (Lexeme.numeral text).cut.taken := by
      rcases written with ⟨parts, spelled, _, same⟩ | ⟨parts, spelled, _, same⟩
      · exact ⟨parts, spelled, same⟩
      · exact ⟨parts, spelled, same⟩
    by_contra spoils
    have detached := detached_rest_spoiled spoils
    have whole : parts.text ++ (spoiled (pattern text).rest).rest = text := by
      rw [same]
      exact (Lexeme.numeral text).cut.whole
    have read := spelled.prefix_pattern detached (whole.symm ▸ begins)
    rw [whole, same, taken] at read
    have short := read.length_le
    rw [List.length_append] at short
    exact spoils (List.eq_nil_of_length_eq_zero (by omega))

end Numeral

/-! ## Tokens -/

/--
A numeral goes unreported just when it is one of the manual or lacks digits: every numeral that is
malformed in another way is reported.
-/
theorem number_unreported_iff
    {text : Text}
    {offset : Nat}
    {token : Token}
    (listed : (offset, token) ∈ Token.layOut (tokenize text))
    (number : token.kind = .number) :
    (∀ span, (.malformedNumber, span) ∈ Token.allFaults (tokenize text) →
        span.contains (token.span offset) = false) ↔
      Numeral.Valid token.text ∨ Numeral.LacksDigits token.text := by
  have significant : token.kind ≠ .eof := by
    rw [number]
    decide
  obtain ⟨front, rest, rfl, follows⟩ := Token.exists_follows listed significant
  obtain ⟨first, later, rfl, recognised⟩ := follows.recognised
  have begins := Lexeme.kind_read_eq_number_iff.mp (recognised.kind.symm.trans number)
  have text := recognised.text
  have fault := recognised.fault?
  rw [Lexeme.read_numeral begins] at text fault
  rw [Lexeme.fault?_numeral] at fault
  rw [text, ← Numeral.taken_spoiled_eq_nil_iff begins]
  constructor
  · intro unreported
    by_contra spoils
    rw [if_neg spoils] at fault
    have silent := unreported _ (Token.mem_allFaults_of_fault? listed fault)
    have covers : (token.span offset).contains (token.span offset) = true :=
      Span.contains_iff.mpr ⟨Nat.le_refl _, Nat.le_refl _⟩
    exact Bool.false_ne_true (silent.symm.trans covers)
  · intro unspoiled span found
    rw [if_pos unspoiled] at fault
    rw [Bool.eq_false_iff]
    intro covers
    obtain ⟨begin, ends⟩ := Span.contains_iff.mp covers
    have inside := follows.start_lt_stop
    obtain ⟨broken, _⟩ := follows.fault_of_overlaps found
      ⟨Nat.lt_of_le_of_lt begin inside, Nat.lt_of_lt_of_le inside ends⟩
    rw [fault] at broken
    cases broken

/-- A hexadecimal numeral with a fraction and an exponent, beside one that is malformed. -/
theorem number_unreported_iff_scaled :
    let text := "x = 0xA.8p-4 + 3abc".toList
    let token : Token := ⟨[], .number, "0xA.8p-4".toList, [⟨.whitespace, [' '], none⟩], none⟩
    ((4, token) ∈ Token.layOut (tokenize text) ∧ token.kind = .number) ∧
      ((∀ span, (.malformedNumber, span) ∈ Token.allFaults (tokenize text) →
          span.contains (token.span 4) = false) ↔
        Numeral.Valid token.text ∨ Numeral.LacksDigits token.text) := by
  intro text token
  have listed : (4, token) ∈ Token.layOut (tokenize text) := by decide +kernel
  exact ⟨⟨listed, rfl⟩, number_unreported_iff listed rfl⟩

/-- Not every numeral that goes unreported is one of the manual. -/
theorem not_valid_prefix :
    let token : Token := ⟨[], .number, ['0', 'x'], [], none⟩
    (0, token) ∈ Token.layOut (tokenize ['0', 'x']) ∧
      token.kind = .number ∧
      (∀ span, (.malformedNumber, span) ∈ Token.allFaults (tokenize ['0', 'x']) →
        span.contains (token.span 0) = false) ∧
      ¬ Numeral.Valid token.text := by
  intro token
  have silent : Token.allFaults (tokenize ['0', 'x']) = [] := by decide +kernel
  refine ⟨by decide +kernel, rfl, fun span found => ?_, Numeral.not_valid_base (Or.inl rfl)⟩
  rw [silent] at found
  cases found

/--
Where a token begins at a numeral of the manual that nothing sticks to, it is a number with the
text of the numeral, and no fault reaches into it.
-/
theorem number_whole_of_valid
    {front numeral behind : Text}
    {offset : Nat}
    {token : Token}
    (valid : Numeral.Valid numeral)
    (detached : Numeral.Detached behind)
    (follows : Token.Follows front (numeral ++ behind) offset token) :
    token.kind = .number ∧
      token.text = numeral ∧
      ∀ entry ∈ Token.allFaults (tokenize (front ++ (numeral ++ behind))),
        ¬ entry.2.Overlaps (token.span offset) := by
  obtain ⟨parts, spelled, complete, rfl⟩ := valid
  have digits : parts.base? = none → parts.mantissa ≠ [] := fun _ => complete.mantissa
  have begins : Numeral.Begins (parts.text ++ behind) := spelled.begins digits
  obtain ⟨⟨taken, _⟩, sound⟩ := spelled.recognised detached digits fun written isExponent =>
    (spelled.exponent written isExponent).unsigned (complete.exponent written isExponent)
  obtain ⟨first, later, whole, kind, text, fault⟩ := follows.recognised
  rw [whole] at begins
  rw [Lexeme.read_numeral begins] at kind text fault
  rw [whole] at taken sound
  exact ⟨kind, text.trans taken, follows.fault?_eq_none_iff.mp (fault.trans sound)⟩

/-- A hexadecimal numeral without a whole part, with a sign right behind it. -/
theorem number_whole_of_valid_signed :
    let numeral := "0x.8p-1".toList
    let token : Token := ⟨[], .number, numeral, [], none⟩
    (Numeral.Valid numeral ∧
        Numeral.Detached "+y".toList ∧
        Token.Follows "x = ".toList (numeral ++ "+y".toList) 4 token) ∧
      token.kind = .number ∧
      token.text = numeral ∧
      ∀ entry ∈ Token.allFaults (tokenize ("x = ".toList ++ (numeral ++ "+y".toList))),
        ¬ entry.2.Overlaps (token.span 4) := by
  intro numeral token
  have valid : Numeral.Valid numeral :=
    ⟨⟨some 'x', [], some ['8'], some ⟨'p', some '-', ['1']⟩⟩,
      ⟨by simp, by simp, by simp [Numeral.Parts.isDigit, Text.isHexDigit],
        by simpa using ⟨by decide, by simp, List.forall_mem_singleton.mpr (by decide)⟩⟩,
      ⟨by simp [Numeral.Parts.mantissa], by simp⟩, rfl⟩
  have detached : Numeral.Detached "+y".toList := rfl
  have follows : Token.Follows "x = ".toList (numeral ++ "+y".toList) 4 token :=
    ⟨by decide +kernel, by decide, by decide +kernel⟩
  exact ⟨⟨valid, detached, follows⟩, number_whole_of_valid valid detached follows⟩

end LuaFold
