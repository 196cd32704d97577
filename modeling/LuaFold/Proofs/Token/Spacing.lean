import LuaFold.Proofs.Token.Junction
import LuaFold.Proofs.Token.Numeral
import LuaFold.Proofs.Tree.Plain

/-!
# Tokens set apart by spaces

A token that is not broken ends by itself: it is recognised whatever is behind it, as long as that
begins with a space or is the end of the text.  So the tokens of a text without faults may be
written one behind the other with a space in front of each, and what is read then is spelled like
them.
-/

namespace LuaFold

/-! ## Spaces behind -/

/-- What is behind a token that is set apart: a space, or the end of the text. -/
def Text.Spaced (behind : Text) : Prop :=
  ∀ character ∈ behind.head?, character = ' '

namespace Text.Spaced

variable {behind : Text} (spaced : Spaced behind)
include spaced

theorem any_head?
    {test : Char → Bool}
    (stops : test ' ' = false) :
    behind.head?.any test = false := by
  cases behind with
  | nil => rfl
  | cons first rest =>
      obtain rfl := spaced first rfl
      exact stops

/-- A pattern without spaces does not reach behind a token that is set apart. -/
theorem prefix_of_append
    {pattern : Text}
    (solid : ' ' ∉ pattern)
    (front : Text)
    (stands : pattern <+: front ++ behind) :
    pattern <+: front := by
  induction pattern generalizing front with
  | nil => exact List.nil_prefix
  | cons first pattern ih =>
      obtain ⟨printed, solid⟩ := not_or.mp (List.mem_cons.not.mp solid)
      cases front with
      | nil =>
          obtain ⟨rest, rfl⟩ := stands
          exact absurd (spaced first rfl).symm printed
      | cons character front =>
          obtain ⟨rfl, later⟩ := List.cons_prefix_cons.mp stands
          exact List.cons_prefix_cons.mpr ⟨rfl, ih solid front later⟩

end Text.Spaced

/-! ## Parts that end by themselves -/

namespace LongBracket

theorem space_not_mem_opening (level : Nat) : ' ' ∉ opening level := by
  simp [opening]

theorem Takes.opens
    {level : Nat}
    {taken behind : Text}
    {closed : Bool}
    (takes : Takes level taken behind closed) :
    opening level <+: taken := by
  cases takes with
  | closed first => exact (List.prefix_append _ _).trans (List.prefix_append _ _)
  | unclosed never => exact List.prefix_append _ _

/-- There is one long bracket at most that takes the front of a text. -/
theorem Takes.unique
    {level : Nat}
    {taken behind taken' behind' : Text}
    {closed closed' : Bool}
    (takes : Takes level taken behind closed)
    (takes' : Takes level taken' behind' closed')
    (whole : taken' ++ behind' = taken ++ behind) :
    taken' = taken ∧ closed' = closed := by
  cases takes with
  | @closed inside behind first =>
      cases takes' with
      | @closed inside' behind' first' =>
          have same : inside' ++ ending level ++ behind' = inside ++ ending level ++ behind := by
            simpa using whole
          have short := first inside' (same ▸ List.prefix_append _ _)
          have long := first' inside (same ▸ List.prefix_append _ _)
          rw [List.append_assoc, List.append_assoc] at same
          rw [(List.append_inj same (Nat.le_antisymm long short)).1]
          exact ⟨rfl, rfl⟩
      | @unclosed inside' never =>
          have same : inside' = inside ++ ending level ++ behind := by simpa using whole
          exact absurd ⟨inside, behind, same.symm⟩ never
  | @unclosed inside never =>
      cases takes' with
      | @closed inside' behind' first' =>
          have same : inside' ++ ending level ++ behind' = inside := by simpa using whole
          exact absurd ⟨inside', behind', same⟩ never
      | unclosed never' => simpa using whole

/-- A long bracket that is closed takes the same whatever is behind it. -/
theorem Takes.apart
    {level : Nat}
    {taken behind : Text}
    (takes : Takes level taken behind true)
    (more : Text) :
    Takes level taken more true := by
  cases takes with
  | @closed inside behind first =>
      refine .closed fun other stands => ?_
      by_contra short
      have within : (other ++ ending level).length ≤ (inside ++ ending level).length := by
        simp only [List.length_append]
        omega
      have early : other ++ ending level <+: inside ++ ending level :=
        List.prefix_of_prefix_length_le stands (List.prefix_append _ _) within
      exact short (first other (early.trans (List.prefix_append _ _)))

end LongBracket

namespace Kind

theorem space_not_mem_symbol
    {kind : Kind}
    {written : Text}
    (spelled : kind.symbol? = some written) :
    ' ' ∉ written := by
  have all : ∀ entry ∈ operators, ' ' ∉ entry.1 := by decide
  exact all _ (mem_operators_iff.mpr spelled)

/-- No operator is listed twice. -/
theorem nodup_operators : (operators.map Prod.fst).Nodup := by
  refine List.pairwise_map.mpr (operators_pairwise.imp fun {earlier later} apart same => ?_)
  exact apart (same ▸ List.prefix_refl earlier.1)

/-- A symbol has one kind. -/
theorem eq_of_symbol
    {written : Text}
    {kind kind' : Kind}
    (spelled : kind.symbol? = some written)
    (spelled' : kind'.symbol? = some written) :
    kind' = kind :=
  congrArg Prod.snd (List.inj_on_of_nodup_map nodup_operators (mem_operators_iff.mpr spelled')
    (mem_operators_iff.mpr spelled) rfl)

/-- There is one symbol at most that is the longest one at the front of a text. -/
theorem Marked.unique
    {kind kind' : Kind}
    {taken behind taken' behind' : Text}
    (marked : Marked kind taken behind)
    (marked' : Marked kind' taken' behind')
    (whole : taken' ++ behind' = taken ++ behind) :
    kind' = kind ∧ taken' = taken := by
  cases marked with
  | operator spelled longest =>
      cases marked' with
      | operator spelled' longest' =>
          have short := longest _ _ spelled' (whole ▸ List.prefix_append _ _)
          have long := longest' _ _ spelled (whole ▸ List.prefix_append _ _)
          obtain ⟨rfl, _⟩ := List.append_inj whole (Nat.le_antisymm short long)
          exact ⟨eq_of_symbol spelled spelled', rfl⟩
      | unknown none => exact absurd ⟨_, whole.symm⟩ (none _ _ spelled)
  | unknown none =>
      cases marked' with
      | operator spelled' longest' => exact absurd ⟨_, whole⟩ (none _ _ spelled')
      | unknown none' => exact ⟨rfl, (List.append_inj whole rfl).1⟩

/-- A symbol stays the longest one when it is set apart. -/
theorem Marked.apart
    {kind : Kind}
    {taken behind more : Text}
    (marked : Marked kind taken behind)
    (spaced : Text.Spaced more) :
    Marked kind taken more := by
  cases marked with
  | operator spelled longest =>
      refine .operator spelled fun other symbol isSymbol stands =>
        longest other symbol isSymbol ?_
      exact (spaced.prefix_of_append (space_not_mem_symbol isSymbol) _ stands).trans
        (List.prefix_append _ _)
  | @unknown character behind none =>
      refine .unknown fun other symbol isSymbol stands => none other symbol isSymbol ?_
      exact (spaced.prefix_of_append (space_not_mem_symbol isSymbol) [character] stands).trans
        (List.prefix_append _ _)

end Kind

/-- A numeral that begins in front of a space begins there whatever is behind. -/
theorem Numeral.Begins.apart
    (front : Text)
    {behind : Text}
    (begins : Begins (front ++ behind))
    (spaced : Text.Spaced behind)
    (more : Text) :
    Begins (front ++ more) := by
  have undigit : behind.head?.any Char.isDigit = false := spaced.any_head? (by decide)
  match front with
  | [] =>
      cases begins with
      | digit isDigit => simp [isDigit] at undigit
      | point isDigit => exact absurd (spaced '.' rfl) (by decide)
  | [first] =>
      cases begins with
      | digit isDigit => exact .digit isDigit
      | point isDigit => simp [isDigit] at undigit
  | first :: second :: front =>
      cases begins with
      | digit isDigit => exact .digit isDigit
      | point isDigit => exact .point isDigit

/-! ## Recognised tokens -/

namespace Lexeme

/-- What is recognised at the front of one text is recognised at the front of another. -/
structure Alike {text other : Text} (lexeme : Lexeme text) (lexeme' : Lexeme other) : Prop where
  kind : lexeme'.kind = lexeme.kind
  taken : lexeme'.cut.taken = lexeme.cut.taken
  fault? : lexeme'.fault? = lexeme.fault?

variable {first : Char} {rest tail behind : Text}

section Apart

variable (spaced : Text.Spaced behind)
include spaced

theorem alike_word (taken : (word (first :: rest)).cut.taken = first :: tail) :
    (word (first :: rest)).Alike (word (first :: (tail ++ behind))) := by
  have run := (Text.maximalRun_longest Text.isWordPart (first :: rest)).inside
  have maximal : Text.MaximalRun Text.isWordPart (first :: tail) behind :=
    ⟨taken ▸ run, spaced.any_head? (by decide)⟩
  have same : (word (first :: (tail ++ behind))).cut.taken = (word (first :: rest)).cut.taken :=
    maximal.longest.taken.trans taken.symm
  refine ⟨?_, same, rfl⟩
  exact congrArg (fun taken => (Kind.ofKeyword? taken).getD .name) same

theorem alike_numeral
    (begins : Numeral.Begins (first :: rest))
    (taken : (numeral (first :: rest)).cut.taken = first :: tail)
    (sound : (numeral (first :: rest)).fault? = none) :
    Numeral.Begins (first :: (tail ++ behind)) ∧
      (numeral (first :: rest)).Alike (numeral (first :: (tail ++ behind))) := by
  have unspoiled : (Numeral.spoiled (Numeral.pattern (first :: rest)).rest).taken = [] := by
    rw [fault?_numeral] at sound
    by_contra spoils
    rw [if_neg spoils] at sound
    cases sound
  obtain ⟨parts, spelled, digits, written⟩ := Numeral.exists_parts begins
  have same : first :: tail = parts.text := by
    rw [written, ← taken]
    exact (congrArg (_ ++ ·) unspoiled).trans (List.append_nil _)
  have detached : Numeral.Detached behind := spaced.any_head? (by decide)
  have unsigned : ∀ exponent ∈ parts.exponent?, exponent.Unsigned behind := by
    intro exponent isExponent
    by_cases empty : exponent.digits = []
    · intro _
      rw [empty]
      exact spaced.any_head? (by decide)
    · exact (spelled.exponent exponent isExponent).unsigned empty
  have read := spelled.recognised detached digits unsigned
  have starts : Numeral.Begins (parts.text ++ behind) := spelled.begins digits
  rw [← same, List.cons_append] at read starts
  exact ⟨starts, rfl, read.1.taken.trans taken.symm, read.2.trans sound.symm⟩

theorem alike_symbol (taken : (symbol (first :: rest)).cut.taken = first :: tail) :
    (symbol (first :: rest)).Alike (symbol (first :: (tail ++ behind))) := by
  have marked := (taken ▸ Kind.marked_symbol first rest).apart spaced
  have whole := (symbol (first :: (tail ++ behind))).cut.whole
  obtain ⟨kind, same⟩ := marked.unique (Kind.marked_symbol first (tail ++ behind)) whole
  exact ⟨kind, same.trans taken.symm, (Kind.fault?_symbol _).trans (Kind.fault?_symbol _).symm⟩

end Apart

theorem alike_shortString
    (isQuote : first = '"' ∨ first = '\'')
    (taken : (shortString first rest).cut.taken = first :: tail)
    (sound : (shortString first rest).fault? = none)
    (behind : Text) :
    (shortString first rest).Alike (shortString first (tail ++ behind)) := by
  have takes := ShortString.takes_shortString isQuote rest
  rw [taken, closed_shortString sound] at takes
  generalize (shortString first rest).cut.rest = after at takes
  cases takes with
  | @closed inside _ within =>
      have length := ShortString.length_closed isQuote within behind
      have shown : inside ++ [first] ++ behind = inside ++ first :: behind := by simp
      refine ⟨rfl, ?_, ?_⟩
      · rw [taken, shown, shortString, length, ← shown]
        exact List.take_left
      · rw [sound, shown, shortString, length]
        rfl

theorem alike_longString
    {level : Nat}
    (opens : LongBracket.opening level <+: first :: rest)
    (taken : (longString level (first :: rest)).cut.taken = first :: tail)
    (sound : (longString level (first :: rest)).fault? = none)
    (behind : Text) :
    LongBracket.opening level <+: first :: (tail ++ behind) ∧
      (longString level (first :: rest)).Alike (longString level (first :: (tail ++ behind))) := by
  have closed := closed_longString sound
  have takes := LongBracket.takes_cut opens
  rw [show (LongBracket.cut level (first :: rest)).1.taken = first :: tail from taken,
    closed] at takes
  have later := takes.apart behind
  have opensLater : LongBracket.opening level <+: first :: (tail ++ behind) :=
    takes.opens.trans (List.prefix_append (first :: tail) behind)
  have whole := (LongBracket.cut level (first :: (tail ++ behind))).1.whole
  obtain ⟨same, closedLater⟩ := later.unique (LongBracket.takes_cut opensLater) whole
  refine ⟨opensLater, rfl, same.trans taken.symm, ?_⟩
  rw [longString, longString, closed, closedLater]

/-- A token that is not broken is recognised when it is set apart. -/
theorem alike_read
    (taken : (read first rest).cut.taken = first :: tail)
    (sound : (read first rest).fault? = none)
    (spaced : Text.Spaced behind) :
    (read first rest).Alike (read first (tail ++ behind)) := by
  have front : first :: tail <+: first :: rest := ⟨_, taken ▸ (read first rest).cut.whole⟩
  revert taken sound
  refine read_cases (motive := fun lexeme => lexeme.cut.taken = first :: tail →
    lexeme.fault? = none → lexeme.Alike (read first (tail ++ behind)))
    ?word ?numeral ?shortString ?longString ?symbol
  case word =>
    intro start taken _
    rw [read_word start]
    exact alike_word spaced taken
  case numeral =>
    intro begins taken sound
    obtain ⟨starts, alike⟩ := alike_numeral spaced begins taken sound
    rwa [read_numeral starts]
  case shortString =>
    intro isQuote taken sound
    rw [read_shortString isQuote]
    exact alike_shortString isQuote taken sound behind
  case longString =>
    intro level opens taken sound
    obtain ⟨opensLater, alike⟩ := alike_longString opens taken sound behind
    rwa [read_longString opensLater]
  case symbol =>
    intro start unbegun double single unopened taken _
    obtain ⟨after, whole⟩ := front
    have unbegunLater : ¬ Numeral.Begins (first :: (tail ++ behind)) := by
      intro begins
      have early := Numeral.Begins.apart (first :: tail) begins spaced after
      exact unbegun (whole ▸ early)
    have unopenedLater : ∀ level, ¬ LongBracket.opening level <+: first :: (tail ++ behind) := by
      intro level opens
      have solid := LongBracket.space_not_mem_opening level
      have early := spaced.prefix_of_append solid (first :: tail) opens
      exact unopened level (early.trans ⟨after, whole⟩)
    rw [read_symbol start unbegunLater double single unopenedLater]
    exact alike_symbol spaced taken

end Lexeme

/-- Where a token begins, no trivia is read when the token is set apart. -/
theorem Trivia.read?_apart
    {first : Char}
    {rest tail behind : Text}
    (missing : read? true (first :: rest) = none)
    (front : first :: tail <+: first :: rest)
    (spaced : Text.Spaced behind) :
    read? true (first :: (tail ++ behind)) = none := by
  obtain ⟨printed, unbroken, single⟩ := read?_cons_eq_none.mp missing
  refine read?_cons_eq_none.mpr ⟨printed, unbroken, fun hyphens => single ⟨hyphens.1, ?_⟩⟩
  obtain ⟨later, second⟩ := List.head?_eq_some_iff.mp hyphens.2
  have early : ['-'] <+: tail := spaced.prefix_of_append (by decide) tail ⟨later, second.symm⟩
  obtain ⟨others, same⟩ := early.trans (List.cons_prefix_cons.mp front).2
  rw [← same]
  rfl

/-- One space in front of a character that is not blank is a piece of blank space. -/
theorem Trivia.read?_space
    {first : Char}
    (rest : Text)
    (printed : Text.isBlank first = false) :
    read? true (' ' :: first :: rest) = some (⟨.whitespace, [' '], none⟩, first :: rest) := by
  have run : Text.MaximalRun Text.isBlank [' '] (first :: rest) :=
    ⟨List.forall_mem_singleton.mpr rfl, printed⟩
  obtain ⟨taken, behind⟩ := run.longest
  rw [List.singleton_append] at taken behind
  simp only [read?, if_pos (show Text.isBlank ' ' = true by decide), taken, behind]

namespace Token

/-- A token that is not broken and is recognised wherever it is set apart. -/
structure Lasting (token : Token) : Prop where
  fault? : token.fault? = none
  recognised : ∀ behind, Text.Spaced behind → ∃ first rest,
    token.text ++ behind = first :: rest ∧ token.Recognised first rest ∧
      Trivia.read? true (first :: rest) = none

theorem Lasting.kind_ne_eof {token : Token} (lasting : token.Lasting) : token.kind ≠ .eof := by
  obtain ⟨first, rest, _, recognised, _⟩ := lasting.recognised [] fun _ none => nomatch none
  intro ends
  have significant := Lexeme.isSignificant_read first rest
  rw [← recognised.kind, ends] at significant
  exact absurd significant (by decide)

theorem Recognised.lasting
    {token : Token}
    {first : Char}
    {rest : Text}
    (recognised : token.Recognised first rest)
    (missing : Trivia.read? true (first :: rest) = none)
    (sound : token.fault? = none) :
    token.Lasting := by
  obtain ⟨kind, text, fault⟩ := recognised
  have whole := (Lexeme.read first rest).cut.whole
  obtain ⟨tail, taken⟩ : ∃ tail, (Lexeme.read first rest).cut.taken = first :: tail := by
    obtain ⟨character, tail, taken⟩ :=
      List.exists_cons_of_ne_nil (Lexeme.taken_read_ne_nil first rest)
    rw [taken] at whole
    exact ⟨tail, taken.trans (congrArg (· :: tail) (List.cons.inj whole).1)⟩
  refine ⟨sound, fun behind spaced => ⟨first, tail ++ behind, ?_, ?_, ?_⟩⟩
  · rw [text, taken, List.cons_append]
  · have alike := Lexeme.alike_read taken (fault.symm.trans sound) spaced
    exact ⟨kind.trans alike.kind.symm, text.trans alike.taken.symm,
      fault.trans alike.fault?.symm⟩
  · exact Trivia.read?_apart missing ⟨_, taken ▸ whole⟩ spaced

/-- The tokens of a text without faults stay what they are when they are set apart. -/
theorem lasting_of_mem_tokenize
    {text : Text}
    {token : Token}
    (silent : allFaults (tokenize text) = [])
    (member : token ∈ tokenize text)
    (significant : token.kind ≠ .eof) :
    token.Lasting := by
  obtain ⟨before, behind, tokens⟩ := List.append_of_mem member
  obtain ⟨ahead, _, next, _⟩ := readAll_ahead tokens
  obtain ⟨first, rest, recognised, _, missing, _⟩ := recognised_readNext next significant
  exact recognised.lasting missing (sound_of_allFaults silent token member).fault?

/-! ## Texts of tokens that are set apart -/

/-- Tokens written one behind the other, each with a space in front. -/
def spaced (tokens : List Token) : Text :=
  tokens.flatMap fun token => ' ' :: token.text

theorem spaced_spaced (tokens : List Token) : Text.Spaced (spaced tokens) := by
  cases tokens with
  | nil => exact fun _ none => nomatch none
  | cons token others => exact fun _ first => (Option.mem_some_iff.mp first).symm

/-- A token that is set apart is read with the space in front of it as its leading trivia. -/
theorem Lasting.readNext_space
    {token : Token}
    (lasting : token.Lasting)
    {behind : Text}
    (spaced : Text.Spaced behind) :
    readNext true (' ' :: (token.text ++ behind)) =
      (⟨[⟨.whitespace, [' '], none⟩], token.kind, token.text, (Trivia.readTrailing behind).1, none⟩,
        (Trivia.readTrailing behind).2) := by
  obtain ⟨first, rest, shown, ⟨kind, text, fault⟩, missing⟩ := lasting.recognised behind spaced
  have leading : Trivia.readLeading true (' ' :: first :: rest) =
      ([⟨.whitespace, [' '], none⟩], first :: rest) := by
    have unmarked : Trivia.firstLine? (' ' :: first :: rest) = none := if_neg (by simp)
    have space := Trivia.read?_space rest (Trivia.read?_cons_eq_none.mp missing).1
    rw [Trivia.readLeading_eq, if_pos rfl, unmarked, Trivia.readRun_cons space,
      Trivia.readRun_of_none missing]
    rfl
  have left : (Lexeme.read first rest).cut.rest = behind := by
    have whole := (Lexeme.read first rest).cut.whole.trans shown.symm
    rw [← text] at whole
    exact List.append_cancel_left whole
  rw [shown, readNext_of_cons leading, left, ← kind, ← text, ← fault, lasting.fault?]

/-- Tokens that are set apart are read as they are spelled, and nothing is broken. -/
theorem readAll_spaced
    {tokens : List Token}
    (lasting : ∀ token ∈ tokens, token.Lasting) :
    (readAll true [] (spaced tokens)).map spelling = tokens.map spelling ++ [(.eof, [])] ∧
      ∀ token ∈ readAll true [] (spaced tokens), token.Sound := by
  induction tokens with
  | nil =>
      have leading : Trivia.readLeading true [] = ([], []) := Trivia.readRun_of_none rfl []
      have tokens : readAll true [] (spaced []) = [endOfText []] := by
        rw [spaced, List.flatMap_nil, readAll_cons, readNext_of_nil leading]
        rfl
      rw [tokens]
      exact ⟨rfl, List.forall_mem_singleton.mpr ⟨by simp [endOfText, Trivia.Sound], rfl, by
        simp [endOfText, Trivia.Sound]⟩⟩
  | cons token others ih =>
      obtain ⟨here, later⟩ := List.forall_mem_cons.mp lasting
      obtain ⟨spelled, sound⟩ := ih later
      have apart := spaced_spaced others
      have unmarked : (spaced others).head? ≠ some '#' := fun mark =>
        absurd (apart '#' mark) (by decide)
      -- The space in front of the next token goes to the trivia behind this one.
      obtain ⟨next, further, tokens, shared⟩ := readAll_readTrailing unmarked
      rw [shared] at spelled sound
      obtain ⟨soundNext, soundFurther⟩ := List.forall_mem_cons.mp sound
      obtain ⟨soundTrailing, soundLeading⟩ := List.forall_mem_append.mp soundNext.leading
      have whole : spaced (token :: others) = ' ' :: (token.text ++ spaced others) := rfl
      rw [whole, readAll_cons, here.readNext_space apart, if_neg here.kind_ne_eof, tokens]
      refine ⟨congrArg (token.spelling :: ·) spelled, ?_⟩
      refine List.forall_mem_cons.mpr ⟨⟨?_, rfl, soundTrailing⟩, ?_⟩
      · simp [Trivia.Sound]
      · exact List.forall_mem_cons.mpr
          ⟨⟨soundLeading, soundNext.fault?, soundNext.trailing⟩, soundFurther⟩

end Token

/--
The significant tokens of a text without faults, written with a space in front of each, are read
with the kinds and texts that they have, and again without faults.
-/
theorem tokenize_spaced
    {text : Text}
    (silent : Token.allFaults (tokenize text) = []) :
    let written := Token.spaced ((tokenize text).filter fun token => token.kind ≠ .eof)
    (tokenize written).map Token.spelling = (tokenize text).map Token.spelling ∧
      Token.allFaults (tokenize written) = [] := by
  obtain ⟨inner, leading, all, significant⟩ := tokenize_eq text
  have kept : ((tokenize text).filter fun token => token.kind ≠ .eof) = inner := by
    rw [all, List.filter_append, List.filter_eq_self.mpr]
    · exact List.append_nil inner
    · exact fun token member => decide_eq_true (significant token member).kind_ne_eof
  have lasting : ∀ token ∈ inner, token.Lasting := fun token member =>
    Token.lasting_of_mem_tokenize silent (all ▸ List.mem_append_left _ member)
      (significant token member).kind_ne_eof
  obtain ⟨spelled, sound⟩ := Token.readAll_spaced lasting
  simp only [kept]
  refine ⟨?_, ?_⟩
  · rw [all, List.map_append]
    exact spelled
  · exact List.flatMap_eq_nil_iff.mpr fun placed member =>
      (sound placed.2 (Text.mem_of_mem_layOut member)).faults placed.1

/-- Comments go, and hyphens, points and brackets that stood side by side are set apart. -/
theorem tokenize_spaced_mixed :
    let text := "#!lua\nlocal s='a\\''..[==[x]]\n]==]--c\nreturn - -0x1e.8,1 ..t[ [[k]] ]".toList
    Token.allFaults (tokenize text) = [] ∧
      let written := Token.spaced ((tokenize text).filter fun token => token.kind ≠ .eof)
      (tokenize written).map Token.spelling = (tokenize text).map Token.spelling ∧
        Token.allFaults (tokenize written) = [] := by
  intro text
  have silent : Token.allFaults (tokenize text) = [] := by decide +kernel
  exact ⟨silent, tokenize_spaced silent⟩

end LuaFold
