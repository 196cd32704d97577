import LuaFold.Proofs.Token.Continuation
import LuaFold.Proofs.Token.Stretch

/-!
# Tokens where they stand

A significant token that begins behind a front part of a text is what is recognised at the front
of the rest.  Whatever fault reaches into its bytes is its own.
-/

namespace LuaFold

namespace Text

/-- A text is cut in one way only after a number of bytes. -/
theorem append_inj_of_size
    {front rest front' rest' : Text}
    (whole : front ++ rest = front' ++ rest')
    (sizes : size front = size front') :
    front = front' ∧ rest = rest' := by
  have cut := cut?_size_append front rest
  rw [whole, sizes, cut?_size_append] at cut
  cases cut
  exact ⟨rfl, rfl⟩

end Text

namespace Trivia

/-- A run of trivia stops where there is no more of it. -/
theorem read?_readRun
    (lineBreaks : Bool)
    (pieces : List Trivia)
    (text : Text) :
    read? lineBreaks (readRun lineBreaks pieces text).2 = none := by
  fun_induction readRun lineBreaks pieces text with
  | case1 pieces text piece rest read ih => exact ih
  | case2 pieces text read => exact read

theorem read?_readLeading
    (atStart : Bool)
    (text : Text) :
    read? true (readLeading atStart text).2 = none := by
  unfold readLeading
  split
  · exact read?_readRun true _ _
  · exact read?_readRun true _ _

end Trivia

namespace Token

/-! ## Recognised tokens -/

/-- A token is what is recognised at the front of a text that is not empty. -/
structure Recognised (token : Token) (first : Char) (rest : Text) : Prop where
  kind : token.kind = (Lexeme.read first rest).kind
  text : token.text = (Lexeme.read first rest).cut.taken
  fault? : token.fault? = (Lexeme.read first rest).fault?

/-- The next token and what follows it are the text. -/
theorem fullText_readNext
    (atStart : Bool)
    (text : Text) :
    (readNext atStart text).1.fullText ++ (readNext atStart text).2 = text := by
  have whole := Trivia.readLeading_whole atStart text
  cases read : Trivia.readLeading atStart text with
  | mk leading text' =>
      rw [read] at whole
      cases text' with
      | nil =>
          rw [readNext_of_nil read]
          simpa [endOfText, fullText] using whole
      | cons first rest =>
          have inside := (Lexeme.read first rest).cut.whole
          have behind := Trivia.readTrailing_whole (Lexeme.read first rest).cut.rest
          rw [readNext_of_cons read]
          simp only [fullText, List.append_assoc, behind, inside]
          exact whole

/-- What follows the trivia behind a token does not go on with it. -/
theorem read?_rest_readNext
    (atStart : Bool)
    (text : Text) :
    Trivia.read? false (readNext atStart text).2 = none := by
  unfold readNext
  split
  · rfl
  · exact Trivia.read?_readRun false [] _

/-- What is read as the next token is recognised behind its leading trivia. -/
theorem recognised_readNext
    {atStart : Bool}
    {text : Text}
    {token : Token}
    (read : (readNext atStart text).1 = token)
    (significant : token.kind ≠ .eof) :
    ∃ first rest, token.Recognised first rest ∧
      token.leading.flatMap Trivia.text ++ first :: rest = text ∧
      Trivia.read? true (first :: rest) = none ∧
      token.trailing = (Trivia.readTrailing (Lexeme.read first rest).cut.rest).1 := by
  subst read
  have whole := Trivia.readLeading_whole atStart text
  have stops := Trivia.read?_readLeading atStart text
  cases leading : Trivia.readLeading atStart text with
  | mk pieces ahead =>
      rw [leading] at whole stops
      cases ahead with
      | nil =>
          rw [readNext_of_nil leading] at significant
          exact absurd rfl significant
      | cons first rest =>
          rw [readNext_of_cons leading]
          exact ⟨first, rest, ⟨rfl, rfl, rfl⟩, whole, stops, rfl⟩

/--
A token is the next one of what is left behind the tokens before it.  Where there are such tokens,
what is left does not begin with trivia of their last line.
-/
theorem readAll_ahead
    {atStart : Bool}
    {text : Text}
    {before behind : List Token}
    {token : Token}
    (tokens : readAll atStart [] text = before ++ token :: behind) :
    ∃ ahead, before.flatMap fullText ++ ahead = text ∧
      (readNext (atStart && before.isEmpty) ahead).1 = token ∧
      (before ≠ [] → Trivia.read? false ahead = none) := by
  induction before generalizing atStart text with
  | nil =>
      rw [readAll_cons] at tokens
      exact ⟨text, rfl, by simpa using (List.cons.inj tokens).1, fun none => absurd rfl none⟩
  | cons earlier before ih =>
      rw [readAll_cons] at tokens
      obtain ⟨rfl, later⟩ := List.cons.inj tokens
      by_cases ends : (readNext atStart text).1.kind = .eof
      · rw [if_pos ends] at later
        cases before <;> cases later
      · rw [if_neg ends] at later
        obtain ⟨ahead, whole, next, stops⟩ := ih later
        refine ⟨ahead, ?_, by simpa using next, fun _ => ?_⟩
        · rw [List.flatMap_cons, List.append_assoc, whole, fullText_readNext]
        · cases before with
          | nil =>
              obtain rfl : ahead = (readNext atStart text).2 := whole
              exact read?_rest_readNext atStart text
          | cons _ _ => exact stops (List.cons_ne_nil _ _)

/-- A significant token is recognised behind the tokens before it and its leading trivia. -/
theorem readAll_recognised
    {atStart : Bool}
    {text : Text}
    {before behind : List Token}
    {token : Token}
    (tokens : readAll atStart [] text = before ++ token :: behind)
    (significant : token.kind ≠ .eof) :
    ∃ first rest, token.Recognised first rest ∧
      before.flatMap fullText ++ (token.leading.flatMap Trivia.text ++ first :: rest) = text := by
  obtain ⟨ahead, whole, next, _⟩ := readAll_ahead tokens
  obtain ⟨first, rest, recognised, inside, _⟩ := recognised_readNext next significant
  exact ⟨first, rest, recognised, by rw [inside, whole]⟩

/-! ## Places -/

/--
A significant token of the text that is made of a front part and a rest.  Its own bytes begin
where the rest does.
-/
structure Follows (front rest : Text) (offset : Nat) (token : Token) : Prop where
  listed : (offset, token) ∈ layOut (tokenize (front ++ rest))
  significant : token.kind ≠ .eof
  start : (token.span offset).start = Text.size front

/-- A listed token is recognised behind as many bytes as it says. -/
theorem exists_recognised
    {text : Text}
    {offset : Nat}
    {token : Token}
    (listed : (offset, token) ∈ layOut (tokenize text))
    (significant : token.kind ≠ .eof) :
    ∃ front first rest, front ++ first :: rest = text ∧
      (token.span offset).start = Text.size front ∧ token.Recognised first rest := by
  obtain ⟨before, behind, tokens, rfl⟩ := Text.exists_split_of_mem_layOut listed
  obtain ⟨first, rest, recognised, whole⟩ := readAll_recognised tokens significant
  refine ⟨before.flatMap fullText ++ token.leading.flatMap Trivia.text, first, rest, ?_, ?_,
    recognised⟩
  · rw [List.append_assoc, whole]
  · rw [Text.size_append, ← sum_width, ← Trivia.runWidth_eq_size, span, Nat.zero_add]

/-- Every significant token of a text follows some front part of it. -/
theorem exists_follows
    {text : Text}
    {offset : Nat}
    {token : Token}
    (listed : (offset, token) ∈ layOut (tokenize text))
    (significant : token.kind ≠ .eof) :
    ∃ front rest, front ++ rest = text ∧ Follows front rest offset token := by
  obtain ⟨front, first, rest, rfl, start, _⟩ := exists_recognised listed significant
  exact ⟨front, first :: rest, rfl, listed, significant, start⟩

section Follows

variable {front rest : Text} {offset : Nat} {token : Token}

/-- What follows a front part of a text is recognised in the rest. -/
theorem Follows.recognised (follows : Follows front rest offset token) :
    ∃ first later, rest = first :: later ∧ token.Recognised first later := by
  obtain ⟨front', first, later, whole, start, recognised⟩ :=
    exists_recognised follows.listed follows.significant
  obtain ⟨_, same⟩ := Text.append_inj_of_size whole (start.symm.trans follows.start)
  exact ⟨first, later, same.symm, recognised⟩

theorem Follows.start_lt_stop (follows : Follows front rest offset token) :
    (token.span offset).start < (token.span offset).stop := by
  have member := Text.mem_of_mem_layOut follows.listed
  have nonempty := (significant_of_mem_tokenize member follows.significant).text
  exact Nat.lt_add_of_pos_right (Text.size_pos nonempty)

end Follows

/-! ## Faults -/

theorem mem_allFaults_of_fault?
    {tokens : List Token}
    {offset : Nat}
    {token : Token}
    (listed : (offset, token) ∈ layOut tokens)
    {fault : LexicalFault}
    (broken : token.fault? = some fault) :
    (fault, token.span offset) ∈ allFaults tokens :=
  mem_allFaults_of_stretch (mem_allStretches_of_token listed) broken

section Follows

variable {front rest : Text} {offset : Nat} {token : Token}

/-- A fault that reaches into a token is the fault of the token. -/
theorem Follows.fault_of_overlaps
    (follows : Follows front rest offset token)
    {fault : LexicalFault}
    {span : Span}
    (found : (fault, span) ∈ allFaults (tokenize (front ++ rest)))
    (overlaps : span.Overlaps (token.span offset)) :
    token.fault? = some fault ∧ span = token.span offset :=
  own_fault_of_overlaps (mem_allStretches_of_token follows.listed) found overlaps

/-- A token is whole just when no fault reaches into it. -/
theorem Follows.fault?_eq_none_iff (follows : Follows front rest offset token) :
    token.fault? = none ↔
      ∀ entry ∈ allFaults (tokenize (front ++ rest)), ¬ entry.2.Overlaps (token.span offset) := by
  constructor
  · intro whole entry found overlaps
    obtain ⟨broken, _⟩ := follows.fault_of_overlaps found overlaps
    rw [whole] at broken
    cases broken
  · intro silent
    cases broken : token.fault? with
    | none => rfl
    | some fault =>
        have inside := follows.start_lt_stop
        exact absurd ⟨inside, inside⟩
          (silent _ (mem_allFaults_of_fault? follows.listed broken))

end Follows

end Token

end LuaFold
