import LuaFold.Proofs.Token.Partition
import LuaFold.Proofs.Token.Trivia

/-!
# Faults single out stretches

The faults that a scanner records are those of the stretches of its text, in order.  A fault belongs
to a numeral, a string or a comment; these are not empty, so each fault tells which one it is the
fault of.  A long bracket that is not closed takes all that is left, so its fault is the last one.
-/

namespace LuaFold

namespace LexicalFault

/-- The kind of what a fault breaks. -/
def kind : LexicalFault → Kind
  | .unfinishedString => .string
  | .unfinishedLongString => .string
  | .unfinishedLongComment => .blockComment
  | .malformedNumber => .number

/-- Whether a fault is that of a long bracket without its closing bracket. -/
def isUnclosed : LexicalFault → Bool
  | .unfinishedLongString | .unfinishedLongComment => true
  | .unfinishedString | .malformedNumber => false

end LexicalFault

/-! ## Broken stretches -/

/-- What a fault says of the kind of thing that it breaks and of what is behind it. -/
structure LexicalFault.Fits (fault : LexicalFault) (kind : Kind) (behind : Text) : Prop where
  kind : kind = fault.kind
  unclosed : fault.isUnclosed = true → behind = []

theorem LongBracket.Takes.behind_eq_nil
    {level : Nat}
    {taken behind : Text}
    (takes : Takes level taken behind false) :
    behind = [] := by
  cases takes
  rfl

/-- A token is broken in a way that fits its kind. -/
theorem Lexeme.fits_read
    {first : Char}
    {rest : Text}
    {fault : LexicalFault}
    (broken : (read first rest).fault? = some fault) :
    fault.Fits (read first rest).kind (read first rest).cut.rest := by
  revert broken
  refine read_cases (motive := fun lexeme =>
    lexeme.fault? = some fault → fault.Fits lexeme.kind lexeme.cut.rest)
    ?word ?numeral ?shortString ?longString ?symbol
  case word =>
    rintro _ ⟨⟩
  case numeral =>
    intro _ broken
    rw [fault?_numeral] at broken
    split at broken
    · cases broken
    · cases broken
      exact ⟨rfl, fun unclosed => by cases unclosed⟩
  case shortString =>
    intro _ broken
    rw [shortString] at broken
    dsimp only at broken
    split at broken
    · cases broken
    · cases broken
      exact ⟨rfl, fun unclosed => by cases unclosed⟩
  case longString =>
    intro level opens broken
    rw [longString] at broken
    dsimp only at broken
    split at broken
    · cases broken
    · next isOpen =>
      cases broken
      have takes := LongBracket.takes_cut opens
      rw [Bool.eq_false_iff.mpr isOpen] at takes
      exact ⟨rfl, fun _ => takes.behind_eq_nil⟩
  case symbol =>
    intro _ _ _ _ _ broken
    rw [Kind.fault?_symbol] at broken
    cases broken

/-- A piece of trivia is broken in a way that fits its kind. -/
theorem Trivia.Prescribed.fits
    {before behind : Text}
    {piece : Trivia}
    (prescribed : Prescribed before behind piece)
    {fault : LexicalFault}
    (broken : piece.fault? = some fault) :
    fault.Fits piece.kind.kind behind := by
  cases prescribed with
  | @blockComment level bracket closed takes =>
      cases closed with
      | true => cases broken
      | false =>
          cases broken
          exact ⟨rfl, fun _ => takes.behind_eq_nil⟩
  | _ => cases broken

/-- The end of a text is not broken. -/
theorem Token.kind_ne_eof_of_fault?
    {text : Text}
    {token : Token}
    (member : token ∈ tokenize text)
    {fault : LexicalFault}
    (broken : token.fault? = some fault) :
    token.kind ≠ .eof := by
  obtain ⟨inner, leading, all, significant⟩ := tokenize_eq text
  rw [all] at member
  rcases List.mem_append.mp member with early | last
  · exact (significant token early).kind_ne_eof
  · rw [List.mem_singleton.mp last] at broken
    cases broken

/-- A broken stretch of a text is not empty, and it is broken in a way that fits it. -/
theorem Token.exists_fits
    {text : Text}
    {place : Nat × Stretch}
    (listed : place ∈ allStretches (tokenize text))
    {fault : LexicalFault}
    (broken : place.2.fault? = some fault) :
    ∃ before behind,
      before ++ (place.2.text ++ behind) = text ∧
      place.1 = Text.size before ∧
      place.2.text ≠ [] ∧ fault.Fits place.2.kind behind := by
  obtain ⟨start, stretch⟩ := place
  obtain ⟨offset, token, isToken, ⟨rfl, rfl⟩ | ⟨piece, rfl, placed⟩⟩ :=
    exists_of_mem_allStretches listed
  · have significant := kind_ne_eof_of_fault? (Text.mem_of_mem_layOut isToken) broken
    obtain ⟨front, rest, rfl, follows⟩ := exists_follows isToken significant
    obtain ⟨first, later, rfl, recognised⟩ := follows.recognised
    refine ⟨front, (Lexeme.read first later).cut.rest, ?_, follows.start, ?_, ?_⟩
    · show front ++ (token.text ++ _) = _
      rw [recognised.text, (Lexeme.read first later).cut.whole]
    · show token.text ≠ []
      rw [recognised.text]
      exact Lexeme.taken_read_ne_nil first later
    · show fault.Fits token.kind _
      rw [recognised.kind]
      exact Lexeme.fits_read (recognised.fault?.symm.trans broken)
  · obtain ⟨before, behind, whole, start, prescribed⟩ := exists_prescribed isToken placed
    exact ⟨before, behind, whole, start, prescribed.text_ne_nil, prescribed.fits broken⟩

/-! ## Places of faults -/

/-- A fault of a text is the fault of a stretch that is not empty. -/
theorem Token.exists_stretch
    {text : Text}
    {entry : LexicalFault × Span}
    (found : entry ∈ allFaults (tokenize text)) :
    ∃ place ∈ allStretches (tokenize text), entry.2 = Stretch.span place ∧
      place.2.kind = entry.1.kind ∧
      entry.2.start < entry.2.stop ∧
      entry.2.stop ≤ Text.size text ∧
      (entry.1.isUnclosed = true → entry.2.stop = Text.size text) := by
  rw [allFaults_eq] at found
  obtain ⟨place, listed, broken, span⟩ := Stretch.mem_faults_iff.mp found
  obtain ⟨before, behind, whole, start, nonempty, fits⟩ := exists_fits listed broken
  have stop : entry.2.stop + Text.size behind = Text.size text := by
    rw [span, ← whole]
    simp [Stretch.span, Stretch.width, start, Nat.add_assoc]
  refine ⟨place, listed, span, fits.kind, ?_, Nat.le.intro stop, fun unclosed => ?_⟩
  · rw [span]
    exact Nat.lt_add_of_pos_right (Text.size_pos nonempty)
  · rwa [fits.unclosed unclosed] at stop

/-- A stretch that is not empty is the only one where it stands. -/
theorem Token.span_ne_of_split
    {tokens : List Token}
    {before behind : List (Nat × Stretch)}
    {place : Nat × Stretch}
    (split : allStretches tokens = before ++ place :: behind)
    (nonempty : (Stretch.span place).start < (Stretch.span place).stop) :
    ∀ other ∈ before ++ behind, Stretch.span other ≠ Stretch.span place := by
  have ordered := pairwise_allStretches tokens
  rw [split] at ordered
  obtain ⟨_, later, early⟩ := List.pairwise_append.mp ordered
  intro other member same
  rcases List.mem_append.mp member with isEarly | isLate
  · have stops := early other isEarly place List.mem_cons_self
    rw [same] at stops
    exact absurd nonempty (Nat.not_lt.mpr stops)
  · have stops := (List.pairwise_cons.mp later).1 other isLate
    rw [same] at stops
    exact absurd nonempty (Nat.not_lt.mpr stops)

/-- The faults of tokens stand one behind the other. -/
theorem Token.pairwise_allFaults (tokens : List Token) :
    (allFaults tokens).Pairwise fun earlier later => earlier.2.stop ≤ later.2.start := by
  rw [allFaults_eq]
  refine (pairwise_allStretches tokens).filterMap _ fun earlier later before => ?_
  intro first isFirst second isSecond
  obtain ⟨_, _, rfl⟩ := Option.map_eq_some_iff.mp isFirst
  obtain ⟨_, _, rfl⟩ := Option.map_eq_some_iff.mp isSecond
  exact before

/--
Faults that single out stretches of a text.  They are in order and have no bytes in common.  Each is
the fault of exactly one stretch, which is of the right kind, and no stretch has two.  A long
bracket that is not closed goes on to the end of the text, and no fault comes behind that.
-/
structure LexicalFault.SingleOut
    (text : Text)
    (placed : List (Nat × Stretch))
    (faults : List (LexicalFault × Span)) :
    Prop where
  ordered : faults.Pairwise fun earlier later =>
    earlier.2.start < later.2.start ∧ earlier.2.stop ≤ later.2.start
  nonempty : ∀ entry ∈ faults, entry.2.start < entry.2.stop
  single : ∀ entry ∈ faults, ∃ before place behind, placed = before ++ place :: behind ∧
    entry.2 = Stretch.span place ∧ place.2.kind = entry.1.kind ∧
    ∀ other ∈ before ++ behind, Stretch.span other ≠ entry.2
  once : ∀ place ∈ placed, (faults.filter fun entry => entry.2 = Stretch.span place).length ≤ 1
  last : ∀ before entry behind, faults = before ++ entry :: behind → entry.1.isUnclosed = true →
    behind = [] ∧ entry.2.stop = Text.size text

/-- Of faults that begin one behind the other at most one stands in a place. -/
theorem LexicalFault.length_filter_le
    {faults : List (LexicalFault × Span)}
    (ordered : faults.Pairwise fun earlier later => earlier.2.start < later.2.start)
    (span : Span) :
    (faults.filter fun entry => entry.2 = span).length ≤ 1 := by
  have inside := ordered.filter fun entry => entry.2 = span
  have placed : ∀ entry ∈ faults.filter fun entry => entry.2 = span, entry.2 = span :=
    fun entry member => by simpa using (List.mem_filter.mp member).2
  generalize faults.filter (fun entry => entry.2 = span) = found at inside placed ⊢
  match found with
  | [] => exact Nat.zero_le 1
  | [_] => exact Nat.le_refl 1
  | first :: second :: rest =>
      have before := (List.pairwise_cons.mp inside).1 second List.mem_cons_self
      rw [placed first (by simp), placed second (by simp)] at before
      exact absurd before (Nat.lt_irrefl _)

theorem Token.parts_eq (token : Token) : token.parts = token.stretches.map Stretch.text := by
  rw [stretches, List.map_append, List.map_cons, List.map_map, List.map_map]
  rfl

/-- The tokens and trivia pieces that a scanner returns are where the stretches of its text are. -/
theorem Scanner.spans_all_new (text : Text) :
    Scanned.spans (new text).all.2.trivia 0 (new text).all.1 =
      (Token.allStretches (tokenize text)).map Stretch.span := by
  obtain ⟨scanned, after, _⟩ := all_new text
  have buffered : Token.Buffered (tokenize text) (new text).all.2.trivia 0 := by
    rw [after.trivia]
    exact List.prefix_refl _
  have parts : (tokenize text).flatMap Token.parts =
      ((tokenize text).flatMap Token.stretches).map Stretch.text := by
    rw [List.map_flatMap]
    exact congrArg (List.flatMap · _) (funext Token.parts_eq)
  rw [scanned, Token.spans_scannedFrom buffered, parts, Span.ofItems_map]
  rfl

/--
The faults that a scanner records of a text single out stretches of the text, which are the tokens
and the trivia pieces that the scanner returns.
-/
theorem faults_singleOut (text : Text) :
    let scan := (Scanner.new text).all
    LexicalFault.SingleOut text (Token.allStretches (tokenize text)) scan.2.faults ∧
      Scanned.spans scan.2.trivia 0 scan.1 =
        (Token.allStretches (tokenize text)).map Stretch.span := by
  intro scan
  refine ⟨?_, Scanner.spans_all_new text⟩
  have recorded : scan.2.faults = Token.allFaults (tokenize text) :=
    (Scanner.all_new text).2.1.faults
  rw [recorded]
  have nonempty : ∀ entry ∈ Token.allFaults (tokenize text), entry.2.start < entry.2.stop := by
    intro entry found
    obtain ⟨_, _, _, _, positive, _⟩ := Token.exists_stretch found
    exact positive
  have ordered : (Token.allFaults (tokenize text)).Pairwise fun earlier later =>
      earlier.2.start < later.2.start ∧ earlier.2.stop ≤ later.2.start :=
    (Token.pairwise_allFaults (tokenize text)).imp_of_mem fun isEarlier _ before =>
      ⟨Nat.lt_of_lt_of_le (nonempty _ isEarlier) before, before⟩
  refine ⟨ordered, nonempty, fun entry found => ?_, fun place _ => ?_,
    fun before entry behind split unclosed => ?_⟩
  · obtain ⟨place, listed, span, kind, positive, _⟩ := Token.exists_stretch found
    obtain ⟨before, behind, split⟩ := List.append_of_mem listed
    rw [span] at positive ⊢
    exact ⟨before, place, behind, split, rfl, kind, Token.span_ne_of_split split positive⟩
  · exact LexicalFault.length_filter_le (ordered.imp And.left) _
  · have found : ∀ other ∈ entry :: behind, other ∈ Token.allFaults (tokenize text) :=
      fun other member => split ▸ List.mem_append_right before member
    obtain ⟨_, _, _, _, _, _, toEnd⟩ := Token.exists_stretch (found entry List.mem_cons_self)
    refine ⟨List.eq_nil_iff_forall_not_mem.mpr fun other isLater => ?_, toEnd unclosed⟩
    -- Behind a fault that goes on to the end of the text there is no room for another one.
    obtain ⟨_, _, _, _, positive, inside, _⟩ :=
      Token.exists_stretch (found other (List.mem_cons_of_mem _ isLater))
    rw [split] at ordered
    have later := (List.pairwise_append.mp ordered).2.1
    have stops := ((List.pairwise_cons.mp later).1 other isLater).2
    have ends := toEnd unclosed
    omega

end LuaFold
