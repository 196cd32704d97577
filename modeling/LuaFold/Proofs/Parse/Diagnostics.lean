import LuaFold.Proofs.Fold.Landmark
import LuaFold.Proofs.Token.Fault
import Mathlib.Data.List.Sort

/-!
# Order and place of diagnostics

Tokens are read before they are parsed, so the faults of tokens are all found before the first
fault of the syntax.  Both kinds are found in the order of the text: a parse reports at the
token that it has reached, and it never goes back.  Sorting one list behind the other is then
merging them, and it is stable, so a broken token comes before a fault of the syntax that starts
at the same offset.

A fault of the syntax is about one token, the end of the text if it is reported there, and the
fault of a token is about a stretch of the text.  The spans of both begin and stop between two
characters, which is all that cutting an excerpt out of the text around them depends on.
-/

namespace LuaFold

/-! ## Merging -/

namespace Diagnostic

/-- Diagnostics in the order of their starts. -/
def InOrder (diagnostics : List Diagnostic) : Prop :=
  diagnostics.Pairwise fun earlier later => earlier.span.start ≤ later.span.start

/-- Whether a diagnostic starts where another does or before. -/
def startsBy (first second : Diagnostic) : Bool :=
  decide (first.span.start ≤ second.span.start)

theorem startsBy_iff {first second : Diagnostic} :
    startsBy first second = true ↔ first.span.start ≤ second.span.start :=
  decide_eq_true_iff

theorem startsBy_trans
    (first second third : Diagnostic)
    (before : startsBy first second = true)
    (behind : startsBy second third = true) :
    startsBy first third = true :=
  startsBy_iff.mpr ((startsBy_iff.mp before).trans (startsBy_iff.mp behind))

theorem startsBy_total (first second : Diagnostic) :
    (startsBy first second || startsBy second first) = true := by
  rw [Bool.or_eq_true, startsBy_iff, startsBy_iff]
  exact Nat.le_total _ _

theorem sorted_eq (diagnostics : List Diagnostic) :
    sorted diagnostics = diagnostics.mergeSort startsBy :=
  rfl

/-- Sorting puts diagnostics in order. -/
theorem inOrder_sorted (diagnostics : List Diagnostic) : InOrder (sorted diagnostics) := by
  rw [sorted_eq]
  exact (List.pairwise_mergeSort startsBy_trans startsBy_total diagnostics).imp startsBy_iff.mp

/-- Diagnostics in order stay in order when they are numbered, also where they start alike. -/
theorem pairwise_zipIdx
    {diagnostics : List Diagnostic}
    (ordered : InOrder diagnostics)
    (number : Nat) :
    (diagnostics.zipIdx number).Pairwise fun earlier later =>
        List.zipIdxLE startsBy earlier later = true := by
  induction diagnostics generalizing number with
  | nil => exact .nil
  | cons first rest ih =>
      obtain ⟨before, inside⟩ := List.pairwise_cons.mp ordered
      rw [List.zipIdx_cons]
      refine List.pairwise_cons.mpr ⟨fun later listed => ?_, ih inside _⟩
      have member : later.1 ∈ rest := List.fst_mem_of_mem_zipIdx listed
      have numbered : number + 1 ≤ later.2 := (List.mem_zipIdx listed).1
      have starts := startsBy_iff.mpr (before later.1 member)
      simp only [List.zipIdxLE, starts, if_true]
      split
      · exact decide_eq_true (by omega)
      · rfl

/--
Sorting two lists of diagnostics that are in order is merging them.  Numbered from the first to
the last, the diagnostics have only one order, and merging keeps to it as sorting does.
-/
theorem sorted_append
    {first second : List Diagnostic}
    (front : InOrder first)
    (back : InOrder second) :
    sorted (first ++ second) = first.merge second startsBy := by
  have numbers : (first ++ second).zipIdx = first.zipIdx ++ second.zipIdx first.length := by
    rw [List.zipIdx_append, Nat.zero_add]
  have same : (first ++ second).zipIdx.mergeSort (List.zipIdxLE startsBy) =
      first.zipIdx.merge (second.zipIdx first.length) (List.zipIdxLE startsBy) := by
    have trans := List.zipIdxLE_trans startsBy_trans
    have total := List.zipIdxLE_total startsBy_total
    refine List.Perm.eq_of_pairwise (fun one other isOne isOther before behind => ?_)
      (List.pairwise_mergeSort trans total _)
      (List.pairwise_merge trans total _ _ (pairwise_zipIdx front 0) (pairwise_zipIdx back _))
      ((List.mergeSort_perm _ _).trans
        (numbers ▸ (List.merge_perm_append (List.zipIdxLE startsBy)).symm))
    have listed := List.mem_mergeSort.mp isOne
    have otherListed : other ∈ (first ++ second).zipIdx := by
      rw [numbers]
      exact List.mem_append.mpr (List.mem_merge.mp isOther)
    have number : one.2 = other.2 := by
      simp only [List.zipIdxLE, Bool.if_false_right, Bool.if_true_right] at before behind
      grind
    have found := (List.mem_zipIdx listed).2.2
    have otherFound := (List.mem_zipIdx otherListed).2.2
    refine Prod.ext ?_ number
    rw [found, otherFound]
    simp only [number]
  rw [sorted_eq, ← List.mergeSort_zipIdx, same, List.merge_stable]
  · rw [List.zipIdx_map_fst, List.zipIdx_map_fst]
  · intro early late isEarly isLate
    have low := (List.mem_zipIdx isEarly).2.1
    have high := (List.mem_zipIdx isLate).1
    omega

end Diagnostic

/-! ## Faults at tokens -/

/-- A fault of the syntax at the token with a number, and the diagnostic for it. -/
def SyntaxFault.StandsAt
    (placed : List (Nat × Token))
    (entry : SyntaxFault × Nat)
    (diagnostic : Diagnostic) :
    Prop :=
  ∃ place, placed[entry.2]? = some place ∧
    diagnostic = ⟨entry.1.message, place.2.span place.1⟩

/-- Of two faults at tokens, the one at the token in front starts first. -/
theorem SyntaxFault.StandsAt.start_le
    {tokens : List Token}
    {first second : SyntaxFault × Nat}
    {one other : Diagnostic}
    (stands : StandsAt (Token.layOut tokens) first one)
    (otherStands : StandsAt (Token.layOut tokens) second other)
    (before : first.2 ≤ second.2) :
    one.span.start ≤ other.span.start := by
  obtain ⟨place, found, rfl⟩ := stands
  obtain ⟨otherPlace, otherFound, rfl⟩ := otherStands
  rcases Nat.eq_or_lt_of_le before with same | less
  · rw [same, otherFound, Option.some.injEq] at found
    rw [found]
  · obtain ⟨inside, rfl⟩ := List.getElem?_eq_some_iff.mp found
    obtain ⟨otherInside, rfl⟩ := List.getElem?_eq_some_iff.mp otherFound
    have ordered := Text.pairwise_layOut Token.width 0 tokens
    have apart := List.pairwise_iff_getElem.mp ordered _ _ inside otherInside less
    simp only [Token.span, Token.width, Token.layOut] at apart ⊢
    omega

namespace Parse

/-- The faults of the syntax of a text are at its tokens, and each has its diagnostic. -/
theorem standsAt_syntaxDiagnostics (text : Text) :
    List.Forall₂ (SyntaxFault.StandsAt (Token.layOut (tokenize text))) (parse text).faults
      (parse text).syntaxDiagnostics := by
  refine List.forall₂_map_right_iff.mpr (List.forall₂_same.mpr fun entry listed => ?_)
  obtain ⟨place, stands, span⟩ :=
    Token.exists_getD_spans_eq (fault_lt_length text entry listed) (.empty 0)
  exact ⟨place, stands, congrArg (Diagnostic.mk entry.1.message) span⟩

/-- A parse reports the faults of the syntax at tokens one after the other. -/
theorem pairwise_faults (text : Text) :
    (parse text).faults.Pairwise fun earlier later => earlier.2 ≤ later.2 := by
  obtain ⟨kinds, tokenKinds, absent⟩ := map_kind_tokenize text
  have ordered := Grammar.pairwise_run absent
  rw [← tokenKinds] at ordered
  exact ordered

theorem inOrder_syntaxDiagnostics (text : Text) :
    Diagnostic.InOrder (parse text).syntaxDiagnostics := by
  obtain ⟨same, stands⟩ := List.forall₂_iff_get.mp (standsAt_syntaxDiagnostics text)
  refine List.pairwise_iff_getElem.mpr fun early late inside otherInside less => ?_
  have ordered := List.pairwise_iff_getElem.mp (pairwise_faults text) early late
    (same ▸ inside) (same ▸ otherInside) less
  exact (stands early _ inside).start_le (stands late _ otherInside) ordered

/-- The faults of tokens start one behind the other. -/
theorem start_lt_of_allFaults (text : Text) :
    (Token.allFaults (tokenize text)).Pairwise fun earlier later =>
      earlier.2.start < later.2.start := by
  refine (Token.pairwise_allFaults (tokenize text)).imp_of_mem fun isEarlier _ before => ?_
  obtain ⟨_, _, _, _, positive, _⟩ := Token.exists_stretch isEarlier
  exact Nat.lt_of_lt_of_le positive before

theorem inOrder_lexicalDiagnostics (text : Text) :
    Diagnostic.InOrder (parse text).lexicalDiagnostics :=
  List.pairwise_map.mpr ((start_lt_of_allFaults text).imp Nat.le_of_lt)

end Parse

/-! ## Spans between characters -/

/-- The fault of a token of a text lies within the text. -/
theorem LexicalFault.holds_span
    {text : Text}
    {entry : LexicalFault × Span}
    (found : entry ∈ Token.allFaults (tokenize text)) :
    text.Holds entry.2 := by
  rw [Token.allFaults_eq] at found
  obtain ⟨place, listed, broken, span⟩ := Stretch.mem_faults_iff.mp found
  obtain ⟨before, behind, whole, start, _⟩ := Token.exists_fits listed broken
  rw [span, ← whole, Stretch.span, start]
  exact .ofPart

/-- A diagnostic of a text lies within it. -/
theorem Parse.holds_span
    {text : Text}
    {diagnostic : Diagnostic}
    (listed : diagnostic ∈ (parse text).diagnostics) :
    text.Holds diagnostic.span := by
  rw [diagnostics, Diagnostic.sorted_eq, List.mem_mergeSort, List.mem_append] at listed
  rcases listed with lexical | syntactic
  · obtain ⟨entry, found, rfl⟩ := List.mem_map.mp lexical
    exact LexicalFault.holds_span found
  · obtain ⟨same, stands⟩ := List.forall₂_iff_get.mp (standsAt_syntaxDiagnostics text)
    obtain ⟨index, inside, rfl⟩ := List.mem_iff_getElem.mp syntactic
    obtain ⟨place, placed, isDiagnostic⟩ := stands index (same ▸ inside) inside
    have standing : (parse text).syntaxDiagnostics[index].span = place.2.span place.1 :=
      congrArg Diagnostic.span isDiagnostic
    rw [standing]
    exact Token.holds_span (List.mem_of_getElem? placed)

/-! ## Diagnostics of a text -/

/--
The diagnostics of a text are in the order of their starts.  They are the faults of the scanner
merged with those of the parse, where the ones of the scanner are first among equals.  The parse
reports at tokens that do not go back, each of its diagnostics has the span of the token where
it was reported, and every diagnostic lies between characters of the text.
-/
theorem diagnostics_merged (text : Text) :
    let parsed := parse text
    let recorded := (Scanner.new text).all.2.faults
    Diagnostic.InOrder parsed.diagnostics ∧
      parsed.diagnostics = parsed.lexicalDiagnostics.merge parsed.syntaxDiagnostics
        (fun lexical syntactic => decide (lexical.span.start ≤ syntactic.span.start)) ∧
      parsed.lexicalDiagnostics = recorded.map (fun entry => ⟨entry.1.message, entry.2⟩) ∧
      (recorded.Pairwise fun earlier later => earlier.2.start < later.2.start) ∧
      (parsed.faults.Pairwise fun earlier later => earlier.2 ≤ later.2) ∧
      List.Forall₂ (SyntaxFault.StandsAt (Token.layOut (tokenize text))) parsed.faults
        parsed.syntaxDiagnostics ∧
      ∀ diagnostic ∈ parsed.diagnostics, text.Holds diagnostic.span := by
  intro parsed recorded
  have faults : recorded = Token.allFaults (tokenize text) := (Scanner.all_new text).2.1.faults
  refine ⟨Diagnostic.inOrder_sorted _, ?_, ?_, ?_, Parse.pairwise_faults text,
    Parse.standsAt_syntaxDiagnostics text, fun diagnostic listed => Parse.holds_span listed⟩
  · exact Diagnostic.sorted_append (Parse.inOrder_lexicalDiagnostics text)
      (Parse.inOrder_syntaxDiagnostics text)
  · rw [faults]
    rfl
  · rw [faults]
    exact Parse.start_lt_of_allFaults text

end LuaFold
