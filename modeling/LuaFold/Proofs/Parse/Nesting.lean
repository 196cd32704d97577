import LuaFold.Proofs.Grammar.Reading.Chunk
import LuaFold.Proofs.Grammar.Resolution
import LuaFold.Proofs.Parse.Lossless

/-!
# Diagnostics of derivable texts

The tokens of a text may be derived from the grammar of chunks with any nesting.  Grouped by
precedence, they are then nested to one depth, and the text is parsed without a diagnostic
exactly if this depth is within the limit of the parser.  Beyond the limit, the first fault of
the syntax to be reported is that the nesting is too deep.

A fault behind it can be of any kind: the rest of a construct that is skipped need not end where
the rules around it go on.
-/

namespace LuaFold

open Grammar

theorem diagnostics_eq_nil_iff {parsed : Parse} :
    parsed.diagnostics = [] ↔ parsed.lexicalDiagnostics = [] ∧ parsed.faults = [] := by
  rw [Parse.diagnostics, Diagnostic.sorted, ← List.length_eq_zero_iff, List.length_mergeSort,
    List.length_eq_zero_iff]
  simp [Parse.syntaxDiagnostics]

theorem mem_diagnostics
    {parsed : Parse}
    {diagnostic : Diagnostic} :
    diagnostic ∈ parsed.diagnostics ↔
      diagnostic ∈ parsed.lexicalDiagnostics ∨ diagnostic ∈ parsed.syntaxDiagnostics := by
  rw [Parse.diagnostics, Diagnostic.sorted, List.mem_mergeSort, List.mem_append]

/-- The end of the text is only its last token. -/
theorem not_mem_of_tokens
    {text : Text}
    {kinds : List Kind}
    (tokens : (tokenize text).map Token.kind = kinds ++ [.eof]) :
    Kind.eof ∉ kinds := by
  obtain ⟨others, same, absent⟩ := map_kind_tokenize text
  rw [tokens] at same
  rwa [List.append_cancel_right same]

/-- The faults of a text whose kinds of tokens are derived with a depth. -/
theorem faults_of_derives
    {text : Text}
    {kinds : List Kind}
    {depth : Nat}
    (tokens : (tokenize text).map Token.kind = kinds ++ [.eof])
    (derives : Derives Dialect.carefulManual.resolve .block depth kinds) :
    (depth ≤ maximalDepth → (parse text).faults = []) ∧
      (maximalDepth < depth →
        ∃ position later, (parse text).faults = (.nestingTooDeep, position) :: later) := by
  have faults := derives.run_faults rfl rfl rfl (not_mem_of_tokens tokens)
  rwa [← tokens] at faults

/--
A text without broken tokens whose tokens are derived from the grammar of the manual is nested
to one depth when its operators are grouped by their precedence.  It has no diagnostic exactly
if this depth is at most 200.
-/
theorem diagnostics_eq_nil_iff_depth_le
    {text : Text}
    {kinds : List Kind}
    (tokens : (tokenize text).map Token.kind = kinds ++ [.eof])
    (lexical : (parse text).lexicalDiagnostics = [])
    (derivable : ∃ depth, Derives .carefulManual .block depth kinds) :
    ∃ depth, Derives Dialect.carefulManual.resolve .block depth kinds ∧
      (∀ other, Derives Dialect.carefulManual.resolve .block other kinds → other = depth) ∧
      ((parse text).diagnostics = [] ↔ depth ≤ 200) := by
  obtain ⟨_, derives⟩ := derivable
  obtain ⟨depth, resolved⟩ := derives.exists_resolved
  have absent := not_mem_of_tokens tokens
  obtain ⟨within, beyond⟩ := faults_of_derives tokens resolved
  refine ⟨depth, resolved, fun other otherwise => ?_, ?_⟩
  · exact le_antisymm (otherwise.depth_le rfl rfl rfl resolved absent)
      (resolved.depth_le rfl rfl rfl otherwise absent)
  · rw [diagnostics_eq_nil_iff]
    constructor
    · rintro ⟨_, none⟩
      by_contra deep
      obtain ⟨position, later, some⟩ := beyond (Nat.lt_of_not_le deep)
      rw [none] at some
      cases some
    · exact fun shallow => ⟨lexical, within shallow⟩

/-- A declaration with an attribute, a table with two kinds of fields, and a `return`. -/
def declaration : Text :=
  "local t <const> = {-a ^ 2; n = f [[s]]} return t".toList

theorem derives_declaration :
    ∃ kinds, (tokenize declaration).map Token.kind = kinds ++ [.eof] ∧
      ∃ depth, Derives .carefulManual .block depth kinds := by
  have single (least : Nat) : Derives .carefulManual (.operations least) 0 [.name] :=
    .referenceValue .name
  have two : Derives .carefulManual (.operations loosest) 0 [.number] := .constant rfl
  have power : Derives .carefulManual (.operations loosest) _ _ :=
    .binary (rfl : precedence? .caret = some 12) (single loosest) (.expression two) nofun
  have negated : Derives .carefulManual (.operations loosest) _ _ :=
    .unary (rfl : isUnary .minus = true) (.expression power) nofun
  have call : Derives .carefulManual (.operations loosest) _ _ :=
    .referenceValue (.call .name .text)
  have fields : Derives .carefulManual .fields _ _ :=
    .moreFields (.positional (.expression negated))
      (Or.inr rfl : Kind.semicolon = .comma ∨ Kind.semicolon = .semicolon)
      (.lastField (.named (.expression call)))
  have values : Derives .carefulManual .expressions _ _ :=
    .expressions (.expression (.tableValue (.table fields))) .noExpression
  have leave : Derives .carefulManual .leave _ _ :=
    .leaveValues (.expressions (.expression (single loosest)) .noExpression) (Or.inl rfl)
  refine ⟨_, ?_, _,
    .block (.next (.localValues .attributed .done values) (.last leave) (by simp))⟩
  decide +kernel

theorem diagnostics_eq_nil_iff_depth_le_declaration :
    ∃ kinds, (tokenize declaration).map Token.kind = kinds ++ [.eof] ∧
      (parse declaration).lexicalDiagnostics = [] ∧
      (∃ depth, Derives .carefulManual .block depth kinds) ∧
      ∃ depth, Derives Dialect.carefulManual.resolve .block depth kinds ∧
        (∀ other, Derives Dialect.carefulManual.resolve .block other kinds → other = depth) ∧
        ((parse declaration).diagnostics = [] ↔ depth ≤ 200) := by
  obtain ⟨kinds, tokens, derivable⟩ := derives_declaration
  have lexical : (parse declaration).lexicalDiagnostics = [] := by decide +kernel
  exact ⟨kinds, tokens, lexical, derivable,
    diagnostics_eq_nil_iff_depth_le tokens lexical derivable⟩

theorem Grammar.Derives.inGroups
    {dialect : Dialect}
    {depth : Nat}
    {word : List Kind}
    (inside : Derives dialect (.expression loosest) depth word)
    (count : Nat) :
    Derives dialect (.expression loosest) (depth + count)
      (List.replicate count .leftParen ++ (word ++ List.replicate count .rightParen)) := by
  induction count with
  | zero => simpa using inside
  | succ count ih =>
      have outer : Derives dialect (.expression loosest) (depth + count + 1) _ :=
        .expression (.referenceValue (.group ih))
      rw [List.replicate_succ, List.replicate_succ', ← List.append_assoc word, ← Nat.add_assoc]
      simpa using outer

/-- A loop at the limit: its condition and its block are one level too deep. -/
def loopAtLimit : Text :=
  "return ".toList ++ List.replicate 197 '(' ++ "function() while x do end end".toList ++
    List.replicate 197 ')'

/-- The loop is derived from the grammar of the manual, like any other. -/
theorem derives_loopAtLimit :
    ∃ kinds, (tokenize loopAtLimit).map Token.kind = kinds ++ [.eof] ∧
      ∃ depth, Derives .carefulManual .block depth kinds := by
  have condition : Derives .carefulManual (.operations loosest) 0 [.name] :=
    .referenceValue .name
  have loop : Derives .carefulManual .statement _ _ :=
    .whileLoop (.expression condition) (.block (.nothing true))
  have body : Derives .carefulManual .functionBody _ _ :=
    .functionBody .none (.block (.next loop (.nothing false) (by simp)))
  have value : Derives .carefulManual (.expression loosest) _ _ :=
    .expression (.functionValue body)
  have leave : Derives .carefulManual .leave _ _ :=
    .leaveValues (.expressions (value.inGroups 197) .noExpression) (Or.inl rfl)
  refine ⟨_, ?_, _, .block (.last leave)⟩
  decide +kernel

theorem exists_fault_loopAtLimit :
    (parse loopAtLimit).lexicalDiagnostics = [] ∧
      ∃ diagnostic ∈ (parse loopAtLimit).syntaxDiagnostics,
        diagnostic.message = "expected `do`" := by
  decide +kernel

/--
However deeply the tokens of a text are nested, the first fault of the syntax that is reported,
if any, is that they are nested too deeply.
-/
theorem head_syntaxDiagnostics_too_deep
    {text : Text}
    {kinds : List Kind}
    (tokens : (tokenize text).map Token.kind = kinds ++ [.eof])
    (derivable : ∃ depth, Derives .carefulManual .block depth kinds) :
    ∀ diagnostic ∈ (parse text).syntaxDiagnostics.head?,
      diagnostic.message = "nesting too deep" := by
  obtain ⟨_, derives⟩ := derivable
  obtain ⟨depth, resolved⟩ := derives.exists_resolved
  obtain ⟨within, beyond⟩ := faults_of_derives tokens resolved
  intro diagnostic first
  rcases Nat.lt_or_ge maximalDepth depth with deep | shallow
  · obtain ⟨position, later, faults⟩ := beyond deep
    simp only [Parse.syntaxDiagnostics, faults, List.map_cons, List.head?_cons,
      Option.mem_def, Option.some.injEq] at first
    rw [← first]
    rfl
  · simp [Parse.syntaxDiagnostics, within shallow] at first

theorem head_syntaxDiagnostics_too_deep_loop :
    ∃ kinds, (tokenize loopAtLimit).map Token.kind = kinds ++ [.eof] ∧
      (∃ depth, Derives .carefulManual .block depth kinds) ∧
      ∃ diagnostic ∈ (parse loopAtLimit).syntaxDiagnostics.head?,
        diagnostic.message = "nesting too deep" := by
  obtain ⟨kinds, tokens, derivable⟩ := derives_loopAtLimit
  obtain ⟨_, _, member, _⟩ := exists_fault_loopAtLimit
  obtain ⟨diagnostic, first⟩ :=
    Option.isSome_iff_exists.mp (List.isSome_head?.mpr (List.ne_nil_of_mem member))
  exact ⟨kinds, tokens, derivable, diagnostic, first,
    head_syntaxDiagnostics_too_deep tokens derivable diagnostic first⟩

/--
Skipping the condition takes the `do` of the loop for the beginning of a block of its own, so
the loop misses it, and further faults are reported.
-/
theorem exists_fault_behind_skipped :
    ∃ kinds, (tokenize loopAtLimit).map Token.kind = kinds ++ [.eof] ∧
      (parse loopAtLimit).lexicalDiagnostics = [] ∧
      (∃ depth, Derives .carefulManual .block depth kinds) ∧
      ∃ diagnostic ∈ (parse loopAtLimit).diagnostics, diagnostic.message = "expected `do`" := by
  obtain ⟨kinds, tokens, derivable⟩ := derives_loopAtLimit
  obtain ⟨lexical, diagnostic, member, message⟩ := exists_fault_loopAtLimit
  exact ⟨kinds, tokens, lexical, derivable, diagnostic, mem_diagnostics.mpr (Or.inr member),
    message⟩

end LuaFold
