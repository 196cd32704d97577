import LuaFold.Proofs.Grammar.Acceptance.Statement
import LuaFold.Proofs.Parse.Nesting

/-!
# Texts without diagnostics

A text that is parsed without a diagnostic is derived from the lenient grammar of chunks, nested
within the limit of the parser.  It need not be derived from the grammar of the manual: what
stands for the name of a loop over numbers is taken without a test.
-/

namespace LuaFold

open Grammar

/-- The tokens of a text without diagnostics are derived, nested at most 200 levels deep. -/
theorem derives_of_diagnostics_eq_nil
    {text : Text}
    (silent : (parse text).diagnostics = []) :
    ∃ kinds depth,
      (tokenize text).map Token.kind = kinds ++ [.eof] ∧
      depth ≤ 200 ∧
      Derives .lenient .block depth kinds := by
  obtain ⟨kinds, tokens, absent⟩ := map_kind_tokenize text
  obtain ⟨_, faults⟩ := diagnostics_eq_nil_iff.mp silent
  have quiet : (run (kinds ++ [.eof])).2 = [] := by
    rw [← tokens]
    exact faults
  obtain ⟨depth, enough, derives⟩ := derives_of_run_eq_nil absent quiet
  exact ⟨kinds, depth, tokens, enough, derives⟩

/-- A loop over numbers with a number in the place of its name. -/
def numberedLoop : Text :=
  "for 1 = 1, 2 do end".toList

theorem diagnostics_numberedLoop : (parse numberedLoop).diagnostics = [] :=
  diagnostics_eq_nil_iff.mpr (by decide +kernel)

theorem derives_of_diagnostics_eq_nil_numberedLoop :
    (parse numberedLoop).diagnostics = [] ∧
      ∃ kinds depth,
        (tokenize numberedLoop).map Token.kind = kinds ++ [.eof] ∧
        depth ≤ 200 ∧
        Derives .lenient .block depth kinds :=
  ⟨diagnostics_numberedLoop, derives_of_diagnostics_eq_nil diagnostics_numberedLoop⟩

/-- No diagnostic is reported for the loop, though the grammar of the manual has no such loop. -/
theorem not_derives_numberedLoop :
    ∃ kinds, (tokenize numberedLoop).map Token.kind = kinds ++ [.eof] ∧
      (parse numberedLoop).diagnostics = [] ∧ ¬ ∃ depth, Derives .manual .block depth kinds := by
  have tokens : (tokenize numberedLoop).map Token.kind =
      [.forKw, .number, .eq, .number, .comma, .number, .doKw, .endKw] ++ [.eof] := by
    decide +kernel
  refine ⟨_, tokens, diagnostics_numberedLoop, fun ⟨_, derives⟩ => ?_⟩
  have named := derives.namesLoops rfl
  simp [namesLoops] at named

end LuaFold
