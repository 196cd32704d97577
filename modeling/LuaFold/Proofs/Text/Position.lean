import LuaFold.Proofs.Text.Layout
import LuaFold.Proofs.Token.Partition
import LuaFold.Text.Position
import Mathlib.Data.List.TakeWhile

/-!
# Positions in a text

The line of a place in a text is the number of line feeds in front of it, and its column is the
number of UTF-16 code units behind the last of them.  A character either ends its line or takes
a code unit of it, so a place behind another has a later position.
-/

namespace LuaFold

namespace Position

/-- One position is before another: on an earlier line, or earlier on the same line. -/
def Before (first second : Position) : Prop :=
  first.line < second.line ∨ first.line = second.line ∧ first.column < second.column

/-- One position is another or before it. -/
def UpTo (first second : Position) : Prop :=
  first = second ∨ first.Before second

theorem Before.ne {first second : Position} (before : first.Before second) : first ≠ second := by
  rintro rfl
  rcases before with less | ⟨_, less⟩
  · exact Nat.lt_irrefl _ less
  · exact Nat.lt_irrefl _ less

end Position

namespace Text

/-- The number of UTF-16 code units of a text. -/
def utf16Length (text : Text) : Nat :=
  (text.map codeUnits).sum

@[simp]
theorem utf16Length_append (first second : Text) :
    utf16Length (first ++ second) = utf16Length first + utf16Length second := by
  simp [utf16Length]

theorem codeUnits_pos (character : Char) : 0 < codeUnits character := by
  rw [codeUnits]
  split
  · exact Nat.one_pos
  · exact Nat.two_pos

theorem utf16Length_pos {text : Text} (nonempty : text ≠ []) : 0 < utf16Length text := by
  obtain ⟨first, rest, rfl⟩ := List.exists_cons_of_ne_nil nonempty
  exact Nat.add_pos_left (codeUnits_pos first) _

/-- What stands behind the last line feed of a text. -/
def lastLine (text : Text) : Text :=
  (text.reverse.takeWhile fun character => character ≠ '\n').reverse

@[simp]
theorem lastLine_nil : lastLine [] = [] :=
  rfl

theorem lastLine_append_of_mem
    (before : Text)
    {behind : Text}
    (breaks : '\n' ∈ behind) :
    lastLine (before ++ behind) = lastLine behind := by
  have stops : ∃ character ∈ behind.reverse, ¬ (decide (character ≠ '\n') = true) :=
    ⟨'\n', List.mem_reverse.mpr breaks, by simp⟩
  rw [lastLine, lastLine, List.reverse_append, List.takeWhile_append,
    if_neg fun all => ?_]
  obtain ⟨character, member, isBreak⟩ := stops
  have whole := (List.takeWhile_prefix _).eq_of_length all
  exact isBreak (List.takeWhile_eq_self_iff.mp whole character member)

theorem lastLine_append_of_not_mem
    (before : Text)
    {behind : Text}
    (absent : '\n' ∉ behind) :
    lastLine (before ++ behind) = lastLine before ++ behind := by
  have whole : behind.reverse.takeWhile (fun character => decide (character ≠ '\n')) =
      behind.reverse := by
    refine List.takeWhile_eq_self_iff.mpr fun character member => ?_
    refine decide_eq_true fun isBreak => absent ?_
    rw [← isBreak]
    exact List.mem_reverse.mp member
  rw [lastLine, List.reverse_append, List.takeWhile_append, whole, if_pos rfl,
    List.reverse_append, List.reverse_reverse]
  rfl

theorem not_mem_lastLine (text : Text) : '\n' ∉ lastLine text := by
  intro member
  have passed := List.mem_takeWhile_imp (List.mem_reverse.mp member)
  simp at passed

/-- The position behind a text: its line feeds and the code units behind the last of them. -/
def ending (text : Text) : Position :=
  ⟨text.count '\n', utf16Length (lastLine text)⟩

theorem ending_append_singleton
    (text : Text)
    (character : Char) :
    ending (text ++ [character]) = advancePosition (ending text) character := by
  rw [advancePosition]
  split
  · next isBreak =>
    rw [ending, lastLine_append_of_mem text (by simp [isBreak])]
    simp [ending, isBreak, lastLine, utf16Length]
  · next notBreak =>
    rw [ending, lastLine_append_of_not_mem text (by simpa using Ne.symm notBreak)]
    simp [ending, utf16Length, notBreak]

private theorem position_go
    (before behind : Text)
    (passed : Text) :
    position.go (size before) (ending passed) (before ++ behind) = ending (passed ++ before) := by
  induction before generalizing passed with
  | nil =>
      cases behind with
      | nil => simp [position.go]
      | cons character rest =>
          have positive := character.utf8Size_pos
          simp only [size_nil, List.nil_append, List.append_nil, position.go]
          rw [if_neg (by omega)]
  | cons character rest ih =>
      rw [List.cons_append, size_cons, position.go, if_pos (Nat.le_add_right _ _),
        Nat.add_sub_cancel_left, ← ending_append_singleton, ih]
      simp

/-- The position of a place is the one behind the text in front of it. -/
theorem position_size (before behind : Text) :
    (before ++ behind).position (size before) = ending before := by
  have passed := position_go before behind []
  rwa [List.nil_append] at passed

example : Text.position "a\n💾é b".toList 8 = ⟨1, 3⟩ := by decide

/-- More text ends at a later position. -/
theorem ending_before_ending
    (before : Text)
    {more : Text}
    (nonempty : more ≠ []) :
    (ending before).Before (ending (before ++ more)) := by
  by_cases breaks : '\n' ∈ more
  · refine Or.inl ?_
    have counted := List.count_pos_iff.mpr breaks
    simp only [ending, List.count_append]
    omega
  · refine Or.inr ⟨?_, ?_⟩
    · simp [ending, List.count_eq_zero_of_not_mem breaks]
    · have positive := utf16Length_pos nonempty
      simp only [ending, lastLine_append_of_not_mem before breaks, utf16Length_append]
      omega

variable {text : Text} {first second : Nat}

/-- Positions of places in a text are in the order of the places. -/
theorem position_before
    (isFirst : text.IsBoundary first)
    (isSecond : text.IsBoundary second)
    (less : first < second) :
    (text.position first).Before (text.position second) := by
  obtain ⟨before, rest, whole, rfl⟩ := isFirst
  obtain ⟨front, behind, otherWhole, rfl⟩ := isSecond
  obtain ⟨more, rfl⟩ : before <+: front := by
    rw [whole] at otherWhole
    rcases List.append_eq_append_iff.mp otherWhole with ⟨more, isFront, _⟩ | ⟨more, isBefore, _⟩
    · exact ⟨more, isFront.symm⟩
    · rw [isBefore, size_append] at less
      exact absurd less (by omega)
  have nonempty : more ≠ [] := by
    rintro rfl
    simp at less
  have here := position_size before rest
  have there := position_size (before ++ more) behind
  rw [← whole] at here
  rw [← otherWhole] at there
  rw [here, there]
  exact ending_before_ending before nonempty

theorem position_upTo
    (isFirst : text.IsBoundary first)
    (isSecond : text.IsBoundary second)
    (bound : first ≤ second) :
    (text.position first).UpTo (text.position second) := by
  rcases Nat.eq_or_lt_of_le bound with rfl | less
  · exact Or.inl rfl
  · exact Or.inr (position_before isFirst isSecond less)

/-- Different places in a text have different positions. -/
theorem eq_of_position_eq
    (isFirst : text.IsBoundary first)
    (isSecond : text.IsBoundary second)
    (same : text.position first = text.position second) :
    first = second := by
  rcases Nat.lt_trichotomy first second with less | equal | greater
  · exact absurd same (position_before isFirst isSecond less).ne
  · exact equal
  · exact absurd same.symm (position_before isSecond isFirst greater).ne

end Text

end LuaFold
