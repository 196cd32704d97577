import LuaFold.Token

/-!
# Extents

The extent of a part of a tree is how many bytes it fills and where in it the significant
tokens stand, those that are neither blank space nor comments.  Extents of neighbouring parts
add up, and adding is associative, so the extent of a node is the sum over its children.
-/

namespace LuaFold

/-- How many bytes a part of a tree fills, and the span of its significant tokens in it. -/
structure Extent where
  width : Nat
  core? : Option Span
deriving DecidableEq, Repr

namespace Extent

/-- The extent of nothing. -/
def empty : Extent :=
  ⟨0, none⟩

/-- The span from the start of one optional span to the end of another. -/
def joinCores : Option Span → Option Span → Option Span
  | none, second => second
  | first, none => first
  | some first, some second => some ⟨first.start, second.stop⟩

/-- The extent of two parts, one directly behind the other. -/
def append (first second : Extent) : Extent :=
  ⟨first.width + second.width,
    joinCores first.core? (second.core?.map fun core => core.shift first.width)⟩

/-- The extent of a token with its trivia. -/
def ofToken (token : Token) : Extent :=
  ⟨token.width, if token.kind.isTrivia then none else some (token.span 0)⟩

/-- The extent of parts that follow each other. -/
def total (extents : List Extent) : Extent :=
  extents.foldl append empty

@[simp]
theorem empty_append (extent : Extent) : empty.append extent = extent := by
  cases extent with
  | mk width core? =>
    cases core? <;> simp [append, empty, joinCores, Span.shift]

@[simp]
theorem append_empty (extent : Extent) : extent.append empty = extent := by
  cases extent with
  | mk width core? =>
    cases core? <;> simp [append, empty, joinCores]

theorem append_assoc (first second third : Extent) :
    (first.append second).append third = first.append (second.append third) := by
  obtain ⟨firstWidth, firstCore⟩ := first
  obtain ⟨secondWidth, secondCore⟩ := second
  obtain ⟨thirdWidth, thirdCore⟩ := third
  cases firstCore <;> cases secondCore <;> cases thirdCore <;>
    simp [append, joinCores, Span.shift] <;> omega

end Extent

end LuaFold
