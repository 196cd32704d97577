import LuaFold.Fold.Region

/-!
# Outlines

The outline of a text lists its functions, each with the place where the caret goes when the
entry is chosen.
-/

namespace LuaFold

/-- A function in an outline: its name and the offset where its definition starts. -/
structure OutlineEntry where
  name : String
  offset : Nat
deriving DecidableEq, Repr

namespace OutlineEntry

/-- The name shown for an entry. -/
def displayName (entry : OutlineEntry) : String :=
  Region.displayName entry.name

end OutlineEntry

/-- One entry for each region, in the same order. -/
def outline (regions : List Region) : List OutlineEntry :=
  regions.map fun region => ⟨region.name, region.span.start⟩

/-- The place of the caret for the entry with a number. -/
def caretOffset (entries : List OutlineEntry) (index : Nat) : Option Nat :=
  entries[index]?.map OutlineEntry.offset

end LuaFold
