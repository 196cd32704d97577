import LuaFold.Fold.Outline

/-!
# Symbol forests

The regions of a text nest, and a forest shows how: a region becomes a child of the closest
region before it that still contains it.  Since outer regions come first, a stack of the
regions that are still open is enough to arrange them.
-/

namespace LuaFold

/-- A region with its outline entry and the symbols inside it. -/
inductive Symbol where
  | node (region : Region) (entry : OutlineEntry) (children : List Symbol)

namespace Symbol

/-- A symbol whose children are still being collected, newest first. -/
structure Unfinished where
  region : Region
  entry : OutlineEntry
  children : List Symbol

/-- The open symbols, innermost first, and the finished symbols outside them, newest first. -/
structure Arrangement where
  opened : List Unfinished
  roots : List Symbol

/-- The symbol with all its children. -/
def Unfinished.finish (symbol : Unfinished) : Symbol :=
  node symbol.region symbol.entry symbol.children.reverse

/-- Add a finished symbol to the innermost open one, or to the roots. -/
def Arrangement.add (symbol : Symbol) : List Unfinished → List Symbol → Arrangement
  | [], roots => ⟨[], symbol :: roots⟩
  | outer :: opened, roots =>
    ⟨⟨outer.region, outer.entry, symbol :: outer.children⟩ :: opened, roots⟩

/-- Finish the innermost open symbol. -/
def Arrangement.close (arrangement : Arrangement) : Arrangement :=
  match arrangement.opened with
  | [] => arrangement
  | inner :: opened => add inner.finish opened arrangement.roots

/-- Finish open symbols from the inside until one contains a span, at most a number of them. -/
def Arrangement.closeUntil (span : Span) : Nat → Arrangement → Arrangement
  | 0, arrangement => arrangement
  | count + 1, arrangement =>
    match arrangement.opened with
    | [] => arrangement
    | inner :: _ =>
      if inner.region.span.contains span then arrangement
      else closeUntil span count arrangement.close

/-- Open a symbol for a region where it belongs. -/
def Arrangement.insert
    (arrangement : Arrangement)
    (region : Region)
    (entry : OutlineEntry) :
    Arrangement :=
  let closed := closeUntil region.span arrangement.opened.length arrangement
  ⟨⟨region, entry, []⟩ :: closed.opened, closed.roots⟩

/-- Finish every open symbol, at most a number of them. -/
def Arrangement.closeAll : Nat → Arrangement → Arrangement
  | 0, arrangement => arrangement
  | count + 1, arrangement => closeAll count arrangement.close

/-- The forest of regions with their outline entries. -/
def forest (regions : List Region) (entries : List OutlineEntry) : List Symbol :=
  let arranged := (regions.zip entries).foldl
    (fun arrangement (region, entry) => Arrangement.insert arrangement region entry)
    (⟨[], []⟩ : Arrangement)
  (Arrangement.closeAll arranged.opened.length arranged).roots.reverse

end Symbol

end LuaFold
