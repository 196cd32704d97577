import LuaFold.Span

/-!
# Diagnostics

A diagnostic is a message about a span of a text.  The diagnostics of a text are kept in the
order of their starts; those with the same start keep the order in which they were found.
-/

namespace LuaFold

/-- A message about a span of a text. -/
structure Diagnostic where
  message : String
  span : Span
deriving DecidableEq, Repr

namespace Diagnostic

/-- The written form of a diagnostic in one line. -/
def render (diagnostic : Diagnostic) : String :=
  diagnostic.span.render ++ ": " ++ diagnostic.message

/-- The diagnostics ordered by their starts. -/
def sorted (diagnostics : List Diagnostic) : List Diagnostic :=
  diagnostics.mergeSort fun first second => decide (first.span.start ≤ second.span.start)

end Diagnostic

end LuaFold
