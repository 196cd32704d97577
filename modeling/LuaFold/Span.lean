/-!
# Byte spans

A span is a pair of byte offsets into a text: where something starts and where it stops.
-/

namespace LuaFold

/-- The bytes from one offset up to, but not including, another. -/
structure Span where
  start : Nat
  stop : Nat
deriving DecidableEq, Repr, Inhabited

namespace Span

/-- The empty span at an offset. -/
def empty (offset : Nat) : Span :=
  ⟨offset, offset⟩

/-- The same span, a number of bytes further on. -/
def shift (span : Span) (distance : Nat) : Span :=
  ⟨span.start + distance, span.stop + distance⟩

/-- Whether a span lies inside another. -/
def contains (outer inner : Span) : Bool :=
  decide (outer.start ≤ inner.start ∧ inner.stop ≤ outer.stop)

/-- The written form of a span: both offsets with two dots between them. -/
def render (span : Span) : String :=
  toString span.start ++ ".." ++ toString span.stop

@[simp]
theorem shift_start
    (span : Span)
    (distance : Nat) :
    (span.shift distance).start = span.start + distance :=
  rfl

@[simp]
theorem shift_stop
    (span : Span)
    (distance : Nat) :
    (span.shift distance).stop = span.stop + distance :=
  rfl

theorem contains_iff {outer inner : Span} :
    outer.contains inner = true ↔ outer.start ≤ inner.start ∧ inner.stop ≤ outer.stop := by
  simp [contains]

end Span

end LuaFold
