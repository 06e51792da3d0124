/-!
Stretches of text, given by the byte offset of their start and their length in bytes.
-/

namespace Playground

/-- A stretch of text. -/
structure Span where
  start : Nat
  length : Nat
deriving DecidableEq, Repr, Inhabited

namespace Span

/-- The span from `start` up to `stop`, empty at `start` when `stop` lies before it. -/
def ofBounds (start stop : Nat) : Span :=
  ⟨start, stop - start⟩

/-- The offset just after the span. -/
def stop (s : Span) : Nat :=
  s.start + s.length

/-- Whether the span holds no byte. -/
def isEmpty (s : Span) : Bool :=
  s.length == 0

/-- Whether the byte at `offset` belongs to the span. -/
def contains (s : Span) (offset : Nat) : Bool :=
  decide (s.start ≤ offset) && decide (offset < s.stop)

/-- Whether `inner` lies within the span. -/
def containsSpan (s inner : Span) : Bool :=
  decide (s.start ≤ inner.start) && decide (inner.stop ≤ s.stop)

end Span

end Playground
