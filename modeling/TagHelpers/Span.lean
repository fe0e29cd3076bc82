/-!
# Source spans

A span is a pair of byte offsets into the source. The pair `(0, 0)` is the stub, the span of what
has no place in the source, and merging leaves it out: `merge` gives the smallest range that holds
both spans, and `cover` does so for a list.
-/

namespace TagHelpers

/-- A range of source bytes, from `start` up to but not including `stop`. -/
structure Span where
  start : UInt32
  stop : UInt32
  deriving DecidableEq, Repr, Inhabited

namespace Span

/-- The span of what has no place in the source. -/
def stub : Span := ⟨0, 0⟩

/-- A span is empty when it starts where it stops. -/
def isEmpty (s : Span) : Bool :=
  s.start == s.stop

/-- The number of bytes, which a span that stops before it starts does not have. -/
def length? (s : Span) : Option UInt32 :=
  if s.start ≤ s.stop then some (s.stop - s.start) else none

/-- The smallest range that holds both spans, the stub being left out. -/
def merge (a b : Span) : Span :=
  if a = stub then b
  else if b = stub then a
  else ⟨min a.start b.start, max a.stop b.stop⟩

/-- The smallest range that holds all spans of a list, stubs being left out. -/
def cover (spans : List Span) : Span :=
  spans.foldl merge stub

end Span

end TagHelpers
