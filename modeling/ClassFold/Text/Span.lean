/-!
Spans: stretches of a text, given by the byte positions of their two ends.
-/

namespace ClassFold

/-- The stretch of a text from byte `start` up to byte `stop`. -/
structure Span where
  start : Nat
  stop : Nat
  deriving DecidableEq, Repr

namespace Span

/-- The number of bytes in a span. -/
def length (s : Span) : Nat := s.stop - s.start

/-- A span is empty when its two ends coincide. -/
def isEmpty (s : Span) : Bool := s.start == s.stop

/-- The span that lies `base` bytes further on. -/
def shift (base : Nat) (s : Span) : Span := ⟨base + s.start, base + s.stop⟩

/-- The span with both ends changed. -/
def relocate (f : Nat → Nat) (s : Span) : Span := ⟨f s.start, f s.stop⟩

end Span

end ClassFold
