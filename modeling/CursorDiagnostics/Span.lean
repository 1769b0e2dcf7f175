/-
  CursorDiagnostics.Span — a stretch of a document between two character offsets, both included.

  A caret stands between characters, so the offset at the end of a stretch still touches it.
-/

namespace CursorDiagnostics

structure Span where
  start : Nat
  stop : Nat
  deriving DecidableEq, Repr

namespace Span

def covers (s : Span) (offset : Nat) : Bool := s.start ≤ offset && offset ≤ s.stop

/-- Covers everything from `lo` to `hi`, where `lo` is not above `hi`. -/
def coversRange (s : Span) (lo hi : Nat) : Bool := s.start ≤ lo && hi ≤ s.stop

def length (s : Span) : Nat := s.stop - s.start

def isEmpty (s : Span) : Bool := s.start == s.stop

end Span

end CursorDiagnostics
