/-
  CursorDiagnostics.Record — one diagnostic as the checker reports it.
-/

namespace CursorDiagnostics

/-- A place in a text: both numbers count from 1. -/
structure Position where
  line : Nat
  column : Nat
  deriving DecidableEq, Repr

/-- A message about the text between two positions of a file. -/
structure Record where
  file : String
  start : Position
  stop : Position
  message : String
  deriving DecidableEq, Repr

end CursorDiagnostics
