/-
  CursorDiagnostics.Document.Coordinates — the positions of a log and the offsets of a document.

  Positions count from 1. A line that the document does not have is an error; a column never is: the
  column 0 stands for 1, and one past the end of the line for the end of the line, before its break.
  A record covers its first line from the beginning, whatever its start column is.
-/

import CursorDiagnostics.Document
import CursorDiagnostics.Failure
import CursorDiagnostics.Record
import CursorDiagnostics.Span

namespace CursorDiagnostics.Document

def outOfRange (d : Document) (line : Nat) : Failure := .outOfRange line d.lineCount

/-- The offset at which `line` begins. -/
def lineOffset (d : Document) (line : Nat) : Except Failure Nat :=
  if line = 0 then .error (d.outOfRange line)
  else
    match d.lineStart (line - 1) with
    | some offset => .ok offset
    | none => .error (d.outOfRange line)

/-- The offset of a position. -/
def offset (d : Document) (p : Position) : Except Failure Nat := do
  let start ← d.lineOffset p.line
  return start + min (p.column - 1) ((d.lineLength (p.line - 1)).getD 0)

/-- The stretch that a record is about. -/
def span (d : Document) (r : Record) : Except Failure Span := do
  if r.stop.line < r.start.line then .error (.invertedSpan r.start.line r.stop.line)
  let start ← d.lineOffset r.start.line
  let stop ← d.offset r.stop
  return ⟨start, stop⟩

/-- The position of an offset. -/
def positionAt (d : Document) (offset : Nat) : Position :=
  let (line, column) := d.locate offset
  ⟨line + 1, column + 1⟩

end CursorDiagnostics.Document
