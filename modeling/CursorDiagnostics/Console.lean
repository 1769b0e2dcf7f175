/-
  CursorDiagnostics.Console — requests and caret moves as lines of text.

  Each region is a line with its ends, as positions and as offsets. Lines about the caret stand
  below the line that says where it is.
-/

import CursorDiagnostics.Document.Coordinates
import CursorDiagnostics.Presentation

namespace CursorDiagnostics.Console

/-- What a console is told. -/
inductive Call where
  | caret (offset : Nat)
  | request (r : Request)
  deriving DecidableEq, Repr

def position (p : Position) : String := s!"{p.line}:{p.column}"

def span (d : Document) (s : Span) : String :=
  position (d.positionAt s.start) ++ "-" ++ position (d.positionAt s.stop) ++ s!" [{s.start}..={s.stop}]"

def lines (d : Document) : Call → List String
  | .caret offset => ["caret " ++ position (d.positionAt offset) ++ s!" (offset {offset})"]
  | .request (.drawRegions key spans style) =>
    ("regions " ++ key ++ s!": {spans.length} (" ++ style.scope ++ ")") :: spans.map fun s => "  " ++ span d s
  | .request (.eraseRegions key) => ["regions " ++ key ++ ": none"]
  | .request (.status (.set key message)) => ["  status " ++ key ++ ": " ++ message]
  | .request (.status (.erase key)) => ["  status " ++ key ++ ": -"]
  | .request (.popup (.visible message maxWidth)) => [s!"  popup (max {maxWidth}px): " ++ message]
  | .request (.popup .hidden) => ["  popup: hidden"]

/-- The lines of all calls, in order. -/
def report (d : Document) (calls : List Call) : List String := calls.flatMap (lines d)

/-- The text of a report: each line ends in a line feed. -/
def text (report : List String) : String := String.join (report.map (· ++ "\n"))

end CursorDiagnostics.Console
