/-
  CursorDiagnostics.Log.File — an error log on disk, and what is logged when it is read.

  A checker that finds nothing writes no log, so a log that is not there holds no records. Any other
  fault of the file is a failure, and is left to the reader's caller to report.
-/

import CursorDiagnostics.Journal
import CursorDiagnostics.Log.Reader

namespace CursorDiagnostics.Log

/-- The library's name in the journal. -/
def target : String := "silicon"

/-- A path, and what reading it gives. -/
structure File where
  path : String
  content : Except IoFault String

namespace File

def records (f : File) : Except Failure (List Record) :=
  match f.content with
  | .ok log => read log
  | .error .notFound => .ok []
  | .error fault => .error (.io fault)

def journal (f : File) : Journal :=
  match f.content, f.records with
  | .error .notFound, _ =>
    [⟨.debug, target, "error log not found, no diagnostics", [("path", Text.quote f.path)]⟩]
  | _, .ok rs =>
    [⟨.debug, target, "parsed error log", [("path", Text.quote f.path), ("count", toString rs.length)]⟩]
  | _, .error _ => []

end File

end CursorDiagnostics.Log
