/-
  CursorDiagnostics.Settings — what a host can choose: where the error log is, and how diagnostics
  are shown.
-/

import CursorDiagnostics.Template

namespace CursorDiagnostics

structure Settings where
  /-- The template of the error log's path. -/
  errorFile : Option String := none
  /-- The key under which an editor keeps the regions and the status. -/
  regionKey : String := "silicon-errors"
  /-- The theme scope of the regions. -/
  scope : String := "output.error"
  /-- The icon in the gutter. -/
  icon : Option String := some "Packages/Viper-IDE/error.png"
  /-- In pixels. -/
  popupMaxWidth : Nat := 680
  deriving DecidableEq, Repr

/-- The path of the error log, if there is a template for it. -/
def Settings.errorLog (s : Settings) (packages : String) : Except Failure (Option String) :=
  match s.errorFile with
  | none => .ok none
  | some template => (Template.expand template packages).map some

end CursorDiagnostics
