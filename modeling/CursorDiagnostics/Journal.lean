/-
  CursorDiagnostics.Journal — what is logged: entries in the order in which they are made.
-/

namespace CursorDiagnostics

/-- From the most urgent to the least. -/
inductive Level where
  | error
  | warn
  | info
  | debug
  deriving DecidableEq, Repr

def Level.label : Level → String
  | .error => "ERROR"
  | .warn => "WARN"
  | .info => "INFO"
  | .debug => "DEBUG"

structure Entry where
  level : Level
  /-- The part of the program that speaks. -/
  target : String
  message : String
  /-- Named values, in the order in which they are given. -/
  fields : List (String × String) := []
  deriving DecidableEq, Repr

abbrev Journal := List Entry

end CursorDiagnostics
