/-
  CursorDiagnostics.CommandLine.Arguments — what a run is asked for, and the values of its arguments.

  Numbers may have a plus sign and leading zeros. A position is a line and a column with a colon
  between them, both counted from 1; the first colon divides them, so a second one belongs to the
  column and spoils it. Of several faults of a position the line's is reported before the column's,
  and a zero last.
-/

import CursorDiagnostics.Description
import CursorDiagnostics.Text.Decimal

namespace CursorDiagnostics.CommandLine

structure Arguments where
  document : String
  /-- The template of the error log's path. -/
  errorFile : String
  packages : String
  offsets : List Nat
  positions : List Position
  popup : Bool
  regionKey : String
  scope : String
  /-- Empty for no icon. -/
  icon : String
  popupMaxWidth : Nat
  logLevel : String
  deriving DecidableEq, Repr

def Arguments.settings (a : Arguments) : Settings where
  errorFile := some a.errorFile
  regionKey := a.regionKey
  scope := a.scope
  icon := if a.icon = "" then none else some a.icon
  popupMaxWidth := a.popupMaxWidth

open Description in
def Arguments.describe (a : Arguments) : String :=
  fields "Args" [("document", Text.quote a.document), ("error_file", Text.quote a.errorFile),
    ("packages", Text.quote a.packages), ("offsets", list (a.offsets.map toString)),
    ("positions", list (a.positions.map fun p =>
      fields "LinePosition" [("line", toString p.line), ("column", toString p.column)])),
    ("popup", toString a.popup), ("region_key", Text.quote a.regionKey), ("scope", Text.quote a.scope),
    ("icon", Text.quote a.icon), ("popup_max_width", toString a.popupMaxWidth),
    ("log_level", Text.quote a.logLevel)]

/-! ## Positions -/

inductive PositionFault where
  | noColon (value : String)
  | badLine (line : String)
  | badColumn (column : String)
  | zero
  deriving DecidableEq, Repr

def PositionFault.message : PositionFault → String
  | .noColon value => "expected LINE:COLUMN, got '" ++ value ++ "'"
  | .badLine line => "invalid line number '" ++ line ++ "'"
  | .badColumn column => "invalid column number '" ++ column ++ "'"
  | .zero => "lines and columns start at 1"

def readPosition (value : List Char) : Except PositionFault Position :=
  match value.dropWhile (· ≠ ':') with
  | [] => .error (.noColon (String.ofList value))
  | _ :: column =>
    let line := value.takeWhile (· ≠ ':')
    match Text.Decimal.readNat Text.Decimal.wordLimit line,
        Text.Decimal.readNat Text.Decimal.wordLimit column with
    | .error _, _ => .error (.badLine (String.ofList line))
    | .ok _, .error _ => .error (.badColumn (String.ofList column))
    | .ok l, .ok c => if l = 0 ∨ c = 0 then .error .zero else .ok ⟨l, c⟩

/-! ## Numbers -/

/-- The widest popup. -/
def widthLimit : Nat := UInt32.size - 1

def readOffset (value : List Char) : Except String Nat :=
  (Text.Decimal.readNat Text.Decimal.wordLimit value).mapError Text.Decimal.Fault.message

/-- A width is read as a signed word first, so a numeral that is none is refused before one that is
    out of bounds. -/
def readWidth (value : List Char) : Except String Nat :=
  match Text.Decimal.readInt (Text.Decimal.wordLimit / 2) value with
  | .error fault => .error fault.message
  | .ok n => if 0 ≤ n ∧ n ≤ widthLimit then .ok n.toNat else .error s!"{n} is not in 0..={widthLimit}"

end CursorDiagnostics.CommandLine
