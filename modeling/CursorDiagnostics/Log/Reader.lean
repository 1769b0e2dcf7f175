/-
  CursorDiagnostics.Log.Reader — records from the text of an error log.

  A log holds one record a line, `file,line:column,line:column,message`. The file may hold commas
  and the message anything, so the coordinates are the first block `,d:d,d:d,` of ASCII digits that
  the line has: the file is as short as it can be. Blank lines are skipped and the blanks around a
  line do not count. Lines are numbered as they stand, the skipped ones too, and the first line that
  does not read decides.
-/

import CursorDiagnostics.Failure
import CursorDiagnostics.Record
import CursorDiagnostics.Text.Blank
import CursorDiagnostics.Text.Decimal
import CursorDiagnostics.Text.Line

namespace CursorDiagnostics.Log

/-- The coordinates as they are written, and the message after them. -/
structure Block where
  startLine : List Char
  startColumn : List Char
  stopLine : List Char
  stopColumn : List Char
  message : List Char
  deriving DecidableEq, Repr

/-- Reads `sep` and a non-empty run of digits: the run, and the text after it. -/
def digitsAfter (sep : Char) : List Char → Option (List Char × List Char)
  | [] => none
  | c :: cs =>
    if c = sep ∧ cs.takeWhile Char.isDigit ≠ [] then
      some (cs.takeWhile Char.isDigit, cs.dropWhile Char.isDigit)
    else none

/-- Reads a text that begins with the coordinates. -/
def block (cs : List Char) : Option Block := do
  let (startLine, cs) ← digitsAfter ',' cs
  let (startColumn, cs) ← digitsAfter ':' cs
  let (stopLine, cs) ← digitsAfter ',' cs
  let (stopColumn, cs) ← digitsAfter ':' cs
  match cs with
  | ',' :: message => some ⟨startLine, startColumn, stopLine, stopColumn, message⟩
  | _ => none

/-- Cuts a line before its first block. -/
def split : List Char → Option (List Char × Block)
  | [] => none
  | c :: cs =>
    match block (c :: cs) with
    | some b => some ([], b)
    | none => (split cs).map fun (file, b) => (c :: file, b)

def coordinate (line : Nat) (ds : List Char) : Except Failure Nat :=
  match Text.Decimal.valueUpTo (Text.Decimal.wordLimit - 1) ds with
  | some n => .ok n
  | none => .error (.invalidNumber line (String.ofList ds))

def record (line : Nat) (file : List Char) (b : Block) : Except Failure Record := do
  let startLine ← coordinate line b.startLine
  let startColumn ← coordinate line b.startColumn
  let stopLine ← coordinate line b.stopLine
  let stopColumn ← coordinate line b.stopColumn
  return ⟨String.ofList file, ⟨startLine, startColumn⟩, ⟨stopLine, stopColumn⟩, String.ofList b.message⟩

/-- The record of the line numbered `line`; blanks are not dropped. -/
def readLine (line : Nat) (content : List Char) : Except Failure Record :=
  match if '\n' ∈ content then none else split content with
  | some (file, b) => record line file b
  | none => .error (.malformedLine line (String.ofList content))

/-- The lines of a log that hold something, trimmed, each with its number. -/
def entries (log : String) : List (Nat × List Char) :=
  ((Text.lines log.toList).zipIdx 1).filterMap fun (l, number) =>
    if Text.trim l.content = [] then none else some (number, Text.trim l.content)

def read (log : String) : Except Failure (List Record) :=
  (entries log).mapM fun (number, content) => readLine number content

end CursorDiagnostics.Log
