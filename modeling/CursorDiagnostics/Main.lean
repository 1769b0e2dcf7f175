/-
  CursorDiagnostics.Main — the command line: reads the files that a run asks for, and writes what it
  gives.
-/

import CursorDiagnostics.CommandLine.Program
import CursorDiagnostics.Text.Utf8

namespace CursorDiagnostics.CommandLine

/-- The fault with this error number of the system, which may come negated. -/
def numbered (number : UInt32) (detail : String) : IoFault :=
  match (min number (0 - number)).toNat with
  | 2 => .notFound
  | 20 => .notDirectory
  | 21 => .isDirectory
  | 36 => .nameTooLong
  | n => .other s!"{detail} (os error {n})"

def faultOf : IO.Error → IoFault
  | .noFileOrDirectory _ number detail => numbered number detail
  | .inappropriateType _ number detail => numbered number detail
  | .invalidArgument _ number detail => numbered number detail
  | .permissionDenied _ number detail => numbered number detail
  | .noSuchThing _ number detail => numbered number detail
  | .resourceExhausted _ number detail => numbered number detail
  | .otherError number detail => numbered number detail
  | e => .other (toString e)

def readText (path : String) : IO (Except IoFault String) := do
  if '\x00' ∈ path.toList then return .error .nulInPath
  try
    let bytes ← IO.FS.readBinFile path
    match Text.Utf8.strict bytes.toList with
    | some text => return .ok text
    | none => return .error .notText
  catch e => return .error (faultOf e)

/-- Writes what a run gives; if that fails, so does the run. -/
def writeOut (r : Run) : IO Run := do
  try
    let out ← IO.getStdout
    out.write ⟨r.output.toArray⟩
    out.flush
    return r
  catch e => return { r with error := some (.output (faultOf e)) }

def perform (words : List String) : IO Exit := do
  match read words with
  | .error e =>
    let exit := decline e
    (← IO.getStdout).write ⟨exit.output.toArray⟩
    return exit
  | .ok a =>
    let files ← (paths a).mapM fun path => do return (path, ← readText path)
    let r := run (fun path => (files.lookup path).getD (.error .notFound)) a none
    return conclude a (← writeOut r)

end CursorDiagnostics.CommandLine

def main (words : List String) : IO UInt32 := do
  let exit ← CursorDiagnostics.CommandLine.perform words
  (← IO.getStderr).putStr exit.errors
  return exit.code.toUInt32
