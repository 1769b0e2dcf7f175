/-
  CursorDiagnostics.Failure — what can go wrong between an error log and the spans of a document,
  and the one text for each.

  The text of a failure stays on one line and names what the failure holds: the content of a
  malformed line is quoted, so two failures with one text are the same failure.
-/

import CursorDiagnostics.Text.Quoted

namespace CursorDiagnostics

/-- Why a file could not be read, or a writer did not take its bytes. -/
inductive IoFault where
  | notFound
  | notDirectory
  | isDirectory
  | notText
  | nulInPath
  | nameTooLong
  | other (detail : String)
  deriving DecidableEq, Repr

def IoFault.message : IoFault → String
  | .notFound => "No such file or directory (os error 2)"
  | .notDirectory => "Not a directory (os error 20)"
  | .isDirectory => "Is a directory (os error 21)"
  | .notText => "stream did not contain valid UTF-8"
  | .nulInPath => "file name contained an unexpected NUL byte"
  | .nameTooLong => "File name too long (os error 36)"
  | .other detail => detail

/-- Why a log, a record or a template was refused. Lines count from 1. -/
inductive Failure where
  | io (fault : IoFault)
  | malformedLine (line : Nat) (content : String)
  | invalidNumber (line : Nat) (digits : String)
  | outOfRange (line lineCount : Nat)
  | invertedSpan (startLine stopLine : Nat)
  | unknownPlaceholder (name : String)
  deriving DecidableEq, Repr

namespace Failure

def message : Failure → String
  | io fault => "I/O error: " ++ fault.message
  | malformedLine line content => s!"malformed diagnostic on line {line}: " ++ Text.quote content
  | invalidNumber line digits => "invalid coordinate '" ++ digits ++ s!"' on line {line}"
  | outOfRange line lineCount => s!"line {line} is outside the document (1..={lineCount})"
  | invertedSpan startLine stopLine =>
    s!"diagnostic ends on line {stopLine} before it starts on line {startLine}"
  | unknownPlaceholder name => "unknown placeholder '$" ++ name ++ "' in error file template"

/-- The log and the document do not fit each other: the log is in another format, or was written
    for another text. -/
def isFormatMismatch : Failure → Bool
  | malformedLine .. | invalidNumber .. | outOfRange .. | invertedSpan .. => true
  | io _ | unknownPlaceholder _ => false

end Failure

end CursorDiagnostics
