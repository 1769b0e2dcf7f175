/-
  CursorDiagnostics.CommandLine.Report — one build cycle, and what lies under each position asked for.

  A run plays a host: it opens the document, attaches a session to its buffer, loads the error log,
  draws the regions, and moves the caret to each offset and then to each position. A position in a
  line that the document does not have stands for the end of the document, with a warning. The
  report is written when it is complete, so a run that fails earlier has written nothing.

  Faults are found in this order: the template of the log's path, the document, the log, and the
  first record that does not lie in the document; then only the writer can fail.
-/

import CursorDiagnostics.CommandLine.Arguments
import CursorDiagnostics.Console
import CursorDiagnostics.Host

namespace CursorDiagnostics.CommandLine

/-- Why a run failed. -/
inductive RunError where
  | document (path : String) (fault : IoFault)
  | diagnostics (failure : Failure)
  | output (fault : IoFault)
  deriving DecidableEq, Repr

def RunError.message : RunError → String
  | .document path fault => "cannot read document " ++ path ++ ": " ++ fault.message
  | .diagnostics failure => failure.message
  | .output fault => "cannot write output: " ++ fault.message

/-- What reading the text of each path gives. -/
abbrev Disk := String → Except IoFault String

/-- The program's name in the journal. -/
def target : String := "silver_diag"

/-! ## Queries -/

def pastEnd (line : Nat) : Entry :=
  ⟨.warn, target, "Position past the end of the document", [("line", toString line)]⟩

/-- The offset that a position stands for, and what is logged about it. -/
def place (d : Document) (p : Position) : Nat × Journal :=
  match d.offset p with
  | .ok offset => (offset, [])
  | .error _ => (d.length, [pastEnd p.line])

/-- The offsets to look up, in order. -/
def queries (a : Arguments) (d : Document) : List (Nat × Journal) :=
  a.offsets.map (·, []) ++ a.positions.map (place d)

/-- What is shown for the caret at `offset`. -/
def answer (a : Arguments) (s : Session) (offset : Nat) : Request :=
  if a.popup then s.popup (.caret offset) else s.status

/-- Moves the caret to each offset in turn and shows the message there. -/
def inquire (a : Arguments) : Host → List (Nat × Journal) → List Console.Call × Journal
  | _, [] => ([], [])
  | h, (offset, journal) :: rest =>
    let r := h.step (.select (.caret offset))
    let (calls, later) := inquire a r.host rest
    (.caret offset :: .request (answer a r.host.session offset) :: calls, journal ++ r.journal ++ later)

/-! ## The report -/

/-- A report or the reason why there is none, and what was logged. -/
structure Composition where
  result : Except RunError (List String)
  journal : Journal := []

/-- The report on a document with this text and a log in this file. -/
def inspect (a : Arguments) (text : String) (file : Log.File) : Composition :=
  let d := Document.ofText text
  let h := ((Host.start a.settings text).step .attach).host
  let t := h.session.startBuild.andThen fun s _ => s.loadAndObserve file text h.buffer.selection
  match t.result with
  | .error e => ⟨.error (.diagnostics e), t.journal⟩
  | .ok _ =>
    let (calls, journal) := inquire a { h with session := t.session } (queries a d)
    ⟨.ok (Console.report d (.request t.session.regions :: calls)), t.journal ++ journal⟩

def opening (document log : String) : Entry :=
  ⟨.info, target, "Loading diagnostics", [("document", Text.quote document), ("error_file", Text.quote log)]⟩

def compose (disk : Disk) (a : Arguments) : Composition :=
  match a.settings.errorLog a.packages with
  | .error e => ⟨.error (.diagnostics e), []⟩
  | .ok log =>
    match disk a.document with
    | .error fault => ⟨.error (.document a.document fault), []⟩
    | .ok text =>
      let path := log.getD a.errorFile
      let c := inspect a text ⟨path, disk path⟩
      { c with journal := opening a.document path :: c.journal }

/-! ## Writing -/

/-- A writer with the bytes it has taken; with room for some more, or for any number. -/
structure Sink where
  taken : Array UInt8 := #[]
  room : Option Nat := none
  deriving DecidableEq, Repr

namespace Sink

def full : IoFault := .other "writer full"

/-- Takes what there is room for. -/
def put (s : Sink) (bytes : List UInt8) : Sink × Option IoFault :=
  match s.room with
  | none => ({ s with taken := s.taken ++ bytes }, none)
  | some n =>
    (⟨s.taken ++ bytes.take n, some (n - bytes.length)⟩, if bytes.length ≤ n then none else some full)

/-- Writes lines, each with its line feed, up to the first that is not taken whole. -/
def putLines (s : Sink) : List String → Sink × Option IoFault
  | [] => (s, none)
  | line :: lines =>
    match s.put (line ++ "\n").toUTF8.toList with
    | (s, none) => s.putLines lines
    | (s, some fault) => (s, some fault)

end Sink

/-- What a run leaves behind. -/
structure Run where
  output : List UInt8
  error : Option RunError
  journal : Journal

/-- Writes the report to a writer with this much room. -/
def run (disk : Disk) (a : Arguments) (room : Option Nat) : Run :=
  let c := compose disk a
  match c.result with
  | .error e => ⟨[], some e, c.journal⟩
  | .ok lines =>
    let (s, fault) := Sink.putLines { room } lines
    ⟨s.taken.toList, fault.map .output, c.journal⟩

end CursorDiagnostics.CommandLine
