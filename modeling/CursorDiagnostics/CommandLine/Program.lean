/-
  CursorDiagnostics.CommandLine.Program — the program as a function: its words and a disk to an exit
  code and two texts.

  A run that ends well has the code 0 and the report as its output; a run that fails has the code 1
  and says why in the journal; words that are no arguments have the code 2. The journal is written to
  the error output down to the level that the arguments name, one entry a line; a message that has
  line feeds goes on indented, and sequences that would steer a terminal are left out, the end of the
  line too if it stands in one. A level that is none is reported and stands for `warn`.
-/

import CursorDiagnostics.CommandLine.Reader
import CursorDiagnostics.CommandLine.Report
import CursorDiagnostics.Text.ControlSequence

namespace CursorDiagnostics.CommandLine

/-! ## Levels -/

/-- How far down the journal is written. -/
inductive Verbosity where
  | off
  | error
  | warn
  | info
  | debug
  | trace
  deriving DecidableEq, Repr

namespace Verbosity

def all : List Verbosity := [.off, .error, .warn, .info, .debug, .trace]

def label : Verbosity → String
  | .off => "Off"
  | .error => "Error"
  | .warn => "Warn"
  | .info => "Info"
  | .debug => "Debug"
  | .trace => "Trace"

/-- The level of a name, in letters of either case. -/
def named? (name : String) : Option Verbosity := all.find? fun v => v.label.toLower == name.toLower

def admits : Verbosity → Level → Bool
  | .off, _ => false
  | .error, l => l == .error
  | .warn, l => l == .error || l == .warn
  | .info, l => l != .debug
  | .debug, _ | .trace, _ => true

end Verbosity

/-! ## The error output -/

/-- A text with its line feeds followed by four blanks. -/
def indented (text : String) : String :=
  String.ofList (text.toList.flatMap fun c => if c = '\n' then "\n    ".toList else [c])

def padded (l : Level) : String := l.label ++ String.ofList (List.replicate (5 - l.label.length) ' ')

def line (e : Entry) : String :=
  Text.ControlSequence.plain
    ("[" ++ padded e.level ++ " " ++ e.target ++ "] " ++ indented e.message
      ++ String.join (e.fields.map fun f => " " ++ f.1 ++ "=" ++ f.2) ++ "\n")

def written (v : Verbosity) (j : Journal) : String :=
  String.join ((j.filter fun e => v.admits e.level).map line)

/-! ## Usage -/

def versionText : String := "silver-diag 0.3.0\n"

def usage : String := "Usage: silver-diag [OPTIONS] --error-file <ERROR_FILE> <DOCUMENT>\n"

/-- The options, each with what it is for. -/
def options : List (String × String) :=
  [("-e, --error-file <ERROR_FILE>", "Error log written by the toolchain; `$packages` expands to `--packages`"),
   ("    --packages <PACKAGES>", "Directory substituted for `$packages` in the error file template [default: .]"),
   ("-o, --offset <OFFSETS>", "Character offsets to look up (0-based)"),
   ("-a, --at <POSITIONS>", "Positions to look up, as 1-based LINE:COLUMN"),
   ("    --popup", "Report lookups as popups instead of status-line updates"),
   ("    --region-key <REGION_KEY>", "Key for drawn regions and the status-line slot [default: silicon-errors]"),
   ("    --scope <SCOPE>", "Theme scope for drawn regions [default: output.error]"),
   ("    --icon <ICON>", "Gutter icon resource [default: Packages/Viper-IDE/error.png]"),
   ("    --popup-max-width <POPUP_MAX_WIDTH>", "Maximum popup width in pixels [default: 680]"),
   ("    --log-level <LOG_LEVEL>", "Log level (off, error, warn, info, debug, trace) [default: warn]"),
   ("-h, --help", "Print help"),
   ("-V, --version", "Print version")]

def helpText : String :=
  "Load an error log against a document and inspect messages by position.\n\n" ++ usage
    ++ "\nArguments:\n  <DOCUMENT>  Path to the document\n\nOptions:\n"
    ++ String.join (options.map fun o =>
      "  " ++ o.1 ++ String.ofList (List.replicate (41 - o.1.length) ' ') ++ o.2 ++ "\n")

def UsageError.message : UsageError → String
  | .help => helpText
  | .version => versionText
  | .unknown word => "unexpected argument '" ++ word ++ "' found"
  | .missing fields =>
    "the following required arguments were not provided: " ++ ", ".intercalate (fields.map Field.label)
  | .noValue field => "a value is required for '" ++ field.label ++ "' but none was supplied"
  | .repeated label => "the argument '" ++ label ++ "' cannot be used multiple times"
  | .unwantedValue flag value => "unexpected value '" ++ value ++ "' for '" ++ flag.label ++ "' found"
  | .badValue field value reason => "invalid value '" ++ value ++ "' for '" ++ field.label ++ "': " ++ reason

/-! ## The program -/

structure Exit where
  code : Nat
  output : List UInt8
  errors : String
  deriving DecidableEq, Repr

/-- The lines of the error output. -/
def Exit.errorLines (e : Exit) : List String :=
  (Text.lines e.errors.toList).filterMap fun l =>
    if l.ending = .last ∧ l.content = [] then none else some (String.ofList l.content)

/-- How far down these arguments ask for the journal. -/
def verbosity (a : Arguments) : Verbosity := (Verbosity.named? a.logLevel).getD .warn

def starting (a : Arguments) : Journal :=
  [⟨.info, target, "Starting silver-diag", [("log_level", (verbosity a).label)]⟩,
   ⟨.debug, target, "Parsed arguments", [("args", a.describe)]⟩]

def ending : Option RunError → Entry
  | some e => ⟨.error, target, e.message, []⟩
  | none => ⟨.info, target, "Completed successfully", []⟩

def badLevel (name : String) : String := "Invalid log level: " ++ name ++ ". Using 'warn' instead.\n"

/-- How the program ends after a run. -/
def conclude (a : Arguments) (r : Run) : Exit where
  code := if r.error.isSome then 1 else 0
  output := r.output
  errors :=
    (if (Verbosity.named? a.logLevel).isSome then "" else badLevel a.logLevel)
      ++ written (verbosity a) (starting a ++ r.journal ++ [ending r.error])

/-- How the program ends without a run. -/
def decline : UsageError → Exit
  | .help => ⟨0, helpText.toUTF8.toList, ""⟩
  | .version => ⟨0, versionText.toUTF8.toList, ""⟩
  | e => ⟨2, [], "error: " ++ e.message ++ "\n\n" ++ usage ++ "\nFor more information, try '--help'.\n"⟩

/-- Runs the words after the name of the program, with a writer that has room for everything. -/
def program (disk : Disk) (words : List String) : Exit :=
  match read words with
  | .ok a => conclude a (run disk a none)
  | .error e => decline e

/-- The paths that a run reads. -/
def paths (a : Arguments) : List String :=
  match a.settings.errorLog a.packages with
  | .ok log => [a.document, log.getD a.errorFile]
  | .error _ => []

end CursorDiagnostics.CommandLine
