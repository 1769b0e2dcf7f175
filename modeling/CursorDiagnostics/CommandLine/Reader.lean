/-
  CursorDiagnostics.CommandLine.Reader — arguments from the words of a command line.

  A word that begins with two dashes is a long name, with a value after an equals sign or none; one
  that begins with a dash, and is more than a dash, is a cluster of short names, of which the first
  that takes a value has the rest of the word for it, without one equals sign in front. A name that
  takes a value and has none attached waits for it: the next word is the value unless it begins with
  a dash as these do. Two dashes alone end the names. Any other word is the document.

  The value in a word of its own is looked at when the next argument has been recognised, or at the
  end. So a word that is no argument at all is reported before the fault of the value in front of it,
  and of the faults of one argument a missing value comes before a repetition, and a repetition
  before the fault of the value.
-/

import CursorDiagnostics.CommandLine.Arguments

namespace CursorDiagnostics.CommandLine

/-- What a value on the command line is for. -/
inductive Field where
  | document
  | errorFile
  | packages
  | offset
  | position
  | regionKey
  | scope
  | icon
  | popupMaxWidth
  | logLevel
  deriving DecidableEq, Repr

def Field.label : Field → String
  | .document => "<DOCUMENT>"
  | .errorFile => "--error-file <ERROR_FILE>"
  | .packages => "--packages <PACKAGES>"
  | .offset => "--offset <OFFSETS>"
  | .position => "--at <POSITIONS>"
  | .regionKey => "--region-key <REGION_KEY>"
  | .scope => "--scope <SCOPE>"
  | .icon => "--icon <ICON>"
  | .popupMaxWidth => "--popup-max-width <POPUP_MAX_WIDTH>"
  | .logLevel => "--log-level <LOG_LEVEL>"

/-- A name that takes no value. -/
inductive Flag where
  | popup
  | help
  | version
  deriving DecidableEq, Repr

def Flag.label : Flag → String
  | .popup => "--popup"
  | .help => "--help"
  | .version => "--version"

inductive Name where
  | field (f : Field)
  | flag (f : Flag)
  deriving DecidableEq, Repr

def longNames : List (String × Name) :=
  [("error-file", .field .errorFile), ("packages", .field .packages), ("offset", .field .offset),
   ("at", .field .position), ("popup", .flag .popup), ("region-key", .field .regionKey),
   ("scope", .field .scope), ("icon", .field .icon), ("popup-max-width", .field .popupMaxWidth),
   ("log-level", .field .logLevel), ("help", .flag .help), ("version", .flag .version)]

def shortNames : List (Char × Name) :=
  [('e', .field .errorFile), ('o', .field .offset), ('a', .field .position), ('h', .flag .help),
   ('V', .flag .version)]

/-- Why the words are no arguments, or what was asked for instead of a run. -/
inductive UsageError where
  | help
  | version
  | unknown (word : String)
  | missing (fields : List Field)
  | noValue (field : Field)
  | repeated (label : String)
  | unwantedValue (flag : Flag) (value : String)
  | badValue (field : Field) (value reason : String)
  deriving DecidableEq, Repr

/-- The values taken so far. -/
structure Given where
  document : Option String := none
  errorFile : Option String := none
  packages : Option String := none
  offsets : List Nat := []
  positions : List Position := []
  popup : Bool := false
  regionKey : Option String := none
  scope : Option String := none
  icon : Option String := none
  popupMaxWidth : Option Nat := none
  logLevel : Option String := none
  deriving DecidableEq, Repr

namespace Given

/-- A value that may be given only once. -/
def once {α : Type} (f : Field) (old : Option α) (new : Except UsageError α) : Except UsageError (Option α) :=
  if old.isSome then .error (.repeated f.label) else new.map some

/-- A path is never empty. -/
def path (f : Field) (value : String) : Except UsageError String :=
  if value = "" then .error (.noValue f) else .ok value

def reading {α : Type} (f : Field) (value : String) (r : Except String α) : Except UsageError α :=
  r.mapError (.badValue f value)

/-- Takes the value of a field. -/
def take (g : Given) (f : Field) (value : String) : Except UsageError Given := do
  match f with
  | .document => return { g with document := ← once f g.document (path f value) }
  | .errorFile => return { g with errorFile := ← once f g.errorFile (.ok value) }
  | .packages => return { g with packages := ← once f g.packages (path f value) }
  | .offset => return { g with offsets := g.offsets ++ [← reading f value (readOffset value.toList)] }
  | .position =>
    let p ← reading f value ((readPosition value.toList).mapError PositionFault.message)
    return { g with positions := g.positions ++ [p] }
  | .regionKey => return { g with regionKey := ← once f g.regionKey (.ok value) }
  | .scope => return { g with scope := ← once f g.scope (.ok value) }
  | .icon => return { g with icon := ← once f g.icon (.ok value) }
  | .popupMaxWidth =>
    return { g with popupMaxWidth := ← once f g.popupMaxWidth (reading f value (readWidth value.toList)) }
  | .logLevel => return { g with logLevel := ← once f g.logLevel (.ok value) }

/-- What is given, with the defaults for the rest. -/
def arguments (g : Given) : Except UsageError Arguments :=
  let defaults : Settings := {}
  match g.document, g.errorFile with
  | some document, some errorFile =>
    .ok {
      document, errorFile
      packages := g.packages.getD "."
      offsets := g.offsets
      positions := g.positions
      popup := g.popup
      regionKey := g.regionKey.getD defaults.regionKey
      scope := g.scope.getD defaults.scope
      icon := g.icon.getD (defaults.icon.getD "")
      popupMaxWidth := g.popupMaxWidth.getD defaults.popupMaxWidth
      logLevel := g.logLevel.getD "warn" }
  | none, some _ => .error (.missing [.document])
  | some _, none => .error (.missing [.errorFile])
  | none, none => .error (.missing [.errorFile, .document])

end Given

/-- Between two words. -/
structure Reading where
  given : Given := {}
  /-- A field that waits for its value, or whose value has come and is not taken yet. -/
  pending : Option (Field × Option String) := none
  /-- The document has come. -/
  placed : Bool := false
  /-- Names have ended. -/
  ended : Bool := false

namespace Reading

/-- Takes the value that has come. -/
def settle (r : Reading) : Except UsageError Reading :=
  match r.pending with
  | none => .ok r
  | some (f, none) => .error (.noValue f)
  | some (f, some value) => return { r with given := ← r.given.take f value, pending := none }

def field (r : Reading) (f : Field) (attached : Option String) : Except UsageError Reading := do
  let r ← r.settle
  match attached with
  | some value => return { r with given := ← r.given.take f value }
  | none => return { r with pending := some (f, none) }

def flag (r : Reading) (f : Flag) : Except UsageError Reading := do
  let r ← r.settle
  match f with
  | .help => .error .help
  | .version => .error .version
  | .popup =>
    if r.given.popup then .error (.repeated f.label) else .ok { r with given := { r.given with popup := true } }

/-- A word after its two dashes. -/
def long (r : Reading) (word : List Char) : Except UsageError Reading :=
  let value : Option String :=
    match word.dropWhile (· ≠ '=') with
    | [] => none
    | _ :: value => some (String.ofList value)
  match longNames.lookup (String.ofList (word.takeWhile (· ≠ '='))), value with
  | none, _ => .error (.unknown ("--" ++ String.ofList (word.takeWhile (· ≠ '='))))
  | some (.field f), value => r.field f value
  | some (.flag f), none => r.flag f
  | some (.flag f), some value => .error (.unwantedValue f value)

/-- A word after its one dash. -/
def cluster (r : Reading) : List Char → Except UsageError Reading
  | [] => .ok r
  | c :: cs =>
    match shortNames.lookup c with
    | none => .error (.unknown (String.ofList ['-', c]))
    | some (.field f) =>
      match cs with
      | [] => r.field f none
      | '=' :: value => r.field f (some (String.ofList value))
      | value => r.field f (some (String.ofList value))
    | some (.flag f) => do cluster (← r.flag f) cs

def document (r : Reading) (word : String) : Except UsageError Reading := do
  if r.placed then .error (.unknown word)
  let r ← r.settle
  return { r with pending := some (.document, some word), placed := true }

def word (r : Reading) (word : String) : Except UsageError Reading :=
  if r.ended then r.document word
  else
    match word.toList with
    | ['-', '-'] => .ok { r with ended := true }
    | '-' :: '-' :: cs => r.long cs
    | '-' :: c :: cs => r.cluster (c :: cs)
    | _ =>
      match r.pending with
      | some (f, none) => .ok { r with pending := some (f, some word) }
      | _ => r.document word

end Reading

/-- Reads the words after the name of the program. -/
def read (words : List String) : Except UsageError Arguments := do
  let r ← words.foldlM Reading.word {}
  let r ← r.settle
  r.given.arguments

end CursorDiagnostics.CommandLine
