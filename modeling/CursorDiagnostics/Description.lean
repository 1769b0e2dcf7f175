/-
  CursorDiagnostics.Description — a session and a buffer as one line of text, for a person who looks
  for a fault.

  A structure is written with its name and its named fields, a list between brackets, a value that
  may be missing as `Some(...)` or `None`, and a text quoted. Listeners are counted.
-/

import CursorDiagnostics.Buffer
import CursorDiagnostics.Session

namespace CursorDiagnostics

namespace Description

def fields (name : String) (values : List (String × String)) : String :=
  name ++ " \x7b " ++ ", ".intercalate (values.map fun f => f.1 ++ ": " ++ f.2) ++ " \x7d"

def list (items : List String) : String := "[" ++ ", ".intercalate items ++ "]"

def optional : Option String → String
  | some value => "Some(" ++ value ++ ")"
  | none => "None"

end Description

open Description

def Settings.describe (s : Settings) : String :=
  fields "DiagnosticsConfig" [("error_file", optional (s.errorFile.map Text.quote)),
    ("region_key", Text.quote s.regionKey), ("scope", Text.quote s.scope),
    ("icon", optional (s.icon.map Text.quote)), ("popup_max_width", toString s.popupMaxWidth)]

def Span.describe (s : Span) : String :=
  fields "ResolvedSpan" [("start", toString s.start), ("end", toString s.stop)]

def Index.describe (x : Index) : String :=
  fields "DiagnosticIndex" [("spans", list (x.spans.map Span.describe)),
    ("messages", list (x.messages.map Text.quote))]

def Session.describe (s : Session) : String :=
  fields "DiagnosticSession" [("config", s.settings.describe), ("index", s.index.describe),
    ("sequence", toString s.sequence), ("current_message", optional (s.message.map Text.quote)),
    ("callbacks", toString s.subscribers)]

def Selection.describe (s : Selection) : String :=
  fields "SelectionRange" [("start", toString s.start), ("end", toString s.stop)]

def Buffer.describe (b : Buffer) : String :=
  fields "MemoryBuffer" [("text", Text.quote b.text), ("selection", b.selection.describe),
    ("listeners", toString b.listeners.length), ("text_listeners", toString b.textListeners.length)]

end CursorDiagnostics
