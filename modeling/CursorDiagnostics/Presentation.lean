/-
  CursorDiagnostics.Presentation — what an editor is asked to show.

  Diagnostics are underlined regions under a key, the message under the caret is a status under the
  same key or a popup. An empty message is shown like none: the status goes, the popup hides.
-/

import CursorDiagnostics.Settings
import CursorDiagnostics.Span

namespace CursorDiagnostics

inductive Underline where
  | solid
  | squiggly
  | stippled
  deriving DecidableEq, Repr

/-- How a region looks. -/
structure Style where
  scope : String
  icon : Option String
  fill : Bool
  outline : Bool
  underline : Option Underline
  deriving DecidableEq, Repr

namespace Style

/-- A squiggly line, neither filled nor outlined. -/
def squiggly (scope : String) (icon : Option String) : Style := ⟨scope, icon, false, false, some .squiggly⟩

def ofSettings (s : Settings) : Style := squiggly s.scope s.icon

end Style

inductive Status where
  | set (key message : String)
  | erase (key : String)
  deriving DecidableEq, Repr

inductive Popup where
  | visible (message : String) (maxWidth : Nat)
  | hidden
  deriving DecidableEq, Repr

/-- The message to show, if there is one that is not empty. -/
def shown (message : Option String) : Option String := message.filter fun m => !m.isEmpty

def Status.ofMessage (key : String) (message : Option String) : Status :=
  match shown message with
  | some m => .set key m
  | none => .erase key

def Popup.ofMessage (message : Option String) (maxWidth : Nat) : Popup :=
  match shown message with
  | some m => .visible m maxWidth
  | none => .hidden

/-- One request to an editor. -/
inductive Request where
  | drawRegions (key : String) (spans : List Span) (style : Style)
  | eraseRegions (key : String)
  | status (update : Status)
  | popup (request : Popup)
  deriving DecidableEq, Repr

end CursorDiagnostics
