/-
  CursorDiagnostics.Index — the current diagnostics: spans, and the message of each at the same
  place of a second list.

  The first span that covers a selection answers for it, so a record hides the later ones that lie
  inside it. A replacement is taken as a whole or not at all.
-/

import CursorDiagnostics.Document.Coordinates

namespace CursorDiagnostics

structure Index where
  spans : List Span
  messages : List String
  deriving DecidableEq, Repr

namespace Index

def empty : Index := ⟨[], []⟩

def length (x : Index) : Nat := x.spans.length

def isEmpty (x : Index) : Bool := x.spans.isEmpty

/-- The spans with their messages. -/
def entries (x : Index) : List (Span × String) := x.spans.zip x.messages

/-- The diagnostics of `records` in the document `d`, or the first failure among them. -/
def ofRecords (d : Document) (records : List Record) : Except Failure Index := do
  return ⟨← records.mapM d.span, records.map Record.message⟩

/-- Puts the diagnostics of `records` in the place of the current ones, which stay on a failure. -/
def replace (x : Index) (d : Document) (records : List Record) : Except Failure Unit × Index :=
  match ofRecords d records with
  | .ok y => (.ok (), y)
  | .error e => (.error e, x)

/-- The place of the first span that covers a selection. -/
def place? (x : Index) (lo hi : Nat) : Option Nat := x.spans.findIdx? (·.coversRange lo hi)

/-- The message for a selection, given by its two ends in either order. -/
def messageFor (x : Index) (a b : Nat) : Option String :=
  (x.place? (min a b) (max a b)).bind (x.messages[·]?)

/-- The message for a caret. -/
def messageAt (x : Index) (offset : Nat) : Option String := x.messageFor offset offset

end Index

end CursorDiagnostics
