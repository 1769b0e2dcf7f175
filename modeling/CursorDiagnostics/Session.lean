/-
  CursorDiagnostics.Session — the diagnostics of one document through builds, edits and caret moves.

  A build start clears the index and takes a new sequence number; so does the begin of a load, which
  hands the number out as a ticket. A load is completed with its ticket. If the number is no longer
  the newest the load is superseded and leaves no trace but in the journal. Otherwise it replaces the
  index as a whole, or fails and keeps everything. An edit drops the diagnostics: their offsets are
  of the text before.

  The session remembers the message under the selection it was last told. Whatever changes what a
  subscriber can see raises an event, and every event carries the sequence number of its moment; a
  replaced, cleared or invalidated index resets the message without an event of its own.

  An operation is a function from the session to a `Turn`: the session after it, its result, the
  events it raises and what it logs, each in order.
-/

import CursorDiagnostics.Index
import CursorDiagnostics.Log.File
import CursorDiagnostics.Presentation
import CursorDiagnostics.Selection

namespace CursorDiagnostics

/-- A load that has begun, by its sequence number. -/
structure Ticket where
  sequence : Nat
  deriving DecidableEq, Repr

inductive Outcome where
  | applied (count : Nat)
  | superseded
  deriving DecidableEq, Repr

inductive Change where
  | cleared
  | invalidated
  | replaced (count : Nat)
  | loadFailed (reason : String)
  | messageChanged (message : Option String)
  deriving DecidableEq, Repr

structure Event where
  change : Change
  sequence : Nat
  deriving DecidableEq, Repr

structure Session where
  settings : Settings
  index : Index := .empty
  sequence : Nat := 0
  /-- The message under the selection that was reported last. -/
  message : Option String := none
  /-- How many subscribers hear the events. -/
  subscribers : Nat := 0
  deriving DecidableEq, Repr

/-- What an operation leaves behind. -/
structure Turn (α : Type) where
  session : Session
  result : α
  events : List Event := []
  journal : Journal := []

/-- Goes on with a second operation. -/
def Turn.andThen {α β : Type} (t : Turn α) (f : Session → α → Turn β) : Turn β :=
  let u := f t.session t.result
  ⟨u.session, u.result, t.events ++ u.events, t.journal ++ u.journal⟩

namespace Session

def style (s : Session) : Style := .ofSettings s.settings

def event (s : Session) (change : Change) : Event := ⟨change, s.sequence⟩

def subscribe (s : Session) : Turn Nat := ⟨{ s with subscribers := s.subscribers + 1 }, s.subscribers, [], []⟩

/-! ## Builds and loads -/

def startBuild (s : Session) : Turn Unit :=
  let s := { s with sequence := s.sequence + 1, index := .empty, message := none }
  { session := s, result := ()
    events := [s.event .cleared]
    journal := [⟨.debug, Log.target, "build started, diagnostics cleared",
      [("sequence", toString s.sequence)]⟩] }

def openLoad (s : Session) : Turn Ticket :=
  ⟨{ s with sequence := s.sequence + 1 }, ⟨s.sequence + 1⟩, [], []⟩

def dropLoad (s : Session) (t : Ticket) : Turn (Except Failure Outcome) :=
  { session := s, result := .ok .superseded
    journal := [⟨.debug, Log.target, "dropping superseded diagnostics load",
      [("ticket", toString t.sequence), ("latest", toString s.sequence)]⟩] }

def applyLoad (s : Session) (index : Index) : Turn (Except Failure Outcome) :=
  { session := { s with index, message := none }, result := .ok (.applied index.length)
    events := [s.event (.replaced index.length)]
    journal := [⟨.info, Log.target, "loaded diagnostics", [("count", toString index.length)]⟩] }

def failLoad (s : Session) (e : Failure) : Turn (Except Failure Outcome) :=
  { session := s, result := .error e
    events := [s.event (.loadFailed e.message)]
    journal := [⟨.error, Log.target, "failed to load diagnostics, keeping previous set",
      [("error", e.message), ("kept", toString s.index.length)]⟩] }

/-- Ends the load `t` with the records read, or with the failure to read them, for a document with
    this text. -/
def closeLoad (s : Session) (t : Ticket) (records : Except Failure (List Record)) (text : String) :
    Turn (Except Failure Outcome) :=
  if t.sequence ≠ s.sequence then s.dropLoad t
  else
    match records.bind (Index.ofRecords (.ofText text)) with
    | .ok index => s.applyLoad index
    | .error e => s.failLoad e

/-- Loads a log from its file at once. -/
def load (s : Session) (file : Log.File) (text : String) : Turn (Except Failure Outcome) :=
  s.openLoad.andThen fun s t =>
    let u := s.closeLoad t file.records text
    { u with journal := file.journal ++ u.journal }

/-! ## Selections and edits -/

/-- Tells the session what is selected; the result is the message there. -/
def observe (s : Session) (selection : Selection) : Turn (Option String) :=
  let message := s.index.messageFor selection.start selection.stop
  if message = s.message then ⟨s, message, [], []⟩
  else ⟨{ s with message }, message, [s.event (.messageChanged message)], []⟩

/-- Tells the session that the text is another one. -/
def invalidate (s : Session) : Turn Unit :=
  if s.index.isEmpty ∧ s.message = none then ⟨s, (), [], []⟩
  else
    { session := { s with index := .empty, message := none }, result := ()
      events := [s.event .invalidated]
      journal := [⟨.debug, Log.target, "text changed, diagnostics cleared",
        [("sequence", toString s.sequence)]⟩] }

/-- Loads a log for a buffer, and looks again at what is selected there if the load succeeded. -/
def loadAndObserve (s : Session) (file : Log.File) (text : String) (selection : Selection) :
    Turn (Except Failure Outcome) :=
  (s.load file text).andThen fun s r =>
    match r with
    | .ok outcome =>
      let u := s.observe selection
      ⟨u.session, .ok outcome, u.events, u.journal⟩
    | .error e => ⟨s, .error e, [], []⟩

/-! ## What to show -/

def regions (s : Session) : Request :=
  if s.index.isEmpty then .eraseRegions s.settings.regionKey
  else .drawRegions s.settings.regionKey s.index.spans s.style

def status (s : Session) : Request := .status (.ofMessage s.settings.regionKey s.message)

def popup (s : Session) (selection : Selection) : Request :=
  .popup (.ofMessage (s.index.messageFor selection.start selection.stop) s.settings.popupMaxWidth)

end Session

end CursorDiagnostics
