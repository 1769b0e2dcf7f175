/-
  CursorDiagnostics.Host — a host: a session that it shares, a buffer, and those who hear of both.

  Whatever the host does is a `Step`, and `step` is total. The session stands behind a lock. In a direct call
  the host holds the lock, and what the session raises reaches the subscribers then and there: each event
  reaches every one of them, in order, before the next event does. Who looks at the session meanwhile
  sees nothing, for the lock is taken.

  A step of the buffer is told to its listeners in order. A session that listens takes the lock and does its
  update with its events held back. They are delivered when the lock is free again, so a subscriber can
  look at the session then and sees the update completed. What was held back before stays so.

  The lock is poisoned when somebody fails while holding it. The host goes on regardless; a session
  that listens to the buffer then only logs that it ignores the news.
-/

import CursorDiagnostics.Description

namespace CursorDiagnostics

/-- What a subscriber sees of the session. -/
structure Glimpse where
  length : Nat
  message : Option String
  deriving DecidableEq, Repr

def Session.glimpse (s : Session) : Glimpse := ⟨s.index.length, s.message⟩

/-- Something that a subscriber or a listener is told. -/
inductive Notice where
  | event (subscriber : Nat) (event : Event) (seen : Option Glimpse)
  | selected (listener : Nat) (selection : Selection)
  | edited (listener : Nat)
  deriving DecidableEq, Repr

structure Host where
  session : Session
  buffer : Buffer
  /-- The tickets of the session, in the order in which they were handed out. -/
  tickets : List Ticket := []
  /-- How many have come to listen to the buffer beside the session. -/
  others : Nat := 0
  poisoned : Bool := false
  /-- The lock of the session is taken. -/
  locked : Bool := false
  /-- The events held back, if events are. -/
  held : Option (List Event) := none
  deriving DecidableEq, Repr

inductive Step where
  | subscribe
  | attach
  /-- Somebody begins to listen to the buffer. -/
  | listen (topics : List Topic := [.selection, .text])
  | startBuild
  | openLoad
  /-- Ends the load with the ticket of this number; without a text, the buffer's is meant. -/
  | closeLoad (ticket : Nat) (records : Except Failure (List Record)) (text : Option String)
  | load (file : Log.File) (text : Option String)
  /-- Loads for the buffer, and observes what is selected there. -/
  | loadHere (file : Log.File)
  | observe (selection : Selection)
  | invalidate
  | select (selection : Selection)
  /-- Edits the buffer, whether or not its text becomes another; without a text it keeps its own. -/
  | setText (text : Option String)
  | messagesAt (offsets : List Nat)
  | messageFor (selection : Selection)
  | showRegions
  | showStatus
  | showPopup (selection : Selection)
  | settings
  | describe
  | poison

inductive Answer where
  | nothing
  | number (n : Nat)
  | ticket (number sequence : Nat)
  | outcome (result : Except Failure Outcome)
  | message (message : Option String)
  | messages (messages : List (Option String))
  | requests (requests : List Request)
  | settings (settings : Settings) (style : Style)
  | description (session buffer : String)
  | poisoned

/-- What a step leaves behind. -/
structure Reply where
  host : Host
  answer : Answer := .nothing
  notices : List Notice := []
  journal : Journal := []

namespace Host

/-- What a subscriber sees if it looks at the session now. -/
def seen (h : Host) : Option Glimpse := if h.locked then none else some h.session.glimpse

/-- Events as the subscribers hear them. -/
def deliver (subscribers : Nat) (seen : Option Glimpse) (events : List Event) : List Notice :=
  events.flatMap fun e => (List.range subscribers).map fun i => .event i e seen

end Host

/-! ## Calls on the session -/

namespace Reply

def dispatch (r : Reply) (events : List Event) : Reply :=
  { r with notices := r.notices ++ Host.deliver r.host.session.subscribers r.host.seen events }

/-- The session takes a turn. The events join those held back, or are dispatched if none are. -/
def perform {α : Type} (r : Reply) (t : Turn α) : Reply :=
  let h := { r.host with session := t.session, held := r.host.held.map (· ++ t.events) }
  { r with
    host := h
    notices := r.notices ++ if h.held.isNone then Host.deliver t.session.subscribers h.seen t.events else []
    journal := r.journal ++ t.journal }

/-- The session takes a turn with its events held back; they are handed over, and what was held before is
    held again. -/
def holding {α : Type} (r : Reply) (t : Turn α) : Reply × List Event :=
  let u := { r with host := { r.host with held := some [] } }.perform t
  ({ u with host := { u.host with held := r.host.held } }, u.host.held.getD [])

/-- A listener has the session take a turn under the lock, and dispatches the events when the lock is free. -/
def forward {α : Type} (r : Reply) (t : Turn α) : Reply :=
  let (u, events) := { r with host := { r.host with locked := true } }.holding t
  { u with host := { u.host with locked := false } }.dispatch events

end Reply

namespace Host

/-- A call on the session by the host itself, which holds the lock meanwhile. -/
def direct {α : Type} (h : Host) (t : Turn α) (answer : α → Answer) : Reply :=
  let r := Reply.perform { host := { h with locked := true } } t
  { r with host := { r.host with locked := false }, answer := answer t.result }

/-! ## News of the buffer -/

/-- The session hears of the buffer. -/
def hear (s : Session) : News → Turn Unit
  | .selected selection => let t := s.observe selection; ⟨t.session, (), t.events, t.journal⟩
  | .edited => s.invalidate

def ignored : Entry := ⟨.warn, Log.target, "diagnostic session lock poisoned, buffer event ignored", []⟩

/-- One listener is told the news, after those before it. -/
def tell (news : News) (r : Reply) : Listener → Reply
  | .session =>
    if r.host.poisoned then { r with journal := r.journal ++ [ignored] } else r.forward (hear r.host.session news)
  | .other id =>
    match news with
    | .selected selection => { r with notices := r.notices ++ [.selected id selection] }
    | .edited => { r with notices := r.notices ++ [.edited id] }

/-- The buffer is as it is after the news, and whoever listens for such news is told. -/
def spread (h : Host) (change : Buffer × News) : Reply :=
  (change.1.audience change.2.topic).foldl (tell change.2) { host := { h with buffer := change.1 } }

/-! ## Steps -/

def look (h : Host) (selection : Selection) : Option String :=
  h.session.index.messageFor selection.start selection.stop

def step (h : Host) : Step → Reply
  | .subscribe => h.direct h.session.subscribe .number
  | .attach => { host := { h with buffer := h.buffer.attach } }
  | .listen topics =>
    { host := { h with buffer := h.buffer.listen (.other h.others) topics, others := h.others + 1 }
      answer := .number h.others }
  | .startBuild => h.direct h.session.startBuild fun _ => .nothing
  | .openLoad =>
    let t := h.session.openLoad
    { h with tickets := h.tickets ++ [t.result] }.direct t fun k => .ticket h.tickets.length k.sequence
  | .closeLoad ticket records text =>
    match h.tickets[ticket]? with
    | some t => h.direct (h.session.closeLoad t records (text.getD h.buffer.text)) .outcome
    | none => { host := h }
  | .load file text => h.direct (h.session.load file (text.getD h.buffer.text)) .outcome
  | .loadHere file =>
    h.direct (h.session.loadAndObserve file h.buffer.text h.buffer.selection) .outcome
  | .observe selection => h.direct (h.session.observe selection) .message
  | .invalidate => h.direct h.session.invalidate fun _ => .nothing
  | .select selection => h.spread (h.buffer.select selection)
  | .setText text => h.spread (h.buffer.setText (text.getD h.buffer.text))
  | .messagesAt offsets => { host := h, answer := .messages (offsets.map h.session.index.messageAt) }
  | .messageFor selection => { host := h, answer := .message (h.look selection) }
  | .showRegions => { host := h, answer := .requests [h.session.regions] }
  | .showStatus => { host := h, answer := .requests [h.session.status] }
  | .showPopup selection => { host := h, answer := .requests [h.session.popup selection] }
  | .settings => { host := h, answer := .settings h.session.settings h.session.style }
  | .describe => { host := h, answer := .description h.session.describe h.buffer.describe }
  | .poison => { host := { h with poisoned := true }, answer := .poisoned }

def start (settings : Settings) (text : String) : Host := { session := { settings }, buffer := { text } }

/-- The replies to a run of steps. -/
def run : Host → List Step → List Reply
  | _, [] => []
  | h, s :: steps => h.step s :: run (h.step s).host steps

end Host

end CursorDiagnostics
