/-
  CursorDiagnostics.Proofs.Host.Moves — what a step does to its session, one operation after another.

  A step changes its session by the operations of sessions and by nothing else (`step_moves`), and the
  events that it raises are theirs, in order. What every operation keeps is therefore kept by every run
  (`run_moves`); the number of listeners and whatever else the host holds do not matter.
-/

import CursorDiagnostics.Proofs.Host.Runs

namespace CursorDiagnostics

namespace Session

/-- From one session to another by the operations of sessions, with the events raised on the way. A selection
    with the message that is there already, and an edit with nothing to drop, are no operation at all. -/
inductive Moves : Session → List Event → Session → Prop
  | stay (s : Session) : Moves s [] s
  | subscribe (s : Session) : Moves s s.subscribe.events s.subscribe.session
  | startBuild (s : Session) : Moves s s.startBuild.events s.startBuild.session
  | openLoad (s : Session) : Moves s s.openLoad.events s.openLoad.session
  | applyLoad (s : Session) {x : Index} {d : Document} {records : List Record} (holds : x.Holds d records) :
      Moves s (s.applyLoad x).events (s.applyLoad x).session
  | failLoad (s : Session) (e : Failure) : Moves s (s.failLoad e).events (s.failLoad e).session
  | observe (s : Session) (selection : Selection)
      (other : s.index.messageFor selection.start selection.stop ≠ s.message) :
      Moves s [s.event (.messageChanged (s.index.messageFor selection.start selection.stop))]
        { s with message := s.index.messageFor selection.start selection.stop }
  | invalidate (s : Session) (held : ¬ (s.index.isEmpty ∧ s.message = none)) :
      Moves s [s.event .invalidated] { s with index := .empty, message := none }
  | andThen {s s' s'' : Session} {es fs : List Event} : Moves s es s' → Moves s' fs s'' → Moves s (es ++ fs) s''

theorem observe_moves (s : Session) (selection : Selection) :
    Moves s (s.observe selection).events (s.observe selection).session := by
  simp only [Session.observe]
  split
  · exact .stay s
  · next h => exact .observe s selection h

theorem invalidate_moves (s : Session) : Moves s s.invalidate.events s.invalidate.session := by
  unfold Session.invalidate
  split
  · exact .stay s
  · next h => exact .invalidate s h

theorem closeLoad_moves (s : Session) (t : Ticket) (records : Except Failure (List Record)) (text : String) :
    Moves s (s.closeLoad t records text).events (s.closeLoad t records text).session := by
  rcases closeLoad_cases s t records text with ⟨-, h⟩ | ⟨-, rs, x, -, hx, h⟩ | ⟨-, e, -, h⟩ <;> rw [h]
  · exact .stay s
  · exact .applyLoad s hx
  · exact .failLoad s e

/-- A load takes a number first, and all else comes after that. -/
theorem load_moves (s : Session) (file : Log.File) (text : String) :
    Moves s.openLoad.session (s.load file text).events (s.load file text).session :=
  closeLoad_moves s.openLoad.session s.openLoad.result file.records text

theorem loadAndObserve_moves (s : Session) (file : Log.File) (text : String) (selection : Selection) :
    Moves s.openLoad.session (s.loadAndObserve file text selection).events
      (s.loadAndObserve file text selection).session := by
  have hl := load_moves s file text
  unfold loadAndObserve Turn.andThen
  cases (s.load file text).result with
  | ok o => exact hl.andThen (observe_moves _ selection)
  | error e => exact hl.andThen (.stay _)

end Session

namespace Host

theorem hear_moves (s : Session) (news : News) : s.Moves (hear s news).events (hear s news).session := by
  cases news with
  | selected selection => exact s.observe_moves selection
  | edited => exact s.invalidate_moves

/-- The events that the session raises in a step; what several listeners are told, it hears once. -/
def raised (h : Host) : Step → List Event
  | .startBuild => h.session.startBuild.events
  | .closeLoad ticket records text =>
    match h.tickets[ticket]? with
    | some t => (h.session.closeLoad t records (text.getD h.buffer.text)).events
    | none => []
  | .load file text => (h.session.load file (text.getD h.buffer.text)).events
  | .loadHere file => (h.session.loadAndObserve file h.buffer.text h.buffer.selection).events
  | .observe selection => (h.session.observe selection).events
  | .invalidate => h.session.invalidate.events
  | .select selection => if h.Hears .selection then (hear h.session (.selected selection)).events else []
  | .setText _ => if h.Hears .text then (hear h.session .edited).events else []
  | _ => []

theorem raised_closeLoad {h : Host} {k : Nat} {t : Ticket} (ht : h.tickets[k]? = some t)
    (records : Except Failure (List Record)) (text : Option String) :
    h.raised (.closeLoad k records text) = (h.session.closeLoad t records (text.getD h.buffer.text)).events := by
  simp only [raised, ht]

theorem step_moves (h : Host) (s : Step) : h.session.Moves (h.raised s) (h.step s).host.session := by
  cases s with
  | subscribe => exact .subscribe _
  | startBuild => exact .startBuild _
  | openLoad => exact .openLoad _
  | closeLoad ticket records text =>
    simp only [raised, step]
    cases h.tickets[ticket]? with
    | some t => exact h.session.closeLoad_moves t _ _
    | none => exact .stay _
  | load file text => exact .andThen (.openLoad _) (h.session.load_moves _ _)
  | loadHere file =>
    have hm := h.session.loadAndObserve_moves file h.buffer.text h.buffer.selection
    exact (Session.Moves.openLoad h.session).andThen hm
  | observe selection => exact h.session.observe_moves selection
  | invalidate => exact h.session.invalidate_moves
  | select selection =>
    rw [step_select_session, raised]
    split
    · exact hear_moves _ (.selected selection)
    · exact .stay _
  | setText text =>
    rw [step_setText_session, raised]
    split
    · exact hear_moves _ .edited
    · exact .stay _
  | _ => exact .stay _

def raisedIn : Host → List Step → List Event
  | _, [] => []
  | h, s :: steps => h.raised s ++ raisedIn (h.step s).host steps

theorem run_moves (h : Host) (steps : List Step) : h.session.Moves (h.raisedIn steps) (h.after steps).session := by
  induction steps generalizing h with
  | nil => exact .stay _
  | cons s steps ih => exact (h.step_moves s).andThen (ih _)

end Host

/-! ## What every operation keeps -/

namespace Session

/-- Without diagnostics there is no message. -/
def Quiet (s : Session) : Prop := s.index.isEmpty = true → s.message = none

variable {s s' : Session} {es : List Event}

theorem messageFor_of_isEmpty {x : Index} (h : x.isEmpty = true) (a b : Nat) : x.messageFor a b = none := by
  simp only [Index.isEmpty, List.isEmpty_iff] at h
  simp [Index.messageFor, Index.place?, h]

theorem Moves.quiet (h : Moves s es s') (hq : s.Quiet) : s'.Quiet := by
  induction h with
  | stay | subscribe | openLoad | failLoad => exact hq
  | startBuild | applyLoad | invalidate => exact fun _ => rfl
  | observe s selection => exact fun he => messageFor_of_isEmpty he _ _
  | andThen _ _ ih ih' => exact ih' (ih hq)

theorem Moves.settings_eq (h : Moves s es s') : s'.settings = s.settings := by
  induction h with
  | andThen _ _ ih ih' => rw [ih', ih]
  | _ => rfl

theorem Moves.subscribers_le (h : Moves s es s') : s.subscribers ≤ s'.subscribers := by
  induction h with
  | subscribe => exact Nat.le_succ _
  | andThen _ _ ih ih' => exact Nat.le_trans ih ih'
  | _ => exact Nat.le_refl _

end Session

theorem Host.quiet_after (settings : Settings) (text : String) (steps : List Step) :
    ((start settings text).after steps).session.Quiet := ((start settings text).run_moves steps).quiet fun _ => rfl

end CursorDiagnostics
