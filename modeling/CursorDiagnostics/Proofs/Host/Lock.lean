/-
  CursorDiagnostics.Proofs.Host.Lock — the two ways to the session, and what they leave of its lock.

  In a direct call the host holds the lock; a listener takes the lock, holds the events back, puts back what was
  held before, gives the lock back and only then delivers (`Reply.forward_eq`). Between steps a host is idle:
  the lock is free and no events are held back (`Host.Idle`). Of an idle host both ways lead to the same host, to
  the same journal and to the same events, and differ in what a subscriber sees when it is told
  (`direct_of_idle`, `forward_of_idle`): it sees the session only while the lock is free (`seen_eq_some_iff`).
-/

import CursorDiagnostics.Host

namespace CursorDiagnostics

/-- A turn that is forwarded has been taken when its events are delivered, and the lock is free then. The events
    held before are not among them, and are still held. -/
theorem Reply.forward_eq {α : Type} (r : Reply) (t : Turn α) :
    r.forward t =
      { r with
        host := { r.host with session := t.session, locked := false }
        notices := r.notices ++ Host.deliver t.session.subscribers (some t.session.glimpse) t.events
        journal := r.journal ++ t.journal } := by
  simp only [forward, holding, perform, dispatch, Option.map_some, Option.isNone_some, Bool.false_eq_true, if_false,
    Option.getD_some, List.nil_append, List.append_nil]
  rfl

namespace Host

theorem deliver_singleton (n : Nat) (seen : Option Glimpse) (e : Event) :
    deliver n seen [e] = (List.range n).map fun i => .event i e seen := List.flatMap_singleton _ _

variable {h : Host}

structure Idle (h : Host) : Prop where
  locked : h.locked = false
  held : h.held = none

instance (h : Host) : Decidable h.Idle :=
  decidable_of_iff (h.locked = false ∧ h.held = none) ⟨fun ⟨hl, hh⟩ => ⟨hl, hh⟩, fun hi => ⟨hi.locked, hi.held⟩⟩

theorem start_idle (settings : Settings) (text : String) : (start settings text).Idle := ⟨rfl, rfl⟩

/-- Whoever sees the session finds the lock free. -/
theorem seen_eq_some_iff {g : Glimpse} : h.seen = some g ↔ h.locked = false ∧ h.session.glimpse = g := by
  unfold seen
  cases h.locked <;> simp

theorem direct_notices {α : Type} (held : h.held = none) (t : Turn α) (answer : α → Answer) :
    (h.direct t answer).notices = deliver t.session.subscribers none t.events := by
  simp only [direct, Reply.perform, held, Option.map_none, Option.isNone_none, if_true, List.nil_append]
  rfl

/-- The host has the session take a turn, and nobody sees the session while it does. -/
theorem direct_of_idle {α : Type} (hi : h.Idle) (t : Turn α) (answer : α → Answer) :
    h.direct t answer =
      { host := { h with session := t.session }
        answer := answer t.result
        notices := deliver t.session.subscribers none t.events
        journal := t.journal } := by
  rw [← direct_notices hi.held t answer]
  simp only [direct, Reply.perform, hi.held, Option.map_none, List.nil_append]
  rw [← hi.locked, ← hi.held]

/-- A listener has the session take the same turn, and whoever is told of it sees the session after it. -/
theorem forward_of_idle {α : Type} (hi : h.Idle) (t : Turn α) :
    Reply.forward { host := h } t =
      { host := { h with session := t.session }
        notices := deliver t.session.subscribers (some t.session.glimpse) t.events
        journal := t.journal } := by
  rw [Reply.forward_eq, ← hi.locked]
  rfl

theorem direct_idle {α : Type} (hi : h.Idle) (t : Turn α) (answer : α → Answer) : (h.direct t answer).host.Idle := by
  rw [direct_of_idle hi]
  exact ⟨hi.locked, hi.held⟩

/-- The begin of a load takes the lock for the count alone, and tells nobody. -/
theorem step_openLoad (hi : h.Idle) :
    h.step .openLoad =
      { host := { h with
          session := h.session.openLoad.session
          tickets := h.tickets ++ [h.session.openLoad.result] }
        answer := .ticket h.tickets.length (h.session.sequence + 1) } := by
  have hi' : Idle { h with tickets := h.tickets ++ [h.session.openLoad.result] } := ⟨hi.locked, hi.held⟩
  exact direct_of_idle hi' h.session.openLoad fun k => .ticket h.tickets.length k.sequence

end Host

end CursorDiagnostics
