/-
  CursorDiagnostics.Proofs.Host.Attachment — a host beside one whose buffer does not have the session attached.

  What the host does itself does not depend on who listens to the buffer (`mirrors_step`): from two hosts
  that differ only there (`Apart`) it leads to two such hosts, with the same notices and the same journal. The
  answers are the same too, but for how many listeners a description counts (`Answer.Alike`).
  News of a buffer goes to the session and to the other listeners, and neither hears it through the other. The
  others are called in order, whatever becomes of the session (`calls_step`). A session that does not hear the
  news because of its lock says so once for each time it is attached, and nothing else happens
  (`spread_of_deaf`).
-/

import CursorDiagnostics.Proofs.Host.Stream

namespace CursorDiagnostics

namespace Buffer

def detached (b : Buffer) : Buffer :=
  { b with listeners := b.listeners.filter (· != .session), textListeners := b.textListeners.filter (· != .session) }

def attachments (b : Buffer) (topic : Topic) : Nat := (b.audience topic).count .session

theorem audience_detached (b : Buffer) (topic : Topic) :
    b.detached.audience topic = (b.audience topic).filter (· != .session) := by
  cases topic <;> rfl

theorem attachments_detached (b : Buffer) (topic : Topic) : b.detached.attachments topic = 0 := by
  simp [attachments, audience_detached, List.count_eq_zero]

theorem detached_attach (b : Buffer) : b.attach.detached = b.detached := by
  simp [attach, listen, register, detached]

theorem detached_listen_other (b : Buffer) (id : Nat) (topics : List Topic) :
    (b.listen (.other id) topics).detached = b.detached.listen (.other id) topics := by
  induction topics generalizing b with
  | nil => rfl
  | cons t ts ih =>
    have hr : (b.register (.other id) t).detached = b.detached.register (.other id) t := by
      cases t <;> simp [register, detached]
    show ((b.register (.other id) t).listen (.other id) ts).detached = _
    rw [ih, hr]
    rfl

end Buffer

/-- The same answer, but that a description counts no attachment of the session in the second. -/
inductive Answer.Alike : Answer → Answer → Prop
  | same (a : Answer) : Alike a a
  | described (session : String) (b : Buffer) :
      Alike (.description session b.describe) (.description session b.detached.describe)

namespace Host

/-- The buffer of `h'` does not have the session attached; otherwise the hosts differ at most in whether the lock
    is poisoned. -/
structure Apart (h h' : Host) : Prop where
  session : h'.session = h.session
  buffer : h'.buffer = h.buffer.detached
  tickets : h'.tickets = h.tickets
  others : h'.others = h.others
  locked : h'.locked = h.locked
  held : h'.held = h.held

/-- The two replies leave hosts apart, give the same answer, but for the count of listeners, and tell everybody the
    same. -/
structure Mirrors (r r' : Reply) : Prop where
  host : r.host.Apart r'.host
  answer : r.answer.Alike r'.answer
  notices : r'.notices = r.notices

theorem Apart.deaf {h h' : Host} (ha : h.Apart h') (topic : Topic) : ¬ h'.Hears topic := by
  intro hh
  have hm : Listener.session ∈ h.buffer.detached.audience topic := ha.buffer ▸ hh.1
  simp [Buffer.audience_detached] at hm

theorem Apart.idle {h h' : Host} (ha : h.Apart h') (hi : h.Idle) : h'.Idle :=
  ⟨ha.locked.trans hi.locked, ha.held.trans hi.held⟩

end Host

def Step.isNews : Step → Bool
  | .select _ | .setText _ => true
  | _ => false

def Step.attaches : Step → Bool
  | .attach => true
  | _ => false

namespace Buffer

/-- The buffer after a step that changes its selection or its text, and what it tells its listeners then. -/
def changedBy (b : Buffer) : Step → Option (Buffer × News)
  | .select selection => some (b.select selection)
  | .setText text => some (b.setText (text.getD b.text))
  | _ => none

variable {b : Buffer} {s : Step} {change : Buffer × News}

theorem exists_changedBy (b : Buffer) (hn : s.isNews = true) : ∃ change, b.changedBy s = some change := by
  cases s with
  | select | setText => exact ⟨_, rfl⟩
  | _ => cases hn

/-- The news comes to those who listened for such news before. -/
theorem audience_of_changedBy (hc : b.changedBy s = some change) :
    change.1.audience change.2.topic = b.audience change.2.topic := by
  cases s with
  | select | setText => cases hc; rfl
  | _ => cases hc

/-- The same news come from the buffer without the session among its listeners. -/
theorem changedBy_detached (hc : b.changedBy s = some change) :
    b.detached.changedBy s = some (change.1.detached, change.2) := by
  cases s with
  | select | setText => cases hc; rfl
  | _ => cases hc

end Buffer

namespace Host

variable {h h' : Host}

theorem step_of_changedBy {s : Step} {change : Buffer × News} (hc : h.buffer.changedBy s = some change) :
    h.step s = h.spread change := by
  cases s with
  | select | setText => cases hc; rfl
  | _ => cases hc

theorem Apart.changedBy (ha : h.Apart h') {s : Step} {change : Buffer × News}
    (hc : h.buffer.changedBy s = some change) :
    h'.buffer.changedBy s = some (change.1.detached, change.2) := by
  rw [ha.buffer]
  exact Buffer.changedBy_detached hc

/-- What the host does itself does not depend on the attachments. -/
theorem mirrors_step (ha : h.Apart h') {s : Step} (hn : s.isNews = false) (hs : s.attaches = false) :
    Mirrors (h.step s) (h'.step s) ∧ (h'.step s).journal = (h.step s).journal := by
  obtain ⟨session, buffer, tickets, others, poisoned, locked, held⟩ := h'
  obtain ⟨hsession, hbuffer, htickets, hothers, hlocked, hheld⟩ := ha
  dsimp only at hsession hbuffer htickets hothers hlocked hheld
  subst hsession hbuffer htickets hothers hlocked hheld
  cases s with
  | attach => cases hs
  | select | setText => cases hn
  | listen topics => exact ⟨⟨⟨rfl, (h.buffer.detached_listen_other _ _).symm, rfl, rfl, rfl, rfl⟩, .same _, rfl⟩, rfl⟩
  | closeLoad ticket records text =>
    simp only [step]
    cases h.tickets[ticket]? with
    | none => exact ⟨⟨⟨rfl, rfl, rfl, rfl, rfl, rfl⟩, .same _, rfl⟩, rfl⟩
    | some t => exact ⟨⟨⟨rfl, rfl, rfl, rfl, rfl, rfl⟩, .same _, rfl⟩, rfl⟩
  | describe => exact ⟨⟨⟨rfl, rfl, rfl, rfl, rfl, rfl⟩, .described _ _, rfl⟩, rfl⟩
  | _ => exact ⟨⟨⟨rfl, rfl, rfl, rfl, rfl, rfl⟩, .same _, rfl⟩, rfl⟩

theorem apart_attach (ha : h.Apart h') : (h.step .attach).host.Apart h' :=
  { ha with buffer := ha.buffer.trans h.buffer.detached_attach.symm }

/-! ## Those who listen beside the session -/

end Host

def Listener.told (news : News) : Listener → Option Notice
  | .session => none
  | .other id =>
    match news with
    | .selected selection => some (.selected id selection)
    | .edited => some (.edited id)

def calls (notices : List Notice) : List Notice := notices.filter (·.delivery.isNone)

@[simp] theorem calls_append (ns ms : List Notice) : calls (ns ++ ms) = calls ns ++ calls ms := List.filter_append _ _

def Buffer.calls (b : Buffer) (news : News) : List Notice :=
  (b.audience news.topic).filterMap (Listener.told news)

theorem Buffer.calls_detached (b : Buffer) (news : News) : b.detached.calls news = b.calls news := by
  unfold calls
  rw [audience_detached, List.filterMap_filter]
  congr 1
  funext l
  cases l with
  | session => rfl
  | other id => simp

theorem calls_deliver (n : Nat) (seen : Option Glimpse) (es : List Event) : calls (Host.deliver n seen es) = [] := by
  unfold calls Host.deliver
  rw [List.filter_eq_nil_iff]
  intro x hx
  obtain ⟨e, -, hx⟩ := List.mem_flatMap.mp hx
  obtain ⟨i, -, rfl⟩ := List.mem_map.mp hx
  simp [Notice.delivery]

theorem calls_told (news : News) (ls : List Listener) :
    calls (ls.filterMap (Listener.told news)) = ls.filterMap (Listener.told news) := by
  unfold calls
  rw [List.filter_eq_self]
  intro x hx
  obtain ⟨l, -, hl⟩ := List.mem_filterMap.mp hx
  cases l with
  | session => cases hl
  | other id => cases news <;> cases hl <;> rfl

theorem deliveries_told (news : News) (ls : List Listener) : deliveries (ls.filterMap (Listener.told news)) = [] := by
  unfold deliveries
  rw [List.filterMap_eq_nil_iff]
  intro x hx
  obtain ⟨l, -, hl⟩ := List.mem_filterMap.mp hx
  cases l with
  | session => cases hl
  | other id => cases news <;> cases hl <;> rfl

namespace Host

theorem calls_foldl_tell (news : News) (ls : List Listener) (r : Reply) :
    calls (ls.foldl (tell news) r).notices = calls r.notices ++ ls.filterMap (Listener.told news) := by
  induction ls generalizing r with
  | nil => simp
  | cons l ls ih =>
    rw [List.foldl_cons, ih]
    cases l with
    | session =>
      rw [List.filterMap_cons_none rfl]
      simp only [tell]
      split
      · rfl
      · simp [Reply.forward_eq, calls_deliver]
    | other id => cases news <;> simp [tell, calls, Notice.delivery, Listener.told]

theorem calls_spread (h : Host) {change : Buffer × News}
    (hl : change.1.audience change.2.topic = h.buffer.audience change.2.topic) :
    calls (h.spread change).notices = h.buffer.calls change.2 := by
  unfold spread Buffer.calls
  rw [calls_foldl_tell, hl]
  rfl

/-! ## A session that does not hear -/

theorem foldl_tell_of_deaf (news : News) (ls : List Listener) (r : Reply)
    (deaf : .session ∈ ls → r.host.poisoned = true) :
    ls.foldl (tell news) r =
      { r with
        notices := r.notices ++ ls.filterMap (Listener.told news)
        journal := r.journal ++ List.replicate (ls.count .session) ignored } := by
  induction ls generalizing r with
  | nil => simp
  | cons l ls ih =>
    rw [List.foldl_cons]
    cases l with
    | session =>
      have hp := deaf List.mem_cons_self
      have ht : tell news r .session = { r with journal := r.journal ++ [ignored] } := if_pos hp
      have hr := ih { r with journal := r.journal ++ [ignored] } fun _ => hp
      rw [ht, hr, List.filterMap_cons_none rfl, List.count_cons_self, List.replicate_succ]
      simp
    | other id =>
      have hn : ∀ m, Listener.told news (.other id) = some m →
          tell news r (.other id) = { r with notices := r.notices ++ [m] } := fun m hm => by
        cases news <;> cases hm <;> rfl
      obtain ⟨m, hm⟩ : ∃ m, Listener.told news (.other id) = some m := by cases news <;> exact ⟨_, rfl⟩
      have hr := ih { r with notices := r.notices ++ [m] } fun hl => deaf (List.mem_cons_of_mem _ hl)
      rw [hn m hm, hr, List.filterMap_cons_some hm, List.count_cons_of_ne (by simp)]
      simp

/-- A session that does not hear the buffer is left alone; if it is attached, the journal says each time that it
    ignores the news. -/
theorem spread_of_deaf {h : Host} {change : Buffer × News} (deaf : ¬ h.Hears change.2.topic)
    (hl : change.1.audience change.2.topic = h.buffer.audience change.2.topic) :
    h.spread change =
      { host := { h with buffer := change.1 }
        notices := h.buffer.calls change.2
        journal := List.replicate (h.buffer.attachments change.2.topic) ignored } := by
  unfold spread
  rw [foldl_tell_of_deaf, hl]
  · rfl
  · intro hm
    rw [hl] at hm
    by_contra hp
    exact deaf ⟨hm, Bool.eq_false_iff.mpr hp⟩

/-! ## The buffer after a step -/

end Host

/-- The buffer after a step of its host, to whom so many others have come before. -/
def Buffer.afterStep (b : Buffer) (others : Nat) : Step → Buffer
  | .attach => b.attach
  | .listen topics => b.listen (.other others) topics
  | .select selection => (b.select selection).1
  | .setText text => (b.setText (text.getD b.text)).1
  | _ => b

def Buffer.callsIn (b : Buffer) : Step → List Notice
  | .select selection => b.calls (.selected selection)
  | .setText _ => b.calls .edited
  | _ => []

namespace Host

theorem buffer_step (h : Host) (s : Step) : (h.step s).host.buffer = h.buffer.afterStep h.others s := by
  cases s with
  | select selection => rw [step_select_host]; rfl
  | setText text => rw [step_setText_host]; rfl
  | closeLoad ticket records text => simp only [step]; split <;> rfl
  | _ => rfl

theorem others_step (h : Host) (s : Step) :
    (h.step s).host.others = match s with | .listen _ => h.others + 1 | _ => h.others := by
  cases s with
  | select selection => rw [step_select_host]
  | setText text => rw [step_setText_host]
  | closeLoad ticket records text => simp only [step]; split <;> rfl
  | _ => rfl

theorem calls_direct {α : Type} (h : Host) (t : Turn α) (answer : α → Answer) :
    calls (h.direct t answer).notices = [] := by
  simp only [direct, Reply.perform]
  split
  · exact calls_deliver _ _ _
  · rfl

theorem calls_step (h : Host) (s : Step) : calls (h.step s).notices = h.buffer.callsIn s := by
  cases s with
  | select selection => exact h.calls_spread rfl
  | setText text => exact h.calls_spread rfl
  | closeLoad ticket records text =>
    simp only [step]
    split
    · exact calls_direct _ _ _
    · rfl
  | subscribe | startBuild | openLoad | load | loadHere | observe | invalidate => exact calls_direct _ _ _
  | _ => rfl

theorem others_after {h h' : Host} (ho : h.others = h'.others) (steps : List Step) :
    (h.after steps).others = (h'.after steps).others := by
  induction steps generalizing h h' with
  | nil => exact ho
  | cons s steps ih =>
    refine ih ?_
    rw [others_step, others_step, ho]

/-- Two hosts with one buffer have one buffer after the same steps, whatever becomes of their sessions. -/
theorem buffer_after {h h' : Host} (hb : h.buffer = h'.buffer) (ho : h.others = h'.others) (steps : List Step) :
    (h.after steps).buffer = (h'.after steps).buffer := by
  induction steps generalizing h h' with
  | nil => exact hb
  | cons s steps ih =>
    refine ih ?_ ?_
    · rw [buffer_step, buffer_step, hb, ho]
    · rw [others_step, others_step, ho]

end Host

end CursorDiagnostics
