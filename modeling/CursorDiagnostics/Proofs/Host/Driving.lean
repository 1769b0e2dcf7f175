/-
  CursorDiagnostics.Proofs.Host.Driving — a session that listens to a buffer is driven as by direct calls.

  The host can tell the session of every selection and edit itself (`Step.directly`), or attach it to the
  buffer and leave that to the listeners. Both drive the session alike, however often it is attached
  (`driven_step`): each step leaves the same session, gives the same answer, logs the same and raises the
  same events, and so does every run (`driven_eq_directly`). They differ in what a subscriber can see: events of a
  buffer are delivered when the lock is free, and find the update completed (`seen_of_spread`).
-/

import CursorDiagnostics.Proofs.Host.Attachment
import CursorDiagnostics.Proofs.Host.Freshness

namespace CursorDiagnostics

def News.call : News → Step
  | .selected selection => .observe selection
  | .edited => .invalidate

/-- The steps of a host that does not attach the session, and tells it of the buffer itself. -/
def Step.directly : Step → List Step
  | .attach => []
  | .select selection => [.select selection, News.call (.selected selection)]
  | .setText text => [.setText text, News.call .edited]
  | s => [s]

theorem Step.directly_eq_self {s : Step} (hn : s.isNews = false) (hs : s.attaches = false) : s.directly = [s] := by
  cases s with
  | attach => cases hs
  | select | setText => cases hn
  | _ => rfl

/-- News of the buffer are called after the step that brings them about. -/
theorem Step.directly_of_changedBy {b : Buffer} {s : Step} {change : Buffer × News} (hc : b.changedBy s = some change) :
    s.directly = [s, change.2.call] := by
  cases s with
  | select | setText => cases hc; rfl
  | _ => cases hc

namespace Host

/-! ## What the session hears -/

/-- The call leads to where the news lead by a listener, but that nobody sees the session when it is told. -/
theorem step_call {h : Host} (hi : h.Idle) (news : News) :
    (h.step news.call).host = (Reply.forward { host := h } (hear h.session news)).host ∧
    (h.step news.call).notices = deliver h.session.subscribers none (hear h.session news).events ∧
    (h.step news.call).journal = (hear h.session news).journal := by
  rw [← hear_subscribers h.session news, forward_of_idle hi]
  cases news <;> simp only [News.call, step, direct_of_idle hi] <;> exact ⟨rfl, rfl, rfl⟩

/-- What an event of the buffer tells is so once the session has heard the news. -/
theorem shown_of_heard {s : Session} {news : News} {e : Event} (he : e ∈ (hear s news).events) :
    (∃ m, e.change = .messageChanged m ∧ (hear s news).session.message = m) ∨
    (e.change = .invalidated ∧ (hear s news).session.index = .empty ∧ (hear s news).session.message = none) := by
  cases news with
  | selected selection =>
    left
    simp only [hear, Session.observe] at he ⊢
    split at he
    · cases he
    · next hm =>
      obtain rfl := List.mem_singleton.mp he
      rw [if_neg hm]
      exact ⟨_, rfl, rfl⟩
  | edited =>
    right
    simp only [hear, Session.invalidate] at he ⊢
    split at he
    · cases he
    · next hm =>
      obtain rfl := List.mem_singleton.mp he
      rw [if_neg hm]
      exact ⟨rfl, rfl, rfl⟩

/-! ## What the listeners do with it -/

theorem foldl_tell_journal (news : News) (ls : List Listener) (r : Reply) (hp : r.host.poisoned = false) :
    (ls.foldl (tell news) r).journal =
      r.journal ++ if .session ∈ ls then (hear r.host.session news).journal else [] := by
  induction ls generalizing r with
  | nil => simp
  | cons l ls ih =>
    have hp' : (tell news r l).host.poisoned = false := by
      rw [tell_host]
      split <;> exact hp
    rw [List.foldl_cons, ih _ hp', tell_host]
    cases l with
    | session => simp [tell, Reply.forward_eq, hp, hear_again]
    | other id => cases news <;> simp [tell]

theorem spread_journal {h : Host} {change : Buffer × News} (hears : h.Hears change.2.topic)
    (hl : change.1.audience change.2.topic = h.buffer.audience change.2.topic) :
    (h.spread change).journal = (hear h.session change.2).journal := by
  unfold spread
  rw [foldl_tell_journal _ _ _ hears.2, hl, if_pos hears.1]
  rfl

/-- The events that come with a glimpse are those of the first telling, and the session is the same from then on. -/
theorem seen_foldl_tell (news : News) (ls : List Listener) (r : Reply) {k : Nat} {e : Event} {seen : Option Glimpse}
    (hm : .event k e seen ∈ (ls.foldl (tell news) r).notices) :
    .event k e seen ∈ r.notices ∨
      e ∈ (hear r.host.session news).events ∧ seen = some (hear r.host.session news).session.glimpse := by
  induction ls generalizing r with
  | nil => exact Or.inl hm
  | cons l ls ih =>
    have hrest := ih _ hm
    cases l with
    | other id => cases news <;> simpa [tell] using hrest
    | session =>
      cases hp : r.host.poisoned with
      | true => simpa [tell, hp] using hrest
      | false =>
        simp only [tell, Reply.forward_eq, hp, hear_again, Bool.false_eq_true, if_false, List.not_mem_nil, false_and,
          or_false, List.mem_append] at hrest
        rcases hrest with hrest | hrest
        · exact Or.inl hrest
        · obtain ⟨e', he', hrest⟩ := List.mem_flatMap.mp hrest
          obtain ⟨i, -, hi⟩ := List.mem_map.mp hrest
          cases hi
          exact Or.inr ⟨he', rfl⟩

/-- A subscriber that is told of the news of a buffer finds the lock free and the update completed. -/
theorem seen_of_spread {h : Host} {change : Buffer × News} (hears : h.Hears change.2.topic)
    (hl : change.1.audience change.2.topic = h.buffer.audience change.2.topic) {k : Nat} {e : Event}
    {seen : Option Glimpse} (hm : .event k e seen ∈ (h.spread change).notices) :
    e ∈ (hear h.session change.2).events ∧ seen = some (h.spread change).host.session.glimpse := by
  rw [spread_host h hl, if_pos hears]
  rcases seen_foldl_tell _ _ _ hm with hm | hm
  · cases hm
  · exact hm

/-! ## Steps -/

/-- The run of `steps` from `h'` comes to the same as the reply: the hosts after it are apart, the first of the
    steps gives the same answer, and all of them log the same, raise the same events and call the same listeners. -/
structure Driven (h' : Host) (steps : List Step) (r : Reply) : Prop where
  host : r.host.Apart (h'.after steps)
  answer : ∀ r' ∈ (h'.run steps).head?, r.answer.Alike r'.answer
  journal : (h'.run steps).flatMap Reply.journal = r.journal
  events : deliveries ((h'.run steps).flatMap Reply.notices) = deliveries r.notices
  calls : calls ((h'.run steps).flatMap Reply.notices) = calls r.notices

variable {h h' : Host}

theorem driven_of_mirrors {s : Step} {r : Reply} (hm : Mirrors r (h'.step s)) (hj : (h'.step s).journal = r.journal) :
    Driven h' [s] r := by
  have hn : [h'.step s].flatMap Reply.notices = r.notices := by simp [hm.notices]
  refine ⟨hm.host, fun r' hr' => ?_, by simp [run, hj], congrArg deliveries hn, congrArg CursorDiagnostics.calls hn⟩
  obtain rfl := Option.mem_some_iff.mp hr'
  exact hm.answer

structure Attached (h : Host) : Prop where
  idle : h.Idle
  hears : ∀ topic, h.Hears topic

theorem Attached.step (ha : h.Attached) {s : Step} (hs : s ≠ .poison) : (h.step s).host.Attached :=
  ⟨step_idle ha.idle s, fun topic => hears_step hs (ha.hears topic)⟩

theorem Attached.after (ha : h.Attached) {steps : List Step} (unpoisoned : .poison ∉ steps) :
    (h.after steps).Attached :=
  ⟨after_idle ha.idle steps, fun topic => hears_after unpoisoned (ha.hears topic)⟩

/-- A step of a buffer that the session hears comes to the same as one that it does not hear, and the call. -/
theorem driven_spread (hatt : h.Attached) (ha : h.Apart h') {s : Step} {change : Buffer × News}
    (hc : h.buffer.changedBy s = some change) : Driven h' [s, change.2.call] (h.step s) := by
  have hl := Buffer.audience_of_changedBy hc
  have hears := hatt.hears change.2.topic
  have hc' := ha.changedBy hc
  have hdeaf : h'.spread (change.1.detached, change.2) = _ :=
    spread_of_deaf (ha.deaf change.2.topic) (Buffer.audience_of_changedBy hc')
  -- The deaf host tells the other listeners and changes nothing else, so the call finds the session as it was.
  rw [← step_of_changedBy hc', ha.buffer, h.buffer.calls_detached, h.buffer.attachments_detached] at hdeaf
  obtain ⟨hhost, hnotices, hjournal⟩ := step_call (step_idle (ha.idle hatt.idle) s) change.2
  have hsession : (h'.step s).host.session = h.session := by rw [hdeaf]; exact ha.session
  rw [hsession] at hhost hnotices hjournal
  rw [forward_of_idle (step_idle (ha.idle hatt.idle) s)] at hhost
  have hrun : (h'.run [s, change.2.call]).flatMap Reply.notices =
      h.buffer.calls change.2 ++ deliver h.session.subscribers none (hear h.session change.2).events := by
    simp only [run, List.flatMap_cons, List.flatMap_nil, List.append_nil, hnotices]
    rw [hdeaf]
  rw [step_of_changedBy hc]
  refine ⟨?_, fun r' hr' => ?_, ?_, ?_, ?_⟩
  · rw [after_cons, after_cons, after_nil, hhost, hdeaf, spread_host h hl, if_pos hears, if_pos hears]
    exact ⟨rfl, rfl, ha.tickets, ha.others, ha.locked.trans hatt.idle.locked, ha.held⟩
  · obtain rfl := Option.mem_some_iff.mp hr'
    rw [hdeaf, spread_answer]
    exact .same _
  · simp only [run, List.flatMap_cons, List.flatMap_nil, List.append_nil, hjournal]
    rw [hdeaf, spread_journal hears hl]
    rfl
  · rw [hrun, spread_deliveries h hl, if_pos hears, deliveries_append, deliveries_deliver, Buffer.calls,
      deliveries_told]
    rfl
  · rw [hrun, calls_spread h hl, calls_append, calls_deliver, Buffer.calls, calls_told]
    simp

theorem driven_step (hatt : h.Attached) (ha : h.Apart h') (s : Step) : Driven h' s.directly (h.step s) := by
  cases hn : s.isNews with
  | false =>
    cases hs : s.attaches with
    | false =>
      rw [Step.directly_eq_self hn hs]
      obtain ⟨hm, hj⟩ := mirrors_step ha hn hs
      exact driven_of_mirrors hm hj
    | true =>
      cases s with
      | attach => exact ⟨apart_attach ha, fun r' hr' => (by cases hr'), rfl, rfl, rfl⟩
      | _ => cases hs
  | true =>
    obtain ⟨change, hc⟩ := h.buffer.exists_changedBy hn
    rw [Step.directly_of_changedBy hc]
    exact driven_spread hatt ha hc

/-! ## Runs -/

theorem apart_after_directly (hatt : h.Attached) (ha : h.Apart h') {steps : List Step} (unpoisoned : .poison ∉ steps) :
    (h.after steps).Apart (h'.after (steps.flatMap Step.directly)) := by
  induction steps generalizing h h' with
  | nil => exact ha
  | cons s steps ih =>
    rw [List.flatMap_cons, after_append, after_cons]
    have hs : s ≠ .poison := fun he => unpoisoned (he ▸ List.mem_cons_self)
    exact ih (hatt.step hs) (driven_step hatt ha s).host fun hm => unpoisoned (List.mem_cons_of_mem _ hm)

/-- What each step of a run says, the direct steps for it say, and so do the runs. -/
theorem flatMap_run_directly {α : Type} {f : List Reply → List α} (happ : ∀ rs rs', f (rs ++ rs') = f rs ++ f rs')
    (each : ∀ {g g' : Host} {s : Step}, g.Attached → g.Apart g' → f (g'.run s.directly) = f [g.step s])
    (hatt : h.Attached) (ha : h.Apart h') {steps : List Step} (unpoisoned : .poison ∉ steps) :
    f (h'.run (steps.flatMap Step.directly)) = f (h.run steps) := by
  induction steps generalizing h h' with
  | nil => rfl
  | cons s steps ih =>
    have hs : s ≠ .poison := fun he => unpoisoned (he ▸ List.mem_cons_self)
    rw [List.flatMap_cons, run_append, happ, each hatt ha,
      ih (hatt.step hs) (driven_step hatt ha s).host fun hm => unpoisoned (List.mem_cons_of_mem _ hm)]
    exact (happ [h.step s] _).symm

/-- A session that hears its buffer, and one of a host that tells it of every selection and edit instead, are the
    same after every step of a run, however often the first is attached. Each step gives the same answer, but for
    the listeners that a description counts, logs the same and raises the same events, and over the run every
    subscriber hears of the same events in the same order. After each step the lock is free and no event is held
    back. What the attached session tells of the buffer, it tells with the lock free, for the subscriber can look at
    it, and finds what the event says. -/
theorem driven_eq_directly (hatt : h.Attached) (ha : h.Apart h') {steps : List Step} (unpoisoned : .poison ∉ steps) :
    (∀ i < steps.length, h.At steps i fun g s =>
      let g' := h'.after ((steps.take i).flatMap Step.directly)
      g.Apart g' ∧ Driven g' s.directly (g.step s) ∧ (g.step s).host.Idle ∧
      (s.isNews = true → ∀ k e seen, .event k e seen ∈ (g.step s).notices →
        let after := (g.step s).host.session
        seen = some after.glimpse ∧
        ((∃ m, e.change = .messageChanged m ∧ after.message = m) ∨
          (e.change = .invalidated ∧ after.index = .empty ∧ after.message = none)))) ∧
    (h'.run (steps.flatMap Step.directly)).flatMap Reply.journal = (h.run steps).flatMap Reply.journal ∧
    ∀ k, heard k (h'.run (steps.flatMap Step.directly)) = heard k (h.run steps) := by
  refine ⟨fun i hi => ?_, ?_, fun k => ?_⟩
  · have hp : .poison ∉ steps.take i := fun hm => unpoisoned (List.mem_of_mem_take hm)
    have hg := hatt.after hp
    have happart := apart_after_directly hatt ha hp
    refine ⟨_, List.getElem?_eq_getElem hi, happart, driven_step hg happart _, step_idle hg.idle _,
      fun hn k e seen hm => ?_⟩
    obtain ⟨change, hc⟩ := Buffer.exists_changedBy _ hn
    have hl := Buffer.audience_of_changedBy hc
    have hears := hg.hears change.2.topic
    rw [step_of_changedBy hc] at hm
    obtain ⟨he, hseen⟩ := seen_of_spread hears hl hm
    rw [step_of_changedBy hc]
    refine ⟨hseen, ?_⟩
    rw [spread_host _ hl, if_pos hears]
    exact shown_of_heard he
  · refine flatMap_run_directly (fun rs rs' => List.flatMap_append) (fun hg hg' => ?_) hatt ha unpoisoned
    rw [(driven_step hg hg' _).journal]
    simp
  · refine flatMap_run_directly (heard_append k) (fun hg hg' => ?_) hatt ha unpoisoned
    unfold heard
    rw [(driven_step hg hg' _).events]
    simp

def moved : List Step :=
  [.openLoad, .closeLoad 0 (.ok [⟨"m", ⟨1, 1⟩, ⟨1, 2⟩, "x"⟩]) none, .select (.caret 1), .describe, .setText (some "c")]

/-- The session is attached twice, between somebody who hears of selections and somebody who hears of edits, and its
    subscriber hears of each change once. -/
theorem driven_twice_attached :
    let h := (start {} "ab").after [.listen [.selection], .attach, .listen [.text], .attach, .subscribe]
    let h' := (start {} "ab").after [.listen [.selection], .listen [.text], .subscribe]
    h.Attached ∧ h.Apart h' ∧
      heard 0 (h.run moved) = [⟨.replaced 1, 1⟩, ⟨.messageChanged (some "x"), 1⟩, ⟨.invalidated, 1⟩] ∧
      heard 0 (h'.run (moved.flatMap Step.directly)) = heard 0 (h.run moved) ∧
      ((h.after (moved.take 2)).step (.select (.caret 1))).notices =
        [.selected 0 (.caret 1), .event 0 ⟨.messageChanged (some "x"), 1⟩ (some ⟨1, some "x"⟩)] ∧
      ((h.after (moved.take 2)).step (.select (.caret 1))).host.session.glimpse = ⟨1, some "x"⟩ ∧
      Driven (h'.after ((moved.take 3).flatMap Step.directly)) [.describe]
        ((h.after (moved.take 3)).step .describe) := by
  intro h h'
  have attached : h.Attached := ⟨⟨rfl, rfl⟩, fun topic => by cases topic <;> decide⟩
  have apart : h.Apart h' := ⟨rfl, rfl, rfl, rfl, rfl, rfl⟩
  obtain ⟨each, -, same⟩ := driven_eq_directly attached apart (show .poison ∉ moved by simp [moved])
  refine ⟨attached, apart, (heard_run attached.idle (by decide) moved).trans (by decide), same 0, by decide, ?_, ?_⟩
  · obtain ⟨s, hs, -, -, -, seen⟩ := each 2 (by decide)
    cases hs
    have told := seen rfl 0 ⟨.messageChanged (some "x"), 1⟩ (some ⟨1, some "x"⟩) (by decide)
    exact (Option.some.inj told.1).symm
  · obtain ⟨s, hs, -, described, -⟩ := each 3 (by decide)
    cases hs
    exact described

end Host

end CursorDiagnostics
