/-
  CursorDiagnostics.Proofs.Host.Poisoning — a session whose lock is poisoned goes on as if it were not attached.

  Somebody has failed while holding the lock of the session. The host calls the session regardless, and the
  session answers; but it does not hear the buffer any more, and logs as much for each time that it is attached
  (`ignores_news`). So a run goes on as that of a host that never attached the session
  (`poisoned_eq_detached`), and the buffer and those who listen to it beside the session notice nothing.
-/

import CursorDiagnostics.Proofs.Host.Attachment

namespace CursorDiagnostics.Host

variable {h h' : Host}

/-! ## Steps -/

theorem deaf_of_poisoned (hp : h.poisoned = true) (topic : Topic) : ¬ h.Hears topic := by
  intro hh
  rw [hh.2] at hp
  cases hp

/-- A lock stays poisoned. -/
theorem stays_poisoned (hp : h.poisoned = true) (s : Step) : (h.step s).host.poisoned = true := by
  cases s with
  | poison => rfl
  | closeLoad ticket records text => simp only [step]; split <;> exact hp
  | select selection => rw [step_select_host]; exact hp
  | setText text => rw [step_setText_host]; exact hp
  | _ => exact hp

/-- Whoever attaches the session has it told of everything once more. -/
theorem attachments_step (h : Host) (s : Step) (topic : Topic) :
    (h.step s).host.buffer.attachments topic = h.buffer.attachments topic + if s.attaches then 1 else 0 := by
  rw [buffer_step]
  unfold Buffer.attachments
  cases s with
  | attach => simp [Buffer.afterStep, Buffer.audience_attach, Step.attaches]
  | listen topics => simp [Buffer.afterStep, Buffer.audience_listen, Step.attaches, List.count_replicate]
  | _ => cases topic <;> rfl

/-- Two hosts apart spread the same news, if neither session hears it: the first logs that it ignores them. -/
theorem ignores_news (hp : h.poisoned = true) (ha : h.Apart h') {s : Step} {change : Buffer × News}
    (hc : h.buffer.changedBy s = some change) :
    Mirrors (h.step s) (h'.step s) ∧
      (h.step s).journal = List.replicate (h.buffer.attachments change.2.topic) ignored := by
  have hc' := ha.changedBy hc
  rw [step_of_changedBy hc, step_of_changedBy hc',
    spread_of_deaf (deaf_of_poisoned hp _) (Buffer.audience_of_changedBy hc),
    spread_of_deaf (ha.deaf _) (Buffer.audience_of_changedBy hc'), ha.buffer, h.buffer.calls_detached]
  exact ⟨⟨⟨ha.session, rfl, ha.tickets, ha.others, ha.locked, ha.held⟩, .same _, rfl⟩, rfl⟩

theorem mirrors_of_poisoned (hp : h.poisoned = true) (ha : h.Apart h') {s : Step} (hs : s.attaches = false) :
    Mirrors (h.step s) (h'.step s) := by
  cases hn : s.isNews with
  | true =>
    obtain ⟨change, hc⟩ := h.buffer.exists_changedBy hn
    exact (ignores_news hp ha hc).1
  | false => exact (mirrors_step ha hn hs).1

theorem eq_attach {s : Step} (hs : s.attaches = true) : s = .attach := by
  cases s with
  | attach => rfl
  | _ => cases hs

/-! ## Runs -/

theorem attachments_after (h : Host) (steps : List Step) (topic : Topic) :
    (h.after steps).buffer.attachments topic = h.buffer.attachments topic + steps.countP Step.attaches := by
  induction steps generalizing h with
  | nil => rfl
  | cons s steps ih =>
    rw [after_cons, ih, attachments_step, List.countP_cons]
    omega

/-- The session is told of each topic as often as it has been attached. -/
theorem attachments_of_run (settings : Settings) (text : String) (steps : List Step) (topic : Topic) :
    ((start settings text).after steps).buffer.attachments topic = steps.countP Step.attaches := by
  rw [attachments_after]
  cases topic <;> exact Nat.zero_add _

theorem poisoned_after_poison (hp : h.poisoned = true) (steps : List Step) : (h.after steps).poisoned = true :=
  after_of_steps_keep (P := fun h => h.poisoned = true) hp fun s _ _ hp => stays_poisoned hp s

theorem apart_after_poison (hp : h.poisoned = true) (ha : h.Apart h') (steps : List Step) :
    (h.after steps).Apart (h'.after (steps.filter fun s => !s.attaches)) := by
  induction steps generalizing h h' with
  | nil => exact ha
  | cons s steps ih =>
    cases hs : s.attaches with
    | true =>
      rw [List.filter_cons_of_neg (by simp [hs])]
      exact ih (stays_poisoned hp s) (eq_attach hs ▸ apart_attach ha)
    | false =>
      rw [List.filter_cons_of_pos (by simp [hs])]
      exact ih (stays_poisoned hp s) (mirrors_of_poisoned hp ha hs).host

theorem notices_run_of_poisoned (hp : h.poisoned = true) (ha : h.Apart h') (steps : List Step) :
    (h'.run (steps.filter fun s => !s.attaches)).flatMap Reply.notices = (h.run steps).flatMap Reply.notices := by
  induction steps generalizing h h' with
  | nil => rfl
  | cons s steps ih =>
    cases hs : s.attaches with
    | true =>
      obtain rfl := eq_attach hs
      rw [List.filter_cons_of_neg (by simp [hs]), ih (stays_poisoned hp .attach) (apart_attach ha)]
      rfl
    | false =>
      have hm := mirrors_of_poisoned hp ha hs
      rw [List.filter_cons_of_pos (by simp [hs]), run, run, List.flatMap_cons, List.flatMap_cons, hm.notices,
        ih (stays_poisoned hp s) hm.host]

/-- A host whose lock is poisoned, and one with the same session that is not attached, stay apart through the same
    steps, less the attachments. Every step gives the same answer, but for the listeners that a description counts,
    and tells the same to the same in the same order. News of the buffer is logged as ignored, once for every
    attachment so far, and nothing else is logged then; every other step logs the same in both. The buffer is what
    it were without the poison, and its other listeners hear the same. -/
theorem poisoned_eq_detached (settings : Settings) (text : String) (before : List Step) {h' : Host}
    (hp : ((start settings text).after before).poisoned = true) (ha : ((start settings text).after before).Apart h')
    (steps : List Step) :
    let h := (start settings text).after before
    (∀ i < steps.length, h.At steps i fun g s =>
      let g' := h'.after ((steps.take i).filter fun s => !s.attaches)
      let sound := ({ h with poisoned := false } : Host).after (steps.take i)
      g.Apart g' ∧
      (s.attaches = false → Mirrors (g.step s) (g'.step s)) ∧
      (s.attaches = true → (g.step s).host.Apart g' ∧ (g.step s).notices = [] ∧ (g.step s).journal = []) ∧
      (s.isNews = true → (g.step s).journal = List.replicate ((before ++ steps.take i).countP Step.attaches)
        ⟨.warn, "silicon", "diagnostic session lock poisoned, buffer event ignored", []⟩) ∧
      (s.isNews = false → s.attaches = false → (g.step s).journal = (g'.step s).journal) ∧
      (g.step s).host.buffer = (sound.step s).host.buffer ∧
      calls (g.step s).notices = calls (sound.step s).notices) ∧
    (h'.run (steps.filter fun s => !s.attaches)).flatMap Reply.notices = (h.run steps).flatMap Reply.notices := by
  intro h
  refine ⟨fun i hi => ⟨_, List.getElem?_eq_getElem hi, ?_⟩, notices_run_of_poisoned hp ha steps⟩
  beta_reduce
  intro g' sound
  have hg := poisoned_after_poison hp (steps.take i)
  have happart := apart_after_poison hp ha (steps.take i)
  have hb : h.buffer = ({ h with poisoned := false } : Host).buffer := rfl
  have ho : h.others = ({ h with poisoned := false } : Host).others := rfl
  have hbuffer : (h.after (steps.take i)).buffer = sound.buffer := buffer_after hb ho _
  have hothers : (h.after (steps.take i)).others = sound.others := others_after ho _
  refine ⟨happart, mirrors_of_poisoned hg happart, fun hs => ?_, fun hn => ?_, fun hn hs => ?_, ?_, ?_⟩
  · rw [eq_attach hs]
    exact ⟨apart_attach happart, rfl, rfl⟩
  · obtain ⟨change, hc⟩ := Buffer.exists_changedBy _ hn
    rw [(ignores_news hg happart hc).2, ← after_append, attachments_of_run]
    rfl
  · exact (mirrors_step happart hn hs).2.symm
  · rw [buffer_step, buffer_step, hbuffer, hothers]
  · rw [calls_step, calls_step, hbuffer]

def ignoring : List Step :=
  [.select (.caret 1), .attach, .closeLoad 0 (.ok [⟨"m", ⟨1, 1⟩, ⟨1, 2⟩, "x"⟩]) none, .setText (some "c"),
    .observe (.caret 1)]

/-- A session attached twice before the poison and once after it ignores an edit three times, so its diagnostic
    stays, and a direct call finds the message. Somebody who hears of selections alone is told of the selection. -/
theorem poisoned_ignores_edit :
    let h := (start {} "ab").after [.attach, .subscribe, .listen [.selection], .attach, .openLoad, .poison]
    let h' := (start {} "ab").after [.subscribe, .listen [.selection], .openLoad]
    h.poisoned = true ∧ h'.poisoned = false ∧ h.Apart h' ∧
      ((h.after (ignoring.take 3)).step (.setText (some "c"))).journal =
        [⟨.warn, "silicon", "diagnostic session lock poisoned, buffer event ignored", []⟩,
          ⟨.warn, "silicon", "diagnostic session lock poisoned, buffer event ignored", []⟩,
          ⟨.warn, "silicon", "diagnostic session lock poisoned, buffer event ignored", []⟩] ∧
      ((h.after (ignoring.take 4)).step (.observe (.caret 1))).host.session.message = some "x" ∧
      calls (h.step (.select (.caret 1))).notices = [.selected 0 (.caret 1)] ∧
      (h'.run (ignoring.filter fun s => !s.attaches)).flatMap Reply.notices =
        (h.run ignoring).flatMap Reply.notices := by
  intro h h'
  have apart : h.Apart h' := ⟨rfl, rfl, rfl, rfl, rfl, rfl⟩
  obtain ⟨each, told⟩ := poisoned_eq_detached {} "ab"
    [.attach, .subscribe, .listen [.selection], .attach, .openLoad, .poison] rfl apart ignoring
  refine ⟨rfl, rfl, apart, ?_, ?_, ?_, told⟩
  · obtain ⟨s, hs, -, -, -, news, -⟩ := each 3 (by decide)
    cases hs
    exact news rfl
  · obtain ⟨s, hs, -, direct, -⟩ := each 4 (by decide)
    cases hs
    have session := (direct rfl).host.session
    rw [← session]
    decide
  · obtain ⟨s, hs, -, -, -, -, -, -, called⟩ := each 0 (by decide)
    cases hs
    exact called.trans (by decide)

end CursorDiagnostics.Host
