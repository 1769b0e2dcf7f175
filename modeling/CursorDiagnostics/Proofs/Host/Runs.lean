/-
  CursorDiagnostics.Proofs.Host.Runs — the host after a run of steps, and what one step does to its session.

  A step of the buffer tells every listener, and the session may be among them any number of times. It
  updates itself for the first telling, and the others find nothing to do (`hear_again`), so the host
  after the step depends only on whether the session hears the buffer at all (`spread_host`).
  A load that is ended is dropped, applied or failed (`closeLoad_cases`); one that is done at once is
  never dropped (`load_cases`).
-/

import CursorDiagnostics.Proofs.Host.Lock
import CursorDiagnostics.Proofs.Index.Lookup

namespace CursorDiagnostics

/-! ## Ending a load -/

namespace Session

theorem closeLoad_cases (s : Session) (t : Ticket) (records : Except Failure (List Record)) (text : String) :
    (t.sequence ≠ s.sequence ∧ s.closeLoad t records text = s.dropLoad t) ∨
    (t.sequence = s.sequence ∧ ∃ rs x, records = .ok rs ∧ x.Holds (.ofText text) rs ∧
      s.closeLoad t records text = s.applyLoad x) ∨
    (t.sequence = s.sequence ∧ ∃ e, records.bind (Index.ofRecords (.ofText text)) = .error e ∧
      s.closeLoad t records text = s.failLoad e) := by
  unfold closeLoad
  by_cases ht : t.sequence = s.sequence
  · rw [if_neg (not_not.mpr ht)]
    cases h : records.bind (Index.ofRecords (.ofText text)) with
    | ok x =>
      obtain ⟨rs, hrs, hx⟩ := bind_eq_ok_iff.mp h
      exact Or.inr (Or.inl ⟨ht, rs, x, hrs, Index.ofRecords_eq_ok_iff.mp hx, rfl⟩)
    | error e => exact Or.inr (Or.inr ⟨ht, e, rfl, rfl⟩)
  · exact Or.inl ⟨ht, if_pos ht⟩

theorem closeLoad_of_holds {s : Session} {t : Ticket} {records : List Record} {text : String} {x : Index}
    (ht : t.sequence = s.sequence) (hx : x.Holds (.ofText text) records) :
    s.closeLoad t (.ok records) text = s.applyLoad x := by
  have hb : (Except.ok records).bind (Index.ofRecords (.ofText text)) = .ok x := Index.ofRecords_eq_ok_iff.mpr hx
  unfold closeLoad
  rw [if_neg (not_not.mpr ht), hb]

/-- The load is ended with the ticket that it has just taken, so it is applied if its records have a place. -/
theorem load_of_holds {s : Session} {file : Log.File} {records : List Record} {text : String} {x : Index}
    (hr : file.records = .ok records) (hx : x.Holds (.ofText text) records) :
    s.load file text =
      let t := s.openLoad.session.applyLoad x
      { t with journal := file.journal ++ t.journal } := by
  have hc := closeLoad_of_holds (s := s.openLoad.session) (t := s.openLoad.result) rfl hx
  unfold load Turn.andThen
  rw [hr]
  simp only [hc]
  rfl

/-- A load done at once has the newest ticket, so it is applied or fails. -/
theorem load_cases (s : Session) (file : Log.File) (text : String) :
    (∃ rs x, file.records = .ok rs ∧ x.Holds (.ofText text) rs ∧
      (s.load file text).session = { s with sequence := s.sequence + 1, index := x, message := none } ∧
      (s.load file text).result = .ok (.applied x.length)) ∨
    (∃ e, (s.load file text).session = { s with sequence := s.sequence + 1 } ∧
      (s.load file text).result = .error e) := by
  have hs : (s.load file text).session = (s.openLoad.session.closeLoad s.openLoad.result file.records text).session := rfl
  have hr : (s.load file text).result = (s.openLoad.session.closeLoad s.openLoad.result file.records text).result := rfl
  rcases closeLoad_cases s.openLoad.session s.openLoad.result file.records text with
    ⟨ht, -⟩ | ⟨-, rs, x, hrs, hx, hc⟩ | ⟨-, e, -, hc⟩
  · exact absurd rfl ht
  · rw [hs, hr, hc]
    exact Or.inl ⟨rs, x, hrs, hx, rfl, rfl⟩
  · rw [hs, hr, hc]
    exact Or.inr ⟨e, rfl, rfl⟩

/-- What is selected is observed after a load that does not fail, and the load keeps its result. -/
theorem loadAndObserve_of_ok {s : Session} {file : Log.File} {text : String} {o : Outcome}
    (hr : (s.load file text).result = .ok o) (selection : Selection) :
    s.loadAndObserve file text selection =
      let t := s.load file text
      let u := t.session.observe selection
      ⟨u.session, .ok o, t.events ++ u.events, t.journal ++ u.journal⟩ := by
  unfold loadAndObserve Turn.andThen
  simp only [hr]

/-- After a load for a buffer the session looks again, unless the load failed. -/
theorem loadAndObserve_session (s : Session) (file : Log.File) (text : String) (selection : Selection) :
    (s.loadAndObserve file text selection).session =
      match (s.load file text).result with
      | .ok _ => ((s.load file text).session.observe selection).session
      | .error _ => (s.load file text).session := by
  unfold loadAndObserve Turn.andThen
  cases (s.load file text).result <;> rfl

theorem loadAndObserve_result (s : Session) (file : Log.File) (text : String) (selection : Selection) :
    (s.loadAndObserve file text selection).result = (s.load file text).result := by
  unfold loadAndObserve Turn.andThen
  cases (s.load file text).result <;> rfl

/-! ## Selections and edits -/

theorem observe_session (s : Session) (selection : Selection) :
    (s.observe selection).session = { s with message := s.index.messageFor selection.start selection.stop } := by
  simp only [observe]
  split
  · rename_i h
    rw [h]
  · rfl

/-- A load for a buffer that is applied leaves the message of what is selected there. -/
theorem loadAndObserve_cases (s : Session) (file : Log.File) (text : String) (selection : Selection) :
    (∃ rs x, file.records = .ok rs ∧ x.Holds (.ofText text) rs ∧
      (s.loadAndObserve file text selection).session =
        { s with
          sequence := s.sequence + 1
          index := x
          message := x.messageFor selection.start selection.stop } ∧
      (s.loadAndObserve file text selection).result = .ok (.applied x.length)) ∨
    (∃ e, (s.loadAndObserve file text selection).session = { s with sequence := s.sequence + 1 } ∧
      (s.loadAndObserve file text selection).result = .error e) := by
  rw [loadAndObserve_session, loadAndObserve_result]
  rcases s.load_cases file text with ⟨rs, x, hrs, hx, hs, hr⟩ | ⟨e, hs, hr⟩
  · refine Or.inl ⟨rs, x, hrs, hx, ?_, hr⟩
    rw [hr, hs]
    exact observe_session _ _
  · refine Or.inr ⟨e, ?_, hr⟩
    rw [hr, hs]

theorem invalidate_session (s : Session) :
    s.invalidate.session =
      if s.index.isEmpty ∧ s.message = none then s else { s with index := .empty, message := none } := by
  unfold invalidate
  split <;> rfl

end Session

namespace Host

/-! ## News of the buffer -/

/-- What the session hears a second time is no news: nothing changes, nothing is raised, nothing is logged. -/
theorem hear_again (s : Session) (news : News) :
    hear (hear s news).session news = { session := (hear s news).session, result := () } := by
  cases news with
  | selected selection =>
    simp only [hear, Session.observe_session s]
    rw [Session.observe, if_pos rfl]
  | edited =>
    show s.invalidate.session.invalidate = ⟨s.invalidate.session, (), [], []⟩
    rw [Session.invalidate_session s]
    split
    · next h => exact if_pos h
    · exact if_pos ⟨rfl, rfl⟩

theorem hear_hear (s : Session) (news : News) : (hear (hear s news).session news).session = (hear s news).session := by
  rw [hear_again]

/-- The session hears of the topic: it listens for it, and its lock is not poisoned. -/
def Hears (h : Host) (topic : Topic) : Prop := .session ∈ h.buffer.audience topic ∧ h.poisoned = false

instance (h : Host) (topic : Topic) : Decidable (h.Hears topic) := inferInstanceAs (Decidable (_ ∧ _))

theorem tell_host (news : News) (r : Reply) (l : Listener) :
    (tell news r l).host =
      if l = .session ∧ r.host.poisoned = false then
        { r.host with session := (hear r.host.session news).session, locked := false }
      else r.host := by
  cases l with
  | session =>
    simp only [tell, true_and]
    cases hp : r.host.poisoned with
    | false => simp [Reply.forward_eq, hp]
    | true => simp
  | other id => cases news <;> simp [tell]

theorem foldl_tell_host (news : News) (ls : List Listener) (r : Reply) :
    (ls.foldl (tell news) r).host =
      if .session ∈ ls ∧ r.host.poisoned = false then
        { r.host with session := (hear r.host.session news).session, locked := false }
      else r.host := by
  induction ls generalizing r with
  | nil => simp
  | cons l ls ih =>
    rw [List.foldl_cons, ih, tell_host]
    by_cases hp : r.host.poisoned = false
    · by_cases hl : l = .session
      · simp [hl, hp, hear_hear]
      · simp [Ne.symm hl, hl, hp]
    · simp [hp]

/-- Whoever hears of the news, what becomes of the session is one update, and the lock is free after it. -/
theorem spread_host (h : Host) {change : Buffer × News}
    (hl : change.1.audience change.2.topic = h.buffer.audience change.2.topic) :
    (h.spread change).host =
      { h with
        buffer := change.1
        session := if h.Hears change.2.topic then (hear h.session change.2).session else h.session
        locked := if h.Hears change.2.topic then false else h.locked } := by
  unfold spread
  rw [foldl_tell_host, hl]
  by_cases hh : h.Hears change.2.topic
  · rw [if_pos hh, if_pos hh]
    exact if_pos hh
  · rw [if_neg hh, if_neg hh]
    exact if_neg hh

theorem foldl_tell_answer (news : News) (ls : List Listener) (r : Reply) :
    (ls.foldl (tell news) r).answer = r.answer := by
  induction ls generalizing r with
  | nil => rfl
  | cons l ls ih =>
    rw [List.foldl_cons, ih]
    cases l with
    | session =>
      simp only [tell]
      split
      · rfl
      · rw [Reply.forward_eq]
    | other id => cases news <;> rfl

theorem spread_answer (h : Host) (change : Buffer × News) : (h.spread change).answer = .nothing :=
  foldl_tell_answer _ _ _

theorem step_select_host (h : Host) (selection : Selection) :
    (h.step (.select selection)).host =
      { h with
        buffer := { h.buffer with selection }
        session := if h.Hears .selection then (h.session.observe selection).session else h.session
        locked := if h.Hears .selection then false else h.locked } :=
  h.spread_host rfl

theorem step_setText_host (h : Host) (text : Option String) :
    (h.step (.setText text)).host =
      { h with
        buffer := { h.buffer with text := text.getD h.buffer.text }
        session := if h.Hears .text then h.session.invalidate.session else h.session
        locked := if h.Hears .text then false else h.locked } :=
  h.spread_host rfl

theorem step_select_session (h : Host) (selection : Selection) :
    (h.step (.select selection)).host.session =
      if h.Hears .selection then (h.session.observe selection).session else h.session := by rw [step_select_host]

theorem step_setText_session (h : Host) (text : Option String) :
    (h.step (.setText text)).host.session = if h.Hears .text then h.session.invalidate.session else h.session := by
  rw [step_setText_host]

/-- A step gives back the lock that it takes, and delivers what it holds back. -/
theorem step_idle {h : Host} (hi : h.Idle) (s : Step) : (h.step s).host.Idle := by
  cases s with
  | subscribe | startBuild | load | loadHere | observe | invalidate => exact direct_idle hi _ _
  | openLoad =>
    rw [step_openLoad hi]
    exact ⟨hi.locked, hi.held⟩
  | closeLoad ticket records text =>
    simp only [step]
    split
    · exact direct_idle hi _ _
    · exact hi
  | select selection =>
    rw [step_select_host]
    exact ⟨by simp [hi.locked], hi.held⟩
  | setText text =>
    rw [step_setText_host]
    exact ⟨by simp [hi.locked], hi.held⟩
  | _ => exact ⟨hi.locked, hi.held⟩

/-! ## Runs -/

def after (h : Host) (steps : List Step) : Host := steps.foldl (fun h s => (h.step s).host) h

@[simp] theorem after_nil (h : Host) : h.after [] = h := rfl

@[simp] theorem after_cons (h : Host) (s : Step) (steps : List Step) :
    h.after (s :: steps) = (h.step s).host.after steps := rfl

@[simp] theorem after_append (h : Host) (steps steps' : List Step) :
    h.after (steps ++ steps') = (h.after steps).after steps' := List.foldl_append

/-- The step at place `i` of a run from `h` is such that `P` holds of it and of the host before it. -/
def At (h : Host) (steps : List Step) (i : Nat) (P : Host → Step → Prop) : Prop :=
  ∃ s, steps[i]? = some s ∧ P (h.after (steps.take i)) s

theorem At.lt {h : Host} {steps : List Step} {i : Nat} {P : Host → Step → Prop} (ha : h.At steps i P) :
    i < steps.length := by
  obtain ⟨s, hs, -⟩ := ha
  exact (List.getElem?_eq_some_iff.mp hs).1

/-- A run goes through the places of a shorter one, and then through one more. -/
theorem at_concat_iff {h : Host} {steps : List Step} {s : Step} {i : Nat} {P : Host → Step → Prop} :
    h.At (steps ++ [s]) i P ↔ h.At steps i P ∨ i = steps.length ∧ P (h.after steps) s := by
  unfold At
  rcases Nat.lt_trichotomy i steps.length with hi | rfl | hi
  · rw [List.getElem?_append_left hi, List.take_append_of_le_length (Nat.le_of_lt hi)]
    simp [Nat.ne_of_lt hi]
  · simp
  · have hl : (steps ++ [s]).length ≤ i := by rw [List.length_append]; exact hi
    rw [List.getElem?_eq_none hl, List.getElem?_eq_none (Nat.le_of_lt hi)]
    simp [Nat.ne_of_gt hi]

/-- What holds of every step of a run holds of those before the last, and of the last. -/
theorem forall_at_concat {h : Host} {steps : List Step} {s : Step} {P : Host → Step → Prop}
    (all : ∀ i < (steps ++ [s]).length, h.At (steps ++ [s]) i P) :
    (∀ i < steps.length, h.At steps i P) ∧ P (h.after steps) s := by
  have hlen : (steps ++ [s]).length = steps.length + 1 := by simp
  constructor
  · intro i hi
    rcases at_concat_iff.mp (all i (by omega)) with hat | ⟨heq, -⟩
    · exact hat
    · exact absurd heq (Nat.ne_of_lt hi)
  · rcases at_concat_iff.mp (all steps.length (by omega)) with hat | ⟨-, hs⟩
    · exact absurd hat.lt (Nat.lt_irrefl _)
    · exact hs

/-- What every step of a run keeps holds after the run, if it did before. -/
theorem after_of_kept {P : Host → Prop} {h : Host} {steps : List Step} (hp : P h)
    (kept : ∀ i < steps.length, h.At steps i fun h s => P h → P (h.step s).host) : P (h.after steps) := by
  induction steps generalizing h with
  | nil => exact hp
  | cons s steps ih =>
    have hs : P (h.step s).host := by
      obtain ⟨s', hs', hk⟩ := kept 0 (Nat.zero_lt_succ _)
      cases hs'
      exact hk hp
    exact ih hs fun i hi => kept (i + 1) (Nat.succ_lt_succ hi)

/-- What each of these steps keeps in every host holds after the run, if it did before. -/
theorem after_of_steps_keep {P : Host → Prop} {h : Host} {steps : List Step} (hp : P h)
    (kept : ∀ s ∈ steps, ∀ h, P h → P (h.step s).host) : P (h.after steps) :=
  after_of_kept hp fun _ hi => ⟨_, List.getElem?_eq_getElem hi, kept _ (List.getElem_mem hi) _⟩

theorem after_idle {h : Host} (hi : h.Idle) (steps : List Step) : (h.after steps).Idle :=
  after_of_steps_keep (P := Idle) hi fun s _ _ hi => step_idle hi s

/-- What one step of a run brings about and every later step keeps holds after the run. -/
theorem At.after {P : Host → Prop} {h : Host} {steps : List Step} {i : Nat}
    (now : h.At steps i fun h s => P (h.step s).host)
    (kept : ∀ j, i < j → j < steps.length → h.At steps j fun h s => P h → P (h.step s).host) :
    P (h.after steps) := by
  induction steps generalizing h i with
  | nil => exact absurd now.lt (Nat.not_lt_zero _)
  | cons s steps ih =>
    cases i with
    | zero =>
      obtain ⟨s', hs', hp⟩ := now
      cases hs'
      show P ((h.step s).host.after steps)
      exact after_of_kept hp fun j hj => kept (j + 1) (Nat.zero_lt_succ _) (Nat.succ_lt_succ hj)
    | succ i => exact ih now fun j hij hj => kept (j + 1) (Nat.succ_lt_succ hij) (Nat.succ_lt_succ hj)

end Host

end CursorDiagnostics
