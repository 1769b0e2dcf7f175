/-
  CursorDiagnostics.Proofs.Host.InStep — a load for the buffer leaves the session in step with it, and says no more
  than is new.

  A load that is applied forgets the message along with the old diagnostics. What is selected is looked up after
  that, so a subscriber hears of its message exactly if there is one, even if it is the message of before
  (`observe_events`). The selection need not lie in the text, and its ends may stand in either order. The host is
  idle, as it is between any two steps (`step_idle`).

  - `loadHere_of_holds`: the host after such a load, its answer and its events, and nothing else has changed.
  - `loadHere_byHand`: the load is the same as to begin a load, to end it with what the file holds, and to observe what
    is selected unless the load failed.
-/

import CursorDiagnostics.Proofs.Host.Failures
import CursorDiagnostics.Proofs.Host.Stream

namespace CursorDiagnostics

/-! ## Records with a place -/

namespace Index

theorem exists_holds_iff {d : Document} {records : List Record} :
    (∃ x : Index, x.Holds d records) ↔ ∀ r ∈ records, ∃ s, d.span r = .ok s := by
  constructor
  · intro ⟨x, hx⟩ r hr
    obtain ⟨i, hi, rfl⟩ := List.mem_iff_getElem.mp hr
    exact ⟨_, hx.spans.get hi (hx.spans.length_eq ▸ hi)⟩
  · intro hplaced
    cases h : ofRecords d records with
    | ok x => exact ⟨x, ofRecords_eq_ok_iff.mp h⟩
    | error e =>
      obtain ⟨good, r, rest, rfl, -, he⟩ := ofRecords_eq_error_iff.mp h
      obtain ⟨s, hs⟩ := hplaced r (by simp)
      rw [hs] at he
      cases he

end Index

/-! ## One load -/

namespace Session

/-- With no message remembered, a selection is worth an event exactly if it has a message. -/
theorem observe_events {s : Session} (hm : s.message = none) (selection : Selection) :
    (s.observe selection).events =
      ((s.index.messageFor selection.start selection.stop).map fun m => s.event (.messageChanged (some m))).toList := by
  unfold observe
  rw [hm]
  cases s.index.messageFor selection.start selection.stop with
  | none => rfl
  | some m => rfl

/-- The load leaves the message of what is selected, and raises an event for it if there is one. -/
theorem loadAndObserve_of_holds {s : Session} {file : Log.File} {records : List Record} {text : String} {x : Index}
    (hr : file.records = .ok records) (hx : x.Holds (.ofText text) records) (selection : Selection) :
    let t := s.loadAndObserve file text selection
    let message := x.messageFor selection.start selection.stop
    t.session = { s with sequence := s.sequence + 1, index := x, message } ∧
      t.result = .ok (.applied x.length) ∧
      t.events = ⟨.replaced x.length, s.sequence + 1⟩ ::
        (message.map fun m => ⟨.messageChanged (some m), s.sequence + 1⟩).toList := by
  have hl := load_of_holds (s := s) hr hx
  have hres : (s.load file text).result = .ok (.applied x.length) := by rw [hl]; rfl
  have hnone : (s.load file text).session.message = none := by rw [hl]; rfl
  rw [loadAndObserve_of_ok hres]
  refine ⟨?_, rfl, ?_⟩
  · show ((s.load file text).session.observe selection).session = _
    rw [observe_session, hl]
    rfl
  · show (s.load file text).events ++ ((s.load file text).session.observe selection).events = _
    rw [observe_events hnone, hl]
    rfl

end Session

namespace Host

/-- A load for the buffer has put these records into the index, and the session remembers the message of what is
    selected. Each subscriber hears of the new diagnostics and then of that message, if there is one, and nothing
    else has changed. -/
structure InStep (h : Host) (records : List Record) (r : Reply) : Prop where
  answer : r.answer = .outcome (.ok (.applied records.length))
  index : r.host.session.index.Holds (.ofText h.buffer.text) records
  message : r.host.session.message = r.host.look h.buffer.selection
  told : r.notices = deliver h.session.subscribers none
    (⟨.replaced records.length, h.session.sequence + 1⟩ ::
      ((r.host.look h.buffer.selection).map fun m => ⟨.messageChanged (some m), h.session.sequence + 1⟩).toList)
  rest : r.host =
    { h with
      session := { h.session with
        sequence := h.session.sequence + 1
        index := r.host.session.index
        message := r.host.session.message } }

/-- The host, and what everybody is told, are those of these steps one after the other. Only the ticket that they
    hand out is not kept. -/
structure Amounts (h : Host) (steps : List Step) (r : Reply) : Prop where
  host : r.host = { h.after steps with tickets := h.tickets }
  told : r.notices = (h.run steps).flatMap Reply.notices

/-- The reply is that to a load which is begun and then ended with `records` for the buffer's text. If that does not
    fail, what is selected in the buffer is observed after it. -/
structure ByHand (h : Host) (records : Except Failure (List Record)) (r : Reply) : Prop where
  answer : r.answer = ((h.step .openLoad).host.step (.closeLoad h.tickets.length records none)).answer
  applied : (∃ o, r.answer = .outcome (.ok o)) →
    Amounts h [.openLoad, .closeLoad h.tickets.length records none, .observe h.buffer.selection] r
  failed : (∃ e, r.answer = .outcome (.error e)) → Amounts h [.openLoad, .closeLoad h.tickets.length records none] r

/-! ## Loads that are applied -/

theorem loadHere_of_holds {h : Host} (hi : h.Idle) {file : Log.File} {records : List Record} {x : Index}
    (hr : file.records = .ok records) (hx : x.Holds (.ofText h.buffer.text) records) :
    InStep h records (h.step (.loadHere file)) := by
  obtain ⟨hs, hres, he⟩ := Session.loadAndObserve_of_holds (s := h.session) hr hx h.buffer.selection
  have hstep : h.step (.loadHere file) =
      h.direct (h.session.loadAndObserve file h.buffer.text h.buffer.selection) .outcome := rfl
  have hn : x.length = records.length := hx.spans.length_eq.symm
  rw [hn] at hres he
  rw [direct_of_idle hi, hs, hres, he] at hstep
  rw [hstep]
  exact ⟨rfl, hx, rfl, rfl, rfl⟩

/-- A load for the buffer is applied exactly if its log reads and each record has a place in the buffer's text. -/
theorem loadHere_applied_iff {h : Host} (hi : h.Idle) {file : Log.File} {n : Nat} :
    (h.step (.loadHere file)).answer = .outcome (.ok (.applied n)) ↔
      ∃ records, file.records = .ok records ∧ records.length = n ∧
        ∀ r ∈ records, ∃ s, (Document.ofText h.buffer.text).span r = .ok s := by
  constructor
  · intro ha
    rcases h.session.loadAndObserve_cases file h.buffer.text h.buffer.selection with
      ⟨records, x, hr, hx, -, hres⟩ | ⟨e, -, hres⟩
    · have happ := (loadHere_of_holds hi hr hx).answer
      rw [happ] at ha
      cases ha
      exact ⟨records, hr, rfl, Index.exists_holds_iff.mp ⟨x, hx⟩⟩
    · cases (Answer.outcome.inj ha).symm.trans hres
  · intro ⟨records, hr, hn, hplaced⟩
    obtain ⟨x, hx⟩ := Index.exists_holds_iff.mpr hplaced
    rw [(loadHere_of_holds hi hr hx).answer, hn]

/-! ## The same by hand -/

/-- The ticket that has just been handed out is the newest, and the load is ended with it. -/
theorem closeLoad_of_opened (h : Host) (records : Except Failure (List Record)) :
    (h.step .openLoad).host.step (.closeLoad h.tickets.length records none) =
      (h.step .openLoad).host.direct
        (h.session.openLoad.session.closeLoad h.session.openLoad.result records h.buffer.text) .outcome :=
  step_closeLoad List.getElem?_concat_length records none

theorem load_amounts {h : Host} (hi : h.Idle) (file : Log.File) :
    Amounts h [.openLoad, .closeLoad h.tickets.length file.records none] (h.step (.load file none)) := by
  have hc := h.closeLoad_of_opened file.records
  have hl : h.step (.load file none) = h.direct (h.session.load file h.buffer.text) .outcome := rfl
  rw [direct_of_idle (step_idle hi .openLoad), step_openLoad hi] at hc
  rw [direct_of_idle hi] at hl
  constructor
  · rw [after_cons, after_cons, step_openLoad hi, hc, hl]
    rfl
  · simp only [run, List.flatMap_cons, List.flatMap_nil, List.append_nil]
    rw [step_openLoad hi, hc, hl]
    rfl

/-- A load for the buffer that does not fail is the load for its text, and then a look at what is selected. -/
theorem loadHere_of_ok {h : Host} (hi : h.Idle) {file : Log.File} {o : Outcome}
    (ho : (h.step (.load file none)).answer = .outcome (.ok o)) :
    let loaded := h.step (.load file none)
    let seen := loaded.host.step (.observe h.buffer.selection)
    (h.step (.loadHere file)).host = seen.host ∧
      (h.step (.loadHere file)).notices = loaded.notices ++ seen.notices := by
  have hr : (h.session.load file h.buffer.text).result = .ok o := Answer.outcome.inj ho
  have hs : h.step (.loadHere file) =
      h.direct (h.session.loadAndObserve file h.buffer.text h.buffer.selection) .outcome := rfl
  have hl : h.step (.load file none) = h.direct (h.session.load file h.buffer.text) .outcome := rfl
  rw [direct_of_idle hi, Session.loadAndObserve_of_ok hr] at hs
  have hseen : (h.step (.load file none)).host.step (.observe h.buffer.selection) = Host.direct _ _ .message := rfl
  rw [direct_of_idle (step_idle hi _)] at hseen
  rw [direct_of_idle hi] at hl
  intro loaded seen
  simp only [seen, loaded]
  rw [hs, hseen, hl]
  refine ⟨rfl, ?_⟩
  -- Both events go to the subscribers of the end, and the look has added none.
  let t := h.session.load file h.buffer.text
  let u := t.session.observe h.buffer.selection
  have hsub : u.session.subscribers = t.session.subscribers := by
    show (t.session.observe _).session.subscribers = _
    rw [Session.observe_session]
  show deliver u.session.subscribers none (t.events ++ u.events) =
    deliver t.session.subscribers none t.events ++ deliver u.session.subscribers none u.events
  rw [hsub, deliver, List.flatMap_append]
  rfl

theorem Amounts.observe {h : Host} {steps : List Step} {r r' : Reply} {selection : Selection} (hr : Amounts h steps r)
    (host : r'.host = (r.host.step (.observe selection)).host)
    (told : r'.notices = r.notices ++ (r.host.step (.observe selection)).notices) :
    Amounts h (steps ++ [.observe selection]) r' := by
  constructor
  · rw [host, hr.host, after_append]
    rfl
  · rw [told, run_append, List.flatMap_append, hr.told, hr.host]
    simp [run]
    rfl

theorem loadHere_byHand {h : Host} (hi : h.Idle) (file : Log.File) :
    ByHand h file.records (h.step (.loadHere file)) := by
  have same : (h.step (.loadHere file)).answer = (h.step (.load file none)).answer :=
    congrArg Answer.outcome (Session.loadAndObserve_result _ _ _ _)
  refine ⟨?_, fun ⟨o, ho⟩ => ?_, fun ⟨e, he⟩ => ?_⟩
  · rw [same, h.closeLoad_of_opened]
    rfl
  · obtain ⟨host, told⟩ := loadHere_of_ok hi (same.symm.trans ho)
    exact (load_amounts hi file).observe host told
  · rw [loadHere_eq_load (Or.inl ⟨e, same.symm.trans he⟩)]
    exact load_amounts hi file

/-! ## Every session, file and buffer -/

/-- A load for the buffer is applied, with `n` diagnostics, exactly if its log reads as `n` records that all have a
    place in the buffer's text. Then these are the diagnostics, the message is that of what is selected in the buffer,
    and the only events are the replacement and that message, if there is one, with the count of this load. In
    everything but the ticket the load is one that is begun, ended with what the file holds and, if it did not fail,
    followed by a look at what is selected. A file that is not there holds no records. -/
theorem loadHere_inStep {h : Host} (hi : h.Idle) (file : Log.File) :
    let r := h.step (.loadHere file)
    (∀ n, r.answer = .outcome (.ok (.applied n)) ↔
      ∃ records, file.records = .ok records ∧ records.length = n ∧
        ∀ x ∈ records, ∃ s, (Document.ofText h.buffer.text).span x = .ok s) ∧
    (∀ n, r.answer = .outcome (.ok (.applied n)) →
      ∃ records, file.records = .ok records ∧ records.length = n ∧ InStep h records r) ∧
    (∀ log, file.content = .ok log → ByHand h (Log.read log) r) ∧
    (file.content = .error .notFound → ByHand h (.ok []) r) ∧
    (∀ fault, fault ≠ .notFound → file.content = .error fault → ByHand h (.error (.io fault)) r) := by
  intro r
  have byHand : ByHand h file.records r := loadHere_byHand hi file
  refine ⟨fun n => loadHere_applied_iff hi, fun n ha => ?_, fun log hf => ?_, fun hf => ?_, fun fault hn hf => ?_⟩
  · obtain ⟨records, hr, hn, hplaced⟩ := (loadHere_applied_iff hi).mp ha
    obtain ⟨x, hx⟩ := Index.exists_holds_iff.mpr hplaced
    exact ⟨records, hr, hn, loadHere_of_holds hi hr hx⟩
  · rwa [file.records_of_text hf] at byHand
  · rwa [file.records_of_missing hf] at byHand
  · rwa [file.records_of_fault hn hf] at byHand

/-- A host whose only subscriber knows of a message, with another load under way. What is selected ends before it
    starts. -/
def selectedBackwards : Host :=
  (start {} "ab\ncd").after [.attach, .subscribe, .openLoad,
    .closeLoad 0 (.ok [⟨"m", ⟨1, 1⟩, ⟨2, 2⟩, "x"⟩]) none, .select ⟨4, 1⟩, .openLoad]

def sameMessage : Log.File := ⟨"e", .ok "m,1:2,2:9,x\n"⟩

/-- The subscriber hears of the message again. With the caret past the end of the text there is none, and the
    subscriber hears of the diagnostics alone. -/
theorem loadHere_inStep_sameMessage :
    selectedBackwards.Idle ∧ selectedBackwards.session.message = some "x" ∧
      (selectedBackwards.step (.loadHere sameMessage)).answer = .outcome (.ok (.applied 1)) ∧
      (selectedBackwards.step (.loadHere sameMessage)).host.session.message = some "x" ∧
      (selectedBackwards.step (.loadHere sameMessage)).notices =
        [.event 0 ⟨.replaced 1, 3⟩ none, .event 0 ⟨.messageChanged (some "x"), 3⟩ none] ∧
      ByHand selectedBackwards (Log.read "m,1:2,2:9,x\n") (selectedBackwards.step (.loadHere sameMessage)) ∧
      ((selectedBackwards.after [.select (.caret 6)]).step (.loadHere sameMessage)).notices =
        [.event 0 ⟨.replaced 1, 3⟩ none] := by
  have idle : selectedBackwards.Idle := after_idle (start_idle _ _) _
  obtain ⟨-, inStep, byHand, -, -⟩ := loadHere_inStep idle sameMessage
  obtain ⟨-, inStep', -, -, -⟩ := loadHere_inStep (after_idle idle [.select (.caret 6)]) sameMessage
  have ha : (selectedBackwards.step (.loadHere sameMessage)).answer = .outcome (.ok (.applied 1)) := rfl
  obtain ⟨records, -, hn, hs⟩ := inStep 1 ha
  obtain ⟨records', -, hn', hs'⟩ := inStep' 1 rfl
  refine ⟨idle, rfl, ha, hs.message.trans rfl, ?_, byHand _ rfl, ?_⟩
  · rw [hs.told, hn]
    rfl
  · rw [hs'.told, hn']
    rfl

end Host

end CursorDiagnostics
