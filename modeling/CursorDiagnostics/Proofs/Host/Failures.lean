/-
  CursorDiagnostics.Proofs.Host.Failures — a load that fails leaves the session as it was, and all that is said of
  it agrees.

  A load fails if its log did not read, or if a record of it has no place in the text, and the first such
  record decides (`Fault`). A load with a ticket leaves the whole host as it is; a load that is done at once
  has taken a sequence number before, so it supersedes the loads under way though it fails. The answer, the one
  event and the one error that is logged name the same failure (`Reply.Fails`). A log that is not there is no
  failure: it holds no records.
-/

import CursorDiagnostics.Proofs.Host.Supersession

namespace CursorDiagnostics

/-- A load that is ended with this cannot be applied: the log did not read, or the first of its records
    without a place in the text has none for the reason `e`. -/
def Fault (records : Except Failure (List Record)) (text : String) (e : Failure) : Prop :=
  records = .error e ∨ ∃ rs, records = .ok rs ∧ Index.FirstFault (.ofText text) rs e

theorem fault_iff {records : Except Failure (List Record)} {text : String} {e : Failure} :
    records.bind (Index.ofRecords (.ofText text)) = .error e ↔ Fault records text e := by
  unfold Fault
  simp only [← Index.ofRecords_eq_error_iff]
  exact bind_eq_error_iff

/-! ## Reading a file -/

namespace Log.File

/-- Reading a log logs no error: that is left to whoever loads it. -/
theorem level_of_mem_journal {f : File} {x : Entry} (hx : x ∈ f.journal) : x.level = .debug := by
  unfold journal at hx
  split at hx
  · obtain rfl := List.mem_singleton.mp hx
    rfl
  · obtain rfl := List.mem_singleton.mp hx
    rfl
  · cases hx

theorem records_of_missing {f : File} (hf : f.content = .error .notFound) : f.records = .ok [] := by
  rw [records, hf]

theorem records_of_text {f : File} {log : String} (hf : f.content = .ok log) : f.records = read log := by
  rw [records, hf]

theorem records_of_fault {f : File} {fault : IoFault} (hn : fault ≠ .notFound) (hf : f.content = .error fault) :
    f.records = .error (.io fault) := by
  rw [records, hf]
  cases fault with
  | notFound => exact absurd rfl hn
  | _ => rfl

theorem journal_filter (f : File) : f.journal.filter (·.level = .error) = [] := by
  rw [List.filter_eq_nil_iff]
  intro x hx
  simp [level_of_mem_journal hx]

end Log.File

/-! ## Loads that fail -/

namespace Session

theorem closeLoad_of_fault {s : Session} {t : Ticket} {records : Except Failure (List Record)} {text : String}
    {e : Failure} (ht : t.sequence = s.sequence) (hf : Fault records text e) :
    s.closeLoad t records text = s.failLoad e := by
  unfold closeLoad
  rw [if_neg (not_not.mpr ht), fault_iff.mpr hf]

theorem closeLoad_eq_error_iff {s : Session} {t : Ticket} {records : Except Failure (List Record)} {text : String}
    {e : Failure} :
    (s.closeLoad t records text).result = .error e ↔ t.sequence = s.sequence ∧ Fault records text e := by
  constructor
  · intro hr
    rcases s.closeLoad_cases t records text with ⟨-, h⟩ | ⟨-, _, _, -, -, h⟩ | ⟨ht, e', he, h⟩ <;> rw [h] at hr <;>
      cases hr
    exact ⟨ht, fault_iff.mp he⟩
  · intro ⟨ht, hf⟩
    rw [closeLoad_of_fault ht hf]
    rfl

/-- The load is ended with the ticket that it has just taken, so it is not superseded. -/
theorem load_of_fault {s : Session} {file : Log.File} {text : String} {e : Failure} (hf : Fault file.records text e) :
    s.load file text =
      let t := s.openLoad.session.failLoad e
      { t with journal := file.journal ++ t.journal } := by
  have hc := closeLoad_of_fault (s := s.openLoad.session) (t := s.openLoad.result) rfl hf
  unfold load Turn.andThen
  simp only [hc]
  rfl

theorem load_eq_error_iff {s : Session} {file : Log.File} {text : String} {e : Failure} :
    (s.load file text).result = .error e ↔ Fault file.records text e := by
  have hc : (s.load file text).result = .error e ↔ _ ∧ Fault file.records text e :=
    closeLoad_eq_error_iff (s := s.openLoad.session) (t := s.openLoad.result)
  rw [hc]
  exact and_iff_right rfl

/-- With nothing loaded there is nothing to look at, and with a failure nobody looks. -/
theorem loadAndObserve_of_error {s : Session} {file : Log.File} {text : String} {e : Failure}
    (hr : (s.load file text).result = .error e) (selection : Selection) :
    s.loadAndObserve file text selection = s.load file text := by
  unfold loadAndObserve Turn.andThen
  cases hl : s.load file text with
  | mk session result events journal =>
    rw [hl] at hr
    obtain rfl : result = .error e := hr
    simp

/-! ## A log that is not there -/

theorem load_of_missing {s : Session} {file : Log.File} (hf : file.content = .error .notFound) (text : String) :
    s.load file text =
      let t := s.openLoad.session.applyLoad .empty
      { t with journal := file.journal ++ t.journal } :=
  load_of_holds (file.records_of_missing hf) (Index.ofRecords_eq_ok_iff.mp rfl)

/-- With no diagnostics there is no message, wherever one looks. -/
theorem loadAndObserve_of_missing {s : Session} {file : Log.File} (hf : file.content = .error .notFound) (text : String)
    (selection : Selection) : s.loadAndObserve file text selection = s.load file text := by
  have ho : (s.load file text).session.observe selection = ⟨(s.load file text).session, none, [], []⟩ := by
    rw [load_of_missing hf, observe]
    exact if_pos rfl
  have hr : (s.load file text).result = .ok (.applied 0) := by rw [load_of_missing hf]; rfl
  rw [loadAndObserve_of_ok hr]
  simp only [ho, List.append_nil, ← hr]

end Session

namespace Host

/-! ## Replies -/

/-- A load fails for the reason `e` and leaves the host as `kept`. The answer, the one event that every subscriber
    is told and the one error that is logged name `e`, and the diagnostics that are left are counted. -/
structure Fails (e : Failure) (kept : Host) (r : Reply) : Prop where
  answer : r.answer = .outcome (.error e)
  host : r.host = kept
  told : r.notices =
    (List.range kept.session.subscribers).map fun i => .event i ⟨.loadFailed e.message, kept.session.sequence⟩ none
  logged : r.journal.filter (·.level = .error) =
    [⟨.error, Log.target, "failed to load diagnostics, keeping previous set",
      [("error", e.message), ("kept", toString kept.session.index.length)]⟩]

def bumped (h : Host) : Host := { h with session := { h.session with sequence := h.session.sequence + 1 } }

theorem closeLoad_fails_iff {h : Host} {k : Nat} {records : Except Failure (List Record)} {given : Option String}
    {e : Failure} :
    (h.step (.closeLoad k records given)).answer = .outcome (.error e) ↔
      ∃ t, h.tickets[k]? = some t ∧ t.sequence = h.session.sequence ∧ Fault records (given.getD h.buffer.text) e := by
  cases ht : h.tickets[k]? with
  | none =>
    have hs : h.step (.closeLoad k records given) = { host := h } := by simp only [step, ht]
    rw [hs]
    simp
  | some t =>
    rw [step_closeLoad ht]
    simp [direct, Session.closeLoad_eq_error_iff]

theorem fails_of_closeLoad {h : Host} (hi : h.Idle) {k : Nat} {records : Except Failure (List Record)}
    {given : Option String} {e : Failure} (ha : (h.step (.closeLoad k records given)).answer = .outcome (.error e)) :
    Fails e h (h.step (.closeLoad k records given)) := by
  obtain ⟨t, ht, hseq, hf⟩ := closeLoad_fails_iff.mp ha
  have hs := step_closeLoad ht records given
  rw [Session.closeLoad_of_fault hseq hf, direct_of_idle hi] at hs
  exact ⟨ha, by rw [hs]; rfl, by rw [hs]; exact deliver_singleton _ _ _, by rw [hs]; rfl⟩

theorem load_fails_iff {h : Host} {file : Log.File} {given : Option String} {e : Failure} :
    (h.step (.load file given)).answer = .outcome (.error e) ↔ Fault file.records (given.getD h.buffer.text) e := by
  rw [← Session.load_eq_error_iff (s := h.session)]
  simp [step, direct]

theorem fails_of_load {h : Host} (hi : h.Idle) {file : Log.File} {given : Option String} {e : Failure}
    (ha : (h.step (.load file given)).answer = .outcome (.error e)) :
    Fails e h.bumped (h.step (.load file given)) := by
  have hl := Session.load_of_fault (s := h.session) (load_fails_iff.mp ha)
  have hs : h.step (.load file given) = h.direct (h.session.load file (given.getD h.buffer.text)) .outcome := rfl
  rw [hl, direct_of_idle hi] at hs
  refine ⟨ha, by rw [hs]; rfl, by rw [hs]; exact deliver_singleton _ _ _, ?_⟩
  rw [hs]
  show (file.journal ++ _).filter _ = _
  rw [List.filter_append, file.journal_filter]
  rfl

/-- A load for the buffer differs from one for a text only in what it looks at when it has loaded something. -/
theorem loadHere_eq_load {h : Host} {file : Log.File}
    (hf : (∃ e, (h.step (.load file none)).answer = .outcome (.error e)) ∨ file.content = .error .notFound) :
    h.step (.loadHere file) = h.step (.load file none) := by
  have hl : h.session.loadAndObserve file h.buffer.text h.buffer.selection = h.session.load file h.buffer.text := by
    rcases hf with ⟨e, ha⟩ | hf
    · exact Session.loadAndObserve_of_error (Session.load_eq_error_iff.mpr (load_fails_iff.mp ha)) _
    · exact Session.loadAndObserve_of_missing hf _ _
  simp only [step, hl, Option.getD_none]

/-- No ticket is ahead of the session's count. -/
theorem sequence_le_of_ticket (settings : Settings) (text : String) (steps : List Step) :
    ∀ t ∈ ((start settings text).after steps).tickets,
      t.sequence ≤ ((start settings text).after steps).session.sequence := by
  refine after_of_steps_keep (P := fun h => ∀ t ∈ h.tickets, t.sequence ≤ h.session.sequence)
    (fun t ht => absurd ht List.not_mem_nil) fun s _ h hp t ht => ?_
  have hle : h.session.sequence ≤ (h.step s).host.session.sequence := by
    rw [step_sequence]
    exact Nat.le_add_right _ _
  by_cases hs : s = .openLoad
  · subst hs
    rcases List.mem_append.mp ht with ht | ht
    · exact Nat.le_trans (hp t ht) hle
    · obtain rfl := List.mem_singleton.mp ht
      exact Nat.le_refl _
  · rw [step_tickets hs] at ht
    exact Nat.le_trans (hp t ht) hle

/-- A load that fails supersedes every load under way. -/
theorem superseded_of_bumped {settings : Settings} {text : String} {steps : List Step} {k : Nat}
    (hk : k < ((start settings text).after steps).tickets.length) (records : Except Failure (List Record))
    (given : Option String) :
    (((start settings text).after steps).bumped.step (.closeLoad k records given)).answer =
      .outcome (.ok .superseded) := by
  have ht : ((start settings text).after steps).tickets[k]? = some _ := List.getElem?_eq_getElem hk
  have hle := sequence_le_of_ticket settings text steps _ (List.getElem_mem hk)
  refine (closeLoad_superseded_iff (h := ((start settings text).after steps).bumped) ht records given).mpr ?_
  show _ ≠ ((start settings text).after steps).session.sequence + 1
  omega

/-! ## Runs -/

/-- A load with a ticket fails exactly if the ticket is the newest and the load has a fault, for the reason of that
    fault. Then the host stays as it is, and the answer, the one event and the one error in the journal name the
    reason. A load that is done at once fails for the same reasons and in the same way, but it has taken a sequence
    number, so the loads under way are superseded; one for the buffer looks at no selection then. A log that is
    not there is loaded like an empty one. -/
theorem failed_load_keeps (settings : Settings) (text : String) (steps : List Step) :
    let h := (start settings text).after steps
    (∀ k records given e,
      (h.step (.closeLoad k records given)).answer = .outcome (.error e) ↔
        ∃ t, h.tickets[k]? = some t ∧ t.sequence = h.session.sequence ∧ Fault records (given.getD h.buffer.text) e) ∧
    (∀ k records given e, (h.step (.closeLoad k records given)).answer = .outcome (.error e) →
      Fails e h (h.step (.closeLoad k records given))) ∧
    (∀ file given e,
      (h.step (.load file given)).answer = .outcome (.error e) ↔ Fault file.records (given.getD h.buffer.text) e) ∧
    (∀ file given e, (h.step (.load file given)).answer = .outcome (.error e) →
      Fails e h.bumped (h.step (.load file given)) ∧
      ∀ k < h.tickets.length, ∀ records given',
        ((h.step (.load file given)).host.step (.closeLoad k records given')).answer = .outcome (.ok .superseded)) ∧
    (∀ file, (h.step (.loadHere file)).answer = (h.step (.load file none)).answer ∧
      ∀ e, (h.step (.loadHere file)).answer = .outcome (.error e) →
        h.step (.loadHere file) = h.step (.load file none)) ∧
    ∀ file, file.content = .error .notFound →
      (∀ given,
        (h.step (.load file given)).answer = .outcome (.ok (.applied 0)) ∧
        (h.step (.load file given)).host.session = { h.bumped.session with index := .empty, message := none } ∧
        (h.step (.load file given)).notices =
          (List.range h.session.subscribers).map (fun i => .event i ⟨.replaced 0, h.bumped.session.sequence⟩ none) ∧
        ∀ x ∈ (h.step (.load file given)).journal, x.level ≠ .error) ∧
      h.step (.loadHere file) = h.step (.load file none) := by
  intro h
  have hi : h.Idle := after_idle (start_idle settings text) steps
  have here : ∀ file, (h.step (.loadHere file)).answer = (h.step (.load file none)).answer := fun file =>
    congrArg Answer.outcome (Session.loadAndObserve_result _ _ _ _)
  refine ⟨fun k records given e => closeLoad_fails_iff, fun k records given e => fails_of_closeLoad hi,
    fun file given e => load_fails_iff, fun file given e ha => ⟨fails_of_load hi ha, fun k hk records given' => ?_⟩,
    fun file => ⟨here file, fun e ha => loadHere_eq_load (Or.inl ⟨e, here file ▸ ha⟩)⟩,
    fun file hf => ⟨fun given => ?_, loadHere_eq_load (Or.inr hf)⟩⟩
  · rw [(fails_of_load hi ha).host]
    exact superseded_of_bumped hk records given'
  · have hl := Session.load_of_missing (s := h.session) hf (given.getD h.buffer.text)
    have hs : h.step (.load file given) = h.direct (h.session.load file (given.getD h.buffer.text)) .outcome := rfl
    rw [hl, direct_of_idle hi] at hs
    rw [hs]
    refine ⟨rfl, rfl, deliver_singleton _ _ _, fun x hx => ?_⟩
    rcases List.mem_append.mp hx with hx | hx
    · simp [Log.File.level_of_mem_journal hx]
    · obtain rfl := List.mem_singleton.mp hx
      simp

def loadUnderWay : List Step :=
  [.attach, .subscribe, .openLoad, .closeLoad 0 (.ok [⟨"m", ⟨1, 1⟩, ⟨1, 2⟩, "x"⟩]) none, .select (.caret 1), .openLoad]

/-- The second record of the load has no place in the text, and the first is not applied either. A log that does
    not read supersedes the load under way, and one that is not there is loaded. -/
theorem failed_load_keeps_message :
    let h := (start {} "ab").after loadUnderWay
    let bad : Except Failure (List Record) := .ok [⟨"m", ⟨1, 1⟩, ⟨1, 1⟩, "y"⟩, ⟨"m", ⟨1, 1⟩, ⟨9, 1⟩, "z"⟩]
    h.session.message = some "x" ∧
      Fails (.outOfRange 9 1) h (h.step (.closeLoad 1 bad none)) ∧
      (h.step (.closeLoad 1 bad none)).notices =
        [.event 0 ⟨.loadFailed "line 9 is outside the document (1..=1)", 2⟩ none] ∧
      Fails (.malformedLine 1 "?") h.bumped (h.step (.loadHere ⟨"e", .ok "?"⟩)) ∧
      ((h.step (.loadHere ⟨"e", .ok "?"⟩)).host.step (.closeLoad 1 bad none)).answer = .outcome (.ok .superseded) ∧
      (h.step (.loadHere ⟨"e", .error .notFound⟩)).answer = .outcome (.ok (.applied 0)) := by
  intro h bad
  obtain ⟨-, closed, -, loaded, loadedHere, missing⟩ := failed_load_keeps {} "ab" loadUnderWay
  have same : h.step (.loadHere ⟨"e", .ok "?"⟩) = h.step (.load ⟨"e", .ok "?"⟩ none) :=
    (loadedHere _).2 (.malformedLine 1 "?") rfl
  have malformed := loaded ⟨"e", .ok "?"⟩ none (.malformedLine 1 "?") rfl
  obtain ⟨absent, sameAbsent⟩ := missing ⟨"e", .error .notFound⟩ rfl
  have failed := closed 1 bad none (.outOfRange 9 1) rfl
  refine ⟨rfl, failed, failed.told.trans rfl, ?_, ?_, ?_⟩
  · rw [same]
    exact malformed.1
  · rw [same]
    exact malformed.2 1 (by decide) bad none
  · rw [sameAbsent]
    exact (absent none).1

end Host

end CursorDiagnostics
