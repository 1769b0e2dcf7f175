/-
  CursorDiagnostics.Proofs.Host.Message — the message that a session remembers is the one to be looked up.

  The session remembers a message from the last selection that was reported to it (`Reports`), and the
  diagnostics may have changed since (`Changes`). A step that reports no selection leaves the message and
  the index as they are, or it changes the diagnostics and forgets the message (`step_of_not_reports`).
  So the message is none or the one that the last selection reported has now, and it is that one as long
  as nothing has changed (`message_after_run`); the status line and the popup then agree.
-/

import CursorDiagnostics.Proofs.Host.Moves
import CursorDiagnostics.Proofs.Host.Provenance
import CursorDiagnostics.Proofs.Host.Supersession

namespace CursorDiagnostics.Host

/-! ## Steps -/

/-- The step tells the session that this is selected: directly, in a buffer that it hears, or after a load
    for the buffer that does not fail. -/
def Reports (selection : Selection) (h : Host) : Step → Prop
  | .observe selected => selected = selection
  | .select selected => h.Hears .selection ∧ selected = selection
  | .loadHere file =>
    (∃ o, (h.step (.loadHere file)).answer = .outcome (.ok o)) ∧ h.buffer.selection = selection
  | _ => False

def Changes (h : Host) (s : Step) : Prop :=
  s = .startBuild ∨ (Drops h s ∧ h.session.index.isEmpty = false) ∨ ∃ records text, Applies records text h s

theorem message_of_reports {h : Host} {s : Step} {selection : Selection} (hr : Reports selection h s) :
    (h.step s).host.session.message = (h.step s).host.look selection := by
  cases s with
  | observe selected =>
    obtain rfl : selected = selection := hr
    show (h.session.observe selected).session.message =
      (h.session.observe selected).session.index.messageFor selected.start selected.stop
    rw [Session.observe_session]
  | select selected =>
    obtain ⟨hh, rfl⟩ : h.Hears .selection ∧ selected = selection := hr
    rw [look, step_select_session, if_pos hh, Session.observe_session]
  | loadHere file =>
    obtain ⟨⟨o, ho⟩, rfl⟩ : (∃ o, _) ∧ h.buffer.selection = selection := hr
    have hok := Answer.outcome.inj ho
    show (h.session.loadAndObserve file h.buffer.text h.buffer.selection).session.message =
      (h.session.loadAndObserve file h.buffer.text h.buffer.selection).session.index.messageFor _ _
    rcases h.session.loadAndObserve_cases file h.buffer.text h.buffer.selection with
      ⟨_, _, -, -, hs, -⟩ | ⟨e, -, hr⟩
    · rw [hs]
    · rw [hr] at hok
      cases hok
  | _ => exact hr.elim

/-- An edit that the session hears of drops the diagnostics and the message, or there are none. -/
theorem invalidate_cases {s : Session} (hq : s.Quiet) :
    (s.index.isEmpty = false ∧ s.invalidate.session.message = none) ∨ s.invalidate.session = s := by
  rw [Session.invalidate_session]
  by_cases he : s.index.isEmpty = true
  · exact Or.inr (if_pos ⟨he, hq he⟩)
  · rw [if_neg fun h => he h.1]
    exact Or.inl ⟨Bool.eq_false_iff.mpr he, rfl⟩

/-- A load that is applied forgets the message, and one that is not leaves it with the diagnostics. -/
def Forgets (s : Session) (records : Except Failure (List Record)) (t : Turn (Except Failure Outcome)) : Prop :=
  (∃ rs count, records = .ok rs ∧ t.result = .ok (.applied count) ∧ t.session.message = none) ∨
  (t.session.message = s.message ∧ t.session.index = s.index)

theorem closeLoad_forgets (s : Session) (t : Ticket) (records : Except Failure (List Record)) (text : String) :
    Forgets s records (s.closeLoad t records text) := by
  rcases s.closeLoad_cases t records text with ⟨-, hc⟩ | ⟨-, rs, x, hrs, -, hc⟩ | ⟨-, e, -, hc⟩ <;> rw [hc]
  · exact Or.inr ⟨rfl, rfl⟩
  · exact Or.inl ⟨rs, x.length, hrs, rfl, rfl⟩
  · exact Or.inr ⟨rfl, rfl⟩

theorem load_forgets (s : Session) (file : Log.File) (text : String) :
    Forgets s file.records (s.load file text) :=
  closeLoad_forgets s.openLoad.session s.openLoad.result file.records text

theorem step_of_forgets {h : Host} {s : Step} {records : Except Failure (List Record)} {text : String}
    {t : Turn (Except Failure Outcome)} (hg : h.given s = some (records, text)) (hr : h.step s = h.direct t .outcome)
    (ht : Forgets h.session records t) :
    (Changes h s ∧ (h.step s).host.session.message = none) ∨
    ((h.step s).host.session.message = h.session.message ∧ (h.step s).host.session.index = h.session.index) := by
  rcases ht with ⟨rs, count, hrs, hc, hm⟩ | ⟨hm, hi⟩
  · have happ : Applies rs text h s := ⟨by rw [hg, hrs], count, by rw [hr]; exact congrArg Answer.outcome hc⟩
    rw [hr]
    exact Or.inl ⟨Or.inr (Or.inr ⟨rs, text, happ⟩), hm⟩
  · rw [hr]
    exact Or.inr ⟨hm, hi⟩

/-- A step that reports no selection changes the diagnostics and forgets the message, or leaves both. -/
theorem step_of_not_reports {h : Host} {s : Step} (hq : h.session.Quiet) (hn : ∀ selection, ¬ Reports selection h s) :
    (Changes h s ∧ (h.step s).host.session.message = none) ∨
    ((h.step s).host.session.message = h.session.message ∧ (h.step s).host.session.index = h.session.index) := by
  cases s with
  | startBuild => exact Or.inl ⟨Or.inl rfl, rfl⟩
  | closeLoad ticket records text =>
    cases ht : h.tickets[ticket]? with
    | none =>
      have hs : (h.step (.closeLoad ticket records text)).host = h := by simp only [step, ht]
      rw [hs]
      exact Or.inr ⟨rfl, rfl⟩
    | some t => exact step_of_forgets rfl (step_closeLoad ht records text) (closeLoad_forgets _ t records _)
  | load file text => exact step_of_forgets rfl rfl (load_forgets _ file _)
  | loadHere file =>
    -- A load for the buffer that does not fail reports what is selected there, so this one has failed.
    rcases h.session.loadAndObserve_cases file h.buffer.text h.buffer.selection with
      ⟨_, x, -, -, -, hr⟩ | ⟨e, hs, -⟩
    · exact absurd ⟨⟨_, congrArg Answer.outcome hr⟩, rfl⟩ (hn h.buffer.selection)
    · have hl : (h.step (.loadHere file)).host.session =
          (h.session.loadAndObserve file h.buffer.text h.buffer.selection).session := rfl
      rw [hl, hs]
      exact Or.inr ⟨rfl, rfl⟩
  | observe selection => exact absurd rfl (hn selection)
  | invalidate =>
    rcases invalidate_cases hq with ⟨he, hm⟩ | hs
    · exact Or.inl ⟨Or.inr (Or.inl ⟨trivial, he⟩), hm⟩
    · exact Or.inr ⟨congrArg Session.message hs, congrArg Session.index hs⟩
  | select selection =>
    rw [step_select_session, if_neg fun hh => hn selection ⟨hh, rfl⟩]
    exact Or.inr ⟨rfl, rfl⟩
  | setText text =>
    rw [step_setText_session]
    split
    · next hh =>
      rcases invalidate_cases hq with ⟨he, hm⟩ | hs
      · exact Or.inl ⟨Or.inr (Or.inl ⟨hh, he⟩), hm⟩
      · rw [hs]
        exact Or.inr ⟨rfl, rfl⟩
    · exact Or.inr ⟨rfl, rfl⟩
  | _ => exact Or.inr ⟨rfl, rfl⟩

/-! ## Runs -/

def ReportedLast (h : Host) (steps : List Step) (i : Nat) (selection : Selection) : Prop :=
  h.At steps i (Reports selection) ∧ ∀ j selected, i < j → ¬ h.At steps j (Reports selected)

/-- A step after the last report, in a run from the start, changes the diagnostics or leaves them and the message. -/
theorem step_after_last {settings : Settings} {text : String} {steps : List Step} {j : Nat} (hj : j < steps.length)
    (hn : ∀ selection, ¬ (start settings text).At steps j (Reports selection)) :
    (start settings text).At steps j fun h s =>
      (Changes h s ∧ (h.step s).host.session.message = none) ∨
      ((h.step s).host.session.message = h.session.message ∧ (h.step s).host.session.index = h.session.index) := by
  have hs := List.getElem?_eq_getElem hj
  exact ⟨_, hs, step_of_not_reports (quiet_after _ _ _) fun selection hr => hn selection ⟨_, hs, hr⟩⟩

theorem message_of_none_reported {settings : Settings} {text : String} {steps : List Step}
    (hn : ∀ i selection, ¬ (start settings text).At steps i (Reports selection)) :
    ((start settings text).after steps).session.message = none := by
  refine after_of_kept (P := fun h => h.session.message = none) rfl fun i hi => ?_
  obtain ⟨s, hs, h⟩ := step_after_last hi (hn i)
  refine ⟨s, hs, fun hp => ?_⟩
  rcases h with ⟨-, hm⟩ | ⟨hm, -⟩
  · exact hm
  · rw [hm, hp]

/-- The message is none, or the one that the last selection reported has now. -/
theorem message_of_reportedLast {settings : Settings} {text : String} {steps : List Step} {i : Nat}
    {selection : Selection} (hl : (start settings text).ReportedLast steps i selection) :
    ((start settings text).after steps).session.message = none ∨
      ((start settings text).after steps).session.message = ((start settings text).after steps).look selection := by
  obtain ⟨⟨s, hs, hr⟩, hn⟩ := hl
  refine At.after (P := fun h => h.session.message = none ∨ h.session.message = h.look selection)
    ⟨s, hs, Or.inr (message_of_reports hr)⟩ fun j hij hj => ?_
  obtain ⟨s', hs', h⟩ := step_after_last hj fun selected => hn j selected hij
  refine ⟨s', hs', fun hp => ?_⟩
  rcases h with ⟨-, hm⟩ | ⟨hm, hx⟩
  · exact Or.inl hm
  · rwa [look, hm, hx]

/-- As long as nothing has changed since, the message is the one of the last selection reported. -/
theorem message_of_unchanged {settings : Settings} {text : String} {steps : List Step} {i : Nat}
    {selection : Selection} (hl : (start settings text).ReportedLast steps i selection)
    (hc : ∀ j, i < j → ¬ (start settings text).At steps j Changes) :
    ((start settings text).after steps).session.message = ((start settings text).after steps).look selection := by
  obtain ⟨⟨s, hs, hr⟩, hn⟩ := hl
  refine At.after (P := fun h => h.session.message = h.look selection) ⟨s, hs, message_of_reports hr⟩
    fun j hij hj => ?_
  obtain ⟨s', hs', h⟩ := step_after_last hj fun selected => hn j selected hij
  refine ⟨s', hs', fun hp => ?_⟩
  rcases h with ⟨hch, -⟩ | ⟨hm, hx⟩
  · exact absurd ⟨s', hs', hch⟩ (hc j hij)
  · rwa [look, hm, hx]

theorem look_eq_none_of_isEmpty {h : Host} (he : h.session.index.isEmpty = true) (selection : Selection) :
    h.look selection = none := Session.messageFor_of_isEmpty he _ _

/-! ## What is shown -/

theorem shown_eq_some_iff {message : Option String} {m : String} :
    shown message = some m ↔ message = some m ∧ m ≠ "" := by
  cases message with
  | none => simp [shown]
  | some a => simp [shown, Option.filter_eq_some_iff]

theorem shown_eq_none_iff {message : Option String} : shown message = none ↔ ∀ m, message = some m → m = "" := by
  rw [Option.eq_none_iff_forall_ne_some]
  refine forall_congr' fun m => ?_
  rw [Ne, shown_eq_some_iff, not_and_not_right]

theorem settings_after (settings : Settings) (text : String) (steps : List Step) :
    ((start settings text).after steps).session.settings = settings :=
  ((start settings text).run_moves steps).settings_eq

theorem showStatus_of_shown {h : Host} {m : String} (hs : shown h.session.message = some m) :
    (h.step .showStatus).answer = .requests [.status (.set h.session.settings.regionKey m)] := by
  simp only [step, Session.status, Status.ofMessage, hs]

theorem showStatus_of_none_shown {h : Host} (hs : shown h.session.message = none) :
    (h.step .showStatus).answer = .requests [.status (.erase h.session.settings.regionKey)] := by
  simp only [step, Session.status, Status.ofMessage, hs]

theorem showPopup_of_shown {h : Host} {selection : Selection} {m : String} (hs : shown (h.look selection) = some m) :
    (h.step (.showPopup selection)).answer =
      .requests [.popup (.visible m h.session.settings.popupMaxWidth)] := by
  rw [look] at hs
  simp only [step, Session.popup, Popup.ofMessage, hs]

theorem showPopup_of_none_shown {h : Host} {selection : Selection} (hs : shown (h.look selection) = none) :
    (h.step (.showPopup selection)).answer = .requests [.popup .hidden] := by
  rw [look] at hs
  simp only [step, Session.popup, Popup.ofMessage, hs]

/-- What the status line sets is the message, and it is not empty. -/
theorem shown_of_showStatus {h : Host} {key m : String}
    (hs : (h.step .showStatus).answer = .requests [.status (.set key m)]) : shown h.session.message = some m := by
  cases hm : shown h.session.message with
  | none => rw [showStatus_of_none_shown hm] at hs; cases hs
  | some m' => rw [showStatus_of_shown hm] at hs; cases hs; rfl

/-- With no selection reported there is no message. Otherwise the message is none or the one that the selection
    reported last has in the diagnostics of now, and what the status line sets the popup shows. As long as no
    build has started, no diagnostics have been dropped for an edit and no load has been applied since that
    report, the message is the one of the selection, and the status line and the popup show it unless it is empty
    or there is none. -/
theorem message_after_run (settings : Settings) (text : String) (steps : List Step) :
    let h := (start settings text).after steps
    ((∀ i selection, ¬ (start settings text).At steps i (Reports selection)) → h.session.message = none) ∧
    ∀ i selection, (start settings text).ReportedLast steps i selection →
      (∀ m, h.session.message = some m → h.session.index.isEmpty = false ∧ h.look selection = some m) ∧
      (∀ key m, (h.step .showStatus).answer = .requests [.status (.set key m)] →
        (h.step (.showPopup selection)).answer = .requests [.popup (.visible m settings.popupMaxWidth)]) ∧
      ((∀ j, i < j → ¬ (start settings text).At steps j Changes) →
        h.session.message = h.look selection ∧
        ((∃ m, m ≠ "" ∧ h.look selection = some m ∧
            (h.step .showStatus).answer = .requests [.status (.set settings.regionKey m)] ∧
            (h.step (.showPopup selection)).answer = .requests [.popup (.visible m settings.popupMaxWidth)]) ∨
          ((∀ m, h.look selection = some m → m = "") ∧
            (h.step .showStatus).answer = .requests [.status (.erase settings.regionKey)] ∧
            (h.step (.showPopup selection)).answer = .requests [.popup .hidden]))) := by
  intro h
  have hset : h.session.settings = settings := settings_after settings text steps
  refine ⟨message_of_none_reported, fun i selection hl => ?_⟩
  have current : ∀ m, h.session.message = some m → h.look selection = some m := fun m hm => by
    rcases message_of_reportedLast hl with hn | hs
    · rw [hm] at hn
      cases hn
    · rw [← hs, hm]
  refine ⟨fun m hm => ⟨Bool.eq_false_iff.mpr fun he => ?_, current m hm⟩, fun key m hs => ?_, fun hc => ?_⟩
  · have := current m hm
    rw [look_eq_none_of_isEmpty he] at this
    cases this
  · obtain ⟨hm, hne⟩ := shown_eq_some_iff.mp (shown_of_showStatus hs)
    rw [← hset]
    exact showPopup_of_shown (shown_eq_some_iff.mpr ⟨current m hm, hne⟩)
  · have hm := message_of_unchanged hl hc
    refine ⟨hm, ?_⟩
    rw [← hset]
    cases hs : shown (h.look selection) with
    | some m =>
      obtain ⟨hlook, hne⟩ := shown_eq_some_iff.mp hs
      exact Or.inl ⟨m, hne, hlook, showStatus_of_shown (hm ▸ hs), showPopup_of_shown hs⟩
    | none =>
      exact Or.inr ⟨shown_eq_none_iff.mp hs, showStatus_of_none_shown (hm ▸ hs), showPopup_of_none_shown hs⟩

def caretInRecord : List Step :=
  [.attach, .openLoad, .closeLoad 0 (.ok [⟨"m", ⟨1, 1⟩, ⟨1, 2⟩, "x"⟩]) none, .select (.caret 1), .openLoad,
    .closeLoad 1 (.error (.io .isDirectory)) none]

/-- The message of the caret outlives the failed load, and there is none before the caret has moved. -/
theorem message_after_caretInRecord :
    (start {} "ab").ReportedLast caretInRecord 3 (.caret 1) ∧
      ((start {} "ab").after caretInRecord).session.message = some "x" ∧
      ((start {} "ab").after caretInRecord).session.index.isEmpty = false ∧
      (((start {} "ab").after caretInRecord).step .showStatus).answer =
        .requests [.status (.set "silicon-errors" "x")] ∧
      (((start {} "ab").after caretInRecord).step (.showPopup (.caret 1))).answer =
        .requests [.popup (.visible "x" 680)] ∧
      ((start {} "ab").after (caretInRecord.take 3)).session.message = none := by
  have last : (start {} "ab").ReportedLast caretInRecord 3 (.caret 1) := by
    refine ⟨⟨_, rfl, by decide, rfl⟩, fun j selected hj hat => ?_⟩
    have hlt : j < 6 := hat.lt
    obtain ⟨s, hs, hr⟩ := hat
    obtain rfl | rfl : j = 4 ∨ j = 5 := by omega
    all_goals cases hs; exact hr
  have unchanged : ∀ j, 3 < j → ¬ (start {} "ab").At caretInRecord j Changes := fun j hj hat => by
    have hlt : j < 6 := hat.lt
    obtain ⟨s, hs, hc⟩ := hat
    obtain rfl | rfl : j = 4 ∨ j = 5 := by omega
    all_goals
      cases hs
      rcases hc with hc | ⟨hc, -⟩ | ⟨_, _, hc, -⟩
      · cases hc
      · exact hc
      · cases hc
  obtain ⟨-, reported⟩ := message_after_run {} "ab" caretInRecord
  obtain ⟨current, popup, now⟩ := reported 3 _ last
  have hm : ((start {} "ab").after caretInRecord).session.message = some "x" := (now unchanged).1.trans rfl
  have hs : (((start {} "ab").after caretInRecord).step .showStatus).answer =
      .requests [.status (.set "silicon-errors" "x")] := showStatus_of_shown (hm ▸ rfl)
  refine ⟨last, hm, (current _ hm).1, hs, popup _ _ hs, (message_after_run {} "ab" (caretInRecord.take 3)).1 ?_⟩
  intro i selection hat
  have hlt : i < 3 := hat.lt
  obtain ⟨s, hs, hr⟩ := hat
  obtain rfl | rfl | rfl : i = 0 ∨ i = 1 ∨ i = 2 := by omega
  all_goals cases hs; exact hr

end CursorDiagnostics.Host
