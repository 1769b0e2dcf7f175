/-
  CursorDiagnostics.Proofs.Host.Supersession — a load counts only while nothing newer has begun.

  The session counts its builds and loads, and a ticket is the count at which its load began. The
  counts here have no bound; a counter of 64 bits agrees with them up to its last value.
  - `after_sequence`: over a run the count grows by one for each step that begins a build or a load.
  - `tickets_kept`: a ticket keeps its number for the rest of the run.
  - `superseded_iff_bumped`: a load is superseded exactly if a build or a load has begun since, and then
    ending it leaves the host as it is.
  - `pairwise_issued`: the tickets of a run have rising counts.
-/

import CursorDiagnostics.Proofs.Host.Runs

namespace CursorDiagnostics

/-! ## The count -/

namespace Session

theorem closeLoad_sequence (s : Session) (t : Ticket) (records : Except Failure (List Record)) (text : String) :
    (s.closeLoad t records text).session.sequence = s.sequence := by
  rcases closeLoad_cases s t records text with ⟨-, h⟩ | ⟨-, _, _, -, -, h⟩ | ⟨-, _, -, h⟩ <;> rw [h] <;> rfl

theorem load_sequence (s : Session) (file : Log.File) (text : String) :
    (s.load file text).session.sequence = s.sequence + 1 := by
  rcases load_cases s file text with ⟨_, _, -, -, h, -⟩ | ⟨_, h, -⟩ <;> rw [h]

theorem observe_sequence (s : Session) (selection : Selection) :
    (s.observe selection).session.sequence = s.sequence := by rw [observe_session]

theorem invalidate_sequence (s : Session) : s.invalidate.session.sequence = s.sequence := by
  rw [invalidate_session]
  split <;> rfl

theorem loadAndObserve_sequence (s : Session) (file : Log.File) (text : String) (selection : Selection) :
    (s.loadAndObserve file text selection).session.sequence = s.sequence + 1 := by
  rw [loadAndObserve_session, ← load_sequence s file text]
  split
  · rw [observe_sequence]
  · rfl

end Session

def Step.bumps : Step → Bool
  | .startBuild | .openLoad | .load .. | .loadHere _ => true
  | _ => false

def Step.edits : Step → Bool
  | .observe _ | .invalidate | .select _ | .setText _ => true
  | _ => false

theorem Step.bumps_of_edits {s : Step} (h : s.edits = true) : s.bumps = false := by
  cases s with
  | startBuild | openLoad | load _ _ | loadHere _ => cases h
  | _ => rfl

def Answer.issued : Answer → Option Nat
  | .ticket _ n => some n
  | _ => none

namespace Host

theorem step_sequence (h : Host) (s : Step) :
    (h.step s).host.session.sequence = h.session.sequence + if s.bumps then 1 else 0 := by
  cases s with
  | closeLoad ticket records text =>
    simp only [step]
    split
    · exact Session.closeLoad_sequence _ _ _ _
    · rfl
  | load file text => exact Session.load_sequence _ _ _
  | loadHere file => exact Session.loadAndObserve_sequence _ _ _ _
  | observe selection => exact Session.observe_sequence _ _
  | invalidate => exact Session.invalidate_sequence _
  | select selection =>
    rw [step_select_session]
    split
    · exact Session.observe_sequence _ _
    · rfl
  | setText text =>
    rw [step_setText_session]
    split
    · exact Session.invalidate_sequence _
    · rfl
  | _ => rfl

theorem after_sequence (h : Host) (steps : List Step) :
    (h.after steps).session.sequence = h.session.sequence + steps.countP Step.bumps := by
  induction steps generalizing h with
  | nil => rfl
  | cons s steps ih =>
    rw [after_cons, ih, step_sequence, List.countP_cons]
    omega

/-! ## Tickets -/

/-- Only the begin of a load hands out a ticket. -/
theorem step_tickets {h : Host} {s : Step} (hs : s ≠ .openLoad) : (h.step s).host.tickets = h.tickets := by
  cases s with
  | openLoad => exact absurd rfl hs
  | closeLoad ticket records text =>
    simp only [step]
    split <;> rfl
  | select selection => rw [step_select_host]
  | setText text => rw [step_setText_host]
  | _ => rfl

theorem step_tickets_kept (h : Host) (s : Step) : h.tickets <+: (h.step s).host.tickets := by
  by_cases hs : s = .openLoad
  · subst hs
    exact List.prefix_append _ _
  · exact (step_tickets hs).symm ▸ List.prefix_refl _

theorem tickets_kept (h : Host) (steps : List Step) : h.tickets <+: (h.after steps).tickets := by
  induction steps generalizing h with
  | nil => exact List.prefix_refl _
  | cons s steps ih => exact (step_tickets_kept h s).trans (ih _)

/-- The ticket that a load is given keeps its number and its count. -/
theorem getElem?_tickets_after (h : Host) (steps : List Step) :
    (h.after (.openLoad :: steps)).tickets[h.tickets.length]? = some ⟨h.session.sequence + 1⟩ := by
  have hp := tickets_kept (h.step .openLoad).host steps
  have hk : (h.step .openLoad).host.tickets[h.tickets.length]? = some ⟨h.session.sequence + 1⟩ :=
    List.getElem?_concat_length
  rw [after_cons]
  obtain ⟨hlt, he⟩ := List.getElem?_eq_some_iff.mp hk
  rw [← he]
  exact List.prefix_iff_getElem?.mp hp _ hlt

theorem step_closeLoad {h : Host} {k : Nat} {t : Ticket} (ht : h.tickets[k]? = some t)
    (records : Except Failure (List Record)) (text : Option String) :
    h.step (.closeLoad k records text) =
      h.direct (h.session.closeLoad t records (text.getD h.buffer.text)) .outcome := by
  simp only [step, ht]

theorem closeLoad_superseded_iff {h : Host} {k : Nat} {t : Ticket} (ht : h.tickets[k]? = some t)
    (records : Except Failure (List Record)) (text : Option String) :
    (h.step (.closeLoad k records text)).answer = .outcome (.ok .superseded) ↔ t.sequence ≠ h.session.sequence := by
  rw [step_closeLoad ht]
  rcases Session.closeLoad_cases h.session t records (text.getD h.buffer.text) with
    ⟨hne, hc⟩ | ⟨he, _, x, -, -, hc⟩ | ⟨he, e, -, hc⟩
  · rw [hc]
    exact ⟨fun _ => hne, fun _ => rfl⟩
  · rw [hc]
    exact ⟨fun h => by simp [direct, Session.applyLoad] at h, fun hne => absurd he hne⟩
  · rw [hc]
    exact ⟨fun h => by simp [direct, Session.failLoad] at h, fun hne => absurd he hne⟩

/-- A superseded load leaves the host as it is, and nobody is told. -/
theorem closeLoad_of_superseded {h : Host} (hi : h.Idle) {k : Nat} {t : Ticket} (ht : h.tickets[k]? = some t)
    (hne : t.sequence ≠ h.session.sequence) (records : Except Failure (List Record)) (text : Option String) :
    (h.step (.closeLoad k records text)).host = h ∧ (h.step (.closeLoad k records text)).notices = [] := by
  have hc : h.session.closeLoad t records (text.getD h.buffer.text) = h.session.dropLoad t := if_pos hne
  rw [step_closeLoad ht, hc, direct_of_idle hi]
  exact ⟨rfl, rfl⟩

theorem load_not_superseded (h : Host) (file : Log.File) (text : Option String) :
    (h.step (.load file text)).answer ≠ .outcome (.ok .superseded) := by
  show Answer.outcome (h.session.load file (text.getD h.buffer.text)).result ≠ _
  rcases Session.load_cases h.session file (text.getD h.buffer.text) with ⟨_, _, -, -, -, hr⟩ | ⟨_, -, hr⟩ <;>
    simp [hr]

theorem loadHere_not_superseded (h : Host) (file : Log.File) :
    (h.step (.loadHere file)).answer ≠ .outcome (.ok .superseded) := by
  have hl := h.load_not_superseded file none
  show Answer.outcome (h.session.loadAndObserve file h.buffer.text h.buffer.selection).result ≠ _
  rw [Session.loadAndObserve_result]
  exact hl

/-! ## Runs of loads -/

theorem issued_step {h : Host} {s : Step} {n : Nat} (hn : (h.step s).answer.issued = some n) :
    n = (h.step s).host.session.sequence ∧ h.session.sequence < n := by
  cases s with
  | openLoad =>
    obtain rfl : h.session.sequence + 1 = n := Option.some.inj hn
    exact ⟨rfl, Nat.lt_succ_self _⟩
  | closeLoad ticket records text =>
    simp only [step] at hn
    split at hn <;> cases hn
  | select selection => rw [show (h.step (.select selection)).answer = .nothing from h.spread_answer _] at hn; cases hn
  | setText text => rw [show (h.step (.setText text)).answer = .nothing from h.spread_answer _] at hn; cases hn
  | _ => cases hn

theorem lt_of_mem_issued {h : Host} {steps : List Step} {n : Nat}
    (hn : n ∈ (h.run steps).filterMap (·.answer.issued)) : h.session.sequence < n := by
  induction steps generalizing h with
  | nil => cases hn
  | cons s steps ih =>
    obtain ⟨r, hr, hn⟩ := List.mem_filterMap.mp hn
    rcases List.mem_cons.mp hr with rfl | hr
    · exact (issued_step hn).2
    · have := ih (List.mem_filterMap.mpr ⟨r, hr, hn⟩)
      have := h.step_sequence s
      omega

theorem pairwise_issued (h : Host) (steps : List Step) :
    ((h.run steps).filterMap (·.answer.issued)).Pairwise (· < ·) := by
  induction steps generalizing h with
  | nil => exact List.Pairwise.nil
  | cons s steps ih =>
    rw [run, List.filterMap_cons]
    split
    · exact ih _
    · rename_i n hn
      refine List.pairwise_cons.mpr ⟨fun m hm => ?_, ih _⟩
      rw [(issued_step hn).1]
      exact lt_of_mem_issued hm

/-- A load that begins now is superseded after `steps` exactly if one of them begins a build or a load. -/
theorem closeLoad_after_superseded_iff (h : Host) (steps : List Step) (records : Except Failure (List Record))
    (text : Option String) :
    ((h.after (.openLoad :: steps)).step (.closeLoad h.tickets.length records text)).answer =
        .outcome (.ok .superseded) ↔ ∃ s ∈ steps, s.bumps = true := by
  rw [closeLoad_superseded_iff (h.getElem?_tickets_after steps), after_sequence, List.countP_cons,
    if_pos (show Step.openLoad.bumps = true from rfl), ← List.countP_pos_iff]
  show h.session.sequence + 1 ≠ _ ↔ _
  omega

/-- The load that begins after `before` is superseded exactly if a build or another load has begun since, and
    then it stays so and its end is not noticed. Edits and selections do not matter. A load that is done at once
    is superseded in no run, and the tickets of every run have rising counts. -/
theorem superseded_iff_bumped (settings : Settings) (text : String) :
    (∀ (before since : List Step) (k n : Nat),
      (((start settings text).after before).step .openLoad).answer = .ticket k n →
      let h := (start settings text).after (before ++ .openLoad :: since)
      (∀ records text,
        (h.step (.closeLoad k records text)).answer = .outcome (.ok .superseded) ↔ ∃ s ∈ since, s.bumps = true) ∧
      (∀ records text, (h.step (.closeLoad k records text)).answer = .outcome (.ok .superseded) →
        (h.step (.closeLoad k records text)).host = h ∧ (h.step (.closeLoad k records text)).notices = []) ∧
      (∀ records text, (h.step (.closeLoad k records text)).answer = .outcome (.ok .superseded) →
        ∀ later records' text',
          ((h.after later).step (.closeLoad k records' text')).answer = .outcome (.ok .superseded)) ∧
      ∀ s : Step, s.edits = true → ∀ records text,
        ((h.step s).host.step (.closeLoad k records text)).answer = .outcome (.ok .superseded) ↔
          (h.step (.closeLoad k records text)).answer = .outcome (.ok .superseded)) ∧
    ∀ steps,
      (∀ file text', (((start settings text).after steps).step (.load file text')).answer ≠
        .outcome (.ok .superseded)) ∧
      (∀ file, (((start settings text).after steps).step (.loadHere file)).answer ≠ .outcome (.ok .superseded)) ∧
      (((start settings text).run steps).filterMap (·.answer.issued)).Pairwise (· < ·) := by
  refine ⟨fun before since k n issued => ?_, fun steps =>
    ⟨load_not_superseded _, loadHere_not_superseded _, pairwise_issued _ steps⟩⟩
  intro h
  let h₀ := (start settings text).after before
  have hidle : h.Idle := after_idle (start_idle settings text) _
  have hk : h₀.tickets.length = k := by cases issued; rfl
  -- One fact about the load at any later time; the four about `h` are cases of it.
  have hh : ∀ later, h.after later = h₀.after (.openLoad :: (since ++ later)) := fun later => by
    simp only [h, h₀, ← after_append, List.append_assoc, List.cons_append]
  have key : ∀ later records text',
      ((h.after later).step (.closeLoad k records text')).answer = .outcome (.ok .superseded) ↔
        ∃ s ∈ since ++ later, s.bumps = true := fun later records text' => by
    rw [hh, ← hk]
    exact h₀.closeLoad_after_superseded_iff _ _ _
  have now : ∀ records text', (h.step (.closeLoad k records text')).answer = .outcome (.ok .superseded) ↔
      ∃ s ∈ since, s.bumps = true := fun records text' => by
    have := key [] records text'
    rwa [after_nil, List.append_nil] at this
  refine ⟨now, fun records text' hs => ?_, fun records text' hs later records' text'' => ?_,
    fun s hs records text' => ?_⟩
  · have ht := h₀.getElem?_tickets_after since
    rw [hk, ← List.append_nil since, ← hh, after_nil] at ht
    exact closeLoad_of_superseded hidle ht ((closeLoad_superseded_iff ht _ _).mp hs) _ _
  · obtain ⟨s, hmem, hb⟩ := (now records text').mp hs
    exact (key later records' text'').mpr ⟨s, List.mem_append_left _ hmem, hb⟩
  · rw [now, ← after_nil (h.step s).host, ← after_cons, key]
    simp [Step.bumps_of_edits hs]

/-- The load with the second ticket outlives an edit and a selection. A load that fails after it, done at
    once, supersedes it, and it stays superseded after another edit, whatever it is ended with. The first load of
    a new session, done at once, is not superseded. -/
theorem superseded_by_failed_load :
    (((start {} "a").after [.startBuild, .openLoad]).step .openLoad).answer = .ticket 1 3 ∧
      (((start {} "a").after [.startBuild, .openLoad, .openLoad, .setText (some "b"), .select (.caret 1)]).step
        (.closeLoad 1 (.ok []) none)).answer ≠ .outcome (.ok .superseded) ∧
      (((start {} "a").after [.startBuild, .openLoad, .openLoad, .loadHere ⟨"e", .ok "?"⟩]).step
        (.closeLoad 1 (.ok []) none)).answer = .outcome (.ok .superseded) ∧
      (((start {} "a").after [.startBuild, .openLoad, .openLoad, .loadHere ⟨"e", .ok "?"⟩, .invalidate]).step
        (.closeLoad 1 (.error (.io .isDirectory)) none)).answer = .outcome (.ok .superseded) ∧
      ((start {} "a").step (.load ⟨"e", .ok "m,1:1,1:1,x"⟩ none)).answer ≠ .outcome (.ok .superseded) := by
  have issued : (((start {} "a").after [.startBuild, .openLoad]).step .openLoad).answer = .ticket 1 3 := rfl
  obtain ⟨begun, atOnce⟩ := superseded_iff_bumped {} "a"
  have edited := (begun [.startBuild, .openLoad] [.setText (some "b"), .select (.caret 1)] 1 3 issued).1
  obtain ⟨loaded, -, stays, -⟩ := begun [.startBuild, .openLoad] [.loadHere ⟨"e", .ok "?"⟩] 1 3 issued
  have dropped := (loaded (.ok []) none).mpr ⟨_, List.mem_singleton.mpr rfl, rfl⟩
  refine ⟨issued, fun hs => ?_, dropped, stays _ _ dropped [.invalidate] _ none, (atOnce []).1 _ none⟩
  obtain ⟨s, hmem, hb⟩ := (edited (.ok []) none).mp hs
  simp only [List.mem_cons, List.not_mem_nil, or_false] at hmem
  rcases hmem with rfl | rfl <;> cases hb

end Host

end CursorDiagnostics
