/-
  CursorDiagnostics.Proofs.Host.Provenance — where the diagnostics of a host come from.

  A step applies a load, drops the diagnostics, or leaves them alone:
  - `index_of_applies`: after a load is applied the index holds its records in its text.
  - `index_of_drops`: after a build start, or an edit that the session hears of, it is empty.
  - `index_of_leaves`: after any other step it is what it was.

  So the index is that of the last load applied since the last drop (`index_after_run`).
-/

import CursorDiagnostics.Proofs.Host.Runs
import Mathlib.Data.List.Induction

namespace CursorDiagnostics

def Index.Aligned (x : Index) : Prop := x.spans.length = x.messages.length

theorem Index.aligned_empty : empty.Aligned := rfl

theorem Index.Holds.aligned {x : Index} {d : Document} {records : List Record} (h : x.Holds d records) : x.Aligned := by
  rw [Aligned, h.messages, List.length_map, h.spans.length_eq]

theorem Index.eq_empty_of_isEmpty {x : Index} (ha : x.Aligned) (h : x.isEmpty = true) : x = empty := by
  obtain ⟨spans, messages⟩ := x
  obtain rfl : spans = [] := List.isEmpty_iff.mp h
  obtain rfl : messages = [] := List.length_eq_zero_iff.mp ha.symm
  rfl

def Step.touches : Step → Bool
  | .startBuild | .closeLoad .. | .load .. | .loadHere _ | .invalidate | .setText _ => true
  | _ => false

namespace Host

/-! ## Steps that change the index -/

/-- What a step ends a load with: the records, or the failure to read them, and the text. -/
def given (h : Host) : Step → Option (Except Failure (List Record) × String)
  | .closeLoad _ records text => some (records, text.getD h.buffer.text)
  | .load file text => some (file.records, text.getD h.buffer.text)
  | .loadHere file => some (file.records, h.buffer.text)
  | _ => none

def Applies (records : List Record) (text : String) (h : Host) (s : Step) : Prop :=
  h.given s = some (.ok records, text) ∧ ∃ count, (h.step s).answer = .outcome (.ok (.applied count))

def Drops (h : Host) : Step → Prop
  | .startBuild | .invalidate => True
  | .setText _ => h.Hears .text
  | _ => False

def Leaves (h : Host) (s : Step) : Prop := ¬ Drops h s ∧ ∀ records text, ¬ Applies records text h s

theorem invalidate_index {s : Session} (ha : s.index.Aligned) : s.invalidate.session.index = .empty := by
  rw [Session.invalidate_session]
  split
  · rename_i h
    exact Index.eq_empty_of_isEmpty ha h.1
  · rfl

theorem answer_of_drops {h : Host} {s : Step} (hd : Drops h s) : (h.step s).answer = .nothing := by
  cases s with
  | setText text => exact h.spread_answer _
  | startBuild | invalidate => rfl
  | _ => exact hd.elim

theorem index_of_drops {h : Host} {s : Step} (ha : h.session.index.Aligned) (hd : Drops h s) :
    (h.step s).host.session.index = .empty := by
  cases s with
  | startBuild => rfl
  | invalidate => exact invalidate_index ha
  | setText text =>
    rw [step_setText_session, if_pos (show h.Hears .text from hd)]
    exact invalidate_index ha
  | _ => exact hd.elim

/-- An end of a load: it is applied, and the index holds its records; or it is not, and the index is that of `s`. -/
def Settles (s : Session) (records : Except Failure (List Record)) (text : String)
    (t : Turn (Except Failure Outcome)) : Prop :=
  (∃ rs, records = .ok rs ∧ (∃ count, t.result = .ok (.applied count)) ∧
    t.session.index.Holds (.ofText text) rs) ∨
  ((∀ count, t.result ≠ .ok (.applied count)) ∧ t.session.index = s.index)

theorem closeLoad_settles (s : Session) (t : Ticket) (records : Except Failure (List Record)) (text : String) :
    Settles s records text (s.closeLoad t records text) := by
  rcases Session.closeLoad_cases s t records text with ⟨-, h⟩ | ⟨-, rs, x, hrs, hx, h⟩ | ⟨-, e, -, h⟩
  · rw [h]
    exact Or.inr ⟨fun count hc => (by cases hc), rfl⟩
  · rw [h]
    exact Or.inl ⟨rs, hrs, ⟨x.length, rfl⟩, hx⟩
  · rw [h]
    exact Or.inr ⟨fun count hc => (by cases hc), rfl⟩

theorem load_settles (s : Session) (file : Log.File) (text : String) :
    Settles s file.records text (s.load file text) :=
  closeLoad_settles s.openLoad.session s.openLoad.result file.records text

theorem loadAndObserve_settles (s : Session) (file : Log.File) (text : String) (selection : Selection) :
    Settles s file.records text (s.loadAndObserve file text selection) := by
  have hi : (s.loadAndObserve file text selection).session.index = (s.load file text).session.index := by
    rw [Session.loadAndObserve_session]
    split
    · rw [Session.observe_session]
    · rfl
  have h := load_settles s file text
  unfold Settles at h ⊢
  rwa [Session.loadAndObserve_result, hi]

theorem leaves_of_given_eq_none {h : Host} {s : Step} (hg : h.given s = none) (hd : ¬ Drops h s) : Leaves h s := by
  refine ⟨hd, fun records text ha => ?_⟩
  rw [Applies, hg] at ha
  cases ha.1

/-- A step that ends a load applies it, or leaves the index. -/
theorem index_of_settles {h : Host} {s : Step} {records : Except Failure (List Record)} {text : String}
    {t : Turn (Except Failure Outcome)} (hd : ¬ Drops h s) (hg : h.given s = some (records, text))
    (hr : h.step s = h.direct t .outcome) (ht : Settles h.session records text t) :
    (∃ rs text', Applies rs text' h s ∧ (h.step s).host.session.index.Holds (.ofText text') rs) ∨
    (Leaves h s ∧ (h.step s).host.session.index = h.session.index) := by
  rcases ht with ⟨rs, hrs, ⟨count, hc⟩, hx⟩ | ⟨hn, hi⟩
  · refine Or.inl ⟨rs, text, ⟨by rw [hg, hrs], count, ?_⟩, ?_⟩
    · rw [hr]
      exact congrArg Answer.outcome hc
    · rw [hr]
      exact hx
  · refine Or.inr ⟨⟨hd, fun rs text' ⟨_, count, hc⟩ => ?_⟩, ?_⟩
    · rw [hr] at hc
      exact hn count (Answer.outcome.inj hc)
    · rw [hr]
      exact hi

/-- A step that does not drop the diagnostics applies a load, or leaves the index. -/
theorem index_of_not_drops {h : Host} {s : Step} (hd : ¬ Drops h s) :
    (∃ records text, Applies records text h s ∧ (h.step s).host.session.index.Holds (.ofText text) records) ∨
    (Leaves h s ∧ (h.step s).host.session.index = h.session.index) := by
  cases s with
  | closeLoad ticket records text =>
    cases ht : h.tickets[ticket]? with
    | none =>
      have hr : h.step (.closeLoad ticket records text) = { host := h } := by simp only [step, ht]
      refine Or.inr ⟨⟨hd, fun rs text' happ => ?_⟩, ?_⟩
      · obtain ⟨-, count, hc⟩ := happ
        rw [hr] at hc
        cases hc
      · rw [hr]
    | some t => exact index_of_settles hd rfl (by simp only [step, ht]) (closeLoad_settles _ t _ _)
  | load file text => exact index_of_settles hd rfl rfl (load_settles _ _ _)
  | loadHere file => exact index_of_settles hd rfl rfl (loadAndObserve_settles _ _ _ _)
  | startBuild => exact absurd trivial hd
  | invalidate => exact absurd trivial hd
  | observe selection =>
    refine Or.inr ⟨leaves_of_given_eq_none rfl hd, ?_⟩
    show (h.session.observe selection).session.index = _
    rw [Session.observe_session]
  | select selection =>
    refine Or.inr ⟨leaves_of_given_eq_none rfl hd, ?_⟩
    rw [step_select_session]
    split
    · rw [Session.observe_session]
    · rfl
  | setText text =>
    refine Or.inr ⟨leaves_of_given_eq_none rfl hd, ?_⟩
    rw [step_setText_session, if_neg (show ¬ h.Hears .text from hd)]
  | _ => exact Or.inr ⟨leaves_of_given_eq_none rfl hd, rfl⟩

theorem not_drops_of_applies {h : Host} {s : Step} {records : List Record} {text : String}
    (ha : Applies records text h s) : ¬ Drops h s := by
  intro hd
  cases s with
  | closeLoad _ _ _ | load _ _ | loadHere _ => exact hd
  | _ => cases ha.1

theorem index_of_applies {h : Host} {s : Step} {records : List Record} {text : String}
    (ha : Applies records text h s) : (h.step s).host.session.index.Holds (.ofText text) records := by
  rcases index_of_not_drops (not_drops_of_applies ha) with ⟨rs, text', ha', hx⟩ | ⟨hl, -⟩
  · have he := ha.1.symm.trans ha'.1
    simp only [Option.some.injEq, Prod.mk.injEq, Except.ok.injEq] at he
    obtain ⟨rfl, rfl⟩ := he
    exact hx
  · exact absurd ha (hl.2 records text)

theorem index_of_leaves {h : Host} {s : Step} (hl : Leaves h s) :
    (h.step s).host.session.index = h.session.index := by
  rcases index_of_not_drops hl.1 with ⟨rs, text, ha, -⟩ | ⟨-, hi⟩
  · exact absurd ha (hl.2 rs text)
  · exact hi

/-- A load that fails or is superseded is not applied, and drops nothing. -/
theorem leaves_of_outcome {h : Host} {s : Step} {o : Except Failure Outcome} (he : (h.step s).answer = .outcome o)
    (ho : ∀ count, o ≠ .ok (.applied count)) : Leaves h s := by
  refine ⟨fun hd => ?_, fun records text ⟨_, count, hc⟩ => ?_⟩
  · rw [answer_of_drops hd] at he
    cases he
  · exact ho count (Answer.outcome.inj (he.symm.trans hc))

theorem leaves_of_not_touches {h : Host} {s : Step} (ht : s.touches = false) : Leaves h s := by
  cases s with
  | startBuild | closeLoad _ _ _ | load _ _ | loadHere _ | invalidate | setText _ => cases ht
  | _ => exact leaves_of_given_eq_none rfl fun hd => hd

/-! ## Runs -/

theorem step_aligned {h : Host} (ha : h.session.index.Aligned) (s : Step) : (h.step s).host.session.index.Aligned := by
  by_cases hd : Drops h s
  · rw [index_of_drops ha hd]
    exact Index.aligned_empty
  · rcases index_of_not_drops hd with ⟨_, _, -, hx⟩ | ⟨-, hi⟩
    · exact hx.aligned
    · rw [hi]
      exact ha

theorem after_aligned {h : Host} (ha : h.session.index.Aligned) (steps : List Step) :
    (h.after steps).session.index.Aligned := by
  induction steps generalizing h with
  | nil => exact ha
  | cons s steps ih => exact ih (step_aligned ha s)

/-- With no load applied since the last drop the index is empty, if it was at the beginning. -/
theorem index_of_all_dropped {h : Host} (he : h.session.index = .empty) {steps : List Step}
    (hd : ∀ i records text, h.At steps i (Applies records text) → ∃ j, i < j ∧ h.At steps j Drops) :
    (h.after steps).session.index = .empty := by
  induction steps using List.reverseRecOn with
  | nil => exact he
  | append_singleton steps s ih =>
    have ha := after_aligned (he ▸ Index.aligned_empty) steps
    rw [after_append, after_cons, after_nil]
    by_cases hs : Drops (h.after steps) s
    · exact index_of_drops ha hs
    · have hn : ∀ records text, ¬ Applies records text (h.after steps) s := fun records text hap => by
        obtain ⟨j, hj, hat⟩ := hd steps.length records text (at_concat_iff.mpr (Or.inr ⟨rfl, hap⟩))
        have := hat.lt
        simp only [List.length_append, List.length_singleton] at this
        omega
      rw [index_of_leaves ⟨hs, hn⟩]
      refine ih fun i records text hat => ?_
      obtain ⟨j, hj, hat'⟩ := hd i records text (at_concat_iff.mpr (Or.inl hat))
      rcases at_concat_iff.mp hat' with hat' | ⟨-, hs'⟩
      · exact ⟨j, hj, hat'⟩
      · exact absurd hs' hs

/-- The index is that of a load that was applied, as long as every later step leaves it. -/
theorem index_of_last_applied {h : Host} {steps : List Step} {i : Nat} {records : List Record} {text : String}
    (hi : h.At steps i (Applies records text)) (hl : ∀ j, i < j → j < steps.length → h.At steps j Leaves) :
    (h.after steps).session.index.Holds (.ofText text) records := by
  induction steps using List.reverseRecOn with
  | nil => exact absurd hi.lt (Nat.not_lt_zero _)
  | append_singleton steps s ih =>
    rw [after_append, after_cons, after_nil]
    rcases at_concat_iff.mp hi with hi' | ⟨-, ha⟩
    · have hs : Leaves (h.after steps) s := by
        rcases at_concat_iff.mp (hl steps.length hi'.lt (by simp)) with hat | ⟨-, hs⟩
        · exact absurd hat.lt (Nat.lt_irrefl _)
        · exact hs
      rw [index_of_leaves hs]
      refine ih hi' fun j hj hlt => ?_
      rcases at_concat_iff.mp (hl j hj (by simp; omega)) with hat | ⟨he, -⟩
      · exact hat
      · omega
    · exact index_of_applies ha

/-- The index is empty if no load has been applied since the beginning, the last build start and the last
    edit heard of. Otherwise it holds the records of the last load applied, in its text. Loads that fail or
    are superseded leave it, and so does every step that neither begins a build, ends a load nor edits. -/
theorem index_after_run (settings : Settings) (text : String) (steps : List Step) :
    ((∀ i records shown, (start settings text).At steps i (Applies records shown) →
        ∃ j, i < j ∧ (start settings text).At steps j Drops) →
      ((start settings text).after steps).session.index = .empty) ∧
    (∀ i records shown, (start settings text).At steps i (Applies records shown) →
      (∀ j, i < j → ¬ (start settings text).At steps j Drops ∧
        ∀ records' shown', ¬ (start settings text).At steps j (Applies records' shown')) →
      ((start settings text).after steps).session.index.Holds (.ofText shown) records) ∧
    (∀ (h : Host) (s : Step),
      (∃ e, (h.step s).answer = .outcome (.error e)) ∨ (h.step s).answer = .outcome (.ok .superseded) ∨
        s.touches = false →
      (h.step s).host.session.index = h.session.index) := by
  refine ⟨index_of_all_dropped rfl, fun i records shown hi hl => index_of_last_applied hi fun j hij hj => ?_, ?_⟩
  · obtain ⟨hd, ha⟩ := hl j hij
    have hs := List.getElem?_eq_getElem hj
    exact ⟨_, hs, fun h => hd ⟨_, hs, h⟩, fun records' shown' h => ha records' shown' ⟨_, hs, h⟩⟩
  · intro h s hs
    rcases hs with ⟨e, he⟩ | he | ht
    · exact index_of_leaves (leaves_of_outcome he (by simp))
    · exact index_of_leaves (leaves_of_outcome he (by simp))
    · exact index_of_leaves (leaves_of_not_touches ht)

def oneLoad : List Step :=
  [.attach, .openLoad, .closeLoad 0 (.ok [⟨"m", ⟨1, 1⟩, ⟨1, 2⟩, "x"⟩]) none, .select (.caret 1), .openLoad,
    .closeLoad 1 (.error (.io .isDirectory)) none]

/-- The failure leaves the diagnostics of the first load, and an edit that is heard of drops them. -/
theorem index_after_oneLoad :
    ((start {} "ab").after oneLoad).session.index.Holds (.ofText "ab") [⟨"m", ⟨1, 1⟩, ⟨1, 2⟩, "x"⟩] ∧
      ((start {} "ab").after (oneLoad ++ [.setText (some "c")])).session.index = .empty ∧
      (((start {} "ab").after oneLoad).step .showStatus).host.session.index =
        ((start {} "ab").after oneLoad).session.index := by
  obtain ⟨-, kept, watched⟩ := index_after_run {} "ab" oneLoad
  obtain ⟨dropped, -, -⟩ := index_after_run {} "ab" (oneLoad ++ [.setText (some "c")])
  refine ⟨?_, ?_, watched _ _ (Or.inr (Or.inr rfl))⟩
  · refine kept 2 _ "ab" ⟨_, rfl, rfl, 1, rfl⟩ fun j hj => ⟨fun hat => ?_, fun records shown hat => ?_⟩
    · have hlt : j < 6 := hat.lt
      obtain ⟨s, hs, hd⟩ := hat
      obtain rfl | rfl | rfl : j = 3 ∨ j = 4 ∨ j = 5 := by omega
      all_goals cases hs; exact hd
    · have hlt : j < 6 := hat.lt
      obtain ⟨s, hs, hg, -⟩ := hat
      obtain rfl | rfl | rfl : j = 3 ∨ j = 4 ∨ j = 5 := by omega
      all_goals cases hs; cases hg
  · refine dropped fun i records shown hat => ?_
    have hat' : (start {} "ab").At (oneLoad ++ [.setText (some "c")]) 6 Drops := by
      refine ⟨_, rfl, ?_⟩
      show Hears _ _
      decide
    rcases at_concat_iff.mp hat with h | ⟨-, h⟩
    · exact ⟨6, h.lt, hat'⟩
    · cases h.1

end Host

end CursorDiagnostics
