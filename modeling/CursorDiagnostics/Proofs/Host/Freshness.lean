/-
  CursorDiagnostics.Proofs.Host.Freshness — the spans of a session that hears its buffer lie in the buffer's text.

  A session that is attached and never poisoned hears of every edit, and an edit drops the diagnostics,
  whether or not a load is under way. If each load is ended with the text that the buffer has then, the
  diagnostics are therefore those of the last load applied, in the text that the buffer has now, or none
  (`index_of_hearing`). A span of such diagnostics begins where a line begins and ends in a line (`Span.Fits`).
-/

import CursorDiagnostics.Proofs.Host.Provenance

namespace CursorDiagnostics

/-! ## Spans of a text -/

/-- The span goes from the beginning of a line of the text to a place in a line, before its break. -/
structure Span.Fits (s : Span) (text : String) : Prop where
  ordered : s.start ≤ s.stop
  inside : s.stop ≤ text.length
  begins : ∃ line, (Document.ofText text).lineStart line = some s.start
  ends : ∃ line start length, (Document.ofText text).lineStart line = some start ∧
    (Document.ofText text).lineLength line = some length ∧ start ≤ s.stop ∧ s.stop ≤ start + length

theorem Span.fits_of_span {text : String} {r : Record} {s : Span} (hs : (Document.ofText text).span r = .ok s) :
    s.Fits text := by
  obtain ⟨hordered, hinside⟩ := Document.span_ordered (Document.lined_ofText text) hs
  obtain ⟨⟨hb, hb'⟩, ⟨he, he'⟩, -, rfl⟩ := Document.span_eq_ok_iff.mp hs
  have hstart : r.start.line - 1 < (Document.ofText text).lineCount := by omega
  have hstop : r.stop.line - 1 < (Document.ofText text).lineCount := by omega
  have hcol := Nat.min_le_right (r.stop.column - 1) ((Document.ofText text).content (r.stop.line - 1))
  exact {
    ordered := hordered
    inside := Document.length_ofText text ▸ hinside
    begins := ⟨_, if_pos hstart⟩
    ends := ⟨_, _, _, if_pos hstop, Document.lineLength_of_lt hstop, Nat.le_add_right _ _, Nat.add_le_add_left hcol _⟩ }

theorem Index.Holds.fits {x : Index} {text : String} {records : List Record} (hx : x.Holds (.ofText text) records) :
    ∀ s ∈ x.spans, s.Fits text :=
  ((List.forall₂_and_left _ _).mp (hx.spans.flip.imp fun _ _ hs => ⟨Span.fits_of_span hs, hs⟩)).1

namespace Host

/-! ## Steps -/

theorem poisoned_step {h : Host} {s : Step} (hs : s ≠ .poison) : (h.step s).host.poisoned = h.poisoned := by
  cases s with
  | poison => exact absurd rfl hs
  | closeLoad ticket records text => simp only [step]; split <;> rfl
  | select selection => rw [step_select_host]
  | setText text => rw [step_setText_host]
  | _ => rfl

/-- Nobody stops to listen. -/
theorem mem_audience_step {h : Host} (s : Step) {topic : Topic} {l : Listener} (hl : l ∈ h.buffer.audience topic) :
    l ∈ (h.step s).host.buffer.audience topic := by
  cases s with
  | attach =>
    simp only [step, Buffer.audience_attach]
    exact List.mem_append_left _ hl
  | listen topics =>
    simp only [step, Buffer.audience_listen]
    exact List.mem_append_left _ hl
  | closeLoad ticket records text => simp only [step]; split <;> exact hl
  | select selection => rw [step_select_host]; cases topic <;> exact hl
  | setText text => rw [step_setText_host]; cases topic <;> exact hl
  | _ => exact hl

theorem hears_step {h : Host} {s : Step} {topic : Topic} (hs : s ≠ .poison) (hh : h.Hears topic) :
    (h.step s).host.Hears topic :=
  ⟨mem_audience_step s hh.1, (poisoned_step hs).trans hh.2⟩

theorem hears_attach {h : Host} (hp : h.poisoned = false) (topic : Topic) : (h.step .attach).host.Hears topic := by
  refine ⟨?_, hp⟩
  simp only [step, Buffer.audience_attach]
  exact List.mem_append_right _ (List.mem_singleton.mpr rfl)

/-- An edit of a buffer that the session hears drops the diagnostics. -/
theorem text_of_not_drops {h : Host} {s : Step} (hh : h.Hears .text) (hd : ¬ Drops h s) :
    (h.step s).host.buffer.text = h.buffer.text := by
  cases s with
  | setText text => exact absurd hh hd
  | listen topics => exact (h.buffer.listen_text _ topics).1
  | closeLoad ticket records text => simp only [step]; split <;> rfl
  | select selection => rw [step_select_host]
  | _ => rfl

def EndsHere (h : Host) (s : Step) : Prop := ∀ records text, h.given s = some (records, text) → text = h.buffer.text

/-! ## Runs -/

theorem poisoned_after {h : Host} {steps : List Step} (hs : .poison ∉ steps) :
    (h.after steps).poisoned = h.poisoned :=
  after_of_steps_keep (P := fun h' => h'.poisoned = h.poisoned) rfl fun _ hm _ hp =>
    (poisoned_step fun he => hs (he ▸ hm)).trans hp

theorem hears_after {h : Host} {steps : List Step} {topic : Topic} (hs : .poison ∉ steps) (hh : h.Hears topic) :
    (h.after steps).Hears topic :=
  after_of_steps_keep (P := fun h => h.Hears topic) hh fun _ hm _ => hears_step fun he => hs (he ▸ hm)

/-- While the session hears the buffer, and loads are ended with the buffer's text, the diagnostics are those of
    the last load applied in the text of now, unless there are none. -/
theorem index_of_hearing {h : Host} {steps : List Step} (hh : h.Hears .text) (he : h.session.index = .empty)
    (unpoisoned : .poison ∉ steps) (here : ∀ i < steps.length, h.At steps i EndsHere) :
    (h.after steps).session.index = .empty ∨
      ∃ i records shown, h.At steps i (Applies records shown) ∧
        (∀ j records' shown', i < j → ¬ h.At steps j (Applies records' shown')) ∧
        (h.after steps).session.index.Holds (.ofText (h.after steps).buffer.text) records := by
  induction steps using List.reverseRecOn with
  | nil => exact Or.inl he
  | append_singleton steps s ih =>
    have hp : .poison ∉ steps := fun hm => unpoisoned (List.mem_append_left _ hm)
    have hears := hears_after hp hh
    have ha := after_aligned (he ▸ Index.aligned_empty) steps
    obtain ⟨earlier, ends⟩ := forall_at_concat here
    rw [after_append, after_cons, after_nil]
    by_cases hd : Drops (h.after steps) s
    · exact Or.inl (index_of_drops ha hd)
    rw [text_of_not_drops hears hd]
    rcases index_of_not_drops hd with ⟨records, shown, happ, hx⟩ | ⟨hl, hi⟩
    · -- the load that is applied now is the last one
      refine Or.inr ⟨steps.length, records, shown, at_concat_iff.mpr (Or.inr ⟨rfl, happ⟩), fun j _ _ hj hat => ?_, ?_⟩
      · have := hat.lt
        simp only [List.length_append, List.length_singleton] at this
        omega
      · rwa [← ends _ _ happ.1]
    · rw [hi]
      -- The step applies no load, so the last one of before is still the last.
      rcases ih hp earlier with hx | ⟨i, records, shown, happ, hlast, hx⟩
      · exact Or.inl hx
      refine Or.inr ⟨i, records, shown, at_concat_iff.mpr (Or.inl happ), fun j records' shown' hj hat => ?_, hx⟩
      rcases at_concat_iff.mp hat with hat | ⟨-, hat⟩
      · exact hlast j records' shown' hj hat
      · exact hl.2 records' shown' hat

/-- A session that is attached before a load is applied, and never poisoned, holds no stale span. If each load is
    ended with the text that the buffer has then, the diagnostics are none, or those of the last load applied
    in the text of the buffer as it is; every span lies in that text, from the beginning of a line to a place
    in a line. -/
theorem spans_fit_buffer (settings : Settings) (text : String) (before since : List Step)
    (first : ∀ i records shown, ¬ (start settings text).At before i (Applies records shown))
    (unpoisoned : .poison ∉ before ++ since)
    (here : ∀ i < since.length, ((start settings text).after (before ++ [.attach])).At since i EndsHere) :
    let h₀ := (start settings text).after (before ++ [.attach])
    let h := h₀.after since
    (h.session.index = .empty ∨
      ∃ i records shown, h₀.At since i (Applies records shown) ∧
        (∀ j records' shown', i < j → ¬ h₀.At since j (Applies records' shown')) ∧
        h.session.index.Holds (.ofText h.buffer.text) records) ∧
    ∀ s ∈ h.session.index.spans, s.Fits h.buffer.text := by
  intro h₀ h
  obtain ⟨hb, hs⟩ : .poison ∉ before ∧ .poison ∉ since := by simpa using unpoisoned
  have hh₀ : h₀ = (((start settings text).after before).step .attach).host := by
    simp only [h₀, after_append, after_cons, after_nil]
  have hears : h₀.Hears .text := hh₀ ▸ hears_attach (poisoned_after hb) .text
  have empty : h₀.session.index = .empty := by
    rw [hh₀]
    exact index_of_all_dropped rfl fun i records shown hat => absurd hat (first i records shown)
  have hx := index_of_hearing hears empty hs here
  refine ⟨hx, ?_⟩
  rcases hx with he | ⟨_, _, _, -, -, hx⟩
  · show ∀ s ∈ h.session.index.spans, _
    rw [show h.session.index = .empty from he]
    exact fun s hs => absurd hs List.not_mem_nil
  · exact hx.fits

def editedUnderWay : List Step :=
  [.openLoad, .setText (some "ab\r\ncd"), .closeLoad 0 (.ok [⟨"m", ⟨1, 2⟩, ⟨2, 9⟩, "x"⟩]) none, .select (.caret 5)]

/-- The span lies in the text after the edit, though the load began before it. -/
theorem spans_fit_after_edit :
    (((start {} "").after ([.startBuild] ++ [.attach])).after editedUnderWay).session.index.spans = [⟨0, 6⟩] ∧
      Span.Fits ⟨0, 6⟩ "ab\r\ncd" := by
  have first : ∀ i records shown, ¬ (start {} "").At [.startBuild] i (Applies records shown) := by
    intro i records shown hat
    obtain rfl : i = 0 := Nat.lt_one_iff.mp hat.lt
    obtain ⟨s, hs, hg, -⟩ := hat
    cases hs
    cases hg
  have here : ∀ i < editedUnderWay.length,
      ((start {} "").after ([.startBuild] ++ [.attach])).At editedUnderWay i EndsHere := by
    intro i hi
    refine ⟨_, List.getElem?_eq_getElem hi, fun records text hg => ?_⟩
    obtain rfl | rfl | rfl | rfl : i = 0 ∨ i = 1 ∨ i = 2 ∨ i = 3 := by simp [editedUnderWay] at hi; omega
    all_goals cases hg
    rfl
  have fits := (spans_fit_buffer {} "" [.startBuild] editedUnderWay first (by simp [editedUnderWay]) here).2
  exact ⟨rfl, fits _ (List.mem_singleton.mpr rfl)⟩

end Host

end CursorDiagnostics
