/-
  CursorDiagnostics.Proofs.Document.Spans — which records have a span in a text, and where the span lies.

  A record is refused for the first of three faults: it ends in a line before the one in which it starts, or the text
  does not have the line in which it starts, or it does not have the line in which it ends. Every other record has a
  span, from the beginning of its first line to its end, with the column moved into the line. The file, the start
  column and the message of a record do not matter to either.

  - `refused_or_span`: a record has a span, or a fault of its own.
  - `span_eq_error_iff`: the failure is the fault, and there is never a second one.
  - `positionAt_span`: the positions of the two ends.
  - `span_resolved`: all of these for every text and record.
-/

import CursorDiagnostics.Proofs.Document.Inverse

namespace CursorDiagnostics.Document

variable {d : Document} {r r' : Record} {s : Span} {e : Failure}

/-! ## Refused records -/

/-- The record has no span in the document, for this reason. A record that ends before it starts is refused as such,
    whether or not the document has its lines. -/
inductive Refused (d : Document) (r : Record) : Failure → Prop
  | inverted : r.stop.line < r.start.line → Refused d r (.invertedSpan r.start.line r.stop.line)
  | start : r.start.line ≤ r.stop.line → r.start.line = 0 ∨ d.lineCount < r.start.line →
      Refused d r (.outOfRange r.start.line d.lineCount)
  | stop : 1 ≤ r.start.line → r.start.line ≤ d.lineCount → d.lineCount < r.stop.line →
      Refused d r (.outOfRange r.stop.line d.lineCount)

theorem not_hasLine_iff {line : Nat} : ¬ d.HasLine line ↔ line = 0 ∨ d.lineCount < line := by
  unfold HasLine
  omega

theorem exists_span_iff :
    (∃ s, d.span r = .ok s) ↔ 1 ≤ r.start.line ∧ r.start.line ≤ r.stop.line ∧ r.stop.line ≤ d.lineCount := by
  constructor
  · intro ⟨s, hs⟩
    obtain ⟨⟨hfirst, -⟩, ⟨-, hlast⟩, hle, -⟩ := span_eq_ok_iff.mp hs
    exact ⟨hfirst, hle, hlast⟩
  · intro ⟨hfirst, hle, hlast⟩
    exact ⟨_, span_eq_ok_iff.mpr ⟨⟨hfirst, by omega⟩, ⟨by omega, hlast⟩, hle, rfl⟩⟩

theorem span_of_ordered (h : r.start.line ≤ r.stop.line) :
    d.span r = (do return ⟨← d.lineOffset r.start.line, ← d.offset r.stop⟩) := by
  unfold span
  rw [if_neg (Nat.not_lt.mpr h)]

theorem Refused.span_eq (h : d.Refused r e) : d.span r = .error e := by
  cases h with
  | inverted hlt =>
    unfold span
    rw [if_pos hlt]
    rfl
  | start hle hout =>
    rw [span_of_ordered hle, lineOffset_of_not_hasLine (not_hasLine_iff.mpr hout)]
    rfl
  | stop hfirst hlast hout =>
    rw [span_of_ordered (by omega), lineOffset_eq_ok_iff.mpr ⟨⟨hfirst, hlast⟩, rfl⟩, offset,
      lineOffset_of_not_hasLine (not_hasLine_iff.mpr (Or.inr hout))]
    rfl

theorem refused_or_span (d : Document) (r : Record) : (∃ e, d.Refused r e) ∨ ∃ s, d.span r = .ok s := by
  by_cases hlt : r.stop.line < r.start.line
  · exact Or.inl ⟨_, .inverted hlt⟩
  by_cases hstart : r.start.line = 0 ∨ d.lineCount < r.start.line
  · exact Or.inl ⟨_, .start (by omega) hstart⟩
  by_cases hstop : d.lineCount < r.stop.line
  · exact Or.inl ⟨_, .stop (by omega) (by omega) hstop⟩
  · exact Or.inr (exists_span_iff.mpr (by omega))

theorem span_eq_error_iff : d.span r = .error e ↔ d.Refused r e := by
  constructor
  · intro h
    rcases refused_or_span d r with ⟨e', he⟩ | ⟨s, hs⟩
    · cases he.span_eq.symm.trans h
      exact he
    · cases hs.symm.trans h
  · exact Refused.span_eq

/-- The span is that of the lines and of the end of the record, and of nothing else that it holds. -/
theorem span_congr (hstart : r'.start.line = r.start.line) (hstop : r'.stop = r.stop) : d.span r' = d.span r := by
  unfold span
  rw [hstart, hstop]

/-! ## The ends of a span -/

theorem positionAt_span (hd : d.Lined) (hs : d.span r = .ok s) :
    d.positionAt s.start = ⟨r.start.line, 1⟩ ∧ d.positionAt s.stop = d.clamp r.stop := by
  obtain ⟨⟨hb, hb'⟩, ⟨he, he'⟩, -, rfl⟩ := span_eq_ok_iff.mp hs
  constructor
  · have h := positionAt_add hd (n := r.start.line - 1) (by omega) (Nat.zero_le _)
    rw [Nat.sub_add_cancel hb] at h
    exact h
  · obtain ⟨o, ho, hposition⟩ := positionAt_offset hd (p := r.stop) ⟨he, he'⟩
    rw [offset_of_hasLine ⟨he, he'⟩] at ho
    cases ho
    exact hposition

theorem span_ordered (hd : d.Lined) (hs : d.span r = .ok s) : s.start ≤ s.stop ∧ s.stop ≤ d.length := by
  obtain ⟨⟨hb, hb'⟩, ⟨he, he'⟩, hle, rfl⟩ := span_eq_ok_iff.mp hs
  have hmono := offsetOf_mono (d := d) (show r.start.line - 1 ≤ r.stop.line - 1 by omega) (by omega)
  have hend := content_le_length hd (n := r.stop.line - 1) (by omega)
  simp only
  omega

/-- A record has a span exactly if its lines are in order and both in the text. The span lies in the text, its start is
    the beginning of the start line, and its end that of the record with the column moved into the line. Records with
    the same lines and the same end column have the same span or the same failure, and the failure is the first fault
    that the record has. -/
theorem span_resolved (text : String) (r : Record) :
    let d := ofText text
    ((∃ s, d.span r = .ok s) ↔ 1 ≤ r.start.line ∧ r.start.line ≤ r.stop.line ∧ r.stop.line ≤ d.lineCount) ∧
    (∀ s, d.span r = .ok s →
      s.start ≤ s.stop ∧ s.stop ≤ text.length ∧ d.positionAt s.start = ⟨r.start.line, 1⟩ ∧
        ∃ length, d.lineLength (r.stop.line - 1) = some length ∧
          d.positionAt s.stop = ⟨r.stop.line, min (max r.stop.column 1) (length + 1)⟩) ∧
    (∀ r' : Record, r'.start.line = r.start.line → r'.stop = r.stop → d.span r' = d.span r) ∧
    ∀ e, d.span r = .error e ↔ d.Refused r e := by
  intro d
  have hd : d.Lined := lined_ofText text
  refine ⟨exists_span_iff, fun s hs => ?_, fun r' => span_congr, fun e => span_eq_error_iff⟩
  obtain ⟨hordered, hinside⟩ := span_ordered hd hs
  obtain ⟨hstart, hstop⟩ := positionAt_span hd hs
  obtain ⟨hfirst, hle, hlast⟩ := exists_span_iff.mp ⟨s, hs⟩
  rw [length_ofText] at hinside
  exact ⟨hordered, hinside, hstart, _, lineLength_of_lt (by omega), hstop⟩

/-- A record whose end column comes before its start column has a span, and so has one whose end is past its line. One
    that ends before it starts is refused for that, though the text has neither of its lines. -/
theorem span_resolved_backwards :
    let d := ofText "ab\r\ncd"
    d.span ⟨"m", ⟨1, 9⟩, ⟨1, 2⟩, "x"⟩ = .ok ⟨0, 1⟩ ∧ d.positionAt 1 = ⟨1, 2⟩ ∧
      d.span ⟨"", ⟨1, 0⟩, ⟨1, 2⟩, "y"⟩ = .ok ⟨0, 1⟩ ∧
      d.span ⟨"m", ⟨1, 1⟩, ⟨1, 99⟩, "x"⟩ = .ok ⟨0, 2⟩ ∧ d.positionAt 2 = ⟨1, 3⟩ ∧
      d.span ⟨"m", ⟨9, 1⟩, ⟨0, 1⟩, "x"⟩ = .error (.invertedSpan 9 0) ∧
      d.span ⟨"m", ⟨2, 1⟩, ⟨3, 1⟩, "x"⟩ = .error (.outOfRange 3 2) := by
  intro d
  obtain ⟨-, ends, alike, -⟩ := span_resolved "ab\r\ncd" ⟨"m", ⟨1, 9⟩, ⟨1, 2⟩, "x"⟩
  obtain ⟨-, pastEnds, -, -⟩ := span_resolved "ab\r\ncd" ⟨"m", ⟨1, 1⟩, ⟨1, 99⟩, "x"⟩
  have hspan : d.span ⟨"m", ⟨1, 9⟩, ⟨1, 2⟩, "x"⟩ = .ok ⟨0, 1⟩ := rfl
  have hpast : d.span ⟨"m", ⟨1, 1⟩, ⟨1, 99⟩, "x"⟩ = .ok ⟨0, 2⟩ := rfl
  obtain ⟨-, -, -, length, hlength, hstop⟩ := ends _ hspan
  cases hlength
  obtain ⟨-, -, -, length, hlength, hpastStop⟩ := pastEnds _ hpast
  cases hlength
  refine ⟨hspan, hstop, (alike ⟨"", ⟨1, 0⟩, ⟨1, 2⟩, "y"⟩ rfl rfl).trans hspan, hpast, hpastStop, ?_, ?_⟩
  · exact ((span_resolved "ab\r\ncd" _).2.2.2 _).mpr (.inverted (by decide))
  · exact ((span_resolved "ab\r\ncd" _).2.2.2 _).mpr (.stop (by decide) (by decide) (by decide))

end CursorDiagnostics.Document
