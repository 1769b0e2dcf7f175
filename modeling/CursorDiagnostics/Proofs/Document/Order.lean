/-
  CursorDiagnostics.Proofs.Document.Order — offsets in their order are the places of a text in reading order.

  A place is a line and a column there. An offset past the end stands for the end; up to the end, each offset has a
  place of its own, and a later offset has a later place.

  - `locate_isGreatest`: the line of an offset is the last that begins at or before it.
  - `strictMonoOn_locate`: places come in the order of the offsets.
  - `locate_orderEmbedding`: for every text, with the inverse on the columns of each line.
-/

import CursorDiagnostics.Proofs.Document.Places
import Mathlib.Order.Bounds.Defs

namespace CursorDiagnostics.Document

variable {d : Document}

theorem lineStart_locate (hd : d.Lined) (o : Nat) :
    ∃ start, d.lineStart (d.locate o).1 = some start ∧ start + (d.locate o).2 = min o d.length := by
  have hoff := offsetOf_locate hd (Nat.min_le_right o d.length)
  rw [locate_min] at hoff
  exact ⟨_, lineStart_eq_some_iff.mpr ⟨locate_lt hd o, rfl⟩, hoff⟩

theorem locate_isGreatest (hd : d.Lined) (o : Nat) :
    IsGreatest {n | ∃ start, d.lineStart n = some start ∧ start ≤ min o d.length} (d.locate o).1 := by
  constructor
  · obtain ⟨start, hstart, hsum⟩ := lineStart_locate hd o
    exact ⟨start, hstart, by omega⟩
  · rintro n ⟨start, hstart, hle⟩
    obtain ⟨hn, rfl⟩ := lineStart_eq_some_iff.mp hstart
    rw [← locate_min]
    exact (le_locate_iff hd hn (Nat.min_le_right o d.length)).mpr hle

theorem strictMonoOn_locate (hd : d.Lined) : StrictMonoOn (fun o => toLex (d.locate o)) (Set.Iic d.length) := by
  intro o ho o' ho' hlt
  have h := strictMonoOn_positionAt hd ho ho' hlt
  rw [Position.lt_iff] at h
  rw [Prod.Lex.toLex_lt_toLex]
  simpa [positionAt] using h

/-- The place of an offset, taken at most to the end of the text: its line is the number of line feeds before it and
    the last line that begins at or before it, and its column goes from there to the offset. The place at a column of
    a line, up to the line's end, is that line and column. And of two offsets of the text the later has the later
    place. -/
theorem locate_orderEmbedding (text : String) :
    let d := ofText text
    (∀ o,
      (d.locate o).1 = (text.toList.take (min o text.length)).count '\n' ∧ (d.locate o).1 < d.lineCount ∧
        (∃ start, d.lineStart (d.locate o).1 = some start ∧ start + (d.locate o).2 = min o text.length) ∧
        IsGreatest {n | ∃ start, d.lineStart n = some start ∧ start ≤ min o text.length} (d.locate o).1) ∧
    (∀ n < d.lineCount, ∃ start length, d.lineStart n = some start ∧ d.lineLength n = some length ∧
      ∀ c ≤ length, d.locate (start + c) = (n, c)) ∧
    ∀ o o', o < o' → o' ≤ text.length → toLex (d.locate o) < toLex (d.locate o') := by
  intro d
  have hd : d.Lined := lined_ofText text
  have hlength : d.length = text.length := length_ofText text
  refine ⟨fun o => ⟨locate_line text o, locate_lt hd o, ?_, ?_⟩, fun n hn => ?_, fun o o' hlt ho' => ?_⟩
  · rw [← hlength]
    exact lineStart_locate hd o
  · rw [← hlength]
    exact locate_isGreatest hd o
  · exact ⟨_, _, lineStart_eq_some_iff.mpr ⟨hn, rfl⟩, lineLength_of_lt hn, fun c hc => locate_add hd hn hc⟩
  · rw [← hlength] at ho'
    exact strictMonoOn_locate hd (Nat.le_of_lt (Nat.lt_of_lt_of_le hlt ho')) ho' hlt

/-- An offset past the end has the place of the end, in the line after the last line feed; and the end of a line comes
    before the place inside its break, and that before the next line. -/
theorem locate_orderEmbedding_pastTheEnd :
    let d := ofText "a\r\n"
    (d.locate 9).1 = ("a\r\n".toList.take (min 9 3)).count '\n' ∧ d.lineCount = 2 ∧
      (∃ start length, d.lineStart 0 = some start ∧ d.lineLength 0 = some length ∧
        ∀ c ≤ length, d.locate (start + c) = (0, c)) ∧
      toLex (d.locate 1) < toLex (d.locate 2) ∧ toLex (d.locate 2) < toLex (d.locate 3) := by
  intro d
  obtain ⟨places, columns, mono⟩ := locate_orderEmbedding "a\r\n"
  exact ⟨(places 9).1, rfl, columns 0 (by decide), mono 1 2 (by decide) (by decide), mono 2 3 (by decide) (by decide)⟩

end CursorDiagnostics.Document
