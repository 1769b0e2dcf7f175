/-
  CursorDiagnostics.Proofs.Document.Inverse — offsets to positions and back again.

  The position of an offset counts the characters of the break, and the offset of a position does not go past the
  line. So the two directions undo each other but for one place:
  - `insideBreak_iff`: the only offsets past the text of their line are those between the two characters of a break.
  - `offset_positionAt`: every other offset is that of its position, and these go back by one.
  - `positionAt_offset`: the offset of a position has that position, with the column moved into the line.
  - `offset_mono`: a later position has no earlier offset, and all offsets lie in the text.
-/

import CursorDiagnostics.Proofs.Document.Places

namespace CursorDiagnostics

/-! ## The characters of a line -/

namespace Text

variable {ls : List Line} {l : Line} {n c o : Nat}

def InsideBreak (cs : List Char) (o : Nat) : Prop := 0 < o ∧ cs[o - 1]? = some '\r' ∧ cs[o]? = some '\n'

instance (cs : List Char) (o : Nat) : Decidable (InsideBreak cs o) := inferInstanceAs (Decidable (_ ∧ _ ∧ _))

theorem extent_take_succ (hl : ls[n]? = some l) : extent (ls.take (n + 1)) = extent (ls.take n) + l.width := by
  rw [List.take_add_one, hl, extent_append]
  simp

/-- What stands from the beginning of a line on. -/
theorem drop_extent (ls : List Line) (n : Nat) :
    (ls.flatMap Line.chars).drop (extent (ls.take n)) = (ls.drop n).flatMap Line.chars := by
  have hsplit : ls.flatMap Line.chars = (ls.take n).flatMap Line.chars ++ (ls.drop n).flatMap Line.chars := by
    rw [← List.flatMap_append, List.take_append_drop]
  rw [hsplit]
  exact List.drop_left

/-- A character of a line, counted from the beginning of the text. -/
theorem getElem?_flatMap_chars (hl : ls[n]? = some l) (hc : c < l.width) :
    (ls.flatMap Line.chars)[extent (ls.take n) + c]? = l.chars[c]? := by
  obtain ⟨hn, rfl⟩ := List.getElem?_eq_some_iff.mp hl
  rw [← List.getElem?_drop, drop_extent, List.drop_eq_getElem_cons hn, List.flatMap_cons]
  exact List.getElem?_append_left (by rw [Line.length_chars]; exact hc)

theorem exists_line (ho : o < extent ls) : ∃ n l c, ls[n]? = some l ∧ c < l.width ∧ o = extent (ls.take n) + c := by
  induction ls generalizing o with
  | nil => simp at ho
  | cons l ls ih =>
    by_cases h : o < l.width
    · exact ⟨0, l, o, rfl, h, by simp⟩
    · rw [extent_cons] at ho
      obtain ⟨n, m, c, hm, hc, he⟩ := ih (o := o - l.width) (by omega)
      refine ⟨n + 1, m, c, hm, hc, ?_⟩
      rw [List.take_succ_cons, extent_cons]
      omega

/-- The line feed of a line is its last character, and the line has a break. -/
theorem Line.Proper.getElem?_eq_feed_iff (hl : l.Proper) :
    l.chars[c]? = some '\n' ↔ l.ending ≠ .last ∧ c + 1 = l.width := by
  have hn := hl.not_mem_uncut
  have hwidth : l.chars.length = l.width := l.length_chars
  rw [Line.chars_eq_uncut] at hwidth ⊢
  by_cases he : l.ending = .last
  · rw [if_pos he]
    constructor
    · intro h
      exact absurd (List.mem_of_getElem? h) hn
    · intro h
      exact absurd he h.1
  · rw [if_neg he] at hwidth ⊢
    rw [List.length_append, List.length_singleton] at hwidth
    rw [List.getElem?_append]
    by_cases hc : c < l.uncut.length
    · rw [if_pos hc]
      constructor
      · intro h
        exact absurd (List.mem_of_getElem? h) hn
      · intro h
        omega
    · rw [if_neg hc]
      constructor
      · intro h
        have := (List.getElem?_eq_some_iff.mp h).1
        rw [List.length_singleton] at this
        exact ⟨he, by omega⟩
      · intro h
        have hzero : c - l.uncut.length = 0 := by omega
        rw [hzero]
        rfl

theorem Line.width_of_returnFeed (he : l.ending = .returnFeed) : l.width = l.length + 2 := by
  simp [Line.width, he, Ending.chars]

/-- A carriage return before a line feed of the same line is the other character of the break: before a bare line
    feed it would be part of the break. -/
theorem Line.Proper.returnFeed (hl : l.Proper) (hreturn : l.chars[c]? = some '\r') (hfeed : l.chars[c + 1]? = some '\n') :
    l.ending = .returnFeed ∧ c = l.length := by
  obtain ⟨hbreak, hwidth⟩ := hl.getElem?_eq_feed_iff.mp hfeed
  rw [Line.width] at hwidth
  cases he : l.ending with
  | last => exact absurd he hbreak
  | feed =>
    simp only [he, Ending.chars, List.length_singleton, Line.length] at hwidth
    have hc : c < l.content.length := by omega
    have hplace : c = l.content.length - 1 := by omega
    rw [Line.chars, List.getElem?_append_left hc, hplace, ← List.getLast?_eq_getElem?] at hreturn
    exact absurd hreturn (hl.getLast? he)
  | returnFeed =>
    simp only [he, Ending.chars, List.length_cons, List.length_nil] at hwidth
    exact ⟨rfl, by omega⟩

/-- Between the two characters of a break lies exactly what is one past the text of a line that has both. -/
theorem insideBreak_iff (closed : Closed ls) (proper : ∀ l ∈ ls, l.Proper) :
    InsideBreak (ls.flatMap Line.chars) o ↔
      ∃ n l, ls[n]? = some l ∧ l.ending = .returnFeed ∧ o = extent (ls.take n) + l.length + 1 := by
  constructor
  · intro ⟨hpos, hreturn, hfeed⟩
    have hlt : o < extent ls := (List.getElem?_eq_some_iff.mp hfeed).1
    have hbefore : o - 1 < extent ls := by omega
    obtain ⟨n, l, c, hl, hc, ho⟩ := exists_line hbefore
    have hp := proper l (List.mem_of_getElem? hl)
    rw [ho, getElem?_flatMap_chars hl hc] at hreturn
    -- the carriage return does not end its line, so the line feed stands in the same one
    have hc' : c + 1 < l.width := by
      by_contra hge
      have hwidth : c + 1 = l.width := by omega
      by_cases he : l.ending = .last
      · have hall := extent_take_succ hl
        rw [(ending_eq_last_iff closed hl).mp he, List.take_length] at hall
        omega
      · rw [hp.getElem?_eq_feed_iff.mpr ⟨he, hwidth⟩] at hreturn
        simp at hreturn
    have ho' : o = extent (ls.take n) + (c + 1) := by omega
    rw [ho', getElem?_flatMap_chars hl hc'] at hfeed
    obtain ⟨he, rfl⟩ := hp.returnFeed hreturn hfeed
    exact ⟨n, l, hl, he, ho'⟩
  · intro ⟨n, l, hl, he, ho⟩
    have hwidth := Line.width_of_returnFeed he
    have hchars : l.chars = l.content ++ ['\r', '\n'] := by rw [Line.chars, he]; rfl
    have hreturn := getElem?_flatMap_chars hl (show l.length < l.width by omega)
    have hfeed := getElem?_flatMap_chars hl (show l.length + 1 < l.width by omega)
    refine ⟨by omega, ?_, ?_⟩
    · rw [ho, Nat.add_sub_cancel, hreturn, hchars]
      simp [Line.length]
    · rw [ho, Nat.add_assoc, hfeed, hchars]
      simp [Line.length]

end Text

/-! ## There and back -/

namespace Document

open Text (InsideBreak)

variable {d : Document} {p q : Position} {n o : Nat} {l : Text.Line}

theorem content_eq (hl : d.lines[n]? = some l) : d.content n = l.length := by simp [content, lineLength_eq, hl]

theorem ending_eq_last_iff (hd : d.Lined) (hl : d.lines[n]? = some l) : l.ending = .last ↔ n + 1 = d.lineCount :=
  Text.ending_eq_last_iff hd (show d.lines.toList[n]? = some l by rw [Array.getElem?_toList, hl])

/-- The line of an offset, if it begins at or before the offset and the next line does not. -/
theorem locate_line_eq (hd : d.Lined) (ho : o ≤ d.length) (hn : n < d.lineCount) (hle : d.offsetOf n ≤ o)
    (hlt : o < d.offsetOf (n + 1)) : (d.locate o).1 = n := by
  have hge := (le_locate_iff hd hn ho).mpr hle
  have hin := locate_lt hd o
  by_contra hne
  have := (le_locate_iff hd (n := n + 1) (by omega) ho).mp (by omega)
  omega

/-- An offset lies in the text of its line or at its end, or else between the two characters of its break. -/
theorem column_cases (hd : d.Lined) (ho : o ≤ d.length) (hl : d.lines[(d.locate o).1]? = some l) :
    (d.locate o).2 ≤ l.length ∨ (l.ending = .returnFeed ∧ (d.locate o).2 = l.length + 1) := by
  by_cases hle : (d.locate o).2 ≤ l.length
  · exact Or.inl hle
  · have hin := locate_lt hd o
    have hoff := offsetOf_locate hd ho
    have hsucc := d.offsetOf_succ hl
    have hcontent := offsetOf_add_content hd hin
    rw [content_eq hl] at hcontent
    have hnext : (d.locate o).1 + 1 ≠ d.lineCount := by
      intro h
      rw [if_pos h] at hcontent
      omega
    have hlt : o < d.offsetOf ((d.locate o).1 + 1) := by
      by_contra hge
      have := (le_locate_iff hd (n := (d.locate o).1 + 1) (by omega) ho).mpr (by omega)
      omega
    rw [Text.Line.width] at hsucc
    cases he : l.ending with
    | last => exact absurd ((ending_eq_last_iff hd hl).mp he) hnext
    | feed =>
      simp only [he, Text.Ending.chars, List.length_singleton] at hsucc
      omega
    | returnFeed =>
      simp only [he, Text.Ending.chars, List.length_cons, List.length_nil] at hsucc
      exact Or.inr ⟨rfl, by omega⟩

theorem locate_insideBreak (hd : d.Lined) (hl : d.lines[n]? = some l) (he : l.ending = .returnFeed) :
    d.locate (d.offsetOf n + l.length + 1) = (n, l.length + 1) := by
  have hn := lt_lineCount hl
  have hwidth := Text.Line.width_of_returnFeed he
  have hsucc := d.offsetOf_succ hl
  have hend := offsetOf_le_length (d := d) (n := n + 1) hn
  have ho : d.offsetOf n + l.length + 1 ≤ d.length := by omega
  have hline := locate_line_eq hd ho hn (by omega) (by omega)
  have hoff := offsetOf_locate hd ho
  rw [hline] at hoff
  refine Prod.ext hline ?_
  show _ = l.length + 1
  omega

theorem insideBreak_iff_line (text : String) (o : Nat) :
    InsideBreak text.toList o ↔
      ∃ n l, (ofText text).lines[n]? = some l ∧ l.ending = .returnFeed ∧ o = (ofText text).offsetOf n + l.length + 1 := by
  have h := Text.insideBreak_iff (o := o) (Text.closed_lines text.toList) Text.proper_of_mem_lines
  rw [Text.flatMap_lines] at h
  rw [h]
  refine exists_congr fun n => exists_congr fun l => ?_
  have hlines := getElem?_lines_ofText text n
  rw [hlines]
  refine and_congr_right fun hl => and_congr_right fun _ => ?_
  rw [(ofText text).offsetOf_eq (Nat.le_of_lt (lt_lineCount (hlines.trans hl)))]
  rfl

/-- The offset of a position of the document. -/
theorem offset_of_hasLine (h : d.HasLine p.line) :
    d.offset p = .ok (d.offsetOf (p.line - 1) + min (p.column - 1) (d.content (p.line - 1))) := by
  rw [offset_eq_ok_iff]
  exact ⟨h, rfl⟩

theorem offset_of_locate (hd : d.Lined) (o : Nat) :
    d.offset (d.positionAt o) = .ok (d.offsetOf (d.locate o).1 + min (d.locate o).2 (d.content (d.locate o).1)) :=
  offset_of_hasLine (p := d.positionAt o) ⟨Nat.le_add_left 1 _, locate_lt hd o⟩

/-- The position of an offset leads back to the offset, and from inside a break to the break's beginning. -/
theorem offset_positionAt (text : String) (ho : o ≤ text.length) :
    (ofText text).offset ((ofText text).positionAt o) = .ok (if InsideBreak text.toList o then o - 1 else o) := by
  have hd := lined_ofText text
  rw [← length_ofText] at ho
  rw [offset_of_locate hd, Except.ok.injEq]
  by_cases hin : InsideBreak text.toList o
  · rw [if_pos hin]
    obtain ⟨n, l, hl, he, rfl⟩ := (insideBreak_iff_line text o).mp hin
    rw [locate_insideBreak hd hl he]
    show (ofText text).offsetOf n + min (l.length + 1) ((ofText text).content n) = _
    rw [content_eq hl]
    omega
  · rw [if_neg hin]
    have hoff := offsetOf_locate hd ho
    obtain ⟨l, hl⟩ : ∃ l, (ofText text).lines[((ofText text).locate o).1]? = some l :=
      ⟨_, Array.getElem?_eq_getElem (locate_lt hd o)⟩
    rw [content_eq hl]
    rcases column_cases hd ho hl with hle | ⟨he, hcolumn⟩
    · omega
    · exact absurd ((insideBreak_iff_line text o).mpr ⟨_, l, hl, he, by omega⟩) hin

/-- The offset of a position has that position, with the column moved into the line. -/
theorem positionAt_offset (hd : d.Lined) (h : d.HasLine p.line) :
    ∃ o, d.offset p = .ok o ∧ d.positionAt o = d.clamp p := by
  refine ⟨_, offset_of_hasLine h, ?_⟩
  obtain ⟨hfirst, hlast⟩ := h
  rw [positionAt_add hd (by omega) (Nat.min_le_right _ _), clamp, Position.mk.injEq]
  omega

theorem offset_mono (hd : d.Lined) (hp : d.HasLine p.line) (hq : d.HasLine q.line) (hle : p ≤ q) :
    ∃ o o', d.offset p = .ok o ∧ d.offset q = .ok o' ∧ o ≤ o' ∧ o' ≤ d.length := by
  refine ⟨_, _, offset_of_hasLine hp, offset_of_hasLine hq, ?_, ?_⟩
  · obtain ⟨hp1, hp2⟩ := hp
    obtain ⟨hq1, hq2⟩ := hq
    rw [Position.le_iff] at hle
    rcases hle with hlt | ⟨heq, hcolumn⟩
    · have hend := offsetOf_add_content hd (n := p.line - 1) (by omega)
      rw [if_neg (by omega), Nat.sub_add_cancel hp1] at hend
      have hnext := offsetOf_mono (d := d) (show p.line ≤ q.line - 1 by omega) (by omega)
      omega
    · rw [heq]
      omega
  · obtain ⟨hfirst, hlast⟩ := hq
    have := content_le_length hd (n := q.line - 1) (by omega)
    omega

/-- Up to the end of the text, each offset is that of its position, but for those inside a break, which go back to
    its beginning. In the lines of the text, each position has an offset, of which the position is the same line,
    with the column moved into it. And positions in order have offsets in order, none of them past the end. -/
theorem offset_inverse (text : String) :
    let d := ofText text
    (∀ o ≤ text.length, d.offset (d.positionAt o) = .ok (if InsideBreak text.toList o then o - 1 else o)) ∧
    (∀ line column, 1 ≤ line → line ≤ d.lineCount →
      ∃ o length, d.offset ⟨line, column⟩ = .ok o ∧ d.lineLength (line - 1) = some length ∧
        d.positionAt o = ⟨line, min (max column 1) (length + 1)⟩) ∧
    ∀ p q : Position, d.HasLine p.line → d.HasLine q.line → p ≤ q →
      ∃ o o', d.offset p = .ok o ∧ d.offset q = .ok o' ∧ o ≤ o' ∧ o' ≤ text.length := by
  intro d
  have hd : d.Lined := lined_ofText text
  refine ⟨fun o ho => offset_positionAt text ho, fun line column hfirst hlast => ?_, fun p q hp hq hle => ?_⟩
  · obtain ⟨o, ho, hposition⟩ := positionAt_offset hd (p := ⟨line, column⟩) ⟨hfirst, hlast⟩
    have hin : line - 1 < d.lines.size := by
      change line ≤ d.lines.size at hlast
      omega
    have hl := Array.getElem?_eq_getElem hin
    refine ⟨o, d.lines[line - 1].length, ho, by rw [lineLength_eq, hl]; rfl, ?_⟩
    rw [hposition, clamp, content_eq hl]
  · have h := offset_mono hd hp hq hle
    rwa [length_ofText] at h

/-- The second offset is inside the break. In the second line, which begins with a carriage return, a column past
    the end stands for the end, and the column 0 for the first. -/
theorem offset_inverse_insideBreak :
    let d := ofText "a\r\n\rb"
    InsideBreak "a\r\n\rb".toList 2 ∧ d.offset (d.positionAt 2) = .ok 1 ∧ d.offset (d.positionAt 4) = .ok 4 ∧
      d.lineCount = 2 ∧ d.offset ⟨2, 9⟩ = .ok 5 ∧ d.positionAt 5 = ⟨2, 3⟩ ∧
      ∃ o o', d.offset ⟨1, 9⟩ = .ok o ∧ d.offset ⟨2, 0⟩ = .ok o' ∧ o ≤ o' ∧ o' ≤ 5 := by
  intro d
  obtain ⟨back, forth, mono⟩ := offset_inverse "a\r\n\rb"
  have hle : (⟨1, 9⟩ : Position) ≤ ⟨2, 0⟩ := by
    rw [Position.le_iff]
    decide
  have hpast : d.offset ⟨2, 9⟩ = .ok 5 := rfl
  obtain ⟨o, length, ho, hlength, hposition⟩ := forth 2 9 (by decide) (by decide)
  cases hpast.symm.trans ho
  cases hlength
  exact ⟨by decide, back 2 (by decide), back 4 (by decide), rfl, hpast, hposition,
    mono ⟨1, 9⟩ ⟨2, 0⟩ ⟨by decide, by decide⟩ ⟨by decide, by decide⟩ hle⟩

end Document

end CursorDiagnostics
