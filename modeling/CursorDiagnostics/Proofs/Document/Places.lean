/-
  CursorDiagnostics.Proofs.Document.Places — offsets and positions as two views of one order.

  A text of `n` characters has the offsets from 0 to `n`. Each lies in one line, and its position says
  which and where; positions are ordered by line and then by column. A document made of a text has
  closed lines (`Lined`), and for these:
  - `locate_line`: the line of an offset is the number of line feeds before it.
  - `le_locate_iff`: an offset lies in a line or after it exactly if the line begins at or before it.
  - `locate_add`: the place at a column of a line, up to the line's end, is that line and column.
  - `strictMonoOn_positionAt`: up to the end of the text, a later offset has a later position.
  - `span_eq_ok_iff`: which records have a span, and which offsets bound it.
-/

import CursorDiagnostics.Document.Coordinates
import CursorDiagnostics.Proofs.Steps
import CursorDiagnostics.Proofs.Text.Lines
import Mathlib.Data.Prod.Lex
import Mathlib.Order.Monotone.Basic
import Mathlib.Order.Interval.Set.Defs

namespace CursorDiagnostics

/-! ## The order of positions -/

namespace Position

def key (p : Position) : Nat ×ₗ Nat := toLex (p.line, p.column)

theorem key_injective : Function.Injective key := by
  intro p q h
  cases p; cases q
  simpa [key] using h

instance : LinearOrder Position := LinearOrder.lift' key key_injective

theorem le_iff {p q : Position} : p ≤ q ↔ p.line < q.line ∨ p.line = q.line ∧ p.column ≤ q.column :=
  Prod.Lex.toLex_le_toLex

theorem lt_iff {p q : Position} : p < q ↔ p.line < q.line ∨ p.line = q.line ∧ p.column < q.column :=
  Prod.Lex.toLex_lt_toLex

end Position

namespace Document

/-! ## Documents of texts -/

def Lined (d : Document) : Prop := Text.Closed d.lines.toList

theorem getElem?_lines_ofText (text : String) (n : Nat) : (ofText text).lines[n]? = (Text.lines text.toList)[n]? := by
  simp [ofText, ofLines]

theorem lined_ofText (text : String) : (ofText text).Lined := Text.closed_lines text.toList

theorem length_ofText (text : String) : (ofText text).length = text.length := by
  rw [length_eq]
  exact Text.extent_lines text.toList

def content (d : Document) (n : Nat) : Nat := (d.lineLength n).getD 0

variable {d : Document}

theorem lt_lineCount {n : Nat} {l : Text.Line} (hl : d.lines[n]? = some l) : n < d.lineCount :=
  (Array.getElem?_eq_some_iff.mp hl).1

theorem lineLength_of_lt {n : Nat} (h : n < d.lineCount) : d.lineLength n = some (d.content n) := by
  obtain ⟨l, hl⟩ : ∃ l, d.lines[n]? = some l := ⟨_, Array.getElem?_eq_getElem h⟩
  simp [content, lineLength_eq, hl]

theorem lineStart_eq_some_iff {n o : Nat} : d.lineStart n = some o ↔ n < d.lineCount ∧ d.offsetOf n = o := by
  unfold lineStart
  by_cases hn : n < d.lineCount
  · simp [hn]
  · simp [hn]

theorem lineCount_pos (hd : d.Lined) : 0 < d.lineCount := by
  rw [lineCount, ← Array.length_toList, List.length_pos_iff]
  intro h
  rw [Lined, h] at hd
  exact hd

theorem offsetOf_mono {m n : Nat} (h : m ≤ n) (hn : n ≤ d.lineCount) : d.offsetOf m ≤ d.offsetOf n := by
  induction n, h using Nat.le_induction with
  | base => exact Nat.le_refl _
  | succ n hmn ih =>
    have hs := d.offsetOf_succ (Array.getElem?_eq_getElem (show n < d.lines.size from hn))
    have := ih (by omega)
    omega

theorem offsetOf_le_length {n : Nat} (hn : n ≤ d.lineCount) : d.offsetOf n ≤ d.length :=
  offsetOf_mono hn (Nat.le_refl _)

/-- The text of a line ends before the next line begins, and that of the last where the text ends. -/
theorem offsetOf_add_content (hd : d.Lined) {n : Nat} (hn : n < d.lineCount) :
    if n + 1 = d.lineCount then d.offsetOf n + d.content n = d.length
    else d.offsetOf n + d.content n < d.offsetOf (n + 1) := by
  obtain ⟨l, hl⟩ : ∃ l, d.lines[n]? = some l := ⟨_, Array.getElem?_eq_getElem hn⟩
  have hlast := Text.ending_eq_last_iff hd (show d.lines.toList[n]? = some l by rw [Array.getElem?_toList, hl])
  change l.ending = .last ↔ n + 1 = d.lineCount at hlast
  have hs := d.offsetOf_succ hl
  have hc : d.content n = l.length := by simp [content, lineLength_eq, hl]
  rw [Text.Line.width] at hs
  split
  · next he =>
    have hw := Text.Ending.length_chars_eq_zero.mpr (hlast.mpr he)
    rw [length, ← he]
    omega
  · next he =>
    have hw : l.ending.chars.length ≠ 0 := fun h0 => he (hlast.mp (Text.Ending.length_chars_eq_zero.mp h0))
    omega

theorem content_le_length (hd : d.Lined) {n : Nat} (hn : n < d.lineCount) :
    d.offsetOf n + d.content n ≤ d.length := by
  have h := offsetOf_add_content hd hn
  split at h
  · omega
  · have := offsetOf_le_length (d := d) (n := n + 1) hn
    omega

/-! ## The line of an offset -/

/-- An offset past the end stands for the end. -/
theorem locate_min (d : Document) (o : Nat) : d.locate (min o d.length) = d.locate o := by
  simp only [locate, Nat.min_assoc, Nat.min_self]

theorem locate_lt (hd : d.Lined) (o : Nat) : (d.locate o).1 < d.lineCount :=
  (d.locate_isLast (lineCount_pos hd) o).inside

/-- A line begins at or before an offset exactly if the offset lies in it or in a later one. -/
theorem le_locate_iff (hd : d.Lined) {n o : Nat} (hn : n < d.lineCount) (ho : o ≤ d.length) :
    n ≤ (d.locate o).1 ↔ d.offsetOf n ≤ o := by
  have h := d.locate_isLast (lineCount_pos hd) o
  have hhere : d.offsetOf (d.locate o).1 ≤ min o d.length := h.here
  rw [Nat.min_eq_left ho] at hhere
  constructor
  · intro hle
    exact Nat.le_trans (offsetOf_mono hle (Nat.le_of_lt h.inside)) hhere
  · intro hle
    by_contra hlt
    have hb : min o d.length < d.offsetOf n := h.beyond n (by omega) hn
    omega

/-- The line of an offset is the number of line feeds before it. -/
theorem locate_line (text : String) (o : Nat) :
    ((ofText text).locate o).1 = (text.toList.take (min o text.length)).count '\n' := by
  have ho : min o text.length ≤ Text.extent (Text.lines text.toList) := by
    rw [Text.extent_lines, String.length_toList]
    exact Nat.min_le_right _ _
  have hcount := Text.isLastAtMost_count (Text.closed_lines text.toList) Text.proper_of_mem_lines ho
  have hlocate := (ofText text).locate_isLast (lineCount_pos (lined_ofText text)) o
  rw [Text.flatMap_lines] at hcount
  rw [length_ofText] at hlocate
  exact hlocate.eq hcount

/-- An offset is the beginning of its line and its column there. -/
theorem offsetOf_locate (hd : d.Lined) {o : Nat} (ho : o ≤ d.length) :
    d.offsetOf (d.locate o).1 + (d.locate o).2 = o := by
  have hle := (le_locate_iff hd (locate_lt hd o) ho).mp (Nat.le_refl _)
  have hc : (d.locate o).2 = min o d.length - d.offsetOf (d.locate o).1 := rfl
  omega

theorem locate_add (hd : d.Lined) {n c : Nat} (hn : n < d.lineCount) (hc : c ≤ d.content n) :
    d.locate (d.offsetOf n + c) = (n, c) := by
  have hend := content_le_length hd hn
  have ho : d.offsetOf n + c ≤ d.length := by omega
  have hline : (d.locate (d.offsetOf n + c)).1 = n := by
    have hge := (le_locate_iff hd hn ho).mpr (Nat.le_add_right _ _)
    rcases Nat.lt_or_eq_of_le hge with hlt | heq
    · have hlt' := locate_lt hd (d.offsetOf n + c)
      have hsucc := (le_locate_iff hd (n := n + 1) (by omega) ho).mp hlt
      have hgap := offsetOf_add_content hd hn
      rw [if_neg (by omega)] at hgap
      omega
    · exact heq.symm
  have hoff := offsetOf_locate hd ho
  rw [hline] at hoff
  exact Prod.ext hline (by simpa using hoff)

/-! ## Positions in order -/

theorem positionAt_mono (hd : d.Lined) {o o' : Nat} (h : o ≤ o') (ho' : o' ≤ d.length) :
    d.positionAt o ≤ d.positionAt o' := by
  have ho := Nat.le_trans h ho'
  have hline : (d.locate o).1 ≤ (d.locate o').1 :=
    (le_locate_iff hd (locate_lt hd o) ho').mpr
      (Nat.le_trans ((le_locate_iff hd (locate_lt hd o) ho).mp (Nat.le_refl _)) h)
  rw [Position.le_iff]
  simp only [positionAt]
  rcases Nat.lt_or_eq_of_le hline with hlt | heq
  · exact Or.inl (by omega)
  · have h1 := offsetOf_locate hd ho
    have h2 := offsetOf_locate hd ho'
    rw [← heq] at h2
    exact Or.inr ⟨by omega, by omega⟩

theorem positionAt_injOn (hd : d.Lined) {o o' : Nat} (ho : o ≤ d.length) (ho' : o' ≤ d.length)
    (h : d.positionAt o = d.positionAt o') : o = o' := by
  simp only [positionAt, Position.mk.injEq, Nat.add_right_cancel_iff] at h
  rw [← offsetOf_locate hd ho, ← offsetOf_locate hd ho', h.1, h.2]

/-- Up to the end of the text, a later offset has a later position. -/
theorem strictMonoOn_positionAt (hd : d.Lined) : StrictMonoOn d.positionAt (Set.Iic d.length) := by
  intro o ho o' ho' hlt
  refine lt_of_le_of_ne (positionAt_mono hd (Nat.le_of_lt hlt) ho') fun he => ?_
  exact absurd (positionAt_injOn hd ho ho' he) (Nat.ne_of_lt hlt)

theorem positionAt_add (hd : d.Lined) {n c : Nat} (hn : n < d.lineCount) (hc : c ≤ d.content n) :
    d.positionAt (d.offsetOf n + c) = ⟨n + 1, c + 1⟩ := by
  simp [positionAt, locate_add hd hn hc]

/-! ## Offsets of positions -/

/-- The lines of a document, as a log counts them. -/
def HasLine (d : Document) (line : Nat) : Prop := 1 ≤ line ∧ line ≤ d.lineCount

/-- A position with its column moved into its line: at least 1, and at most one past the line. -/
def clamp (d : Document) (p : Position) : Position := ⟨p.line, min (max p.column 1) (d.content (p.line - 1) + 1)⟩

theorem lineOffset_eq_ok_iff {line o : Nat} :
    d.lineOffset line = .ok o ↔ d.HasLine line ∧ o = d.offsetOf (line - 1) := by
  unfold lineOffset lineStart HasLine
  split
  · next h => subst h; simp
  · next h =>
    by_cases hl : line - 1 < d.lineCount
    · rw [if_pos hl]
      simp only [Except.ok.injEq]
      exact ⟨fun he => ⟨by omega, he.symm⟩, fun he => he.2.symm⟩
    · rw [if_neg hl]
      simp only [reduceCtorEq, false_iff]
      omega

theorem lineOffset_of_not_hasLine {line : Nat} (hl : ¬ d.HasLine line) :
    d.lineOffset line = .error (d.outOfRange line) := by
  unfold lineOffset lineStart
  split
  · rfl
  · next h0 => rw [if_neg fun hlt => hl ⟨Nat.pos_of_ne_zero h0, by omega⟩]

theorem offset_eq_ok_iff {p : Position} {o : Nat} :
    d.offset p = .ok o ↔
      d.HasLine p.line ∧ o = d.offsetOf (p.line - 1) + min (p.column - 1) (d.content (p.line - 1)) := by
  simp only [offset, bind_eq_ok_iff, lineOffset_eq_ok_iff, pure, Except.pure, Except.ok.injEq]
  constructor
  · intro ⟨_, ⟨hl, hs⟩, ho⟩
    subst hs ho
    exact ⟨hl, rfl⟩
  · intro ⟨hl, ho⟩
    exact ⟨_, ⟨hl, rfl⟩, ho.symm⟩

theorem span_eq_ok_iff {r : Record} {s : Span} :
    d.span r = .ok s ↔
      d.HasLine r.start.line ∧ d.HasLine r.stop.line ∧ r.start.line ≤ r.stop.line ∧
        s = ⟨d.offsetOf (r.start.line - 1),
          d.offsetOf (r.stop.line - 1) + min (r.stop.column - 1) (d.content (r.stop.line - 1))⟩ := by
  unfold span
  split
  · next h =>
    constructor
    · intro he; cases he
    · intro ⟨_, _, hle, _⟩; omega
  · next h =>
    simp only [bind_eq_ok_iff, lineOffset_eq_ok_iff, offset_eq_ok_iff, pure, Except.pure, Except.ok.injEq]
    constructor
    · intro ⟨_, ⟨hs, h1⟩, _, ⟨he, h2⟩, h3⟩
      subst h1 h2 h3
      exact ⟨hs, he, by omega, rfl⟩
    · intro ⟨hs, he, _, hr⟩
      exact ⟨_, ⟨hs, rfl⟩, _, ⟨he, rfl⟩, hr.symm⟩

end Document

end CursorDiagnostics
