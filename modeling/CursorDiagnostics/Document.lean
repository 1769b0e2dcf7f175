/-
  CursorDiagnostics.Document — a text by its lines, and where offsets lie in it.

  Offsets, lines and columns count from 0 here, and count characters. A break is part of the line
  it ends when offsets are counted, and not part of the line's text. An offset past the end stands
  for the end. A document keeps the table of where its lines begin.

  - `offsetOf_eq`: a line begins after the characters of the lines before it, breaks included.
  - `locate_isLast`: an offset lies in the last line that does not begin after it.
-/

import CursorDiagnostics.Text.Bounds

namespace CursorDiagnostics

structure Document where
  lines : Array Text.Line
  /-- The offset at which each line begins, and after them the one at which the text ends. -/
  bounds : Array Nat
  bounds_eq : bounds = Text.bounds lines.toList
  deriving DecidableEq, Repr

namespace Document

def ofLines (ls : List Text.Line) : Document := ⟨ls.toArray, Text.bounds ls, rfl⟩

def ofText (text : String) : Document := ofLines (Text.lines text.toList)

def empty : Document := ofText ""

def lineCount (d : Document) : Nat := d.lines.size

/-- The number of characters before the line `n`. -/
def offsetOf (d : Document) (n : Nat) : Nat := d.bounds.getD n 0

def length (d : Document) : Nat := d.offsetOf d.lineCount

def lineStart (d : Document) (n : Nat) : Option Nat := if n < d.lineCount then some (d.offsetOf n) else none

/-- The number of characters of the line `n` without its break, from where it and the next one begin. -/
def lineLength (d : Document) (n : Nat) : Option Nat :=
  d.lines[n]?.map fun l => d.offsetOf (n + 1) - d.offsetOf n - l.ending.chars.length

def lineText (d : Document) (n : Nat) : Option String := d.lines[n]?.map fun l => String.ofList l.content

/-- The line in which `offset` lies and its place there: an offset lies in the last line that does
    not begin after it. -/
def locate (d : Document) (offset : Nat) : Nat × Nat :=
  let offset := min offset d.length
  let line := Text.lastAtMost d.bounds d.lineCount offset
  (line, offset - d.offsetOf line)

theorem offsetOf_eq (d : Document) {n : Nat} (h : n ≤ d.lineCount) :
    d.offsetOf n = Text.extent (d.lines.toList.take n) := by
  rw [offsetOf, d.bounds_eq, Text.getD_bounds (by simpa [lineCount] using h)]

theorem offsetOf_succ (d : Document) {n : Nat} {l : Text.Line} (h : d.lines[n]? = some l) :
    d.offsetOf (n + 1) = d.offsetOf n + l.width := by
  have hn : n < d.lineCount := (Array.getElem?_eq_some_iff.1 h).1
  have hl : d.lines.toList[n]? = some l := by rw [Array.getElem?_toList, h]
  rw [d.offsetOf_eq hn, d.offsetOf_eq (Nat.le_of_lt hn), List.take_add_one, hl]
  simp

theorem lineLength_eq (d : Document) (n : Nat) : d.lineLength n = d.lines[n]?.map Text.Line.length := by
  rw [lineLength]
  cases h : d.lines[n]? with
  | none => rfl
  | some l => simp [d.offsetOf_succ h, Text.Line.width]

theorem length_eq (d : Document) : d.length = Text.extent d.lines.toList := by
  rw [length, d.offsetOf_eq (Nat.le_refl _), lineCount, ← Array.length_toList, List.take_length]

theorem locate_isLast (d : Document) (h : 0 < d.lineCount) (offset : Nat) :
    Text.IsLastAtMost d.bounds d.lineCount (min offset d.length) (d.locate offset).1 := by
  refine Text.lastAtMost_isLast ?_ h ?_
  · rw [d.bounds_eq]
    exact Text.rising_bounds d.lines.toList
  · change d.offsetOf 0 ≤ _
    simp [d.offsetOf_eq (Nat.zero_le _)]

end Document

end CursorDiagnostics
