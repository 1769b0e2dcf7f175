/-
  CursorDiagnostics.Proofs.Domain.Rope — the lines of a text, by operations that have a domain.

  A document of a long text is kept in a rope. The operations of a rope are defined for the lines and offsets
  that the text has, and for no others, and a difference of words is defined only where it is not negative.
  Here the lines of a document are found by such operations alone, and an operation outside its domain leaves
  the whole without a result. Over every rope that keeps a text (`Rope.Keeps`) there is always a result, and it
  is that of the document.

  - `lineStart?_eq`, `lineLength?_eq`, `lineText?_eq`: for every line number, whether or not the text has the line.
  - `locate?_eq`: for every offset, whether or not it lies in the text.
-/

import CursorDiagnostics.Proofs.Document.Places
import CursorDiagnostics.Text.Decimal

namespace CursorDiagnostics

/-! ## Words -/

namespace Word

def add? (a b : Nat) : Option Nat := if a + b < Text.Decimal.wordLimit then some (a + b) else none

def sub? (a b : Nat) : Option Nat := if b ≤ a then some (a - b) else none

theorem add?_of_lt {a b : Nat} (h : a + b < Text.Decimal.wordLimit) : add? a b = some (a + b) := if_pos h

theorem sub?_of_le {a b : Nat} (h : b ≤ a) : sub? a b = some (a - b) := if_pos h

end Word

/-! ## Ropes -/

def Text.pieces : List Char → List (List Char)
  | [] => [[]]
  | c :: cs => if c = '\n' then [c] :: pieces cs else (pieces cs).modifyHead (c :: ·)

/-- A store of a text by characters and lines. -/
structure Rope where
  charCount : Nat
  lineCount : Nat
  /-- The offset at which a line begins, or the text ends for the line past the last. -/
  lineToChar : Nat → Option Nat
  /-- The line in which an offset lies. -/
  charToLine : Nat → Option Nat
  /-- The characters of a line, with its break. -/
  line : Nat → Option (List Char)

/-- The rope keeps this text: it knows its lines, which only line feeds end, and each operation is defined exactly
    for what the text has. -/
structure Rope.Keeps (r : Rope) (text : String) : Prop where
  charCount : r.charCount = text.length
  lineCount : r.lineCount = text.toList.count '\n' + 1
  lineToChar : ∀ n, r.lineToChar n =
    if n ≤ r.lineCount then some ((Text.pieces text.toList).take n).flatten.length else none
  charToLine : ∀ o, r.charToLine o = if o ≤ r.charCount then some ((text.toList.take o).count '\n') else none
  line : ∀ n, r.line n = (Text.pieces text.toList)[n]?

def Rope.ofText (text : String) : Rope where
  charCount := text.length
  lineCount := text.toList.count '\n' + 1
  lineToChar n :=
    if n ≤ text.toList.count '\n' + 1 then some ((Text.pieces text.toList).take n).flatten.length else none
  charToLine o := if o ≤ text.length then some ((text.toList.take o).count '\n') else none
  line n := (Text.pieces text.toList)[n]?

theorem Rope.keeps_ofText (text : String) : (ofText text).Keeps text := ⟨rfl, rfl, fun _ => rfl, fun _ => rfl, fun _ => rfl⟩

namespace Text

theorem map_chars_before (c : Char) {l : Line} {ls : List Line} :
    (Line.before c (l :: ls)).map Line.chars =
      if c = '\n' then [c] :: (l :: ls).map Line.chars else ((l :: ls).map Line.chars).modifyHead (c :: ·) := by
  simp only [Line.before]
  split
  · next hc =>
    subst hc
    rfl
  · split
    · next hc =>
      obtain ⟨rfl, rfl⟩ := hc
      rfl
    · rfl

/-- The lines with their breaks are the pieces of the text. -/
theorem map_chars_lines (cs : List Char) : (lines cs).map Line.chars = pieces cs := by
  induction cs with
  | nil => rfl
  | cons c cs ih =>
    obtain ⟨l, ls, hl⟩ := List.exists_cons_of_ne_nil (lines_ne_nil cs)
    rw [lines_cons, pieces, ← ih, hl, map_chars_before]

theorem length_pieces (cs : List Char) : (pieces cs).length = cs.count '\n' + 1 := by
  induction cs with
  | nil => rfl
  | cons c cs ih =>
    rw [pieces]
    split
    · next hc => rw [List.length_cons, ih, hc, List.count_cons_self]
    · next hc => rw [List.length_modifyHead, ih, List.count_cons_of_ne hc]

theorem length_lines (cs : List Char) : (lines cs).length = cs.count '\n' + 1 := by
  rw [← length_pieces, ← map_chars_lines, List.length_map]

end Text

theorem Document.lineCount_ofText (text : String) : (ofText text).lineCount = text.toList.count '\n' + 1 := by
  rw [← Text.length_lines]
  exact List.size_toArray

namespace Rope

variable {r : Rope} {text : String}

theorem Keeps.lineCount_eq (hr : r.Keeps text) : r.lineCount = (Document.ofText text).lineCount := by
  rw [hr.lineCount, Document.lineCount_ofText]

theorem Keeps.charCount_eq (hr : r.Keeps text) : r.charCount = (Document.ofText text).length := by
  rw [hr.charCount, Document.length_ofText]

theorem Keeps.lineToChar_eq (hr : r.Keeps text) {n : Nat} (hn : n ≤ r.lineCount) :
    r.lineToChar n = some ((Document.ofText text).offsetOf n) := by
  rw [hr.lineToChar, if_pos hn, (Document.ofText text).offsetOf_eq (hr.lineCount_eq ▸ hn), ← Text.map_chars_lines,
    ← List.map_take, ← List.flatMap_def]
  rfl

theorem Keeps.charToLine_eq (hr : r.Keeps text) {o : Nat} (ho : o ≤ r.charCount) :
    r.charToLine o = some ((Document.ofText text).locate o).1 := by
  rw [hr.charToLine, if_pos ho, Document.locate_line, Nat.min_eq_left (hr.charCount ▸ ho)]

theorem Keeps.line_eq (hr : r.Keeps text) (n : Nat) :
    r.line n = (Document.ofText text).lines[n]?.map Text.Line.chars := by
  rw [hr.line, ← Text.map_chars_lines, List.getElem?_map, Document.getElem?_lines_ofText]

/-! ## Lines -/

/-- The length of a line without its break: the last two characters say what the break is. -/
def contentLength? (l : List Char) : Option Nat :=
  if l.length = 0 then some 0
  else do
    let last ← l[← Word.sub? l.length 1]?
    if last = '\n' then
      if 2 ≤ l.length then
        let before ← l[← Word.sub? l.length 2]?
        if before = '\r' then Word.sub? l.length 2 else Word.sub? l.length 1
      else Word.sub? l.length 1
    else some l.length

def slice? (l : List Char) (n : Nat) : Option (List Char) := if n ≤ l.length then some (l.take n) else none

def lineStart? (r : Rope) (n : Nat) : Option (Option Nat) :=
  if n < r.lineCount then do return some (← r.lineToChar n) else return none

def lineLength? (r : Rope) (n : Nat) : Option (Option Nat) :=
  if n < r.lineCount then do return some (← contentLength? (← r.line n)) else return none

def lineText? (r : Rope) (n : Nat) : Option (Option String) := do
  match ← r.lineLength? n with
  | some length => return some (String.ofList (← slice? (← r.line n) length))
  | none => return none

def locate? (r : Rope) (offset : Nat) : Option (Nat × Nat) := do
  let offset := min offset r.charCount
  let line ← r.charToLine offset
  return (line, ← Word.sub? offset (← r.lineToChar line))

theorem contentLength?_of_not_mem {cs : List Char} (h : '\n' ∉ cs) : contentLength? cs = some cs.length := by
  unfold contentLength?
  cases hg : cs.getLast? with
  | none =>
    obtain rfl := List.getLast?_eq_none_iff.mp hg
    rfl
  | some c =>
    have hc := List.mem_of_getLast? hg
    have hfeed : c ≠ '\n' := fun he => h (he ▸ hc)
    have hpos : 0 < cs.length := List.length_pos_of_mem hc
    rw [List.getLast?_eq_getElem?] at hg
    rw [if_neg (Nat.ne_of_gt hpos), Word.sub?_of_le hpos]
    simp [hg, hfeed]

theorem contentLength?_concat (cs : List Char) :
    contentLength? (cs ++ ['\n']) = some (if cs.getLast? = some '\r' then cs.length - 1 else cs.length) := by
  unfold contentLength?
  have hlength : (cs ++ ['\n']).length = cs.length + 1 := by simp
  have hlast : (cs ++ ['\n'])[cs.length + 1 - 1]? = some '\n' := List.getElem?_concat_length
  rw [hlength, if_neg (Nat.succ_ne_zero _), Word.sub?_of_le (Nat.le_add_left 1 _)]
  cases hg : cs.getLast? with
  | none =>
    obtain rfl := List.getLast?_eq_none_iff.mp hg
    rfl
  | some c =>
    have hpos : 0 < cs.length := List.length_pos_of_mem (List.mem_of_getLast? hg)
    have htwo : 2 ≤ cs.length + 1 := Nat.succ_le_succ hpos
    have hbefore : (cs ++ ['\n'])[cs.length + 1 - 2]? = some c := by
      rw [List.getElem?_append_left (by omega), ← hg, List.getLast?_eq_getElem?]
      rfl
    rw [Word.sub?_of_le htwo]
    simp only [Option.bind_eq_bind, Option.bind_some, hlast, hbefore, if_pos htwo, ↓reduceIte, Option.some.injEq]
    split <;> rfl

theorem contentLength?_chars {l : Text.Line} (hl : l.Proper) : contentLength? l.chars = some l.length := by
  have hchars := l.chars_eq_uncut
  cases he : l.ending with
  | last =>
    rw [hchars, if_pos he, contentLength?_of_not_mem hl.not_mem_uncut]
    simp [Text.Line.uncut, Text.Line.length, he]
  | feed =>
    rw [hchars, if_neg (by simp [he]), contentLength?_concat]
    simp [Text.Line.uncut, Text.Line.length, he, hl.getLast? he]
  | returnFeed =>
    rw [hchars, if_neg (by simp [he]), contentLength?_concat]
    simp [Text.Line.uncut, Text.Line.length, he]

theorem lineStart?_eq (hr : r.Keeps text) (n : Nat) : r.lineStart? n = some ((Document.ofText text).lineStart n) := by
  unfold lineStart? Document.lineStart
  rw [hr.lineCount_eq]
  split
  · next hn =>
    rw [hr.lineToChar_eq (hr.lineCount_eq ▸ Nat.le_of_lt hn)]
    rfl
  · rfl

theorem lineLength?_eq (hr : r.Keeps text) (n : Nat) :
    r.lineLength? n = some ((Document.ofText text).lineLength n) := by
  unfold lineLength?
  rw [hr.lineCount_eq, hr.line_eq, Document.lineLength_eq]
  cases hl : (Document.ofText text).lines[n]? with
  | none =>
    have hn : ¬ n < (Document.ofText text).lineCount := Nat.not_lt.mpr (Array.getElem?_eq_none_iff.mp hl)
    rw [if_neg hn]
    rfl
  | some l =>
    have hn := Document.lt_lineCount hl
    rw [Document.getElem?_lines_ofText] at hl
    have hmem : l ∈ Text.lines text.toList := List.mem_of_getElem? hl
    rw [if_pos hn]
    simp [contentLength?_chars (Text.proper_of_mem_lines l hmem)]

theorem lineText?_eq (hr : r.Keeps text) (n : Nat) : r.lineText? n = some ((Document.ofText text).lineText n) := by
  unfold lineText? Document.lineText
  rw [lineLength?_eq hr, Document.lineLength_eq, hr.line_eq]
  cases (Document.ofText text).lines[n]? with
  | none => rfl
  | some l =>
    have hslice : slice? l.chars l.length = some l.content := by
      rw [slice?, if_pos (by rw [Text.Line.length_chars]; exact Nat.le_add_right _ _), Text.Line.chars]
      exact congrArg some List.take_left
    simp [hslice]

theorem locate?_eq (hr : r.Keeps text) (o : Nat) : r.locate? o = some ((Document.ofText text).locate o) := by
  have hd := Document.lined_ofText text
  have ho : min o r.charCount ≤ (Document.ofText text).length := hr.charCount_eq ▸ Nat.min_le_right _ _
  have hline := Document.locate_lt hd (min o r.charCount)
  have hstart := (Document.le_locate_iff hd hline ho).mp (Nat.le_refl _)
  have hmin : (Document.ofText text).locate (min o r.charCount) = (Document.ofText text).locate o := by
    rw [hr.charCount_eq, Document.locate_min]
  rw [hmin] at hline hstart
  have hcolumn : ((Document.ofText text).locate o).2 =
      min o r.charCount - (Document.ofText text).offsetOf ((Document.ofText text).locate o).1 := by
    rw [hr.charCount_eq]
    rfl
  have hfound := hr.lineToChar_eq (hr.lineCount_eq ▸ Nat.le_of_lt hline)
  simp [locate?, hr.charToLine_eq (Nat.min_le_right _ _), hmin, hfound, Word.sub?_of_le hstart, ← hcolumn]

end Rope

end CursorDiagnostics
