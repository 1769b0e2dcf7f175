/-
  CursorDiagnostics.Proofs.Document.Tiling — the lines of a text lie one after the other, with nothing between them.

  A line is a stretch of the text without a line feed, and its break follows: a line feed, with the carriage return
  directly before it if there is one. The next line begins there. The last line has no break and goes on to the end of
  the text, whatever that is. No other character ends a line.

  - `drop_offsetOf`: what stands from the beginning of a line on is the line, and then the next one.
  - `breakAfter_eq`: the break of a line, from the two characters before the next line.
  - `lineStart_iff`: lines begin where the text does, and after each line feed.
  - `flatMap_piece`: the first lines and their breaks are the text up to the beginning of the next one.
  - `lines_tile`: all of these for every text, and for every rope that keeps it.
-/

import CursorDiagnostics.Proofs.Document.Inverse
import CursorDiagnostics.Proofs.Domain.Rope

namespace CursorDiagnostics

open Text (InsideBreak)

/-! ## Breaks -/

/-- The break that ends before the offset `o`: a carriage return directly before the line feed is part of it, and a
    second one is not. -/
def Text.breakBefore (cs : List Char) (o : Nat) : List Char := if InsideBreak cs (o - 1) then ['\r', '\n'] else ['\n']

namespace Document

def breakAfter (text : String) (n : Nat) : List Char :=
  ((ofText text).lineStart (n + 1)).elim [] (Text.breakBefore text.toList)

def piece (text : String) (n : Nat) : List Char := ((ofText text).lineText n).elim [] String.toList ++ breakAfter text n

/-- The line `n` of the text holds `content`, from the offset `start` on. Its break follows, and then the next line; or
    it is the last line, and ends with the text. -/
structure Tile (text : String) (n start : Nat) (content : String) : Prop where
  lineStart : (ofText text).lineStart n = some start
  lineText : (ofText text).lineText n = some content
  lineLength : (ofText text).lineLength n = some content.length
  not_mem : '\n' ∉ content.toList
  chars : text.toList.drop start =
    content.toList ++ breakAfter text n ++ text.toList.drop (start + content.length + (breakAfter text n).length)
  next : n + 1 < (ofText text).lineCount →
    (ofText text).lineStart (n + 1) = some (start + content.length + (breakAfter text n).length)
  last : n + 1 = (ofText text).lineCount → breakAfter text n = [] ∧ start + content.length = text.length

variable {text : String} {d : Document} {m n o : Nat} {l : Text.Line}

/-! ## Where lines begin -/

theorem exists_line_of_lt (hn : n < (ofText text).lineCount) :
    ∃ l, (ofText text).lines[n]? = some l ∧ l.Proper := by
  have hl : (ofText text).lines[n]? = some (ofText text).lines[n] := Array.getElem?_eq_getElem hn
  refine ⟨_, hl, ?_⟩
  rw [getElem?_lines_ofText] at hl
  exact Text.proper_of_mem_lines _ (List.mem_of_getElem? hl)

theorem offsetOf_lt (hd : d.Lined) (h : m < n) (hn : n < d.lineCount) : d.offsetOf m < d.offsetOf n := by
  have hend := offsetOf_add_content hd (Nat.lt_trans h hn)
  have hmono := offsetOf_mono (d := d) (show m + 1 ≤ n from h) (Nat.le_of_lt hn)
  rw [if_neg (by omega)] at hend
  omega

/-! ## A line and what follows it -/

/-- What stands from the beginning of a line on. -/
theorem drop_offsetOf (hl : (ofText text).lines[n]? = some l) :
    text.toList.drop ((ofText text).offsetOf n) = l.chars ++ text.toList.drop ((ofText text).offsetOf (n + 1)) := by
  have hn := lt_lineCount hl
  have hdrop : ∀ k ≤ (ofText text).lineCount,
      text.toList.drop ((ofText text).offsetOf k) = ((Text.lines text.toList).drop k).flatMap Text.Line.chars := by
    intro k hk
    rw [← Text.drop_extent, Text.flatMap_lines, (ofText text).offsetOf_eq hk]
    rfl
  rw [getElem?_lines_ofText] at hl
  obtain ⟨hn', rfl⟩ := List.getElem?_eq_some_iff.mp hl
  rw [hdrop n (Nat.le_of_lt hn), hdrop (n + 1) hn, List.drop_eq_getElem_cons hn', List.flatMap_cons]

theorem insideBreak_iff_returnFeed (hl : (ofText text).lines[n]? = some l) (hn : n + 1 < (ofText text).lineCount) :
    InsideBreak text.toList ((ofText text).offsetOf (n + 1) - 1) ↔ l.ending = .returnFeed := by
  have hd := lined_ofText text
  have hsucc := (ofText text).offsetOf_succ hl
  rw [insideBreak_iff_line]
  constructor
  · intro ⟨m, l', hl', he, ho⟩
    -- the break in which the offset lies is that of a line which ends where this one does
    have hsucc' := (ofText text).offsetOf_succ hl'
    have hm := lt_lineCount hl'
    have hwidth := Text.Line.width_of_returnFeed he
    have hbegin := offsetOf_lt hd (Nat.succ_pos n) hn
    have hmn : m = n := by
      rcases Nat.lt_trichotomy m n with hlt | heq | hgt
      · have := offsetOf_lt hd (show m + 1 < n + 1 by omega) hn
        omega
      · exact heq
      · have := offsetOf_mono (d := ofText text) (show n + 1 ≤ m from hgt) (Nat.le_of_lt hm)
        omega
    subst hmn
    cases hl.symm.trans hl'
    exact he
  · intro he
    have hwidth := Text.Line.width_of_returnFeed he
    exact ⟨n, l, hl, he, by omega⟩

theorem breakAfter_eq (hl : (ofText text).lines[n]? = some l) : breakAfter text n = l.ending.chars := by
  have hlast := ending_eq_last_iff (lined_ofText text) hl
  have hn := lt_lineCount hl
  unfold breakAfter
  by_cases hnext : n + 1 < (ofText text).lineCount
  · rw [lineStart, if_pos hnext]
    show Text.breakBefore text.toList _ = _
    have hin := insideBreak_iff_returnFeed hl hnext
    unfold Text.breakBefore
    cases he : l.ending with
    | last => exact absurd (hlast.mp he) (Nat.ne_of_lt hnext)
    | feed => rw [if_neg (by simp [hin, he])]; rfl
    | returnFeed => rw [if_pos (hin.mpr he)]; rfl
  · rw [lineStart, if_neg hnext, hlast.mpr (by omega)]
    rfl

theorem piece_eq (hl : (ofText text).lines[n]? = some l) : piece text n = l.chars := by
  rw [piece, breakAfter_eq hl, lineText, hl]
  simp [Text.Line.chars]

theorem tile_of_lt (hn : n < (ofText text).lineCount) :
    ∃ start content, Tile text n start content := by
  obtain ⟨l, hl, hproper⟩ := exists_line_of_lt hn
  have hsucc := (ofText text).offsetOf_succ hl
  have hlength : l.length + (breakAfter text n).length = l.width := by rw [breakAfter_eq hl]; rfl
  have hlast := ending_eq_last_iff (lined_ofText text) hl
  refine ⟨(ofText text).offsetOf n, String.ofList l.content, ?_⟩
  have hcontent : (String.ofList l.content).length = l.length := by simp [Text.Line.length]
  have hend : (ofText text).offsetOf n + (String.ofList l.content).length + (breakAfter text n).length =
      (ofText text).offsetOf (n + 1) := by omega
  exact {
    lineStart := if_pos hn
    lineText := by simp [lineText, hl]
    lineLength := by simp [lineLength_eq, hl, Text.Line.length]
    not_mem := by simpa using hproper.not_mem
    chars := by rw [hend, drop_offsetOf hl, breakAfter_eq hl, Text.Line.chars, String.toList_ofList]
    next := fun hnext => by rw [hend]; exact if_pos hnext
    last := fun hnext => by
      have hnone : breakAfter text n = [] := by rw [breakAfter_eq hl, hlast.mpr hnext]; rfl
      rw [hnone, hnext] at hend
      exact ⟨hnone, hend.trans (length_ofText text)⟩ }

/-! ## All the lines -/

theorem flatMap_piece (hn : n ≤ (ofText text).lineCount) :
    (List.range n).flatMap (piece text) = text.toList.take ((ofText text).offsetOf n) := by
  induction n with
  | zero => simp [offsetOf_eq]
  | succ n ih =>
    obtain ⟨l, hl, -⟩ := exists_line_of_lt hn
    have hwidth : (l.chars ++ text.toList.drop ((ofText text).offsetOf (n + 1))).take l.width = l.chars := by
      rw [← Text.Line.length_chars, List.take_left]
    rw [List.range_succ, List.flatMap_append, ih (by omega), List.flatMap_singleton, piece_eq hl,
      (ofText text).offsetOf_succ hl, List.take_add, drop_offsetOf hl, hwidth]

/-- One offset on, the line is the next one after a line feed, and the same after any other character. -/
theorem locate_line_succ (ho : o < text.length) :
    ((ofText text).locate (o + 1)).1 = ((ofText text).locate o).1 + if text.toList[o]? = some '\n' then 1 else 0 := by
  rw [locate_line, locate_line, Nat.min_eq_left ho, Nat.min_eq_left (Nat.le_of_lt ho), List.take_add_one,
    List.count_append]
  congr 1
  cases text.toList[o]? with
  | none => rfl
  | some c => simp [List.count_singleton]

/-- A line begins where the text does, or after a line feed, and nowhere else. -/
theorem lineStart_iff (text : String) (o : Nat) :
    (∃ n, (ofText text).lineStart n = some o) ↔ o = 0 ∨ ∃ p, o = p + 1 ∧ text.toList[p]? = some '\n' := by
  have hd := lined_ofText text
  have hzero : (ofText text).offsetOf 0 = 0 := (ofText text).offsetOf_eq (Nat.zero_le _)
  constructor
  · intro ⟨n, hn⟩
    obtain ⟨hlt, rfl⟩ := lineStart_eq_some_iff.mp hn
    by_cases h0 : n = 0
    · exact Or.inl (h0 ▸ hzero)
    · right
      have hpos := offsetOf_lt hd (Nat.pos_of_ne_zero h0) hlt
      have hle := offsetOf_le_length (d := ofText text) (Nat.le_of_lt hlt)
      obtain ⟨p, hp⟩ : ∃ p, (ofText text).offsetOf n = p + 1 := Nat.exists_eq_succ_of_ne_zero (by omega)
      refine ⟨p, hp, ?_⟩
      -- the offset lies in the line, and the one before it does not
      have hhere := (le_locate_iff hd hlt hle).mpr (Nat.le_refl _)
      have hbefore := le_locate_iff hd (o := p) hlt (by omega)
      rw [length_ofText] at hle
      have hsucc := locate_line_succ (show p < text.length by omega)
      rw [← hp] at hsucc
      by_contra hfeed
      rw [if_neg hfeed] at hsucc
      omega
  · rintro (rfl | ⟨p, rfl, hfeed⟩)
    · exact ⟨0, lineStart_eq_some_iff.mpr ⟨lineCount_pos hd, hzero⟩⟩
    · have hp : p < text.length := by
        rw [← String.length_toList]
        exact (List.getElem?_eq_some_iff.mp hfeed).1
      have hsucc := locate_line_succ hp
      rw [if_pos hfeed] at hsucc
      have hlt := locate_lt hd (p + 1)
      refine ⟨((ofText text).locate (p + 1)).1, lineStart_eq_some_iff.mpr ⟨hlt, ?_⟩⟩
      rw [← length_ofText] at hp
      have hhere := (le_locate_iff hd hlt (o := p + 1) hp).mp (Nat.le_refl _)
      have hbefore := le_locate_iff hd hlt (o := p) (Nat.le_of_lt hp)
      omega

/-- The lines of a text are as many as its line feeds and one more, and no other line has a start, a length or a text.
    They begin in order, the first where the text does, and each begins where the break of the one before ends
    (`Tile`). So the lines with their breaks are the text, and they begin after its line feeds and after nothing else.
    The lines by which a rope keeps the text are the same. -/
theorem lines_tile (text : String) :
    let d := ofText text
    d.lineCount = text.toList.count '\n' + 1 ∧
    (∀ n, (d.lineStart n = none ↔ d.lineCount ≤ n) ∧ (d.lineLength n = none ↔ d.lineCount ≤ n) ∧
      (d.lineText n = none ↔ d.lineCount ≤ n)) ∧
    d.lineStart 0 = some 0 ∧
    (∀ m n start next, m < n → d.lineStart m = some start → d.lineStart n = some next → start < next) ∧
    (∀ n < d.lineCount, ∃ start content, Tile text n start content) ∧
    (List.range d.lineCount).flatMap (piece text) = text.toList ∧
    (∀ o, (∃ n, d.lineStart n = some o) ↔ o = 0 ∨ ∃ p, o = p + 1 ∧ text.toList[p]? = some '\n') ∧
    ∀ r : Rope, r.Keeps text → r.charCount = d.length ∧ r.lineCount = d.lineCount ∧
      ∀ n, r.lineStart? n = some (d.lineStart n) ∧ r.lineLength? n = some (d.lineLength n) ∧
        r.lineText? n = some (d.lineText n) := by
  intro d
  have hd : d.Lined := lined_ofText text
  have hline : ∀ n, d.lines[n]? = none ↔ d.lineCount ≤ n := fun n => Array.getElem?_eq_none_iff
  refine ⟨lineCount_ofText text, fun n => ⟨?_, ?_, ?_⟩, ?_, ?_, fun n hn => tile_of_lt hn, ?_, lineStart_iff text, ?_⟩
  · simp [lineStart]
  · rw [lineLength_eq, Option.map_eq_none_iff, hline]
  · rw [lineText, Option.map_eq_none_iff, hline]
  · exact lineStart_eq_some_iff.mpr ⟨lineCount_pos hd, d.offsetOf_eq (Nat.zero_le _)⟩
  · intro m n start next hmn hm hn
    obtain ⟨-, rfl⟩ := lineStart_eq_some_iff.mp hm
    obtain ⟨hlt, rfl⟩ := lineStart_eq_some_iff.mp hn
    exact offsetOf_lt hd hmn hlt
  · have hall := flatMap_piece (Nat.le_refl (ofText text).lineCount)
    rwa [show (ofText text).offsetOf (ofText text).lineCount = text.length from length_ofText text,
      ← String.length_toList, List.take_length] at hall
  · intro r hr
    exact ⟨hr.charCount_eq, hr.lineCount_eq, fun n => ⟨r.lineStart?_eq hr n, r.lineLength?_eq hr n, r.lineText?_eq hr n⟩⟩

/-- Only one of two carriage returns is part of a break, a separator is part of its line, and so is the carriage
    return at the end of the text. -/
theorem lines_tile_returns :
    let text := "a\r\r\n\u2028b\n\r"
    Tile text 0 0 "a\r" ∧ breakAfter text 0 = ['\r', '\n'] ∧ Tile text 1 4 "\u2028b" ∧ breakAfter text 1 = ['\n'] ∧
      Tile text 2 7 "\r" ∧ (ofText text).lineText 3 = none ∧ (Rope.ofText text).lineLength? 0 = some (some 2) ∧
      ∃ start next, (ofText text).lineStart 1 = some start ∧ (ofText text).lineStart 2 = some next ∧ start < next := by
  intro text
  obtain ⟨-, absent, -, rising, tiles, -, -, ropes⟩ := lines_tile text
  have tile : ∀ n start content, (ofText text).lineStart n = some start → (ofText text).lineText n = some content →
      Tile text n start content := by
    intro n start content hstart hcontent
    obtain ⟨start', content', htile⟩ := tiles n (lineStart_eq_some_iff.mp hstart).1
    cases hstart.symm.trans htile.lineStart
    cases hcontent.symm.trans htile.lineText
    exact htile
  obtain ⟨-, -, kept⟩ := ropes (Rope.ofText text) (Rope.keeps_ofText text)
  have second : (ofText text).lineStart 1 = some 4 := by decide
  have third : (ofText text).lineStart 2 = some 7 := by decide
  refine ⟨tile 0 0 _ (by decide) (by decide), by decide, tile 1 4 _ second (by decide), by decide,
    tile 2 7 _ third (by decide), ?_, ?_, 4, 7, second, third, rising 1 2 4 7 (by decide) second third⟩
  · exact (absent 3).2.2.mpr (by decide)
  · rw [(kept 0).2.1, show (ofText text).lineLength 0 = some 2 by decide]

end Document

end CursorDiagnostics
