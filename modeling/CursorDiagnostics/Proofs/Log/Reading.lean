/-
  CursorDiagnostics.Proofs.Log.Reading — when a log reads, and what it gives.

  - `readLine_eq_ok_iff`: a line reads exactly if its first cut has words of 64 bits for coordinates.
  - `read_eq_ok_iff`: a log reads exactly if all its contents do, and gives their records in order.
  - `contents_append_newline`: the contents of a log are those of its parts.
-/

import CursorDiagnostics.Proofs.Log.Grammar
import CursorDiagnostics.Proofs.Steps
import CursorDiagnostics.Proofs.Text.Lines
import CursorDiagnostics.Proofs.Text.Trim

namespace CursorDiagnostics

open Text (Trimmed trim isBlank)
open Text.Decimal (value wordLimit)

def Position.Fits (p : Position) : Prop := p.line < wordLimit ∧ p.column < wordLimit

namespace Log

/-! ## A line -/

def Block.start (b : Block) : Position := ⟨value b.startLine, value b.startColumn⟩

def Block.stop (b : Block) : Position := ⟨value b.stopLine, value b.stopColumn⟩

def Reads (content : List Char) (r : Record) : Prop :=
  '\n' ∉ content ∧ ∃ file b, split content = some (file, b) ∧ b.start.Fits ∧ b.stop.Fits ∧
    r = ⟨String.ofList file, b.start, b.stop, String.ofList b.message⟩

theorem coordinate_eq_ok_iff {line n : Nat} {ds : List Char} :
    coordinate line ds = .ok n ↔ value ds < wordLimit ∧ value ds = n := by
  have hw : value ds ≤ wordLimit - 1 ↔ value ds < wordLimit := Nat.le_sub_one_iff_lt (by decide)
  rw [coordinate, Text.Decimal.valueUpTo_eq]
  simp only [hw]
  by_cases h : value ds < wordLimit
  · simp [h]
  · simp [h]

theorem record_eq_ok_iff {line : Nat} {file : List Char} {b : Block} {r : Record} :
    record line file b = .ok r ↔ b.start.Fits ∧ b.stop.Fits ∧
      r = ⟨String.ofList file, b.start, b.stop, String.ofList b.message⟩ := by
  simp only [record, bind_eq_ok_iff, coordinate_eq_ok_iff]
  constructor
  · intro ⟨_, ⟨h₁, e₁⟩, _, ⟨h₂, e₂⟩, _, ⟨h₃, e₃⟩, _, ⟨h₄, e₄⟩, hr⟩
    subst e₁ e₂ e₃ e₄
    cases hr
    exact ⟨⟨h₁, h₂⟩, ⟨h₃, h₄⟩, rfl⟩
  · intro ⟨⟨h₁, h₂⟩, ⟨h₃, h₄⟩, hr⟩
    subst hr
    exact ⟨_, ⟨h₁, rfl⟩, _, ⟨h₂, rfl⟩, _, ⟨h₃, rfl⟩, _, ⟨h₄, rfl⟩, rfl⟩

theorem readLine_eq_ok_iff {line : Nat} {content : List Char} {r : Record} :
    readLine line content = .ok r ↔ Reads content r := by
  rw [readLine, Reads]
  by_cases hn : '\n' ∈ content
  · rw [if_pos hn]
    exact ⟨fun h => (by cases h), fun h => absurd hn h.1⟩
  · rw [if_neg hn]
    cases hs : split content with
    | none =>
      refine ⟨fun h => (by cases h), fun h => ?_⟩
      obtain ⟨-, _, _, h, -⟩ := h
      cases h
    | some p =>
      obtain ⟨file, b⟩ := p
      rw [record_eq_ok_iff]
      constructor
      · intro h
        exact ⟨hn, file, b, rfl, h⟩
      · intro ⟨_, _, _, he, h⟩
        cases he
        exact h

/-! ## The lines that hold something -/

def contents (cs : List Char) : List (List Char) := ((cs.splitOn '\n').map trim).filter (· ≠ [])

/-- The carriage return of a break is a blank. -/
theorem trim_uncut (l : Text.Line) : trim l.uncut = trim l.content := by
  obtain ⟨content, ending⟩ := l
  cases ending with
  | returnFeed => exact Text.trim_append_blanks (List.all_eq_true.mp rfl)
  | last | feed => rfl

theorem map_snd_entries (log : String) : (entries log).map Prod.snd = contents log.toList := by
  rw [entries, contents, ← Text.map_uncut_lines]
  generalize Text.lines log.toList = ls
  generalize 1 = number
  induction ls generalizing number with
  | nil => rfl
  | cons l ls ih =>
    rw [List.zipIdx_cons, List.filterMap_cons, List.map_cons, List.map_cons, List.filter_cons, trim_uncut]
    by_cases h : trim l.content = []
    · simp [h, ih]
    · simp [h, ih]

theorem read_eq_ok_iff {log : String} {records : List Record} :
    read log = .ok records ↔ List.Forall₂ Reads (contents log.toList) records := by
  rw [← map_snd_entries, List.forall₂_map_left_iff, read, mapM_eq_ok_iff]
  simp only [readLine_eq_ok_iff]

theorem trimmed_of_mem_contents {c cs : List Char} (h : c ∈ contents cs) : Trimmed c := by
  obtain ⟨p, -, rfl⟩ := List.mem_map.mp (List.mem_of_mem_filter h)
  exact Text.trimmed_trim p

theorem contents_append_newline (a b : List Char) : contents (a ++ '\n' :: b) = contents a ++ contents b := by
  rw [contents, List.splitOn_append_cons_self, List.map_append, List.filter_append]
  rfl

theorem contents_of_not_mem {cs : List Char} (h : '\n' ∉ cs) : contents cs = if trim cs = [] then [] else [trim cs] := by
  rw [contents, List.splitOn_eq_singleton h]
  by_cases ht : trim cs = []
  · simp [ht]
  · simp [ht]

theorem contents_cons_blank {c : Char} (h : isBlank c = true) (cs : List Char) : contents (c :: cs) = contents cs := by
  by_cases hc : c = '\n'
  · subst hc
    exact contents_append_newline [] cs
  · obtain ⟨p, ps, hp⟩ := List.exists_cons_of_ne_nil (List.splitOn_ne_nil '\n' cs)
    have ht : trim (c :: p) = trim p := by rw [trim, trim, List.dropWhile_cons_of_pos h]
    rw [contents, contents, List.splitOn_cons_eq_if_modifyHead, hp]
    simp [hc, ht]

theorem contents_blanks_append {blanks : List Char} (h : ∀ c ∈ blanks, isBlank c = true) (cs : List Char) :
    contents (blanks ++ cs) = contents cs := by
  induction blanks with
  | nil => rfl
  | cons c blanks ih =>
    have hb := List.forall_mem_cons.mp h
    rw [List.cons_append, contents_cons_blank hb.1, ih hb.2]

end Log

end CursorDiagnostics
