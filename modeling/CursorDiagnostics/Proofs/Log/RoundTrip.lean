/-
  CursorDiagnostics.Proofs.Log.RoundTrip — records written to a log and read again.

  A record is well formed if its line can be told from others: the file is plain, neither the file nor the
  message has a line feed, and trimming the line takes nothing from it.
  - `reads_chars_iff`: the line of a record reads as that record exactly if the record is well formed and
    its coordinates are words of 64 bits.
  - `reads_of_written`: a log of such lines, with any breaks and any blank lines, holds these records.
  - `read_inverse`: so writing and reading are inverse on these records and on no others.
-/

import CursorDiagnostics.Proofs.Log.Reading

namespace CursorDiagnostics

open Log (Block IsNumeral Plain Reads)
open Text (Trimmed isBlank)

namespace Record

def block (r : Record) : Block :=
  ⟨Text.Decimal.digits r.start.line, Text.Decimal.digits r.start.column, Text.Decimal.digits r.stop.line,
    Text.Decimal.digits r.stop.column, r.message.toList⟩

def chars (r : Record) : List Char := r.file.toList ++ r.block.chars

structure WellFormed (r : Record) : Prop where
  file_line : '\n' ∉ r.file.toList
  file_head : ∀ c ∈ r.file.toList.head?, isBlank c = false
  file_plain : Plain r.file.toList
  message_line : '\n' ∉ r.message.toList
  message_last : ∀ c ∈ r.message.toList.getLast?, isBlank c = false

def Fits (r : Record) : Prop := r.start.Fits ∧ r.stop.Fits

end Record

namespace Log

variable {b : Block} {r : Record} {rs : List Record} {file cs : List Char}

/-! ## One line -/

theorem numeric_block (r : Record) : r.block.Numeric :=
  ⟨isNumeral_digits _, isNumeral_digits _, isNumeral_digits _, isNumeral_digits _⟩

theorem start_block (r : Record) : r.block.start = r.start := by simp [Block.start, Record.block]

theorem stop_block (r : Record) : r.block.stop = r.stop := by simp [Block.stop, Record.block]

theorem trimmed_iff : Trimmed (file ++ b.chars) ↔
    (∀ c ∈ file.head?, isBlank c = false) ∧ ∀ c ∈ b.message.getLast?, isBlank c = false := by
  obtain ⟨places, he, hh, -⟩ := chars_eq b
  have hc : isBlank ',' = false := by decide
  have hhead : (∀ c ∈ (file ++ b.chars).head?, isBlank c = false) ↔ ∀ c ∈ file.head?, isBlank c = false := by
    cases file with
    | nil => simp [he, hh, hc]
    | cons d file => rfl
  have hlast : (∀ c ∈ (file ++ b.chars).getLast?, isBlank c = false) ↔
      ∀ c ∈ b.message.getLast?, isBlank c = false := by
    rw [he, ← List.append_assoc, List.getLast?_append, List.getLast?_cons]
    cases b.message.getLast? with
    | none => simp [hc]
    | some c => simp
  exact ⟨fun h => ⟨hhead.mp h.head, hlast.mp h.last⟩, fun h => ⟨hhead.mpr h.1, hlast.mpr h.2⟩⟩

/-- What is cut out of a line is well formed exactly if the line is cut there, is one line and is trimmed. -/
theorem wellFormed_iff (hb : b.Numeric) {start stop : Position} :
    Record.WellFormed ⟨String.ofList file, start, stop, String.ofList b.message⟩ ↔
      split (file ++ b.chars) = some (file, b) ∧ '\n' ∉ file ++ b.chars ∧ Trimmed (file ++ b.chars) := by
  rw [split_append_iff hb, feed_mem_iff hb, trimmed_iff, not_or]
  constructor
  · intro ⟨h₁, h₂, h₃, h₄, h₅⟩
    simp only [String.toList_ofList] at h₁ h₂ h₃ h₄ h₅
    exact ⟨h₃, ⟨h₁, h₄⟩, h₂, h₅⟩
  · intro ⟨h₃, ⟨h₁, h₄⟩, h₂, h₅⟩
    constructor
    all_goals simp only [String.toList_ofList]
    all_goals assumption

theorem wellFormed_of_reads (ht : Trimmed cs) (h : Reads cs r) : r.WellFormed ∧ r.Fits := by
  obtain ⟨hn, file, b, hs, hstart, hstop, rfl⟩ := h
  obtain ⟨hb, rfl⟩ := (split_eq_some_iff.mp hs).1
  exact ⟨(wellFormed_iff hb).mpr ⟨hs, hn, ht⟩, hstart, hstop⟩

/-- The line of a record is trimmed and reads as the record exactly if the record is well formed. -/
theorem reads_chars_iff : Trimmed r.chars ∧ Reads r.chars r ↔ r.WellFormed ∧ r.Fits := by
  constructor
  · intro ⟨ht, h⟩
    exact wellFormed_of_reads ht h
  · intro ⟨hw, hf⟩
    have hw' : Record.WellFormed ⟨String.ofList r.file.toList, r.start, r.stop, String.ofList r.block.message⟩ := by
      simpa [Record.block] using hw
    obtain ⟨hs, hn, ht⟩ := (wellFormed_iff (numeric_block r)).mp hw'
    refine ⟨ht, hn, r.file.toList, r.block, hs, ?_, ?_, ?_⟩
    · rw [start_block]
      exact hf.1
    · rw [stop_block]
      exact hf.2
    · rw [start_block, stop_block, String.ofList_toList]
      exact (congrArg (Record.mk r.file r.start r.stop) String.ofList_toList).symm

/-! ## A whole log -/

/-- The text holds these records: one a line, under either break, with any blank lines before, between and
    after them. The break of the last line may be missing. -/
inductive Written : List Record → List Char → Prop
  | nil {blanks : List Char} : (∀ c ∈ blanks, isBlank c = true) → Written [] blanks
  | last (r : Record) : Written [r] r.chars
  | line (r : Record) {rs : List Record} {e : Text.Ending} {cs : List Char} :
    e ≠ .last → Written rs cs → Written (r :: rs) (r.chars ++ e.chars ++ cs)
  | skip {rs : List Record} {blanks cs : List Char} :
    (∀ c ∈ blanks, isBlank c = true) → Written rs cs → Written rs (blanks ++ '\n' :: cs)

def text (rs : List Record) : List Char := rs.flatMap fun r => r.chars ++ ['\n']

theorem written_text (rs : List Record) : Written rs (text rs) := by
  induction rs with
  | nil => exact .nil (by simp [text])
  | cons r rs ih => exact .line r (e := .feed) (by simp) ih

theorem contents_chars (hw : r.WellFormed ∧ r.Fits) {blanks : List Char} (hb : ∀ c ∈ blanks, isBlank c = true)
    (hn : '\n' ∉ blanks) : contents (r.chars ++ blanks) = [r.chars] := by
  obtain ⟨ht, hr⟩ := reads_chars_iff.mpr hw
  have htrim : Text.trim (r.chars ++ blanks) = r.chars := by
    rw [Text.trim_append_blanks hb, Text.trim_eq_self ht]
  have hne : r.chars ≠ [] := by simp [Record.chars, Block.chars]
  rw [contents_of_not_mem (by simp [hr.1, hn]), htrim, if_neg hne]

theorem reads_of_written (h : Written rs cs) (hw : ∀ r ∈ rs, r.WellFormed ∧ r.Fits) :
    List.Forall₂ Reads (contents cs) rs := by
  induction h with
  | @nil blanks hb =>
    rw [← List.append_nil blanks, contents_blanks_append hb]
    exact .nil
  | last r =>
    have hr := hw r List.mem_cons_self
    rw [← List.append_nil r.chars, contents_chars hr (by simp) (by simp)]
    exact .cons (reads_chars_iff.mpr hr).2 .nil
  | @line r rs e cs he _ ih =>
    obtain ⟨hr, hrs⟩ := List.forall_mem_cons.mp hw
    -- Either break is a line feed, after blanks that belong to the line.
    obtain ⟨blanks, hb, hn, hbreak⟩ : ∃ blanks : List Char, (∀ c ∈ blanks, isBlank c = true) ∧ '\n' ∉ blanks ∧
        e.chars = blanks ++ ['\n'] := by
      cases e with
      | last => exact absurd rfl he
      | feed => exact ⟨[], by simp, by simp, rfl⟩
      | returnFeed => exact ⟨['\r'], List.all_eq_true.mp rfl, by simp, rfl⟩
    have hcs : r.chars ++ e.chars ++ cs = r.chars ++ blanks ++ '\n' :: cs := by simp [hbreak]
    rw [hcs, contents_append_newline, contents_chars hr hb hn]
    exact .cons (reads_chars_iff.mpr hr).2 (ih hrs)
  | skip hb _ ih =>
    rw [contents_blanks_append hb, contents_cons_blank (by decide)]
    exact ih hw

theorem wellFormed_of_forall₂ {texts : List (List Char)} (h : List.Forall₂ Reads texts rs)
    (ht : ∀ cs ∈ texts, Trimmed cs) : ∀ r ∈ rs, r.WellFormed ∧ r.Fits := by
  induction h with
  | nil => simp
  | cons hr _ ih =>
    obtain ⟨htrim, ht⟩ := List.forall_mem_cons.mp ht
    exact List.forall_mem_cons.mpr ⟨wellFormed_of_reads htrim hr, ih ht⟩

theorem wellFormed_of_read {log : String} (h : read log = .ok rs) : ∀ r ∈ rs, r.WellFormed ∧ r.Fits :=
  wellFormed_of_forall₂ (read_eq_ok_iff.mp h) fun _ => trimmed_of_mem_contents

/-- What is read is well formed; a log of well-formed records with words of 64 bits reads as these records,
    however its lines are broken; and so does any log of the records that another log was read as. -/
theorem read_inverse (rs : List Record) :
    (∀ log, read log = .ok rs → ∀ r ∈ rs, r.WellFormed ∧ r.Fits) ∧
    ((∀ r ∈ rs, r.WellFormed ∧ r.Fits) → ∀ log : String, Written rs log.toList → read log = .ok rs) ∧
    (∀ log, read log = .ok rs → read (String.ofList (text rs)) = .ok rs ∧
      ∀ again : String, Written rs again.toList → read again = .ok rs) := by
  have hread : (∀ r ∈ rs, r.WellFormed ∧ r.Fits) → ∀ log : String, Written rs log.toList → read log = .ok rs :=
    fun hw log h => read_eq_ok_iff.mpr (reads_of_written h hw)
  refine ⟨fun log h => wellFormed_of_read h, hread, fun log h => ?_⟩
  have hw := wellFormed_of_read h
  refine ⟨hread hw _ ?_, hread hw⟩
  rw [String.toList_ofList]
  exact written_text rs

/-- A file that ends like a place, but for a letter; a message with a block in it; and a record of the largest
    word and of nothing else. -/
def tricky : List Record :=
  [⟨"a,1:1,2:2b", ⟨1, 2⟩, ⟨3, 4⟩, "x,5:6,7:8,y"⟩, ⟨"", ⟨0, 18446744073709551615⟩, ⟨0, 0⟩, ""⟩]

theorem read_tricky :
    (∀ r ∈ tricky, r.WellFormed ∧ r.Fits) ∧
      read "a,1:1,2:2b,1:2,3:4,x,5:6,7:8,y\r\n \t\n,0:18446744073709551615,0:0," = .ok tricky ∧
      read (String.ofList (text tricky)) = .ok tricky := by
  obtain ⟨sound, complete, again⟩ := read_inverse tricky
  -- Leading zeros, and blanks around a record, are read but not written.
  have hread : read " a,1:1,2:2b,01:2,3:4,x,5:6,7:8,y\n,0:18446744073709551615,0:0, " = .ok tricky := rfl
  have hw := sound _ hread
  refine ⟨hw, complete hw _ ?_, (again _ hread).1⟩
  have hlast : Written [tricky[1]] ",0:18446744073709551615,0:0,".toList := .last _
  have hskip : Written [tricky[1]] ([' ', '\t'] ++ '\n' :: ",0:18446744073709551615,0:0,".toList) :=
    .skip (List.all_eq_true.mp rfl) hlast
  exact .line _ (e := .returnFeed) (by simp) hskip

end Log

end CursorDiagnostics
