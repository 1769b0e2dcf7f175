/-
  CursorDiagnostics.Proofs.Log.FirstCut — a line is decided by its first cut alone.

  Of the cuts that a line has, one has the shortest file. If its four numerals are words of 64 bits they are
  the record's places, and if not the first that is none is the fault, whatever the cuts after it would give
  (`record_eq`). A line with a line feed in it, or with no cut, is malformed as a whole
  (`readLine_of_not_cut`), and there is nothing else that can happen to a line (`readLine_by_first_cut`).
-/

import CursorDiagnostics.Proofs.Log.Reading
import Mathlib.Algebra.Group.Nat.Defs

namespace CursorDiagnostics.Log

open Text.Decimal (value wordLimit)

variable {file file' : List Char} {b b' : Block}

def IsFirstCut (line file : List Char) (b : Block) : Prop :=
  IsCut line file b ∧ ∀ file' b', IsCut line file' b' → file.length ≤ file'.length

variable {line : List Char}

theorem isFirstCut_iff : IsFirstCut line file b ↔ split line = some (file, b) := by
  rw [split_eq_some_iff, IsFirstCut]

theorem IsFirstCut.eq (h : IsFirstCut line file b) (h' : IsFirstCut line file' b') : file' = file ∧ b' = b := by
  rw [isFirstCut_iff] at h h'
  rw [h] at h'
  cases h'
  exact ⟨rfl, rfl⟩

theorem exists_isFirstCut (h : ∃ file b, IsCut line file b) : ∃ file b, IsFirstCut line file b := by
  cases hs : split line with
  | none =>
    rw [split_eq_none_iff] at hs
    obtain ⟨file, b, hcut⟩ := h
    exact absurd hcut (hs file b)
  | some p => exact ⟨p.1, p.2, by rw [isFirstCut_iff, hs]⟩

/-! ## The numerals of a cut -/

def Block.numerals (b : Block) : List (List Char) := [b.startLine, b.startColumn, b.stopLine, b.stopColumn]

theorem Block.Numeric.isNumeral (hb : b.Numeric) {ds : List Char} (h : ds ∈ b.numerals) : IsNumeral ds := by
  simp only [Block.numerals, List.mem_cons, List.not_mem_nil, or_false] at h
  rcases h with rfl | rfl | rfl | rfl
  · exact hb.startLine
  · exact hb.startColumn
  · exact hb.stopLine
  · exact hb.stopColumn

def Block.excess? (b : Block) : Option (List Char) := b.numerals.find? fun ds => wordLimit ≤ value ds

theorem coordinate_eq (line : Nat) (ds : List Char) :
    coordinate line ds =
      if wordLimit ≤ value ds then .error (.invalidNumber line (String.ofList ds)) else .ok (value ds) := by
  by_cases h : wordLimit ≤ value ds
  · have hw : ¬ value ds ≤ wordLimit - 1 := by
      have : 0 < wordLimit := by decide
      omega
    rw [coordinate, Text.Decimal.valueUpTo_eq, if_neg hw, if_pos h]
  · rw [if_neg h, coordinate_eq_ok_iff]
    exact ⟨by omega, rfl⟩

/-- The coordinates are read in order, and the first that is too large ends the reading. -/
theorem record_eq (line : Nat) (file : List Char) (b : Block) :
    record line file b =
      match b.excess? with
      | some ds => .error (.invalidNumber line (String.ofList ds))
      | none => .ok ⟨String.ofList file, b.start, b.stop, String.ofList b.message⟩ := by
  simp only [record, coordinate_eq, Block.excess?, Block.numerals, List.find?_cons]
  by_cases h₁ : wordLimit ≤ value b.startLine
  · simp [h₁, bind, Except.bind]
  by_cases h₂ : wordLimit ≤ value b.startColumn
  · simp [h₁, h₂, bind, Except.bind]
  by_cases h₃ : wordLimit ≤ value b.stopLine
  · simp [h₁, h₂, h₃, bind, Except.bind]
  by_cases h₄ : wordLimit ≤ value b.stopColumn
  · simp [h₁, h₂, h₃, h₄, bind, Except.bind]
  · simp [h₁, h₂, h₃, h₄, bind, Except.bind, pure, Except.pure, Block.start, Block.stop]

/-! ## A line -/

theorem readLine_of_not_cut (line : Nat) {content : List Char}
    (h : '\n' ∈ content ∨ ∀ file b, ¬ IsCut content file b) :
    readLine line content = .error (.malformedLine line (String.ofList content)) := by
  have hs : (if '\n' ∈ content then none else split content) = none := by
    rcases h with h | h
    · rw [if_pos h]
    · rw [← split_eq_none_iff] at h
      rw [h, ite_self]
  rw [readLine, hs]

theorem readLine_of_firstCut (line : Nat) {content : List Char} (hn : '\n' ∉ content)
    (h : IsFirstCut content file b) : readLine line content = record line file b := by
  rw [isFirstCut_iff] at h
  rw [readLine, if_neg hn, h]

/-- A line fails as a whole or for one of its numerals. -/
theorem readLine_error {line : Nat} {content : List Char} {e : Failure} (h : readLine line content = .error e) :
    e = .malformedLine line (String.ofList content) ∨ ∃ ds, IsNumeral ds ∧ e = .invalidNumber line (String.ofList ds) := by
  by_cases hcut : '\n' ∈ content ∨ ∀ file b, ¬ IsCut content file b
  · rw [readLine_of_not_cut line hcut] at h
    cases h
    exact Or.inl rfl
  · push Not at hcut
    obtain ⟨hn, hcut⟩ := hcut
    obtain ⟨file, b, hfirst⟩ := exists_isFirstCut hcut
    rw [readLine_of_firstCut line hn hfirst, record_eq] at h
    cases hexcess : b.excess? with
    | some ds =>
      rw [hexcess] at h
      cases h
      exact Or.inr ⟨ds, hfirst.1.1.isNumeral (List.mem_of_find?_eq_some hexcess), rfl⟩
    | none =>
      rw [hexcess] at h
      cases h

/-- A line that is not one line, or that cannot be cut, is malformed. Every other has one cut with the shortest
    file, and reads as the record of this cut, or fails for the first of its numerals that is too large. -/
theorem readLine_by_first_cut (k : Nat) (line : String) :
    ('\n' ∈ line.toList ∨ (∀ file b, ¬ IsCut line.toList file b) →
      readLine k line.toList = .error (.malformedLine k line)) ∧
    ('\n' ∉ line.toList → (∃ file b, IsCut line.toList file b) →
      ∃ file b, IsFirstCut line.toList file b ∧
        (∀ file' b', IsFirstCut line.toList file' b' → file' = file ∧ b' = b) ∧
        readLine k line.toList =
          match b.numerals.find? fun ds => 2 ^ 64 ≤ value ds with
          | some ds => .error (.invalidNumber k (String.ofList ds))
          | none => .ok
            { file := String.ofList file
              start := ⟨value b.startLine, value b.startColumn⟩
              stop := ⟨value b.stopLine, value b.stopColumn⟩
              message := String.ofList b.message }) := by
  constructor
  · intro h
    rw [readLine_of_not_cut k h, String.ofList_toList]
  · intro hn hcut
    obtain ⟨file, b, hfirst⟩ := exists_isFirstCut hcut
    refine ⟨file, b, hfirst, fun file' b' h' => hfirst.eq h', ?_⟩
    rw [readLine_of_firstCut k hn hfirst, record_eq]
    rfl

/-- A line with two cuts, of which the second has the smaller numbers. -/
def passedOver : String := "a,01:2,18446744073709551616:4,b,1:1,1:2,m"

/-- The first cut has a number that is too large, so the line fails, though its second cut is without fault. A line
    with a line feed in it is malformed, wherever it could be cut. -/
theorem readLine_passedOver :
    let later : Block := ⟨['1'], ['1'], ['1'], ['2'], ['m']⟩
    IsCut passedOver.toList "a,01:2,18446744073709551616:4,b".toList later ∧
      readLine 7 passedOver.toList = .error (.invalidNumber 7 "18446744073709551616") ∧
      readLine 7 "a,1:1,1:2,\nm".toList = .error (.malformedLine 7 "a,1:1,1:2,\nm") := by
  intro later
  have hlater : block later.chars = some later := rfl
  rw [block_eq_some_iff] at hlater
  have hcut : IsCut passedOver.toList "a,01:2,18446744073709551616:4,b".toList later := ⟨hlater.1, rfl⟩
  have hfirst : split passedOver.toList = some (_, _) := rfl
  rw [← isFirstCut_iff] at hfirst
  obtain ⟨file, b, -, only, hread⟩ := (readLine_by_first_cut 7 passedOver).2 (by decide) ⟨_, _, hcut⟩
  obtain ⟨rfl, rfl⟩ := only _ _ hfirst
  exact ⟨hcut, hread, (readLine_by_first_cut 7 "a,1:1,1:2,\nm").1 (Or.inl (by decide))⟩

end CursorDiagnostics.Log
