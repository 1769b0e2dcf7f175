/-
  CursorDiagnostics.Proofs.CommandLine.Positions — the texts that are positions, and what is wrong with the others.

  A number is spelt in ASCII digits, zeros before it or not, after a plus or not (`Spells`). No colon is in it, so
  the colon that divides a position is its first one, and it has no second.
  - `readNat_eq_ok_iff`: a number is read exactly if it is spelt and below the limit.
  - `readPosition_eq_ok_iff`: a position is read exactly if its two numbers are, and both count from 1.
  - `readPosition_exact`: so a position that the console prints is read back. Any other text is refused for the
    first of its faults: no colon, the line, the column, a zero.
-/

import CursorDiagnostics.CommandLine.Arguments
import CursorDiagnostics.Console
import CursorDiagnostics.Proofs.Log.Reading
import CursorDiagnostics.Proofs.Text.Runs

namespace CursorDiagnostics

open Log (IsNumeral isNumeral_digits)

/-! ## Numbers -/

namespace Text.Decimal

/-- The text is the number in ASCII digits, after a plus or not. -/
def Spells (cs : List Char) (n : Nat) : Prop :=
  ∃ ds, IsNumeral ds ∧ (cs = ds ∨ cs = '+' :: ds) ∧ value ds = n

variable {cs : List Char} {c : Char} {n most limit : Nat} {past : Fault}

theorem spells_digits (n : Nat) : Spells (digits n) n :=
  ⟨digits n, isNumeral_digits n, Or.inl rfl, value_digits n⟩

theorem Spells.not_mem (h : Spells cs n) (hc : c.isDigit = false) (hplus : c ≠ '+') : c ∉ cs := by
  obtain ⟨ds, ⟨-, hds⟩, hcs, -⟩ := h
  have hmem : c ∉ ds := fun h => by simp [hds c h] at hc
  rcases hcs with rfl | rfl
  · exact hmem
  · exact fun h => (List.mem_cons.mp h).elim hplus hmem

theorem spells_plus : Spells ('+' :: cs) n ↔ IsNumeral cs ∧ value cs = n := by
  constructor
  · rintro ⟨ds, hds, rfl | h, hn⟩
    · exact absurd (hds.2 '+' List.mem_cons_self) (by decide)
    · cases h
      exact ⟨hds, hn⟩
  · intro ⟨hcs, hn⟩
    exact ⟨cs, hcs, Or.inr rfl, hn⟩

theorem spells_of_head (h : cs.head? ≠ some '+') : Spells cs n ↔ IsNumeral cs ∧ value cs = n := by
  constructor
  · rintro ⟨ds, hds, rfl | rfl, hn⟩
    · exact ⟨hds, hn⟩
    · exact absurd rfl h
  · intro ⟨hcs, hn⟩
    exact ⟨cs, hcs, Or.inl rfl, hn⟩

theorem isNumeral_iff : IsNumeral cs ↔ ¬ (cs = [] ∨ cs.dropWhile Char.isDigit ≠ []) := by
  rw [not_or, not_not, List.dropWhile_eq_nil_iff, IsNumeral]

theorem magnitude_eq_ok_iff :
    magnitude most past cs = .ok n ↔ IsNumeral cs ∧ value cs = n ∧ n ≤ most := by
  rw [magnitude, valueUpTo_eq]
  by_cases hcs : IsNumeral cs
  · have hall : cs.takeWhile Char.isDigit = cs := List.takeWhile_eq_self_iff.mpr hcs.2
    rw [hall]
    by_cases hm : value cs ≤ most
    · simp only [if_pos hm, if_neg (isNumeral_iff.mp hcs), Except.ok.injEq]
      exact ⟨fun h => ⟨hcs, h, h ▸ hm⟩, fun h => h.2.1⟩
    · simp only [if_neg hm, reduceCtorEq, false_iff]
      exact fun h => hm (h.2.1 ▸ h.2.2)
  · have hbad : cs = [] ∨ cs.dropWhile Char.isDigit ≠ [] := not_not.mp (mt isNumeral_iff.mpr hcs)
    constructor
    · intro h
      split at h
      · cases h
      · rw [if_pos hbad] at h
        cases h
    · exact fun h => absurd h.1 hcs

theorem readNat_eq_ok_iff (hl : 0 < limit) : readNat limit cs = .ok n ↔ Spells cs n ∧ n < limit := by
  have hlt : n ≤ limit - 1 ↔ n < limit := Nat.le_sub_one_iff_lt hl
  unfold readNat
  split
  · have hhead : ([] : List Char).head? ≠ some '+' := by simp
    simp [spells_of_head hhead, IsNumeral]
  · rw [magnitude_eq_ok_iff, spells_plus, hlt, and_assoc]
  · next hempty hplus =>
    have hhead : cs.head? ≠ some '+' := by
      cases cs with
      | nil => exact absurd rfl hempty
      | cons c cs => exact fun h => hplus cs (by cases h; rfl)
    rw [magnitude_eq_ok_iff, spells_of_head hhead, hlt, and_assoc]

theorem readNat_eq_error_iff (hl : 0 < limit) :
    (∃ fault, readNat limit cs = .error fault) ↔ ¬ ∃ n, Spells cs n ∧ n < limit := by
  simp only [← readNat_eq_ok_iff hl]
  cases readNat limit cs <;> simp

end Text.Decimal

/-! ## Positions -/

namespace CommandLine

open Text.Decimal (Spells readNat wordLimit readNat_eq_ok_iff readNat_eq_error_iff)

variable {v line column : List Char} {l c n : Nat} {p : Position}

def Writes (cs : List Char) (n : Nat) : Prop := Spells cs n ∧ n < UInt64.size

def IsPosition (v : List Char) (p : Position) : Prop :=
  ∃ line column, v = line ++ ':' :: column ∧ Writes line p.line ∧ Writes column p.column ∧ 1 ≤ p.line ∧ 1 ≤ p.column

theorem readWord_eq_ok_iff : readNat wordLimit v = .ok n ↔ Writes v n :=
  readNat_eq_ok_iff (by decide)

theorem readWord_eq_error_iff : (∃ fault, readNat wordLimit v = .error fault) ↔ ¬ ∃ n, Writes v n :=
  readNat_eq_error_iff (by decide)

theorem Writes.colon_not_mem (h : Writes v n) : ':' ∉ v := h.1.not_mem (by decide) (by decide)

/-! ### The first colon -/

theorem ne_colon_of_not_mem (h : ':' ∉ v) : ∀ c ∈ v, decide (c ≠ ':') = true :=
  fun _ hc => decide_eq_true fun hcolon => h (hcolon ▸ hc)

theorem takeWhile_colon (h : ':' ∉ line) (column : List Char) :
    (line ++ ':' :: column).takeWhile (· ≠ ':') = line :=
  Text.takeWhile_run (ne_colon_of_not_mem h) (by simp)

theorem dropWhile_colon (h : ':' ∉ line) (column : List Char) :
    (line ++ ':' :: column).dropWhile (· ≠ ':') = ':' :: column :=
  Text.dropWhile_run (ne_colon_of_not_mem h) (by simp)

/-! ### The answers, one by one -/

theorem readPosition_noColon (h : ':' ∉ v) : readPosition v = .error (.noColon (String.ofList v)) := by
  rw [readPosition, List.dropWhile_eq_nil_iff.mpr (ne_colon_of_not_mem h)]

theorem readPosition_badLine (h : ':' ∉ line) (hl : ¬ ∃ l, Writes line l) (column : List Char) :
    readPosition (line ++ ':' :: column) = .error (.badLine (String.ofList line)) := by
  obtain ⟨fault, hfault⟩ := readWord_eq_error_iff.mpr hl
  simp only [readPosition, takeWhile_colon h, dropWhile_colon h, hfault]

theorem readPosition_badColumn (hl : Writes line l) (hc : ¬ ∃ c, Writes column c) :
    readPosition (line ++ ':' :: column) = .error (.badColumn (String.ofList column)) := by
  obtain ⟨fault, hfault⟩ := readWord_eq_error_iff.mpr hc
  have hline := hl.colon_not_mem
  simp only [readPosition, takeWhile_colon hline, dropWhile_colon hline, readWord_eq_ok_iff.mpr hl, hfault]

theorem readPosition_of_writes (hl : Writes line l) (hc : Writes column c) :
    readPosition (line ++ ':' :: column) = if l = 0 ∨ c = 0 then .error .zero else .ok ⟨l, c⟩ := by
  have hline := hl.colon_not_mem
  simp only [readPosition, takeWhile_colon hline, dropWhile_colon hline, readWord_eq_ok_iff.mpr hl,
    readWord_eq_ok_iff.mpr hc]

theorem readPosition_eq_ok_iff : readPosition v = .ok p ↔ IsPosition v p := by
  constructor
  · intro h
    by_cases hv : ':' ∈ v
    · obtain ⟨line, column, rfl, hline⟩ := List.eq_append_cons_of_mem hv
      by_cases hl : ∃ l, Writes line l
      · obtain ⟨l, hl⟩ := hl
        by_cases hc : ∃ c, Writes column c
        · obtain ⟨c, hc⟩ := hc
          rw [readPosition_of_writes hl hc] at h
          split at h
          · cases h
          · next hzero =>
            cases h
            exact ⟨line, column, rfl, hl, hc, by simp only; omega, by simp only; omega⟩
        · rw [readPosition_badColumn hl hc] at h
          cases h
      · rw [readPosition_badLine hline hl] at h
        cases h
    · rw [readPosition_noColon hv] at h
      cases h
  · intro ⟨line, column, hv, hl, hc, hl₁, hc₁⟩
    rw [hv, readPosition_of_writes hl hc, if_neg (by omega)]

/-- The console writes a position as the command line takes it. -/
theorem isPosition_console (hl : 1 ≤ p.line) (hc : 1 ≤ p.column) (hp : p.Fits) :
    IsPosition (Console.position p).toList p := by
  refine ⟨Text.Decimal.digits p.line, Text.Decimal.digits p.column, ?_, ⟨Text.Decimal.spells_digits _, hp.1⟩,
    ⟨Text.Decimal.spells_digits _, hp.2⟩, hl, hc⟩
  simp [Console.position, toString, Text.Decimal.digits]

/-- A position is read exactly from the texts of it, so also from the one that the console prints. Another text
    has no colon, or no number before the first one, or none after it, or a number that is 0. The first of these
    that holds is the one that is reported, whether or not a later one holds too. -/
theorem readPosition_exact :
    (∀ v p, readPosition v = .ok p ↔ IsPosition v p) ∧
    (∀ p : Position, 1 ≤ p.line → 1 ≤ p.column → p.Fits → readPosition (Console.position p).toList = .ok p) ∧
    (∀ v, ':' ∉ v →
      (readPosition v).mapError PositionFault.message =
        .error ("expected LINE:COLUMN, got '" ++ String.ofList v ++ "'")) ∧
    ∀ line column, ':' ∉ line →
      ((¬ ∃ l, Writes line l) →
        (readPosition (line ++ ':' :: column)).mapError PositionFault.message =
          .error ("invalid line number '" ++ String.ofList line ++ "'")) ∧
      (∀ l, Writes line l → (¬ ∃ c, Writes column c) →
        (readPosition (line ++ ':' :: column)).mapError PositionFault.message =
          .error ("invalid column number '" ++ String.ofList column ++ "'")) ∧
      ∀ l c, Writes line l → Writes column c → l = 0 ∨ c = 0 →
        (readPosition (line ++ ':' :: column)).mapError PositionFault.message =
          .error "lines and columns start at 1" := by
  refine ⟨fun v p => readPosition_eq_ok_iff, ?_, ?_, fun line column hline => ⟨?_, ?_, ?_⟩⟩
  · intro p hl hc hp
    exact readPosition_eq_ok_iff.mpr (isPosition_console hl hc hp)
  · intro v hv
    rw [readPosition_noColon hv]
    rfl
  · intro hl
    rw [readPosition_badLine hline hl]
    rfl
  · intro l hl hc
    rw [readPosition_badColumn hl hc]
    rfl
  · intro l c hl hc hzero
    rw [readPosition_of_writes hl hc, if_pos hzero]
    rfl

/-- A line that is too large comes before a column that is only a plus, and a column with a second colon before
    the line 0. -/
theorem readPosition_exact_faults :
    readPosition "+007:12".toList = .ok ⟨7, 12⟩ ∧
    (readPosition "18446744073709551616:+".toList).mapError PositionFault.message =
      .error "invalid line number '18446744073709551616'" ∧
    (readPosition "0:1:2".toList).mapError PositionFault.message = .error "invalid column number '1:2'" ∧
    (readPosition "12:-0".toList).mapError PositionFault.message = .error "invalid column number '-0'" ∧
    (readPosition "+0:00".toList).mapError PositionFault.message = .error "lines and columns start at 1" ∧
    (readPosition "12".toList).mapError PositionFault.message = .error "expected LINE:COLUMN, got '12'" := by
  obtain ⟨hok, -, hcolon, hfaults⟩ := readPosition_exact
  refine ⟨?_, ?_, ?_, ?_, ?_, ?_⟩
  · exact (hok _ _).mpr ⟨"+007".toList, "12".toList, rfl, readWord_eq_ok_iff.mp rfl, readWord_eq_ok_iff.mp rfl,
      by decide, by decide⟩
  · exact (hfaults "18446744073709551616".toList ['+'] (by decide)).1 (readWord_eq_error_iff.mp ⟨.tooLarge, rfl⟩)
  · exact (hfaults ['0'] "1:2".toList (by decide)).2.1 0 (readWord_eq_ok_iff.mp rfl)
      (readWord_eq_error_iff.mp ⟨.badDigit, rfl⟩)
  · exact (hfaults "12".toList "-0".toList (by decide)).2.1 12 (readWord_eq_ok_iff.mp rfl)
      (readWord_eq_error_iff.mp ⟨.badDigit, rfl⟩)
  · exact (hfaults "+0".toList "00".toList (by decide)).2.2 0 0 (readWord_eq_ok_iff.mp rfl)
      (readWord_eq_ok_iff.mp rfl) (Or.inl rfl)
  · exact hcolon "12".toList (by decide)

end CommandLine

end CursorDiagnostics
