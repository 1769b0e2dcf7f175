/-
  CursorDiagnostics.Proofs.Text.Quoted — a quoted text stays on one line and is read back.

  What is written for a character says by itself where it ends, whatever stands after it (`readChar_escape`). So a
  text between quotes can be read back from the left, up to the quote that closes it, also where its content has
  quotes or backslashes in it or looks like escapes:
  - `escaped_append_inj`: a text begins with the escapes of at most one content and the closing quote.
  - `quoteChars_injective`: two contents are never quoted alike.
  - `oneLine_quoteChars`: no control character and no separator of lines is left in a quoted text.
-/

import CursorDiagnostics.Proofs.Text.Runs
import CursorDiagnostics.Text.Quoted
import Mathlib.Data.List.Chain

namespace CursorDiagnostics.Text

variable {c : Char} {cs ds u v : List Char}

/-! ## Code points -/

def hexDigit (d : Char) : Nat := if d.isDigit then d.toNat - '0'.toNat else d.toNat - 'a'.toNat + 10

def hexValue (ds : List Char) : Nat := ds.foldl (fun n d => 16 * n + hexDigit d) 0

theorem hexDigit_digitChar {d : Nat} (h : d < 16) : hexDigit d.digitChar = d := by
  have hall : ∀ d < 16, hexDigit (Nat.digitChar d) = d := by decide
  exact hall d h

theorem hexValue_toDigits (n : Nat) : hexValue (Nat.toDigits 16 n) = n := by
  induction n using Nat.strongRecOn with
  | ind n ih =>
    by_cases hn : n < 16
    · rw [Nat.toDigits_of_lt_base hn]
      simp [hexValue, hexDigit_digitChar hn]
    · have hfront := ih (n / 16) (by omega)
      have hlast := hexDigit_digitChar (Nat.mod_lt n (show 0 < 16 by omega))
      rw [hexValue] at hfront
      rw [Nat.toDigits_of_base_le (by omega) (by omega), hexValue, List.foldl_append, hfront, List.foldl_cons,
        List.foldl_nil, hlast]
      omega

theorem exists_of_mem_toDigits {n : Nat} (h : c ∈ Nat.toDigits 16 n) : ∃ d < 16, c = d.digitChar := by
  induction n using Nat.strongRecOn with
  | ind n ih =>
    by_cases hn : n < 16
    · rw [Nat.toDigits_of_lt_base hn, List.mem_singleton] at h
      exact ⟨n, hn, h⟩
    · rw [Nat.toDigits_of_base_le (by omega) (by omega), List.mem_append, List.mem_singleton] at h
      rcases h with h | h
      · exact ih (n / 16) (by omega) h
      · exact ⟨n % 16, by omega, h⟩

theorem brace_not_mem_toDigits (n : Nat) : '\x7d' ∉ Nat.toDigits 16 n := by
  intro h
  obtain ⟨d, hd, hc⟩ := exists_of_mem_toDigits h
  have hall : ∀ d < 16, '\x7d' ≠ Nat.digitChar d := by decide
  exact hall d hd hc

/-! ## Reading back -/

def unescape : Char → Option Char
  | '"' => some '"'
  | '\\' => some '\\'
  | 'n' => some '\n'
  | 'r' => some '\r'
  | 't' => some '\t'
  | '0' => some '\x00'
  | _ => none

/-- Reads the first character of a text up to its closing quote: the character, and the text after it. -/
def readChar : List Char → Option (Char × List Char)
  | [] => none
  | '"' :: _ => none
  | '\\' :: 'u' :: '\x7b' :: cs =>
    some (Char.ofNat (hexValue (cs.takeWhile (· ≠ '\x7d'))), (cs.dropWhile (· ≠ '\x7d')).tail)
  | '\\' :: c :: cs => (unescape c).map fun d => (d, cs)
  | c :: cs => some (c, cs)

theorem readChar_cons (hquote : c ≠ '"') (hslash : c ≠ '\\') (cs : List Char) :
    readChar (c :: cs) = some (c, cs) := by
  unfold readChar
  split
  · next h => cases h
  · next h => exact absurd (List.cons.inj h).1 hquote
  · next h => exact absurd (List.cons.inj h).1 hslash
  · next h => exact absurd (List.cons.inj h).1 hslash
  · next h =>
    cases h
    rfl

theorem readChar_escapeCode (c : Char) (rest : List Char) : readChar (escapeCode c ++ rest) = some (c, rest) := by
  have hrun : ∀ d ∈ Nat.toDigits 16 c.toNat, decide (d ≠ '\x7d') = true := fun d hd =>
    decide_eq_true fun h => brace_not_mem_toDigits _ (h ▸ hd)
  have hstop : ∀ d ∈ ('\x7d' :: rest).head?, decide (d ≠ '\x7d') = false := by simp
  have htext : escapeCode c ++ rest = '\\' :: 'u' :: '\x7b' :: (Nat.toDigits 16 c.toNat ++ '\x7d' :: rest) := by
    simp [escapeCode]
  rw [htext, readChar, takeWhile_run hrun hstop, dropWhile_run hrun hstop, hexValue_toDigits, Char.ofNat_toNat,
    List.tail_cons]

theorem readChar_escape (c : Char) (rest : List Char) : readChar (escape c ++ rest) = some (c, rest) := by
  unfold escape
  split_ifs with hquote hslash hfeed hreturn htab hnul hcode
  · rw [hquote]; rfl
  · rw [hslash]; rfl
  · rw [hfeed]; rfl
  · rw [hreturn]; rfl
  · rw [htab]; rfl
  · rw [hnul]; rfl
  · exact readChar_escapeCode c rest
  · exact readChar_cons hquote hslash rest

/-- No character is written with a quote at its beginning. -/
theorem escape_append_ne (c : Char) (u v : List Char) : escape c ++ u ≠ '"' :: v := by
  intro h
  have hread := readChar_escape c u
  rw [h] at hread
  cases hread

theorem escaped_append_inj (h : cs.flatMap escape ++ '"' :: u = ds.flatMap escape ++ '"' :: v) : cs = ds ∧ u = v := by
  induction cs generalizing ds with
  | nil =>
    cases ds with
    | nil => exact ⟨rfl, (List.cons.inj h).2⟩
    | cons d ds =>
      rw [List.flatMap_cons, List.append_assoc] at h
      exact absurd h.symm (escape_append_ne d _ u)
  | cons c cs ih =>
    rw [List.flatMap_cons, List.append_assoc] at h
    cases ds with
    | nil => exact absurd h (escape_append_ne c _ v)
    | cons d ds =>
      rw [List.flatMap_cons, List.append_assoc] at h
      have hread := congrArg readChar h
      rw [readChar_escape, readChar_escape] at hread
      obtain ⟨rfl, hrest⟩ := Prod.mk.inj (Option.some.inj hread)
      obtain ⟨rfl, htail⟩ := ih hrest
      exact ⟨rfl, htail⟩

theorem quoteChars_injective : Function.Injective quoteChars := by
  intro cs ds h
  exact (escaped_append_inj (List.cons.inj h).2).1

/-! ## One line -/

def BreaksLine (c : Char) : Prop :=
  c.toNat ≤ 0x1f ∨ (0x7f ≤ c.toNat ∧ c.toNat ≤ 0x9f) ∨ c.toNat = 0x2028 ∨ c.toNat = 0x2029

instance : DecidablePred BreaksLine := fun _ => inferInstanceAs (Decidable (_ ∨ _))

def OneLine (cs : List Char) : Prop := ∀ c ∈ cs, ¬ BreaksLine c

instance (cs : List Char) : Decidable (OneLine cs) := List.decidableBAll _ cs

@[simp] theorem oneLine_append : OneLine (cs ++ ds) ↔ OneLine cs ∧ OneLine ds := List.forall_mem_append

@[simp] theorem oneLine_cons : OneLine (c :: cs) ↔ ¬ BreaksLine c ∧ OneLine cs := List.forall_mem_cons

theorem not_breaksLine (hlo : ' ' ≤ c) (hhi : c ≤ '~') : ¬ BreaksLine c := by
  have hlo' : 0x20 ≤ c.toNat := hlo
  have hhi' : c.toNat ≤ 0x7e := hhi
  unfold BreaksLine
  omega

/-- It is enough that each range ends before the one next to it. -/
theorem Ranges.increasing_of_isChain {rs : Ranges} (h : rs.IsChain fun a b => a.2 < b.1 ∧ a.1 ≤ b.1) :
    rs.Increasing := by
  have : IsTrans (Nat × Nat) fun a b => a.2 < b.1 ∧ a.1 ≤ b.1 := ⟨fun _ _ _ hab hbc => by omega⟩
  exact List.isChain_iff_pairwise.mp h

theorem increasing_unprintable : unprintable.Increasing := by
  apply Ranges.increasing_of_isChain
  decide +kernel

theorem BreaksLine.isUnprintable (h : BreaksLine c) : isUnprintable c = true := by
  unfold Text.isUnprintable
  rw [Ranges.covers_iff increasing_unprintable]
  rcases h with h | ⟨h, h'⟩ | h | h
  · exact ⟨(0x0, 0x1f), by decide +kernel, Nat.zero_le _, h⟩
  · exact ⟨(0x7f, 0xa0), by decide +kernel, h, by simp only; omega⟩
  · exact ⟨(0x2028, 0x202f), by decide +kernel, by simp only; omega, by simp only; omega⟩
  · exact ⟨(0x2028, 0x202f), by decide +kernel, by simp only; omega, by simp only; omega⟩

theorem oneLine_escapeCode (c : Char) : OneLine (escapeCode c) := by
  have hdigit : ∀ d < 16, ¬ BreaksLine (Nat.digitChar d) := by decide
  have hdigits : OneLine (Nat.toDigits 16 c.toNat) := by
    intro x hx
    obtain ⟨d, hd, rfl⟩ := exists_of_mem_toDigits hx
    exact hdigit d hd
  unfold escapeCode
  rw [oneLine_append, oneLine_append]
  exact ⟨⟨by decide, hdigits⟩, by decide⟩

theorem oneLine_escape (c : Char) : OneLine (escape c) := by
  unfold escape
  split_ifs with hquote hslash hfeed hreturn htab hnul hcode
  · decide
  · decide
  · decide
  · decide
  · decide
  · decide
  · exact oneLine_escapeCode c
  · intro d hd hbreaks
    rw [List.mem_singleton] at hd
    subst hd
    exact hcode (by simp [hbreaks.isUnprintable])

theorem oneLine_quoteChars (cs : List Char) : OneLine (quoteChars cs) := by
  have hescaped : OneLine (cs.flatMap escape) := by
    intro d hd
    obtain ⟨c, -, hc⟩ := List.mem_flatMap.mp hd
    exact oneLine_escape c d hc
  unfold quoteChars
  rw [List.cons_append, oneLine_cons, oneLine_append]
  exact ⟨by decide, hescaped, by decide⟩

end CursorDiagnostics.Text
