/-
  CursorDiagnostics.Proofs.Text.Trim — what is left of a text without the blanks at its ends.

  - `trimmed_trim`: no blank stands at an end of it.
  - `trim_eq_self`: a text with no blank at its ends is left as it is.
  - `trim_append_blanks`: blanks after a text do not count.
  - `trim_eq_nil_iff`: nothing is left exactly of the texts of blanks.
-/

import CursorDiagnostics.Text.Blank
import Mathlib.Data.List.DropRight
import Mathlib.Data.List.TakeWhile

namespace CursorDiagnostics.Text

variable {cs blanks : List Char}

structure Trimmed (cs : List Char) : Prop where
  head : ∀ c ∈ cs.head?, isBlank c = false
  last : ∀ c ∈ cs.getLast?, isBlank c = false

theorem trimEnd_eq_rdropWhile (cs : List Char) : trimEnd cs = cs.rdropWhile isBlank := rfl

theorem trimEnd_append_blanks (h : ∀ c ∈ blanks, isBlank c = true) : trimEnd (cs ++ blanks) = trimEnd cs := by
  rw [trimEnd, trimEnd, List.reverse_append, List.dropWhile_append_of_pos fun c hc => h c (List.mem_reverse.mp hc)]

theorem trim_append_blanks (h : ∀ c ∈ blanks, isBlank c = true) : trim (cs ++ blanks) = trim cs := by
  rw [trim, trim, List.dropWhile_append]
  split
  · rename_i he
    rw [List.isEmpty_iff.mp he, List.dropWhile_eq_nil_iff.mpr h]
  · exact trimEnd_append_blanks h

theorem trim_eq_nil_iff : trim cs = [] ↔ ∀ c ∈ cs, isBlank c = true := by
  constructor
  · intro h
    rw [trim, trimEnd_eq_rdropWhile, List.rdropWhile_eq_nil_iff] at h
    intro c hc
    rw [← List.takeWhile_append_dropWhile (p := isBlank) (l := cs)] at hc
    rcases List.mem_append.mp hc with hc | hc
    · exact List.all_eq_true.mp List.all_takeWhile c hc
    · exact h c hc
  · intro h
    rw [trim, List.dropWhile_eq_nil_iff.mpr h]
    rfl

theorem trim_eq_self (h : Trimmed cs) : trim cs = cs := by
  have hd : cs.dropWhile isBlank = cs := by
    refine List.dropWhile_eq_self_iff.mpr fun hl => ?_
    simp [h.head cs[0] (by simp [List.head?_eq_getElem?])]
  rw [trim, hd, trimEnd_eq_rdropWhile, List.rdropWhile_eq_self_iff]
  intro hne
  simp [h.last (cs.getLast hne) (List.getLast?_eq_some_getLast hne)]

theorem trimmed_trim (cs : List Char) : Trimmed (trim cs) := by
  constructor
  · intro c hc
    obtain ⟨t, ht⟩ : trim cs <+: cs.dropWhile isBlank := List.rdropWhile_prefix isBlank _
    have hh : (cs.dropWhile isBlank).head? = some c := by
      rw [← ht, List.head?_append, Option.mem_def.mp hc]
      rfl
    have := List.head?_dropWhile_not isBlank cs
    rw [hh] at this
    simpa using this
  · intro c hc
    have hne : trim cs ≠ [] := fun he => by
      rw [he] at hc
      cases hc
    have hl := (List.getLast_eq_iff_getLast?_eq_some hne).mpr hc
    have := List.rdropWhile_last_not isBlank (cs.dropWhile isBlank) hne
    rw [← hl]
    exact Bool.eq_false_iff.mpr this

end CursorDiagnostics.Text
