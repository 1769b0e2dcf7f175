/-
  CursorDiagnostics.Proofs.Text.Runs — the longest run at the beginning of a text.

  If all characters of a text belong to a run and the one behind it, if there is one, does not, then the run is that
  text (`takeWhile_run`) and what comes behind it is left (`dropWhile_run`). So a text has one run at its beginning and
  one at its end (`run_append_inj`, `append_run_inj`).
-/

import Mathlib.Data.List.TakeWhile

namespace CursorDiagnostics.Text

variable {p : Char → Bool} {run rest run' rest' : List Char}

theorem takeWhile_run (hrun : ∀ c ∈ run, p c = true) (hrest : ∀ c ∈ rest.head?, p c = false) :
    (run ++ rest).takeWhile p = run := by
  rw [List.takeWhile_append_of_pos hrun]
  cases rest with
  | nil => exact List.append_nil run
  | cons c rest =>
    have hc : ¬ p c = true := Bool.eq_false_iff.mp (hrest c rfl)
    rw [List.takeWhile_cons_of_neg hc, List.append_nil]

theorem dropWhile_run (hrun : ∀ c ∈ run, p c = true) (hrest : ∀ c ∈ rest.head?, p c = false) :
    (run ++ rest).dropWhile p = rest := by
  rw [List.dropWhile_append_of_pos hrun]
  cases rest with
  | nil => rfl
  | cons c rest => exact List.dropWhile_cons_of_neg (Bool.eq_false_iff.mp (hrest c rfl))

theorem run_append_inj (hrun : ∀ c ∈ run, p c = true) (hrest : ∀ c ∈ rest.head?, p c = false)
    (hrun' : ∀ c ∈ run', p c = true) (hrest' : ∀ c ∈ rest'.head?, p c = false) (h : run ++ rest = run' ++ rest') :
    run = run' ∧ rest = rest' := by
  constructor
  · rw [← takeWhile_run hrun hrest, h, takeWhile_run hrun' hrest']
  · rw [← dropWhile_run hrun hrest, h, dropWhile_run hrun' hrest']

theorem append_run_inj (hrun : ∀ c ∈ run, p c = true) (hrest : ∀ c ∈ rest.getLast?, p c = false)
    (hrun' : ∀ c ∈ run', p c = true) (hrest' : ∀ c ∈ rest'.getLast?, p c = false) (h : rest ++ run = rest' ++ run') :
    rest = rest' ∧ run = run' := by
  have hreverse := congrArg List.reverse h
  rw [List.reverse_append, List.reverse_append] at hreverse
  rw [← List.head?_reverse] at hrest hrest'
  obtain ⟨hr, hs⟩ := run_append_inj (fun c hc => hrun c (List.mem_reverse.mp hc)) hrest
    (fun c hc => hrun' c (List.mem_reverse.mp hc)) hrest' hreverse
  exact ⟨List.reverse_inj.mp hs, List.reverse_inj.mp hr⟩

end CursorDiagnostics.Text
