/-
  CursorDiagnostics.Proofs.Text.Lines — what the lines of every text have in common.

  - `closed_lines`: each line but the last ends in a break, and the last does not.
  - `proper_of_mem_lines`: no line holds a line feed, or ends in a carriage return that belongs to its break.
  - `extent_lines`: together the lines are as long as the text.
  - `map_uncut_lines`: but for the carriage returns of their breaks the lines are the pieces between line feeds.
  - `isLastAtMost_count`: the line of an offset is the number of line feeds before it.
-/

import CursorDiagnostics.Text.Bounds

namespace CursorDiagnostics.Text

theorem Ending.length_chars_eq_zero {e : Ending} : e.chars.length = 0 ↔ e = .last := by
  cases e <;> simp [Ending.chars]

theorem extent_lines (cs : List Char) : extent (lines cs) = cs.length := congrArg List.length (flatMap_lines cs)

/-! ## Only the last line has no break -/

def Closed : List Line → Prop
  | [] => False
  | [l] => l.ending = .last
  | l :: m :: ls => l.ending ≠ .last ∧ Closed (m :: ls)

theorem closed_cons {l : Line} {ls : List Line} (hl : l.ending ≠ .last) (h : Closed ls) : Closed (l :: ls) := by
  cases ls with
  | nil => exact h.elim
  | cons m ls => exact ⟨hl, h⟩

/-- A first line with another content leaves the endings as they are. -/
theorem closed_congr {l m : Line} {ls : List Line} (he : m.ending = l.ending) (h : Closed (l :: ls)) :
    Closed (m :: ls) := by
  cases ls with
  | nil => exact he.trans h
  | cons n ls => exact ⟨he ▸ h.1, h.2⟩

theorem closed_before (c : Char) {ls : List Line} (h : Closed ls) : Closed (Line.before c ls) := by
  cases ls with
  | nil => exact h.elim
  | cons l ls =>
    simp only [Line.before]
    split
    · exact closed_cons (by simp) h
    · split
      · next hc =>
        obtain ⟨-, rfl⟩ := hc
        cases ls with
        | nil => cases h
        | cons m ls => exact ⟨by simp, h.2⟩
      · exact closed_congr (l := l) rfl h

theorem closed_lines (cs : List Char) : Closed (lines cs) := by
  induction cs with
  | nil => rfl
  | cons c cs ih => exact closed_before c ih

/-- The last line is the one without a break. -/
theorem ending_eq_last_iff {ls : List Line} (h : Closed ls) {n : Nat} {l : Line} (hl : ls[n]? = some l) :
    l.ending = .last ↔ n + 1 = ls.length := by
  induction ls generalizing n with
  | nil => exact h.elim
  | cons m ls ih =>
    cases ls with
    | nil =>
      obtain rfl : n = 0 := by have := (List.getElem?_eq_some_iff.mp hl).1; simpa using this
      simp only [List.getElem?_cons_zero, Option.some.injEq] at hl
      subst hl
      exact ⟨fun _ => rfl, fun _ => h⟩
    | cons k ls =>
      cases n with
      | zero =>
        simp only [List.getElem?_cons_zero, Option.some.injEq] at hl
        subst hl
        exact ⟨fun he => absurd he h.1, fun hn => by simp at hn⟩
      | succ n => simpa using ih h.2 hl

/-! ## What a line holds -/

/-- No line feed stands in the line, and before a break that is a line feed stands no carriage return. -/
structure Line.Proper (l : Line) : Prop where
  not_mem : '\n' ∉ l.content
  getLast? : l.ending = .feed → l.content.getLast? ≠ some '\r'

theorem proper_before (c : Char) {ls : List Line} (h : ls ≠ []) (hp : ∀ l ∈ ls, l.Proper) :
    ∀ l ∈ Line.before c ls, l.Proper := by
  cases ls with
  | nil => exact absurd rfl h
  | cons l ls =>
    obtain ⟨hl, hls⟩ := List.forall_mem_cons.mp hp
    simp only [Line.before]
    split
    · exact List.forall_mem_cons.mpr ⟨⟨by simp, by simp⟩, hp⟩
    · next hc =>
      split
      · exact List.forall_mem_cons.mpr ⟨⟨by simp, by simp⟩, hls⟩
      · next hr =>
        refine List.forall_mem_cons.mpr ⟨⟨?_, fun he => ?_⟩, hls⟩
        · rw [List.mem_cons, not_or]
          exact ⟨Ne.symm hc, hl.not_mem⟩
        · -- the first character is the last one only of a line that was a bare line feed before
          rw [List.getLast?_cons]
          cases hg : l.content.getLast? with
          | none =>
            have hempty := List.getLast?_eq_none_iff.mp hg
            obtain ⟨content, ending⟩ := l
            obtain rfl : content = [] := hempty
            obtain rfl : ending = .feed := he
            intro hcr
            exact hr ⟨by simpa using hcr, rfl⟩
          | some d =>
            have := hl.getLast? he
            rwa [hg] at this

theorem proper_of_mem_lines {cs : List Char} : ∀ l ∈ lines cs, l.Proper := by
  induction cs with
  | nil => exact List.forall_mem_singleton.mpr ⟨by simp, by simp⟩
  | cons c cs ih => exact proper_before c (lines_ne_nil cs) ih

/-! ## The pieces between line feeds -/

/-- The line up to its line feed: a carriage return of the break is part of it. -/
def Line.uncut (l : Line) : List Char :=
  match l.ending with
  | .returnFeed => l.content ++ ['\r']
  | _ => l.content

theorem map_uncut_before (c : Char) {l : Line} {ls : List Line} {p : List Char} {ps : List (List Char)}
    (h : (l :: ls).map Line.uncut = p :: ps) :
    (Line.before c (l :: ls)).map Line.uncut = if c = '\n' then [] :: p :: ps else (c :: p) :: ps := by
  obtain ⟨hp, hps⟩ := List.cons.inj h
  simp only [Line.before]
  split
  · rw [List.map_cons, h]
    rfl
  · split
    · next hc =>
      obtain ⟨rfl, rfl⟩ := hc
      rw [List.map_cons, hps, ← hp]
      rfl
    · rw [List.map_cons, hps, ← hp]
      obtain ⟨content, ending⟩ := l
      cases ending <;> rfl

theorem map_uncut_lines (cs : List Char) : (lines cs).map Line.uncut = cs.splitOn '\n' := by
  induction cs with
  | nil => rfl
  | cons c cs ih =>
    obtain ⟨l, ls, hl⟩ := List.exists_cons_of_ne_nil (lines_ne_nil cs)
    obtain ⟨p, ps, hp⟩ := List.exists_cons_of_ne_nil (List.splitOn_ne_nil '\n' cs)
    rw [hl, hp] at ih
    rw [lines_cons, hl, map_uncut_before c ih, List.splitOn_cons_eq_if_modifyHead, hp]
    simp

/-! ## Line feeds before an offset -/

theorem Line.Proper.not_mem_uncut {l : Line} (h : l.Proper) : '\n' ∉ l.uncut := by
  have hc := h.not_mem
  unfold Line.uncut
  split
  · simpa using hc
  · exact hc

theorem Line.chars_eq_uncut {l : Line} : l.chars = if l.ending = .last then l.uncut else l.uncut ++ ['\n'] := by
  obtain ⟨content, ending⟩ := l
  cases ending <;> simp [Line.chars, Line.uncut, Ending.chars]

theorem Line.length_chars (l : Line) : l.chars.length = l.width := by
  rw [Line.chars, List.length_append, Line.width, Line.length]

theorem IsLastAtMost.eq {xs : Array Nat} {count x place place' : Nat} (h : IsLastAtMost xs count x place)
    (h' : IsLastAtMost xs count x place') : place = place' := by
  rcases Nat.lt_trichotomy place place' with hlt | heq | hgt
  · exact absurd h'.here (Nat.not_le_of_lt (h.beyond _ hlt h'.inside))
  · exact heq
  · exact absurd h.here (Nat.not_le_of_lt (h'.beyond _ hgt h.inside))

structure Lies (ls : List Line) (o n : Nat) : Prop where
  inside : n < ls.length
  here : extent (ls.take n) ≤ o
  beyond : ∀ j, n < j → j < ls.length → o < extent (ls.take j)

theorem Lies.isLastAtMost {ls : List Line} {o n : Nat} (h : Lies ls o n) : IsLastAtMost (bounds ls) ls.length o n := by
  refine ⟨h.inside, ?_, fun j hj hjn => ?_⟩
  · rw [getD_bounds (Nat.le_of_lt h.inside)]
    exact h.here
  · rw [getD_bounds (Nat.le_of_lt hjn)]
    exact h.beyond j hj hjn

theorem lies_first {l : Line} {ls : List Line} {o : Nat} (h : o < l.width ∨ ls = []) : Lies (l :: ls) o 0 := by
  refine ⟨Nat.zero_lt_succ _, Nat.zero_le _, fun j hj hjn => ?_⟩
  obtain ⟨j, rfl⟩ := Nat.exists_eq_succ_of_ne_zero (Nat.ne_of_gt hj)
  rcases h with h | rfl
  · rw [List.take_succ_cons, extent_cons]
    omega
  · simp at hjn

theorem Lies.cons {l : Line} {ls : List Line} {o n : Nat} (hle : l.width ≤ o) (h : Lies ls (o - l.width) n) :
    Lies (l :: ls) o (n + 1) := by
  refine ⟨Nat.succ_lt_succ h.inside, ?_, fun j hj hjn => ?_⟩
  · have := h.here
    rw [List.take_succ_cons, extent_cons]
    omega
  · obtain ⟨j, rfl⟩ := Nat.exists_eq_succ_of_ne_zero (Nat.ne_zero_of_lt hj)
    have := h.beyond j (Nat.lt_of_succ_lt_succ hj) (Nat.lt_of_succ_lt_succ hjn)
    rw [List.take_succ_cons, extent_cons]
    omega

/-- The only line feed of a line is the end of its break. -/
theorem Line.Proper.count_take {l : Line} (h : l.Proper) {o : Nat} (ho : o < l.width ∨ l.ending = .last) :
    (l.chars.take o).count '\n' = 0 := by
  rw [List.count_eq_zero]
  intro hm
  refine h.not_mem_uncut ?_
  rw [Line.chars_eq_uncut] at hm
  split at hm
  · exact List.mem_of_mem_take hm
  · next hb =>
    have hwidth : l.width = l.uncut.length + 1 := by rw [← Line.length_chars, Line.chars_eq_uncut, if_neg hb]; simp
    have hlt := ho.resolve_right hb
    rw [List.take_append_of_le_length (by omega)] at hm
    exact List.mem_of_mem_take hm

theorem Line.Proper.count_chars {l : Line} (h : l.Proper) (hb : l.ending ≠ .last) : l.chars.count '\n' = 1 := by
  rw [Line.chars_eq_uncut, if_neg hb, List.count_append, List.count_eq_zero.mpr h.not_mem_uncut]
  rfl

theorem lies_count {ls : List Line} (closed : Closed ls) (proper : ∀ l ∈ ls, l.Proper) {o : Nat} (ho : o ≤ extent ls) :
    Lies ls o (((ls.flatMap Line.chars).take o).count '\n') := by
  induction ls generalizing o with
  | nil => exact closed.elim
  | cons l ls ih =>
    obtain ⟨hl, hls⟩ := List.forall_mem_cons.mp proper
    rw [List.flatMap_cons]
    cases ls with
    | nil =>
      rw [List.flatMap_nil, List.append_nil, hl.count_take (Or.inr closed)]
      exact lies_first (Or.inr rfl)
    | cons m ls =>
      obtain ⟨hbreak, hclosed⟩ := closed
      rw [List.take_append, List.count_append, Line.length_chars]
      rcases Nat.lt_or_ge o l.width with hlt | hge
      · rw [hl.count_take (Or.inl hlt), Nat.sub_eq_zero_of_le (Nat.le_of_lt hlt)]
        exact lies_first (Or.inl hlt)
      · have ho' : o - l.width ≤ extent (m :: ls) := by rw [extent_cons] at ho; omega
        rw [List.take_of_length_le (by rw [Line.length_chars]; exact hge), hl.count_chars hbreak, Nat.add_comm]
        exact (ih hclosed hls ho').cons hge

/-- The line of an offset is the number of line feeds before the offset. -/
theorem isLastAtMost_count {ls : List Line} (closed : Closed ls) (proper : ∀ l ∈ ls, l.Proper) {o : Nat}
    (ho : o ≤ extent ls) :
    IsLastAtMost (bounds ls) ls.length o (((ls.flatMap Line.chars).take o).count '\n') :=
  (lies_count closed proper ho).isLastAtMost

end CursorDiagnostics.Text
