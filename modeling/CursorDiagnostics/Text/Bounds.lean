/-
  CursorDiagnostics.Text.Bounds — where the lines of a text begin, and the line in which an offset
  lies.

  Offsets count characters, and a break is part of the line it ends. The offsets at which the lines
  begin are kept in a table, with the one at which the text ends after them, and the table is searched
  by halving: a long text is walked once, however many offsets are looked up.

  - `toList_bounds`: the entry for a line is the number of characters of the lines before it.
  - `lastAtMost_isLast`: in a table that never falls, the search ends at the last entry that is not
    above the offset.
-/

import CursorDiagnostics.Text.Line

namespace CursorDiagnostics.Text

/-! ## The table -/

/-- Adds the bounds of `ls`, the first of which begins at `start`, to those of the lines before. -/
def boundsAfter (bs : Array Nat) (start : Nat) : List Line → Array Nat
  | [] => bs.push start
  | l :: ls => boundsAfter (bs.push start) (start + l.width) ls

/-- The number of characters of the lines, breaks included. -/
def extent (ls : List Line) : Nat := (ls.flatMap Line.chars).length

/-- The offset at which each line begins, and after them the one at which the last ends. -/
def bounds (ls : List Line) : Array Nat := boundsAfter #[] 0 ls

@[simp] theorem extent_nil : extent [] = 0 := rfl

@[simp] theorem extent_cons (l : Line) (ls : List Line) : extent (l :: ls) = l.width + extent ls := by
  rw [extent, List.flatMap_cons, List.length_append, Line.chars, List.length_append]
  rfl

@[simp] theorem extent_append (ls ms : List Line) : extent (ls ++ ms) = extent ls + extent ms := by
  rw [extent, List.flatMap_append, List.length_append]
  rfl

theorem toList_boundsAfter (bs : Array Nat) (start : Nat) (ls : List Line) :
    (boundsAfter bs start ls).toList =
      bs.toList ++ (List.range (ls.length + 1)).map fun n => start + extent (ls.take n) := by
  induction ls generalizing bs start with
  | nil => simp [boundsAfter]
  | cons l ls ih =>
    rw [boundsAfter, ih, List.length_cons, List.range_succ_eq_map (n := ls.length + 1)]
    simp [Function.comp_def, Nat.add_assoc]

theorem toList_bounds (ls : List Line) :
    (bounds ls).toList = (List.range (ls.length + 1)).map fun n => extent (ls.take n) := by
  simp [bounds, toList_boundsAfter]

@[simp] theorem getD_bounds {ls : List Line} {n : Nat} (h : n ≤ ls.length) :
    (bounds ls).getD n 0 = extent (ls.take n) := by
  simp [Array.getD_eq_getD_getElem?, ← Array.getElem?_toList, toList_bounds, Nat.lt_succ_of_le h]

/-! ## The search -/

/-- Goes up from `place` by steps of half the stretch, two to the `k` entries, that is left to search. -/
def climb (xs : Array Nat) (count x : Nat) : Nat → Nat → Nat
  | 0, place => place
  | k + 1, place =>
    let next := place + Nat.pow 2 k
    climb xs count x k (if next < count ∧ xs.getD next 0 ≤ x then next else place)

/-- The last of the first `count` places with an entry of at most `x`; the first is not looked at. -/
def lastAtMost (xs : Array Nat) (count x : Nat) : Nat := climb xs count x (count.log2 + 1) 0

/-- The last place below `count` with an entry of at most `x` is `place`. -/
structure IsLastAtMost (xs : Array Nat) (count x place : Nat) : Prop where
  inside : place < count
  here : xs.getD place 0 ≤ x
  beyond : ∀ j, place < j → j < count → x < xs.getD j 0

/-- The first `count` entries never fall. -/
def Rising (xs : Array Nat) (count : Nat) : Prop :=
  ∀ i j, i ≤ j → j < count → xs.getD i 0 ≤ xs.getD j 0

theorem climb_isLast {xs : Array Nat} {count x : Nat} (rising : Rising xs count) {k place : Nat}
    (inside : place < count) (here : xs.getD place 0 ≤ x)
    (beyond : ∀ j, place + Nat.pow 2 k ≤ j → j < count → x < xs.getD j 0) :
    IsLastAtMost xs count x (climb xs count x k place) := by
  induction k generalizing place with
  | zero => exact ⟨inside, here, beyond⟩
  | succ k ih =>
    rw [climb]
    split
    · next h =>
      refine ih h.1 h.2 fun j hj => beyond j ?_
      have hp : Nat.pow 2 (k + 1) = Nat.pow 2 k * 2 := rfl
      omega
    · next h =>
      refine ih inside here fun j hj hc => ?_
      have hn : ¬ xs.getD (place + Nat.pow 2 k) 0 ≤ x := fun hx => h ⟨by omega, hx⟩
      exact Nat.lt_of_lt_of_le (Nat.lt_of_not_le hn) (rising _ j hj hc)

theorem lastAtMost_isLast {xs : Array Nat} {count x : Nat} (rising : Rising xs count) (nonempty : 0 < count)
    (first : xs.getD 0 0 ≤ x) : IsLastAtMost xs count x (lastAtMost xs count x) := by
  refine climb_isLast rising nonempty first fun j hj hc => ?_
  have : count < Nat.pow 2 (count.log2 + 1) := Nat.lt_log2_self
  omega

theorem rising_bounds (ls : List Line) : Rising (bounds ls) ls.length := by
  intro i j hij hj
  rw [getD_bounds (by omega), getD_bounds (by omega), ← List.take_append_drop i (ls.take j), List.take_take,
    Nat.min_eq_left hij, extent_append]
  exact Nat.le_add_right _ _

end CursorDiagnostics.Text
