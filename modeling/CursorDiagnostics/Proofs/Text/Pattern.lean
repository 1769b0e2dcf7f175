/-
  CursorDiagnostics.Proofs.Text.Pattern — patterns of characters, and which of its matches a pattern prefers.

  At a place of a text a pattern may match in several ways, and they have an order (`Pattern.ways`): the first of two
  alternatives comes before the second, and of a repetition more characters come before fewer if it is greedy,
  fewer before more if it is not. The match at a place is the first way there. That in a text stands at the
  first place that has one (`Pattern.find?`), and the next is looked for behind it (`Pattern.findAll`).

  A greedy repetition gives characters back if what follows it needs them. It need not where what follows begins
  with another character, and is then as long as it can be (`flatMap_reverse_stops`, `ways_group_run_seq`).
-/

import Mathlib.Data.List.TakeWhile

namespace CursorDiagnostics.Text

/-- A place in a text: how many characters stand before it, and those after it. -/
structure Place where
  offset : Nat
  rest : List Char
  deriving DecidableEq, Repr

inductive Pattern where
  | empty
  | char (p : Char → Bool)
  /-- Any number of such characters. -/
  | many (greedy : Bool) (p : Char → Bool)
  | seq (a b : Pattern)
  | alt (a b : Pattern)
  | group (number : Nat) (a : Pattern)
  | beginning
  | ending

abbrev Groups := List (Nat × List Char)

structure Match where
  start : Nat
  stop : Nat
  groups : Groups
  deriving DecidableEq, Repr

def Match.group? (m : Match) (number : Nat) : Option (List Char) := m.groups.lookup number

/-- Where a run of such characters can end, the nearest place first. -/
def stops (p : Char → Bool) : Nat → List Char → List Place
  | n, [] => [⟨n, []⟩]
  | n, c :: cs => ⟨n, c :: cs⟩ :: if p c then stops p (n + 1) cs else []

namespace Pattern

def lit (c : Char) : Pattern := .char (· == c)

def run (q p : Char → Bool) : Pattern := .seq (.char q) (.many true p)

/-- The ways to match at a place, the preferred first: where the match ends, and the groups. -/
def ways : Pattern → Place → List (Place × Groups)
  | .empty, x => [(x, [])]
  | .char p, x =>
    match x.rest with
    | c :: cs => if p c then [(⟨x.offset + 1, cs⟩, [])] else []
    | [] => []
  | .many greedy p, x =>
    (if greedy then (stops p x.offset x.rest).reverse else stops p x.offset x.rest).map fun y => (y, [])
  | .seq a b, x => (a.ways x).flatMap fun w => (b.ways w.1).map fun v => (v.1, w.2 ++ v.2)
  | .alt a b, x => a.ways x ++ b.ways x
  | .group number a, x => (a.ways x).map fun w => (w.1, (number, x.rest.take (w.1.offset - x.offset)) :: w.2)
  | .beginning, x => if x.offset = 0 then [(x, [])] else []
  | .ending, x => if x.rest = [] then [(x, [])] else []

def matchAt? (p : Pattern) (x : Place) : Option Match := (p.ways x).head?.map fun w => ⟨x.offset, w.1.offset, w.2⟩

def find? (p : Pattern) : Nat → List Char → Option Match
  | n, [] => p.matchAt? ⟨n, []⟩
  | n, c :: cs => (p.matchAt? ⟨n, c :: cs⟩).or (p.find? (n + 1) cs)

/-- One match after another, for a pattern that does not match the empty text: each begins where the one before has
    ended, or behind that. The first `taken` characters are of a match already. -/
def findAll (p : Pattern) : Nat → Nat → List Char → List Match
  | 0, n, [] => (p.matchAt? ⟨n, []⟩).toList
  | _ + 1, _, [] => []
  | taken + 1, n, _ :: cs => p.findAll taken (n + 1) cs
  | 0, n, c :: cs =>
    match p.matchAt? ⟨n, c :: cs⟩ with
    | some m => m :: p.findAll (m.stop - n - 1) (n + 1) cs
    | none => p.findAll 0 (n + 1) cs

/-! ## Matches of a text -/

variable {p : Pattern}

theorem findAll_skip {taken : Nat} {cs : List Char} (h : taken ≤ cs.length) (n : Nat) :
    p.findAll taken n cs = p.findAll 0 (n + taken) (cs.drop taken) := by
  induction taken generalizing n cs with
  | zero => rfl
  | succ taken ih =>
    cases cs with
    | nil => simp at h
    | cons c cs =>
      rw [findAll, ih (Nat.le_of_succ_le_succ h), List.drop_succ_cons, Nat.add_right_comm, Nat.add_assoc]

theorem findAll_of_none {n : Nat} {c : Char} {cs : List Char} (h : p.matchAt? ⟨n, c :: cs⟩ = none) :
    p.findAll 0 n (c :: cs) = p.findAll 0 (n + 1) cs := by
  rw [findAll, h]

/-- The next match is looked for behind the one that has been found. -/
theorem findAll_of_some {n : Nat} {c : Char} {w rest : List Char} {m : Match}
    (h : p.matchAt? ⟨n, c :: (w ++ rest)⟩ = some m) (hstop : m.stop = n + 1 + w.length) :
    p.findAll 0 n (c :: (w ++ rest)) = m :: p.findAll 0 m.stop rest := by
  have htaken : m.stop - n - 1 = w.length := by omega
  rw [findAll, h]
  simp only [htaken]
  rw [findAll_skip (by rw [List.length_append]; omega), List.drop_left, hstop]

theorem matchAt?_eq_none {x : Place} (h : p.ways x = []) : p.matchAt? x = none := by
  rw [matchAt?, h]
  rfl

theorem find?_eq_none {n : Nat} {cs : List Char} (h : ∀ k d, n ≤ k → p.ways ⟨k, d⟩ = []) : p.find? n cs = none := by
  induction cs generalizing n with
  | nil => exact matchAt?_eq_none (h n [] (Nat.le_refl n))
  | cons c cs ih =>
    rw [find?, matchAt?_eq_none (h n (c :: cs) (Nat.le_refl n)), Option.none_or]
    apply ih
    intro k d hk
    exact h k d (Nat.le_of_succ_le hk)

/-- A pattern that begins with the text is tried at the beginning only. -/
theorem find?_seq_beginning (p : Pattern) (cs : List Char) : (seq beginning p).find? 0 cs = p.matchAt? ⟨0, cs⟩ := by
  have hwithin : ∀ k d, 0 + 1 ≤ k → (seq beginning p).ways ⟨k, d⟩ = [] := by
    intro k d hk
    have hne : k ≠ 0 := by omega
    simp [ways, hne]
  have hat : (seq beginning p).matchAt? ⟨0, cs⟩ = p.matchAt? ⟨0, cs⟩ := by simp [matchAt?, ways]
  cases cs with
  | nil => exact hat
  | cons c cs => rw [find?, find?_eq_none hwithin, Option.or_none, hat]

/-! ## Characters and runs -/

variable {q r : Char → Bool} {b : Pattern} {n : Nat}

theorem ways_alt (a b : Pattern) (x : Place) : (alt a b).ways x = a.ways x ++ b.ways x := rfl

theorem ways_lit (c : Char) (n : Nat) (cs : List Char) : (lit c).ways ⟨n, c :: cs⟩ = [(⟨n + 1, cs⟩, [])] := by
  simp [ways, lit]

theorem ways_lit_of_ne {c : Char} {cs : List Char} (h : cs.head? ≠ some c) (n : Nat) : (lit c).ways ⟨n, cs⟩ = [] := by
  cases cs with
  | nil => rfl
  | cons d cs =>
    have hne : d ≠ c := fun hd => h (by rw [hd]; rfl)
    simp [ways, lit, hne]

theorem ways_lit_seq (c d : Char) (n : Nat) (cs : List Char) :
    (seq (lit c) b).ways ⟨n, d :: cs⟩ = if d = c then b.ways ⟨n + 1, cs⟩ else [] := by
  by_cases h : d = c <;> simp [ways, lit, h]

theorem ways_lit_seq_of_ne {c : Char} {cs : List Char} (h : cs.head? ≠ some c) (n : Nat) :
    (seq (lit c) b).ways ⟨n, cs⟩ = [] := by
  rw [ways, ways_lit_of_ne h, List.flatMap_nil]

def behind (r : Char → Bool) (n : Nat) (cs : List Char) : Place :=
  ⟨n + (cs.takeWhile r).length, cs.drop (cs.takeWhile r).length⟩

theorem drop_length_takeWhile (r : Char → Bool) (cs : List Char) :
    cs.drop (cs.takeWhile r).length = cs.dropWhile r := by
  have h := congrArg (List.drop (cs.takeWhile r).length) (List.takeWhile_append_dropWhile (p := r) (l := cs))
  rw [List.drop_left] at h
  exact h.symm

theorem behind_cons {c : Char} (h : r c = true) (n : Nat) (cs : List Char) :
    behind r n (c :: cs) = behind r (n + 1) cs := by
  simp [behind, h, Nat.add_assoc, Nat.add_comm 1]

/-- A greedy repetition goes as far as it can. -/
theorem head?_reverse_stops (r : Char → Bool) (n : Nat) (cs : List Char) :
    (stops r n cs).reverse.head? = some (behind r n cs) := by
  induction cs generalizing n with
  | nil => rfl
  | cons c cs ih =>
    by_cases h : r c = true
    · rw [stops, if_pos h, List.reverse_cons, List.head?_append, ih, behind_cons h]
      rfl
    · simp [stops, behind, h]

/-- What cannot begin inside a run begins behind it. -/
theorem flatMap_reverse_stops {α : Type} {f : Place → List α} (hf : ∀ n c cs, r c = true → f ⟨n, c :: cs⟩ = [])
    (n : Nat) (cs : List Char) : (stops r n cs).reverse.flatMap f = f (behind r n cs) := by
  induction cs generalizing n with
  | nil => simp [stops, behind]
  | cons c cs ih =>
    -- The shortest run comes last, and behind it stands `c`, where `f` finds nothing if the run can go on.
    by_cases h : r c = true
    · rw [stops, if_pos h, List.reverse_cons, List.flatMap_append, ih, List.flatMap_singleton, hf n c cs h,
        List.append_nil, behind_cons h]
    · simp [stops, behind, h]

def leading (q r : Char → Bool) : List Char → List Char
  | [] => []
  | c :: cs => if q c then c :: cs.takeWhile r else []

theorem ways_group_run_of_leading {number n : Nat} {cs : List Char} (h : leading q r cs = []) :
    (group number (run q r)).ways ⟨n, cs⟩ = [] := by
  cases cs with
  | nil => rfl
  | cons c cs =>
    have hq : ¬ q c = true := fun hq => by simp [leading, hq] at h
    simp [ways, run, hq]

theorem ways_group_run {number n : Nat} {c : Char} (h : q c = true) (cs : List Char) :
    (group number (run q r)).ways ⟨n, c :: cs⟩ =
      (stops r (n + 1) cs).reverse.map fun y => (y, [(number, (c :: cs).take (y.offset - n))]) := by
  simp [ways, run, h, Function.comp_def]

theorem take_behind (r : Char → Bool) (n : Nat) (c : Char) (cs : List Char) :
    (c :: cs).take ((behind r (n + 1) cs).offset - n) = c :: cs.takeWhile r := by
  have hle : (behind r (n + 1) cs).offset - n = (cs.takeWhile r).length + 1 := by
    simp only [behind]
    omega
  rw [hle, List.take_succ_cons, ← List.prefix_iff_eq_take.mp (List.takeWhile_prefix r)]

/-- Nothing follows the run that could ask for characters of it. -/
theorem head?_ways_group_run (number n : Nat) {cs : List Char} (h : leading q r cs ≠ []) :
    ((group number (run q r)).ways ⟨n, cs⟩).head? =
      some (⟨n + (leading q r cs).length, cs.drop (leading q r cs).length⟩, [(number, leading q r cs)]) := by
  cases cs with
  | nil => exact absurd rfl h
  | cons c cs =>
    by_cases hq : q c = true
    · rw [ways_group_run hq, List.head?_map, head?_reverse_stops, Option.map_some, take_behind, leading, if_pos hq]
      simp [behind, Nat.add_assoc, Nat.add_comm 1]
    · simp [leading, hq] at h

/-- What follows the run cannot begin inside it, so it asks for no character of it. -/
theorem ways_group_run_seq (hb : ∀ n c cs, r c = true → b.ways ⟨n, c :: cs⟩ = []) (number n : Nat) {cs : List Char}
    (h : leading q r cs ≠ []) :
    (seq (group number (run q r)) b).ways ⟨n, cs⟩ =
      (b.ways ⟨n + (leading q r cs).length, cs.drop (leading q r cs).length⟩).map fun w =>
        (w.1, (number, leading q r cs) :: w.2) := by
  cases cs with
  | nil => exact absurd rfl h
  | cons c cs =>
    by_cases hq : q c = true
    · have hf : ∀ k d ds, r d = true →
          ((b.ways ⟨k, d :: ds⟩).map fun w => (w.1, (number, (c :: cs).take (k - n)) :: w.2)) = [] :=
        fun k d ds hd => by rw [hb k d ds hd]; rfl
      have hgo := flatMap_reverse_stops (f := fun y => (b.ways y).map fun w =>
        (w.1, (number, (c :: cs).take (y.offset - n)) :: w.2)) hf (n + 1) cs
      rw [take_behind] at hgo
      rw [ways, ways_group_run hq, List.flatMap_map, leading, if_pos hq]
      refine hgo.trans ?_
      simp [behind, Nat.add_assoc, Nat.add_comm 1]
    · simp [leading, hq] at h

/-- A repetition up to the end of the text. -/
theorem ways_group_many_ending (r : Char → Bool) (number n : Nat) (cs : List Char) :
    (seq (group number (many true r)) ending).ways ⟨n, cs⟩ =
      if cs.all r then [(⟨n + cs.length, []⟩, [(number, cs)])] else [] := by
  have hgo := flatMap_reverse_stops (r := r) (f := fun y => (ending.ways y).map fun w =>
    (w.1, (number, cs.take (y.offset - n)) :: w.2)) (fun _ _ _ _ => rfl) n cs
  have hways : (seq (group number (many true r)) ending).ways ⟨n, cs⟩ =
      (stops r n cs).reverse.flatMap fun y => (ending.ways y).map fun w =>
        (w.1, (number, cs.take (y.offset - n)) :: w.2) := by
    simp only [ways, if_true, List.map_map, List.flatMap_map, Function.comp_def, List.cons_append, List.nil_append]
  rw [hways, hgo]
  split
  · rename_i hall
    rw [behind, List.takeWhile_eq_self_iff.mpr (List.all_eq_true.mp hall), List.drop_length]
    simp [ways]
  · rename_i hall
    have hrest : (behind r n cs).rest ≠ [] := by
      rw [behind, drop_length_takeWhile]
      exact fun h => hall (List.all_eq_true.mpr (List.dropWhile_eq_nil_iff.mp h))
    simp only [ways, if_neg hrest, List.map_nil]

end Pattern

end CursorDiagnostics.Text
