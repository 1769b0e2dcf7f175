/-
  CursorDiagnostics.Proofs.Log.Layout — a log is read a line at a time, and its layout does not count.

  The lines of a log are its pieces between line feeds. They are numbered from 1, the blank ones too, and the
  number of a line is all that a failure knows of the lines before it (`readLine_renumber`).
  - `read_eq_readFrom`: a log is read from its first line to its last, and the first fault ends the reading.
  - `readFrom_append`: so what stands before a line only sets its number, and what stands after a fault does not
    count.
  - `Relaid`: the same lines with other blanks around them, and with blank lines put in and taken out. They give
    the same records (`Relaid.filled_eq`), and a fault moves with its line (`Relaid.split`).
-/

import CursorDiagnostics.Proofs.Log.FirstCut

namespace CursorDiagnostics

open Text (trim isBlank)

/-! ## The line of a failure -/

namespace Failure

def renumber (f : Nat → Nat) : Failure → Failure
  | malformedLine line content => malformedLine (f line) content
  | invalidNumber line digits => invalidNumber (f line) digits
  | e => e

def line? : Failure → Option Nat
  | malformedLine line _ => some line
  | invalidNumber line _ => some line
  | _ => none

end Failure

namespace Log

variable {n k : Nat} {p q : List Char} {ps qs before after : List (List Char)} {e : Failure}
  {rs : List Record} {inserted deleted : Nat}

/-- The number of a line is in its failure and nowhere else. -/
theorem readLine_renumber (f : Nat → Nat) (n : Nat) (content : List Char) :
    readLine (f n) content = (readLine n content).mapError (Failure.renumber f) := by
  unfold readLine
  split
  · rw [record_eq, record_eq]
    split <;> rfl
  · rfl

theorem line?_of_readLine {content : List Char} (h : readLine n content = .error e) : e.line? = some n := by
  rcases readLine_error h with rfl | ⟨ds, -, rfl⟩
  · rfl
  · rfl

/-! ## One line after the other -/

def pieces (log : String) : List (List Char) := log.toList.splitOn '\n'

/-- Reads lines of which the first has the number `n`. -/
def readFrom (n : Nat) : List (List Char) → Except Failure (List Record)
  | [] => .ok []
  | p :: ps =>
    if trim p = [] then readFrom (n + 1) ps
    else do
      let r ← readLine n (trim p)
      let rs ← readFrom (n + 1) ps
      return r :: rs

theorem read_eq_readFrom (log : String) : read log = readFrom 1 (pieces log) := by
  rw [read, entries, pieces, ← Text.map_uncut_lines]
  generalize Text.lines log.toList = ls
  generalize 1 = n
  induction ls generalizing n with
  | nil => rfl
  | cons l ls ih =>
    rw [List.zipIdx_cons, List.filterMap_cons, List.map_cons, readFrom, trim_uncut]
    by_cases h : trim l.content = []
    · simp only [h, if_true, ih]
    · simp only [h, if_false, List.mapM_cons, ih]

theorem readFrom_append (n : Nat) (ps qs : List (List Char)) :
    readFrom n (ps ++ qs) = do
      let rs ← readFrom n ps
      let rs' ← readFrom (n + ps.length) qs
      return rs ++ rs' := by
  induction ps generalizing n with
  | nil =>
    show readFrom n qs = (readFrom n qs >>= fun rs' => .ok rs')
    cases readFrom n qs <;> rfl
  | cons p ps ih =>
    have hn : n + (p :: ps).length = n + 1 + ps.length := by
      rw [List.length_cons]
      omega
    rw [List.cons_append, readFrom, readFrom, ih, hn]
    by_cases h : trim p = []
    · simp only [h, if_true]
    · simp only [h, if_false]
      cases readLine n (trim p) with
      | error e => rfl
      | ok r =>
        cases readFrom (n + 1) ps with
        | error e => rfl
        | ok rs => cases readFrom (n + 1 + ps.length) qs <;> rfl

/-- The number of the first line is added to that of a line that fails, and the records do not depend on it. -/
theorem readFrom_add (n k : Nat) (ps : List (List Char)) :
    readFrom (n + k) ps = (readFrom n ps).mapError (Failure.renumber (· + k)) := by
  induction ps generalizing n with
  | nil => rfl
  | cons p ps ih =>
    rw [readFrom, readFrom, Nat.add_right_comm, ih]
    by_cases h : trim p = []
    · simp only [h, if_true]
    · simp only [h, if_false, readLine_renumber (· + k) n]
      cases readLine n (trim p) with
      | error e => rfl
      | ok r => cases readFrom (n + 1) ps <;> rfl

theorem length_splitOn (c : Char) (cs : List Char) : (cs.splitOn c).length = cs.count c + 1 := by
  induction cs with
  | nil => rfl
  | cons d cs ih =>
    rw [List.splitOn_cons_eq_if_modifyHead, List.count_cons]
    by_cases h : (d == c) = true
    · simp [h, ih]
    · simp [h, ih]

theorem read_append (a b : String) :
    read (a ++ "\n" ++ b) =
      match read a, read b with
      | .error e, _ => .error e
      | .ok _, .error e => .error (e.renumber (· + (a.toList.count '\n' + 1)))
      | .ok rs, .ok rs' => .ok (rs ++ rs') := by
  have hp : pieces (a ++ "\n" ++ b) = pieces a ++ pieces b := by simp [pieces, List.splitOn_append_cons_self]
  have hn : (pieces a).length = a.toList.count '\n' + 1 := length_splitOn '\n' a.toList
  rw [read_eq_readFrom, hp, readFrom_append, readFrom_add, ← read_eq_readFrom, ← read_eq_readFrom, hn]
  cases read a with
  | error e => rfl
  | ok rs => cases read b <;> rfl

/-! ## Lines that read, and the first that does not -/

def filled (ps : List (List Char)) : List (List Char) := (ps.map trim).filter (· ≠ [])

theorem filled_cons (p : List Char) (ps : List (List Char)) :
    filled (p :: ps) = if trim p = [] then filled ps else trim p :: filled ps := by
  rw [filled, List.map_cons, List.filter_cons]
  by_cases h : trim p = []
  · simp [h, filled]
  · simp [h, filled]

theorem readFrom_eq_ok_iff : readFrom n ps = .ok rs ↔ List.Forall₂ Reads (filled ps) rs := by
  induction ps generalizing n rs with
  | nil =>
    rw [filled, List.map_nil, List.filter_nil, List.forall₂_nil_left_iff, readFrom, Except.ok.injEq]
    exact eq_comm
  | cons p ps ih =>
    rw [readFrom, filled_cons]
    by_cases h : trim p = []
    · rw [if_pos h, if_pos h, ih]
    · rw [if_neg h, if_neg h, List.forall₂_cons_left_iff]
      simp only [bind_eq_ok_iff, readLine_eq_ok_iff, ih]
      constructor
      · intro ⟨r, hr, rs', hrs, he⟩
        cases he
        exact ⟨r, rs', hr, hrs, rfl⟩
      · intro ⟨r, rs', hr, hrs, he⟩
        subst he
        exact ⟨r, hr, rs', hrs, rfl⟩

def Readable (ps : List (List Char)) : Prop := ∀ c ∈ filled ps, ∃ k r, readLine k c = .ok r

theorem readable_iff : Readable ps ↔ ∀ c ∈ filled ps, ∃ r, Reads c r := by
  simp only [Readable, readLine_eq_ok_iff, exists_const]

theorem Readable.readFrom (h : Readable ps) (n : Nat) : ∃ rs, readFrom n ps = .ok rs := by
  rw [readable_iff] at h
  simp only [readFrom_eq_ok_iff]
  generalize filled ps = cs at h
  induction cs with
  | nil => exact ⟨[], .nil⟩
  | cons c cs ih =>
    obtain ⟨⟨r, hr⟩, hcs⟩ := List.forall_mem_cons.mp h
    obtain ⟨rs, hrs⟩ := ih hcs
    exact ⟨r :: rs, .cons hr hrs⟩

theorem readable_nil : Readable [] := fun _ hc => absurd hc List.not_mem_nil

theorem readable_cons (hp : trim p = [] ∨ ∃ r, readLine n (trim p) = .ok r) (hps : Readable ps) :
    Readable (p :: ps) := by
  intro c hc
  rw [filled_cons] at hc
  by_cases h : trim p = []
  · rw [if_pos h] at hc
    exact hps c hc
  · rw [if_neg h] at hc
    rcases List.mem_cons.mp hc with rfl | hc
    · exact ⟨n, hp.resolve_left h⟩
    · exact hps c hc

/-- The lines `before`, of which the first has the number `n`, are read, and the line `p` after them fails. -/
structure StopsAt (n : Nat) (before : List (List Char)) (p : List Char) (e : Failure) : Prop where
  readable : Readable before
  holds : trim p ≠ []
  fails : readLine (n + before.length) (trim p) = .error e

theorem StopsAt.cons (h : StopsAt (n + 1) before p e) (hq : trim q = [] ∨ ∃ r, readLine n (trim q) = .ok r) :
    StopsAt n (q :: before) p e := by
  refine ⟨readable_cons hq h.readable, h.holds, ?_⟩
  have hn : n + (q :: before).length = n + 1 + before.length := by
    rw [List.length_cons]
    omega
  rw [hn]
  exact h.fails

theorem StopsAt.readFrom (h : StopsAt n before p e) (after : List (List Char)) :
    readFrom n (before ++ p :: after) = .error e := by
  obtain ⟨rs, hrs⟩ := h.readable.readFrom n
  rw [readFrom_append, hrs, Log.readFrom, if_neg h.holds, h.fails]
  rfl

theorem readFrom_eq_error_iff :
    readFrom n ps = .error e ↔ ∃ before p after, ps = before ++ p :: after ∧ StopsAt n before p e := by
  constructor
  · intro h
    induction ps generalizing n with
    | nil => cases h
    | cons q ps ih =>
      rw [readFrom] at h
      by_cases hq : trim q = []
      · rw [if_pos hq] at h
        obtain ⟨before, p, after, rfl, hs⟩ := ih h
        exact ⟨q :: before, p, after, rfl, hs.cons (Or.inl hq)⟩
      · simp only [if_neg hq, bind_eq_error_iff] at h
        rcases h with h | ⟨r, hr, h | ⟨rs, -, h⟩⟩
        · exact ⟨[], q, ps, rfl, readable_nil, hq, h⟩
        · obtain ⟨before, p, after, rfl, hs⟩ := ih h
          exact ⟨q :: before, p, after, rfl, hs.cons (Or.inr ⟨r, hr⟩)⟩
        · cases h
  · intro ⟨before, p, after, hps, hs⟩
    rw [hps]
    exact hs.readFrom after

/-! ## Another layout of the same lines -/

def Blanks (cs : List Char) : Prop := ∀ c ∈ cs, isBlank c = true

theorem Blanks.trim_eq_nil {cs : List Char} (h : Blanks cs) : trim cs = [] := by
  rw [Text.trim_eq_nil_iff]
  exact h

theorem trim_around {l r : List Char} (hl : Blanks l) (hr : Blanks r) (cs : List Char) :
    trim (l ++ cs ++ r) = trim cs := by
  rw [Text.trim_append_blanks hr, trim, trim, List.dropWhile_append_of_pos hl]

/-- The second lines are the first with other blanks around them, with so many blank lines put in between, and
    with so many taken out. -/
inductive Relaid : Nat → Nat → List (List Char) → List (List Char) → Prop
  | none : Relaid 0 0 [] []
  | kept {inserted deleted : Nat} {ps qs : List (List Char)} {l r l' r' : List Char} (cs : List Char) :
    Blanks l → Blanks r → Blanks l' → Blanks r' → Relaid inserted deleted ps qs →
    Relaid inserted deleted ((l ++ cs ++ r) :: ps) ((l' ++ cs ++ r') :: qs)
  | inserted {inserted deleted : Nat} {ps qs : List (List Char)} {q : List Char} :
    Blanks q → Relaid inserted deleted ps qs → Relaid (inserted + 1) deleted ps (q :: qs)
  | deleted {inserted deleted : Nat} {ps qs : List (List Char)} {p : List Char} :
    Blanks p → Relaid inserted deleted ps qs → Relaid inserted (deleted + 1) (p :: ps) qs

namespace Relaid

theorem length_eq (h : Relaid inserted deleted ps qs) : qs.length + deleted = ps.length + inserted := by
  induction h with
  | none => rfl
  | kept => simp only [List.length_cons]; omega
  | inserted => simp only [List.length_cons]; omega
  | deleted => simp only [List.length_cons]; omega

theorem filled_eq (h : Relaid inserted deleted ps qs) : filled qs = filled ps := by
  induction h with
  | none => rfl
  | kept cs hl hr hl' hr' _ ih => rw [filled_cons, filled_cons, trim_around hl hr, trim_around hl' hr', ih]
  | inserted hq _ ih => rw [filled_cons, if_pos hq.trim_eq_nil, ih]
  | deleted hp _ ih => rw [filled_cons, if_pos hp.trim_eq_nil, ih]

/-- A line that holds something is kept, and the lines before it and after it are laid out anew on their own. -/
theorem split (h : Relaid inserted deleted ps qs) (hps : ps = before ++ p :: after) (hp : trim p ≠ []) :
    ∃ before' p' after' i d j k, qs = before' ++ p' :: after' ∧ trim p' = trim p ∧
      Relaid i d before before' ∧ Relaid j k after after' ∧ inserted = i + j ∧ deleted = d + k := by
  induction h generalizing before with
  | none => simp at hps
  | @kept inserted deleted ps qs l r l' r' cs hl hr hl' hr' h ih =>
    cases before with
    | nil =>
      obtain ⟨rfl, rfl⟩ := List.cons.inj hps
      refine ⟨[], l' ++ cs ++ r', qs, 0, 0, inserted, deleted, rfl, ?_, .none, h, by omega, by omega⟩
      rw [trim_around hl hr, trim_around hl' hr']
    | cons c before =>
      obtain ⟨rfl, rfl⟩ := List.cons.inj hps
      obtain ⟨before', p', after', i, d, j, k, rfl, ht, hb, ha, hi, hd⟩ := ih rfl
      exact ⟨(l' ++ cs ++ r') :: before', p', after', i, d, j, k, rfl, ht, .kept cs hl hr hl' hr' hb, ha, hi, hd⟩
  | @inserted _ _ _ _ q hq _ ih =>
    obtain ⟨before', p', after', i, d, j, k, rfl, ht, hb, ha, hi, hd⟩ := ih hps
    exact ⟨q :: before', p', after', i + 1, d, j, k, rfl, ht, .inserted hq hb, ha, by omega, hd⟩
  | @deleted _ _ _ _ b hb _ ih =>
    -- `p` holds something, so it is not the line that is taken out.
    cases before with
    | nil =>
      obtain ⟨rfl, -⟩ := List.cons.inj hps
      exact absurd hb.trim_eq_nil hp
    | cons c before =>
      obtain ⟨rfl, rfl⟩ := List.cons.inj hps
      obtain ⟨before', p', after', i, d, j, k, rfl, ht, hbefore, ha, hi, hd⟩ := ih rfl
      exact ⟨before', p', after', i, d + 1, j, k, rfl, ht, .deleted hb hbefore, ha, hi, by omega⟩

theorem readable (h : Relaid inserted deleted ps qs) (hps : Readable ps) : Readable qs := by
  rw [Readable, h.filled_eq]
  exact hps

theorem readFrom (h : Relaid inserted deleted ps qs) (hps : readFrom n ps = .ok rs) : readFrom n qs = .ok rs := by
  rw [readFrom_eq_ok_iff] at hps ⊢
  rw [h.filled_eq]
  exact hps

end Relaid

/-- The same line fails for the same reason, with the number that it has now. -/
theorem StopsAt.relaid (hs : StopsAt 1 before p e) {before' : List (List Char)} (ht : trim q = trim p)
    (h : Relaid inserted deleted before before') :
    StopsAt 1 before' q (e.renumber fun line => line + inserted - deleted) := by
  refine ⟨h.readable hs.readable, by rw [ht]; exact hs.holds, ?_⟩
  have hlength := h.length_eq
  have hmoved := readLine_renumber (fun line => line + inserted - deleted) (1 + before.length) (trim p)
  have hn : 1 + before'.length = 1 + before.length + inserted - deleted := by omega
  rw [hn, ht, hmoved, hs.fails]
  rfl

theorem line?_of_stopsAt (hs : StopsAt 1 before p e) : e.line? = some (before.length + 1) := by
  rw [line?_of_readLine hs.fails, Nat.add_comm]

/-! ## Line ends -/

def returned (cs : List Char) : List Char := cs.flatMap fun c => if c = '\n' then ['\r', '\n'] else [c]

def withReturns : List (List Char) → List (List Char)
  | [] => []
  | [p] => [p]
  | p :: q :: ps => (p ++ ['\r']) :: withReturns (q :: ps)

theorem withReturns_modifyHead (c : Char) (ps : List (List Char)) :
    withReturns (ps.modifyHead (c :: ·)) = (withReturns ps).modifyHead (c :: ·) := by
  rcases ps with _ | ⟨p, _ | ⟨q, ps⟩⟩ <;> rfl

theorem splitOn_returned (cs : List Char) : (returned cs).splitOn '\n' = withReturns (cs.splitOn '\n') := by
  induction cs with
  | nil => rfl
  | cons c cs ih =>
    obtain ⟨p, ps, hp⟩ := List.exists_cons_of_ne_nil (List.splitOn_ne_nil '\n' cs)
    rw [List.splitOn_cons_eq_if_modifyHead]
    by_cases hc : c = '\n'
    · subst hc
      have hr : returned ('\n' :: cs) = ['\r'] ++ '\n' :: returned cs := rfl
      rw [hr, List.splitOn_append_cons_self, ih, hp]
      rfl
    · have hr : returned (c :: cs) = c :: returned cs := by simp [returned, hc]
      have hb : ¬ (c == '\n') = true := by simpa using hc
      rw [hr, List.splitOn_cons_eq_if_modifyHead, if_neg hb, if_neg hb, ih, withReturns_modifyHead]

theorem relaid_withReturns (ps : List (List Char)) : Relaid 0 0 ps (withReturns ps) := by
  have hnil : Blanks [] := fun _ hc => absurd hc List.not_mem_nil
  have hcr : Blanks ['\r'] := List.all_eq_true.mp rfl
  induction ps with
  | nil => exact .none
  | cons p ps ih =>
    cases ps with
    | nil =>
      have h := Relaid.kept p hnil hnil hnil hnil .none
      rwa [List.nil_append, List.append_nil] at h
    | cons q ps =>
      have h := Relaid.kept p hnil hnil hnil hcr ih
      rwa [List.nil_append, List.append_nil] at h

/-! ## A whole log -/

/-- The line that fails with `e` in the one layout fails with `e'` in the other: the number of the line has moved by
    the lines that are put in and taken out before it, and those after it do not count. -/
def Moved (inserted deleted : Nat) (ps qs : List (List Char)) (e e' : Failure) : Prop :=
  ∃ before p after before' p' after' i d j k,
    ps = before ++ p :: after ∧ qs = before' ++ p' :: after' ∧ trim p' = trim p ∧
    Relaid i d before before' ∧ Relaid j k after after' ∧ inserted = i + j ∧ deleted = d + k ∧
    e.line? = some (before.length + 1) ∧ e' = e.renumber fun line => line + i - d

theorem Relaid.readFrom_error (h : Relaid inserted deleted ps qs) (he : Log.readFrom 1 ps = .error e) :
    ∃ e', Log.readFrom 1 qs = .error e' ∧ Moved inserted deleted ps qs e e' := by
  rw [readFrom_eq_error_iff] at he
  obtain ⟨before, p, after, hps, hs⟩ := he
  obtain ⟨before', p', after', i, d, j, k, hqs, ht, hb, ha, hi, hd⟩ := h.split hps hs.holds
  refine ⟨e.renumber fun line => line + i - d, ?_, before, p, after, before', p', after', i, d, j, k, hps, hqs, ht,
    hb, ha, hi, hd, line?_of_stopsAt hs, rfl⟩
  rw [readFrom_eq_error_iff]
  exact ⟨before', p', after', hqs, hs.relaid ht hb⟩

/-- Blanks around the lines change nothing. -/
theorem Relaid.readFrom_eq (h : Relaid 0 0 ps qs) : Log.readFrom 1 qs = Log.readFrom 1 ps := by
  cases hr : Log.readFrom 1 ps with
  | ok rs => exact h.readFrom hr
  | error e =>
    obtain ⟨e', he, -, -, -, -, -, -, i, d, j, k, -, -, -, -, -, hi, hd, -, rfl⟩ := h.readFrom_error hr
    obtain rfl : i = 0 := by omega
    obtain rfl : d = 0 := by omega
    rw [he]
    cases e <;> rfl

theorem read_returned (log : String) : read (String.ofList (returned log.toList)) = read log := by
  have hp : pieces (String.ofList (returned log.toList)) = withReturns (pieces log) := by
    rw [pieces, String.toList_ofList, splitOn_returned, pieces]
  rw [read_eq_readFrom, read_eq_readFrom, hp]
  exact (relaid_withReturns (pieces log)).readFrom_eq

/-- A log is read line by line: it gives a record for each line that holds something, or else the fault of the first
    of these that does not read, with the number of the line in the log. Of two logs one after the other, the
    second counts if the first reads, and its lines are numbered after those of the first. Another layout gives the
    same records, or the same fault in the same line, and carriage returns before the line feeds change nothing. -/
theorem read_by_lines :
    (∀ log : String,
      (Readable (pieces log) →
        ∃ rs, read log = .ok rs ∧ List.Forall₂ (fun c r => ∀ k, readLine k c = .ok r) (filled (pieces log)) rs) ∧
      ∀ e, read log = .error e ↔ ∃ before p after, pieces log = before ++ p :: after ∧ StopsAt 1 before p e) ∧
    (∀ a b : String,
      read (a ++ "\n" ++ b) =
        match read a, read b with
        | .error e, _ => .error e
        | .ok _, .error e => .error (e.renumber (· + (a.toList.count '\n' + 1)))
        | .ok rs, .ok rs' => .ok (rs ++ rs')) ∧
    (∀ (a b : String) (inserted deleted : Nat), Relaid inserted deleted (pieces a) (pieces b) →
      (∀ rs, read a = .ok rs → read b = .ok rs) ∧
      ∀ e, read a = .error e → ∃ e', read b = .error e' ∧ Moved inserted deleted (pieces a) (pieces b) e e') ∧
    ∀ log : String, read (String.ofList (returned log.toList)) = read log := by
  refine ⟨fun log => ⟨fun h => ?_, fun e => ?_⟩, read_append, fun a b inserted deleted h => ?_, read_returned⟩
  · obtain ⟨rs, hr⟩ := h.readFrom 1
    rw [read_eq_readFrom]
    refine ⟨rs, hr, ?_⟩
    rw [readFrom_eq_ok_iff] at hr
    exact hr.imp fun c r hc k => by rwa [readLine_eq_ok_iff]
  · rw [read_eq_readFrom, readFrom_eq_error_iff]
  · rw [read_eq_readFrom, read_eq_readFrom]
    exact ⟨fun rs => h.readFrom, fun e => h.readFrom_error⟩

def loose : String := "m,1:1,1:2,x\n\n ? \nm"

def shifted : String := " \n\nm,1:1,1:2,x\r\n?\nm"

/-- The line that fails is the third of the one log and the fourth of the other, and the sixth of the other behind a log
    of two lines. -/
theorem read_shifted :
    Relaid 2 1 (pieces loose) (pieces shifted) ∧ read loose = .error (.malformedLine 3 "?") ∧
      read shifted = .error (.malformedLine 4 "?") ∧
      Moved 2 1 (pieces loose) (pieces shifted) (.malformedLine 3 "?") (.malformedLine 4 "?") ∧
      Readable (pieces "m,1:1,1:2,x\n") ∧
      read ("m,1:1,1:2,x\n" ++ "\n" ++ shifted) = .error (.malformedLine 6 "?") := by
  obtain ⟨byLine, append, layout, -⟩ := read_by_lines
  have blanks : ∀ cs : List Char, cs.all isBlank = true → Blanks cs := fun cs h => List.all_eq_true.mp h
  have hnil := blanks [] rfl
  have hlaid : Relaid 2 1 (pieces loose) (pieces shifted) :=
    .inserted (blanks [' '] rfl) (.inserted hnil (.kept "m,1:1,1:2,x".toList hnil hnil hnil (blanks ['\r'] rfl)
      (.deleted hnil (.kept ['?'] (blanks [' '] rfl) (blanks [' '] rfl) hnil hnil (.kept ['m'] hnil hnil hnil hnil .none)))))
  have hloose : read loose = .error (.malformedLine 3 "?") := rfl
  have hshifted : read shifted = .error (.malformedLine 4 "?") := rfl
  obtain ⟨e', he, hmoved⟩ := (layout _ _ 2 1 hlaid).2 _ hloose
  rw [hshifted] at he
  cases he
  have hreadable : Readable (pieces "m,1:1,1:2,x\n") := List.forall_mem_singleton.mpr ⟨1, _, rfl⟩
  obtain ⟨rs, hrs, -⟩ := (byLine _).1 hreadable
  refine ⟨hlaid, hloose, hshifted, hmoved, hreadable, ?_⟩
  rw [append, hrs, hshifted]
  rfl

end Log

end CursorDiagnostics
