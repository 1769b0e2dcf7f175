/-
  CursorDiagnostics.Proofs.Index.Shadowing — the first span that holds a selection answers for it and hides the others.

  A place of an index answers for a selection if its span holds both ends and no span before it does (`Index.Answers`).
  In an index that loads and drops have led to, each place has a message, and a lookup gives that of the place that
  answers. A smaller selection is answered no later, and so are the ends of a span. A record that lies in an earlier one
  by its coordinates has a span that lies in the earlier one's, whatever the columns are moved to, so it is never seen.

  - `place?_eq_some_iff`: the search finds the place that answers.
  - `exists_answers_le`: a span that holds a selection is not passed over for a later one.
  - `span_inside`: a record inside another has a span inside the other's.
  - `messageFor_eraseIdx`: without a record that is hidden the answers are the same.
  - `first_span_answers`: all of these for every index that can be reached, and for every load.
-/

import CursorDiagnostics.Proofs.Document.Spans
import CursorDiagnostics.Proofs.Domain.Coordinates
import Mathlib.Data.List.InsertIdx

namespace CursorDiagnostics

variable {x y : Index} {a b i j : Nat} {s t : Span}

/-! ## The place that answers -/

/-- A span holds all of a selection exactly if it holds both ends. -/
theorem Span.coversRange_min_max (s : Span) (a b : Nat) :
    s.coversRange (min a b) (max a b) = (s.covers a && s.covers b) := by
  rw [Bool.eq_iff_iff]
  simp only [coversRange, covers, Bool.and_eq_true, decide_eq_true_eq]
  omega

namespace Index

structure Answers (x : Index) (a b place : Nat) : Prop where
  holds : ∃ s, x.spans[place]? = some s ∧ s.covers a ∧ s.covers b
  first : ∀ before < place, ∀ s, x.spans[before]? = some s → ¬ (s.covers a ∧ s.covers b)

theorem place?_eq_some_iff : x.place? (min a b) (max a b) = some i ↔ x.Answers a b i := by
  unfold place?
  rw [List.findIdx?_eq_some_iff_getElem]
  simp only [Span.coversRange_min_max, Bool.and_eq_true]
  constructor
  · intro ⟨hi, hcovers, hfirst⟩
    refine ⟨⟨_, List.getElem?_eq_getElem hi, hcovers⟩, fun before hb s hs => ?_⟩
    obtain ⟨hlt, rfl⟩ := List.getElem?_eq_some_iff.mp hs
    exact hfirst before hb
  · intro ⟨⟨s, hs, hcovers⟩, hfirst⟩
    obtain ⟨hi, rfl⟩ := List.getElem?_eq_some_iff.mp hs
    exact ⟨hi, hcovers, fun before hb => hfirst before hb _ (List.getElem?_eq_getElem (Nat.lt_trans hb hi))⟩

theorem place?_eq_none_iff :
    x.place? (min a b) (max a b) = none ↔ ∀ s ∈ x.spans, ¬ (s.covers a ∧ s.covers b) := by
  unfold place?
  rw [List.findIdx?_eq_none_iff]
  simp only [Span.coversRange_min_max, Bool.and_eq_false_iff, not_and_or, Bool.not_eq_true]

/-- A span that holds the selection answers for it, or an earlier one does. -/
theorem exists_answers_le (hs : x.spans[i]? = some s) (ha : s.covers a) (hb : s.covers b) :
    ∃ j ≤ i, x.Answers a b j := by
  cases hp : x.place? (min a b) (max a b) with
  | none => exact absurd ⟨ha, hb⟩ (place?_eq_none_iff.mp hp s (List.mem_of_getElem? hs))
  | some j =>
    have hj := place?_eq_some_iff.mp hp
    refine ⟨j, ?_, hj⟩
    by_contra hlt
    exact hj.first i (Nat.lt_of_not_le hlt) s hs ⟨ha, hb⟩

/-- A selection inside another one is answered no later. -/
theorem Answers.narrow (h : x.Answers a b i) {a' b' : Nat} (hmin : min a b ≤ min a' b') (hmax : max a' b' ≤ max a b) :
    ∃ j ≤ i, x.Answers a' b' j := by
  obtain ⟨s, hs, ha, hb⟩ := h.holds
  simp only [Span.covers, Bool.and_eq_true, decide_eq_true_eq] at ha hb
  apply exists_answers_le hs
  · simp only [Span.covers, Bool.and_eq_true, decide_eq_true_eq]
    omega
  · simp only [Span.covers, Bool.and_eq_true, decide_eq_true_eq]
    omega

theorem exists_answers_ends (hs : x.spans[i]? = some s) (h : s.start ≤ s.stop) :
    (∃ j ≤ i, x.Answers s.start s.start j) ∧ ∃ j ≤ i, x.Answers s.stop s.stop j := by
  have hstart : s.covers s.start := by simp [Span.covers, h]
  have hstop : s.covers s.stop := by simp [Span.covers, h]
  exact ⟨exists_answers_le hs hstart hstart, exists_answers_le hs hstop hstop⟩

/-! ## The message of the place -/

theorem messageFor_comm (x : Index) (a b : Nat) : x.messageFor a b = x.messageFor b a := by
  unfold messageFor
  rw [Nat.min_comm, Nat.max_comm]

theorem Answers.message (h : x.Answers a b i) (ha : x.Aligned) :
    ∃ m, x.messages[i]? = some m ∧ x.messageFor a b = some m := by
  obtain ⟨s, hs, -⟩ := h.holds
  have hi : i < x.messages.length := ha ▸ (List.getElem?_eq_some_iff.mp hs).1
  refine ⟨_, List.getElem?_eq_getElem hi, ?_⟩
  unfold messageFor
  rw [place?_eq_some_iff.mpr h, Option.bind_some, List.getElem?_eq_getElem hi]

theorem messageFor_eq_none_iff (ha : x.Aligned) :
    x.messageFor a b = none ↔ ∀ s ∈ x.spans, ¬ (s.covers a ∧ s.covers b) := by
  rw [← place?_eq_none_iff]
  cases hp : x.place? (min a b) (max a b) with
  | none => simp [messageFor, hp]
  | some i =>
    obtain ⟨m, -, hm⟩ := (place?_eq_some_iff.mp hp).message ha
    simp [hm]

/-! ## Spans inside other spans -/

/-- A place whose span lies in an earlier one answers nothing. -/
theorem not_answers_of_inside (hij : i < j) (hs : x.spans[i]? = some s) (ht : x.spans[j]? = some t)
    (hstart : s.start ≤ t.start) (hstop : t.stop ≤ s.stop) : ¬ x.Answers a b j := by
  intro h
  obtain ⟨t', ht', ha, hb⟩ := h.holds
  cases ht.symm.trans ht'
  apply h.first i hij s hs
  simp only [Span.covers, Bool.and_eq_true, decide_eq_true_eq] at ha hb ⊢
  omega

end Index

/-- A record that starts in no earlier line than another, and ends at no later position, has a span inside the
    other's: moved into their lines, the ends keep their order. -/
theorem Document.span_inside {d : Document} (hd : d.Lined) {p r : Record} (hs : d.span p = .ok s) (ht : d.span r = .ok t)
    (hstart : p.start.line ≤ r.start.line) (hstop : r.stop ≤ p.stop) : s.start ≤ t.start ∧ t.stop ≤ s.stop := by
  obtain ⟨hb, he, -, rfl⟩ := span_eq_ok_iff.mp hs
  obtain ⟨hb', he', -, rfl⟩ := span_eq_ok_iff.mp ht
  constructor
  · obtain ⟨hfirst, -⟩ := hb
    obtain ⟨hfirst', hlast'⟩ := hb'
    exact offsetOf_mono (by omega) (by omega)
  · obtain ⟨o, o', ho, ho', hle, -⟩ := offset_mono hd he' he hstop
    rw [offset_of_hasLine he'] at ho
    rw [offset_of_hasLine he] at ho'
    cases ho
    cases ho'
    exact hle

/-! ## A load without a hidden record -/

/-- What is passed over for an earlier member need not be there. -/
theorem find?_eraseIdx {α : Type} {p : α → Bool} {xs : List α} {u v : α} (hij : i < j) (hu : xs[i]? = some u)
    (hv : xs[j]? = some v) (h : p v = true → p u = true) : (xs.eraseIdx j).find? p = xs.find? p := by
  obtain ⟨hj, rfl⟩ := List.getElem?_eq_some_iff.mp hv
  have hsplit : xs.find? p = (xs.take j ++ xs[j] :: xs.drop (j + 1)).find? p := by
    rw [← List.drop_eq_getElem_cons hj, List.take_append_drop]
  rw [List.eraseIdx_eq_take_drop_succ, hsplit, List.find?_append, List.find?_append]
  cases hfind : (xs.take j).find? p with
  | some w => rfl
  | none =>
    have hmem : u ∈ xs.take j := List.mem_of_getElem? ((List.getElem?_take_of_lt hij).trans hu)
    have hnot : p xs[j] = false := by
      by_contra hp
      exact List.find?_eq_none.mp hfind u hmem (h (by simpa using hp))
    rw [List.find?_cons, hnot]

def Record.reaches (d : Document) (a b : Nat) (r : Record) : Bool :=
  (d.span r).toOption.any fun s => s.covers a && s.covers b

theorem Record.reaches_of_span {d : Document} {r : Record} (hs : d.span r = .ok s) :
    r.reaches d a b = (s.covers a && s.covers b) := by
  rw [reaches, hs]
  rfl

namespace Index

variable {d : Document} {records : List Record} {p r : Record}

theorem Holds.messageFor_eq_reaches (hx : x.Holds d records) (a b : Nat) :
    x.messageFor a b = (records.find? (Record.reaches d a b)).map Record.message := by
  refine hx.messageFor_eq fun r s hs => ?_
  rw [Record.reaches_of_span hs, Span.coversRange_min_max]

theorem Holds.eraseIdx (hx : x.Holds d records) (j : Nat) :
    Holds ⟨x.spans.eraseIdx j, x.messages.eraseIdx j⟩ d (records.eraseIdx j) := by
  refine ⟨?_, ?_⟩
  · rw [List.eraseIdx_eq_take_drop_succ, List.eraseIdx_eq_take_drop_succ]
    exact List.rel_append (List.forall₂_take j hx.spans) (List.forall₂_drop (j + 1) hx.spans)
  · show x.messages.eraseIdx j = _
    rw [hx.messages, List.eraseIdx_map]

theorem Holds.span_at (hx : x.Holds d records) (hr : records[i]? = some r) :
    ∃ s, x.spans[i]? = some s ∧ d.span r = .ok s := by
  obtain ⟨hi, rfl⟩ := List.getElem?_eq_some_iff.mp hr
  have hi' : i < x.spans.length := hx.spans.length_eq ▸ hi
  exact ⟨_, List.getElem?_eq_getElem hi', hx.spans.get hi hi'⟩

theorem messageFor_eraseIdx (hx : x.Holds d records) (hy : y.Holds d (records.eraseIdx j)) (hij : i < j)
    (hp : records[i]? = some p) (hr : records[j]? = some r)
    (hin : ∀ s t, d.span p = .ok s → d.span r = .ok t → s.start ≤ t.start ∧ t.stop ≤ s.stop) (a b : Nat) :
    y.messageFor a b = x.messageFor a b := by
  rw [hx.messageFor_eq_reaches, hy.messageFor_eq_reaches]
  congr 1
  apply find?_eraseIdx hij hp hr
  obtain ⟨s, -, hs⟩ := hx.span_at hp
  obtain ⟨t, -, ht⟩ := hx.span_at hr
  obtain ⟨hstart, hstop⟩ := hin s t hs ht
  rw [Record.reaches_of_span hs, Record.reaches_of_span ht]
  simp only [Span.covers, Bool.and_eq_true, decide_eq_true_eq]
  omega

/-! ## Every index, and every load -/

/-- Each span has a message, and a lookup gives that of the first span which holds the selection, if there is one. A
    smaller selection is answered no later, and the ends of a span no later than at its own place. -/
structure FirstWins (x : Index) : Prop where
  aligned : x.spans.length = x.messages.length
  messageAt : ∀ o, x.messageAt o = x.messageFor o o
  comm : ∀ a b, x.messageFor a b = x.messageFor b a
  answered : ∀ a b i, x.Answers a b i → ∃ m, x.messages[i]? = some m ∧ x.messageFor a b = some m
  unanswered : ∀ a b, x.messageFor a b = none ↔ ∀ s ∈ x.spans, ¬ (s.covers a ∧ s.covers b)
  narrow : ∀ a b a' b' i, x.Answers a b i → min a b ≤ min a' b' → max a' b' ≤ max a b → ∃ j ≤ i, x.Answers a' b' j
  ends : ∀ (i : Nat) s, x.spans[i]? = some s →
    (∃ j ≤ i, x.Answers s.start s.start j) ∧ ∃ j ≤ i, x.Answers s.stop s.stop j

theorem Reached.firstWins (hx : x.Reached) : x.FirstWins where
  aligned := hx.aligned
  messageAt := fun _ => rfl
  comm := messageFor_comm x
  answered := fun _ _ _ h => h.message hx.aligned
  unanswered := fun _ _ => messageFor_eq_none_iff hx.aligned
  narrow := fun _ _ _ _ _ h => h.narrow
  ends := fun _ s hs => exists_answers_ends hs (hx.ordered s (List.mem_of_getElem? hs))

/-- In every index that loads and drops have led to, the first span wins. And in a load, a record that starts in no
    earlier line than one before it, and ends at no later position, never answers: without it the load succeeds as
    well, and every answer is the same. -/
theorem first_span_answers :
    (∀ x : Index, x.Reached → x.FirstWins) ∧
    ∀ (text : String) (records : List Record) (x y : Index), x.replace (.ofText text) records = (.ok (), y) →
      ∀ (i j : Nat) (p r : Record), i < j → records[i]? = some p → records[j]? = some r →
        p.start.line ≤ r.start.line → r.stop ≤ p.stop →
          (∀ a b, ¬ y.Answers a b j) ∧
          ∃ z, x.replace (.ofText text) (records.eraseIdx j) = (.ok (), z) ∧
            ∀ a b, z.messageFor a b = y.messageFor a b := by
  refine ⟨fun x hx => hx.firstWins, ?_⟩
  intro text records x y hload i j p r hij hp hr hstart hstop
  have hy := replace_eq_ok_iff.mp hload
  have hin : ∀ s t, (Document.ofText text).span p = .ok s → (Document.ofText text).span r = .ok t →
      s.start ≤ t.start ∧ t.stop ≤ s.stop :=
    fun s t hs ht => Document.span_inside (Document.lined_ofText text) hs ht hstart hstop
  constructor
  · intro a b
    obtain ⟨s, hs, hps⟩ := hy.span_at hp
    obtain ⟨t, ht, hrt⟩ := hy.span_at hr
    obtain ⟨hle, hle'⟩ := hin s t hps hrt
    exact not_answers_of_inside hij hs ht hle hle'
  · exact ⟨_, replace_eq_ok_iff.mpr (hy.eraseIdx j), messageFor_eraseIdx hy (hy.eraseIdx j) hij hp hr hin⟩

/-- The second record ends before the first by its column, and at the same offset, the end of the line. It is never
    seen. The third goes on into the next line, and is seen there. -/
theorem first_span_answers_sameEnd :
    let records : List Record :=
      [⟨"m", ⟨1, 1⟩, ⟨1, 99⟩, "outer"⟩, ⟨"m", ⟨1, 2⟩, ⟨1, 7⟩, "inner"⟩, ⟨"m", ⟨1, 2⟩, ⟨2, 0⟩, "last"⟩]
    let y : Index := ⟨[⟨0, 2⟩, ⟨0, 2⟩, ⟨0, 4⟩], ["outer", "inner", "last"]⟩
    empty.replace (.ofText "ab\r\ncd") records = (.ok (), y) ∧ y.messageFor 2 1 = some "outer" ∧
      y.messageFor 4 1 = some "last" ∧ y.messageFor 5 4 = none ∧ (∀ a b, ¬ y.Answers a b 1) ∧
      (∃ j ≤ 2, y.Answers 1 2 j) ∧ (∃ j ≤ 1, y.Answers 2 2 j) ∧
      ∃ z, empty.replace (.ofText "ab\r\ncd") (records.eraseIdx 1) = (.ok (), z) ∧
        ∀ a b, z.messageFor a b = y.messageFor a b := by
  intro records y
  obtain ⟨wins, hides⟩ := first_span_answers
  have load : empty.replace (.ofText "ab\r\ncd") records = (.ok (), y) := by decide
  have reached : y.Reached := (replace_eq_ok_iff.mp load).reached
  have first : y.Answers 2 1 0 := place?_eq_some_iff.mp (by decide)
  have last : y.Answers 4 1 2 := place?_eq_some_iff.mp (by decide)
  obtain ⟨m, hm, hfirst⟩ := (wins y reached).answered 2 1 0 first
  cases hm
  obtain ⟨m, hm, hlast⟩ := (wins y reached).answered 4 1 2 last
  cases hm
  have inside : (⟨1, 7⟩ : Position) ≤ ⟨1, 99⟩ := by
    rw [Position.le_iff]
    decide
  obtain ⟨hidden, same⟩ := hides "ab\r\ncd" records empty y load 0 1 _ _ (by decide) rfl rfl (by decide) inside
  refine ⟨load, hfirst, hlast, ?_, hidden, ?_, ?_, same⟩
  · exact ((wins y reached).unanswered 5 4).mpr (by decide)
  · exact (wins y reached).narrow 4 1 1 2 2 last (by decide) (by decide)
  · exact ((wins y reached).ends 1 ⟨0, 2⟩ rfl).2

end Index

end CursorDiagnostics
