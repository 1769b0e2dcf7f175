/-
  CursorDiagnostics.Proofs.Domain.Coordinates — positions, offsets and diagnostics, by operations that have a domain.

  The coordinates of a log may be any numbers, and so may the offsets of a selection. Here they are mapped by sums
  and differences of words and by a rope, all of which have a domain, and the branches that no input is meant to
  reach have no result either: a line that was found to be one of the text and yet does not begin, or is not of
  any length. Over a text that is not too long there is always a result, and it is that of the document, a failure
  included.

  - `Rope.inside`: the operations on lines, positions and offsets.
  - `replace?_eq`, `messageFor?_eq`: the diagnostics of any records, and the message for any two ends.
  - `Index.Reached.inside`: an index that has been filled and emptied in any order has a message for each span that
    a lookup finds, and no span that ends before it starts.
-/

import CursorDiagnostics.Proofs.Domain.Rope
import CursorDiagnostics.Proofs.Host.Freshness
import Mathlib.Algebra.Group.Nat.Defs

namespace CursorDiagnostics

/-! ## Computations with a domain -/

/-- A computation that has a value, or fails, or was used outside its domain. -/
abbrev Guarded (α : Type) := ExceptT Failure Option α

namespace Guarded

variable {α β : Type}

def inside (x : Except Failure α) : Guarded α := .mk (some x)

def outside : Guarded α := .mk none

@[simp] theorem bind_inside_ok (a : α) (f : α → Guarded β) : inside (.ok a) >>= f = f a := rfl

@[simp] theorem bind_inside_error (e : Failure) (f : α → Guarded β) : inside (.error e) >>= f = inside (.error e) := rfl

@[simp] theorem bind_lift_some (a : α) (f : α → Guarded β) : (liftM (some a) : Guarded α) >>= f = f a := rfl

theorem bind_inside {x : Except Failure α} {f : α → Guarded β} {g : α → Except Failure β}
    (h : ∀ a, x = .ok a → f a = inside (g a)) : inside x >>= f = inside (x >>= g) := by
  cases x with
  | ok a => exact h a rfl
  | error e => rfl

theorem mapM_inside {f : α → Guarded β} {g : α → Except Failure β} (h : ∀ a, f a = inside (g a)) (xs : List α) :
    xs.mapM f = inside (xs.mapM g) := by
  induction xs with
  | nil => rfl
  | cons x xs ih =>
    rw [List.mapM_cons, List.mapM_cons, h, ih]
    exact bind_inside fun b _ => bind_inside fun bs _ => rfl

end Guarded

open Guarded

/-! ## Positions and offsets -/

namespace Rope

def zeroBased? (r : Rope) (line : Nat) : Guarded Nat :=
  if line = 0 then throw (.outOfRange 0 r.lineCount)
  else if r.lineCount < line then throw (.outOfRange line r.lineCount)
  else Word.sub? line 1

def lineOffset? (r : Rope) (line : Nat) : Guarded Nat := do
  match ← r.lineStart? (← r.zeroBased? line) with
  | some offset => return offset
  | none => outside

def offset? (r : Rope) (p : Position) : Guarded Nat := do
  let start ← r.lineOffset? p.line
  match ← r.lineLength? (← Word.sub? p.line 1) with
  | some length => Word.add? start (min (p.column - 1) length)
  | none => outside

def span? (r : Rope) (record : Record) : Guarded Span := do
  if record.stop.line < record.start.line then throw (.invertedSpan record.start.line record.stop.line)
  let start ← r.lineOffset? record.start.line
  let stop ← r.offset? record.stop
  return ⟨start, stop⟩

def positionAt? (r : Rope) (offset : Nat) : Option Position := do
  let (line, column) ← r.locate? offset
  return ⟨← Word.add? line 1, ← Word.add? column 1⟩

variable {r : Rope} {text : String}

theorem zeroBased?_of_hasLine (hr : r.Keeps text) {line : Nat} (hl : (Document.ofText text).HasLine line) :
    r.zeroBased? line = inside (.ok (line - 1)) := by
  obtain ⟨h1, hle⟩ := hl
  rw [← hr.lineCount_eq] at hle
  rw [zeroBased?, if_neg (Nat.ne_of_gt h1), if_neg (Nat.not_lt.mpr hle), Word.sub?_of_le h1]
  rfl

theorem zeroBased?_of_not_hasLine (hr : r.Keeps text) {line : Nat} (hl : ¬ (Document.ofText text).HasLine line) :
    r.zeroBased? line = inside (.error ((Document.ofText text).outOfRange line)) := by
  unfold zeroBased?
  rw [hr.lineCount_eq]
  split
  · next h0 =>
    subst h0
    rfl
  · next h0 =>
    rw [if_pos (Nat.not_le.mp fun hle => hl ⟨Nat.pos_of_ne_zero h0, hle⟩)]
    rfl

theorem lineOffset?_eq (hr : r.Keeps text) (line : Nat) :
    r.lineOffset? line = inside ((Document.ofText text).lineOffset line) := by
  unfold lineOffset?
  by_cases hl : (Document.ofText text).HasLine line
  · have hlt : line - 1 < (Document.ofText text).lineCount := by
      obtain ⟨h1, hle⟩ := hl
      omega
    rw [zeroBased?_of_hasLine hr hl, Document.lineOffset_eq_ok_iff.mpr ⟨hl, rfl⟩, bind_inside_ok, lineStart?_eq hr,
      Document.lineStart, if_pos hlt]
    rfl
  · rw [zeroBased?_of_not_hasLine hr hl, Document.lineOffset_of_not_hasLine hl, bind_inside_error]

/-- A text of so many characters has offsets, lines and columns that are words, counted from 0 or from 1. -/
theorem lt_wordLimit {text : String} (short : text.length < 2 ^ 63) {n : Nat} (h : n ≤ text.length + 1) :
    n < Text.Decimal.wordLimit := by
  have : Text.Decimal.wordLimit = 2 ^ 64 := rfl
  omega

theorem offset?_eq (hr : r.Keeps text) (short : text.length < 2 ^ 63) (p : Position) :
    r.offset? p = inside ((Document.ofText text).offset p) := by
  unfold offset? Document.offset
  rw [lineOffset?_eq hr]
  refine bind_inside fun start hstart => ?_
  obtain ⟨⟨h1, hle⟩, rfl⟩ := Document.lineOffset_eq_ok_iff.mp hstart
  have hlt : p.line - 1 < (Document.ofText text).lineCount := by omega
  have hend := Document.content_le_length (Document.lined_ofText text) hlt
  rw [Document.length_ofText] at hend
  have hsum : (Document.ofText text).offsetOf (p.line - 1) + min (p.column - 1) ((Document.ofText text).content (p.line - 1))
      < Text.Decimal.wordLimit := lt_wordLimit short (by omega)
  rw [Word.sub?_of_le h1, bind_lift_some, lineLength?_eq hr, Document.lineLength_of_lt hlt, bind_lift_some]
  simp only [Word.add?_of_lt hsum]
  rfl

theorem span?_eq (hr : r.Keeps text) (short : text.length < 2 ^ 63) (record : Record) :
    r.span? record = inside ((Document.ofText text).span record) := by
  unfold span? Document.span
  rw [lineOffset?_eq hr, offset?_eq hr short]
  split
  · rfl
  · exact bind_inside fun start _ => bind_inside fun stop _ => rfl

theorem positionAt?_eq (hr : r.Keeps text) (short : text.length < 2 ^ 63) (offset : Nat) :
    r.positionAt? offset = some ((Document.ofText text).positionAt offset) := by
  have hline := Document.locate_lt (Document.lined_ofText text) offset
  have hlines := List.count_le_length (a := '\n') (l := text.toList)
  rw [String.length_toList] at hlines
  rw [← hr.lineCount_eq, hr.lineCount] at hline
  have hcolumn : ((Document.ofText text).locate offset).2 ≤ text.length := by
    rw [← Document.length_ofText]
    exact Nat.le_trans (Nat.sub_le _ _) (Nat.min_le_right _ _)
  have haddLine := Word.add?_of_lt (lt_wordLimit short (show ((Document.ofText text).locate offset).1 + 1 ≤ _ by omega))
  have haddColumn := Word.add?_of_lt (lt_wordLimit short (Nat.add_le_add_right hcolumn 1))
  simp [positionAt?, locate?_eq hr, Document.positionAt, haddLine, haddColumn]

/-- Every operation on the lines, the positions and the offsets of a text has the result of the document. -/
structure Inside (r : Rope) (text : String) : Prop where
  lineStart : ∀ n, r.lineStart? n = some ((Document.ofText text).lineStart n)
  lineLength : ∀ n, r.lineLength? n = some ((Document.ofText text).lineLength n)
  lineText : ∀ n, r.lineText? n = some ((Document.ofText text).lineText n)
  locate : ∀ o, r.locate? o = some ((Document.ofText text).locate o)
  lineOffset : ∀ line, r.lineOffset? line = inside ((Document.ofText text).lineOffset line)
  offset : ∀ p, r.offset? p = inside ((Document.ofText text).offset p)
  span : ∀ record, r.span? record = inside ((Document.ofText text).span record)
  positionAt : ∀ o, r.positionAt? o = some ((Document.ofText text).positionAt o)

theorem Keeps.inside (hr : r.Keeps text) (short : text.length < 2 ^ 63) : r.Inside text where
  lineStart := lineStart?_eq hr
  lineLength := lineLength?_eq hr
  lineText := lineText?_eq hr
  locate := locate?_eq hr
  lineOffset := lineOffset?_eq hr
  offset := offset?_eq hr short
  span := span?_eq hr short
  positionAt := positionAt?_eq hr short

end Rope

/-! ## Diagnostics -/

def Span.length? (s : Span) : Option Nat := Word.sub? s.stop s.start

namespace Index

def ofRecords? (r : Rope) (records : List Record) : Guarded Index := do
  return ⟨← records.mapM r.span?, records.map Record.message⟩

def replace? (x : Index) (r : Rope) (records : List Record) : Option (Except Failure Unit × Index) := do
  match ← (ofRecords? r records).run with
  | .ok y => return (.ok (), y)
  | .error e => return (.error e, x)

/-- The message for a selection: where a span is found, a message must stand. -/
def messageFor? (x : Index) (a b : Nat) : Option (Option String) :=
  match x.place? (min a b) (max a b) with
  | some place => x.messages[place]?.map some
  | none => some none

def messageAt? (x : Index) (offset : Nat) : Option (Option String) := x.messageFor? offset offset

theorem ofRecords?_eq {r : Rope} {text : String} (h : r.Inside text) (records : List Record) :
    ofRecords? r records = inside (ofRecords (.ofText text) records) := by
  unfold ofRecords? ofRecords
  rw [mapM_inside h.span]
  exact bind_inside fun spans _ => rfl

theorem replace?_eq {r : Rope} {text : String} (h : r.Inside text) (x : Index) (records : List Record) :
    x.replace? r records = some (x.replace (.ofText text) records) := by
  unfold replace? replace
  rw [ofRecords?_eq h]
  cases ofRecords (.ofText text) records <;> rfl

theorem messageFor?_eq {x : Index} (ha : x.Aligned) (a b : Nat) : x.messageFor? a b = some (x.messageFor a b) := by
  unfold messageFor? messageFor place?
  cases hp : x.spans.findIdx? (·.coversRange (min a b) (max a b)) with
  | none => rfl
  | some place =>
    have hlt : place < x.messages.length := by
      rw [← ha]
      exact (List.findIdx?_eq_some_iff_findIdx_eq.mp hp).1
    simp [List.getElem?_eq_getElem hlt]

theorem mapM_messageAt? {x : Index} (ha : x.Aligned) (offsets : List Nat) :
    offsets.mapM x.messageAt? = some (offsets.map x.messageAt) := by
  have hm : x.messageAt? = fun o => pure (x.messageAt o) := funext fun o => messageFor?_eq ha o o
  rw [hm, List.mapM_pure]
  rfl

/-- The indexes that come from the empty one by replacements with the records of any logs, in any texts, and by
    being emptied. -/
inductive Reached : Index → Prop
  | empty : Reached empty
  | replace {x : Index} (hx : Reached x) (text : String) (records : List Record) :
      Reached (x.replace (.ofText text) records).2

theorem Reached.cases_holds {x : Index} (hx : x.Reached) : x = .empty ∨ ∃ text records, x.Holds (.ofText text) records := by
  induction hx with
  | empty => exact Or.inl rfl
  | @replace x _ text records ih =>
    unfold Index.replace
    cases hr : ofRecords (.ofText text) records with
    | ok y => exact Or.inr ⟨text, records, ofRecords_eq_ok_iff.mp hr⟩
    | error e => exact ih

theorem Holds.reached {x : Index} {text : String} {records : List Record} (h : x.Holds (.ofText text) records) :
    x.Reached := by
  have hr := Reached.replace .empty text records
  rwa [replace_eq_ok_iff.mpr h] at hr

theorem Reached.aligned {x : Index} (hx : x.Reached) : x.Aligned := by
  rcases hx.cases_holds with rfl | ⟨_, _, h⟩
  · exact aligned_empty
  · exact h.aligned

theorem Reached.ordered {x : Index} (hx : x.Reached) : ∀ s ∈ x.spans, s.start ≤ s.stop := by
  intro s hs
  rcases hx.cases_holds with rfl | ⟨_, _, h⟩
  · cases hs
  · exact (h.fits s hs).ordered

theorem Reached.length? {x : Index} (hx : x.Reached) : ∀ s ∈ x.spans, s.length? = some s.length :=
  fun s hs => Word.sub?_of_le (hx.ordered s hs)

end Index

end CursorDiagnostics
