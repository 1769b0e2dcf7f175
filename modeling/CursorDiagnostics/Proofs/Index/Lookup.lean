/-
  CursorDiagnostics.Proofs.Index.Lookup — what a lookup by offsets says about the records of a log.

  - `replace_eq_ok_iff`: a replacement that succeeds holds one diagnostic a record, in their order.
  - `ofRecords_eq_error_iff`: one that fails does so for the first record that has no place in the text.
  - `coversRange_iff`: a span covers a selection of the text exactly if its record does, by positions.
  - `messageFor_eq_first_covering`: the message for a selection is that of the first record of the
    log that covers it; neither the files nor the start columns of the records matter.
-/

import CursorDiagnostics.Index
import CursorDiagnostics.Log.Reader
import CursorDiagnostics.Proofs.Document.Spans

namespace CursorDiagnostics

open Document

/-! ## What an index holds -/

/-- One diagnostic a record, in the order of the records: its span in `d` and its message. -/
structure Index.Holds (x : Index) (d : Document) (records : List Record) : Prop where
  spans : List.Forall₂ (fun r s => d.span r = .ok s) records x.spans
  messages : x.messages = records.map Record.message

namespace Index

theorem ofRecords_eq_ok_iff {d : Document} {records : List Record} {x : Index} :
    ofRecords d records = .ok x ↔ x.Holds d records := by
  unfold ofRecords
  rw [bind_eq_ok_iff]
  constructor
  · intro ⟨spans, h, hx⟩
    cases hx
    exact ⟨mapM_eq_ok_iff.mp h, rfl⟩
  · intro ⟨hs, hm⟩
    exact ⟨x.spans, mapM_eq_ok_iff.mpr hs, by rw [← hm]; rfl⟩

/-- The first of the records that has no span in `d` has none for the reason `e`. -/
def FirstFault (d : Document) (records : List Record) (e : Failure) : Prop :=
  ∃ good r rest, records = good ++ r :: rest ∧ (∀ g ∈ good, ∃ s, d.span g = .ok s) ∧ d.span r = .error e

theorem ofRecords_eq_error_iff {d : Document} {records : List Record} {e : Failure} :
    ofRecords d records = .error e ↔ FirstFault d records e := by
  unfold ofRecords FirstFault
  rw [bind_eq_error_iff, mapM_eq_error_iff]
  constructor
  · rintro (h | ⟨_, -, h⟩)
    · exact h
    · cases h
  · intro h
    exact Or.inl h

theorem replace_eq_ok_iff {x y : Index} {d : Document} {records : List Record} :
    x.replace d records = (.ok (), y) ↔ y.Holds d records := by
  rw [← ofRecords_eq_ok_iff]
  unfold replace
  cases h : ofRecords d records with
  | ok z => simp
  | error e => simp

end Index

/-! ## Records by positions -/

namespace Record

/-- `r` is about all that stands from `first` to `last`: it has begun in the line of `first`, and it
    does not end before `last`. -/
def Covers (r : Record) (d : Document) (first last : Position) : Prop :=
  r.start.line ≤ first.line ∧ last ≤ d.clamp r.stop

instance (r : Record) (d : Document) (first last : Position) : Decidable (r.Covers d first last) :=
  inferInstanceAs (Decidable (_ ∧ _))

structure Alike (r r' : Record) : Prop where
  startLine : r.start.line = r'.start.line
  stop : r.stop = r'.stop
  message : r.message = r'.message

theorem Alike.span_eq {r r' : Record} (h : r.Alike r') (d : Document) : d.span r = d.span r' :=
  span_congr h.startLine h.stop

end Record

theorem spans_of_alike {d : Document} {records records' : List Record} (h : List.Forall₂ Record.Alike records records')
    {spans : List Span} (hs : List.Forall₂ (fun r s => d.span r = .ok s) records spans) :
    List.Forall₂ (fun r s => d.span r = .ok s) records' spans := by
  induction h generalizing spans with
  | nil => exact hs
  | cons hr _ ih =>
    cases hs with
    | cons h hs => exact .cons (hr.span_eq d ▸ h) (ih hs)

theorem messages_of_alike {records records' : List Record} (h : List.Forall₂ Record.Alike records records') :
    records.map Record.message = records'.map Record.message := by
  rw [← List.forall₂_eq_eq_eq, List.forall₂_map_left_iff, List.forall₂_map_right_iff]
  exact h.imp fun _ _ hr => hr.message

theorem Index.Holds.of_alike {x : Index} {d : Document} {records records' : List Record} (hx : x.Holds d records)
    (h : List.Forall₂ Record.Alike records records') : x.Holds d records' :=
  ⟨spans_of_alike h hx.spans, hx.messages.trans (messages_of_alike h)⟩

theorem coversRange_iff {d : Document} (hd : d.Lined) {r : Record} {s : Span} (hs : d.span r = .ok s) {lo hi : Nat}
    (hle : lo ≤ hi) (hhi : hi ≤ d.length) :
    s.coversRange lo hi = true ↔ r.Covers d (d.positionAt lo) (d.positionAt hi) := by
  obtain ⟨⟨hb, hb'⟩, -, -, hspan⟩ := span_eq_ok_iff.mp hs
  obtain ⟨-, hinside⟩ := span_ordered hd hs
  obtain ⟨-, hstop⟩ := positionAt_span hd hs
  have hstart : s.start ≤ lo ↔ r.start.line ≤ (d.positionAt lo).line := by
    rw [hspan, ← le_locate_iff hd (by omega) (Nat.le_trans hle hhi)]
    simp only [positionAt]
    omega
  unfold Record.Covers
  rw [← hstop, ← hstart, (strictMonoOn_positionAt hd).le_iff_le hhi hinside]
  simp [Span.coversRange]

/-- No span covers an offset past the end of the text. -/
theorem not_coversRange {d : Document} (hd : d.Lined) {r : Record} {s : Span} (hs : d.span r = .ok s) {lo hi : Nat}
    (hhi : d.length < hi) : s.coversRange lo hi = false := by
  obtain ⟨-, hinside⟩ := span_ordered hd hs
  simp only [Span.coversRange, Bool.and_eq_false_iff, decide_eq_false_iff_not]
  omega

/-! ## The first record that covers a selection -/

/-- A search in one list that takes its answer from a second is a search in a list of which both are images. -/
theorem findIdx?_bind_getElem? {α β γ : Type} {p : α → Bool} {q : β → Bool} {f : α → γ} {xs : List α} {ys : List β}
    (h : List.Forall₂ (fun x y => q y = p x) xs ys) :
    ((ys.findIdx? q).bind fun i => (xs.map f)[i]?) = (xs.find? p).map f := by
  induction h with
  | nil => rfl
  | @cons x y xs ys hxy _ ih =>
    rw [List.findIdx?_cons, List.find?_cons, hxy]
    cases p x with
    | true => simp
    | false =>
      rw [← ih]
      cases ys.findIdx? q <;> simp

theorem Index.Holds.messageFor_eq {x : Index} {d : Document} {records : List Record} (h : x.Holds d records) {a b : Nat}
    {p : Record → Bool} (hp : ∀ r s, d.span r = .ok s → s.coversRange (min a b) (max a b) = p r) :
    x.messageFor a b = (records.find? p).map Record.message := by
  unfold messageFor place?
  rw [h.messages]
  exact findIdx?_bind_getElem? (h.spans.imp fun r s hs => hp r s hs)

theorem messageFor_eq_first_covering {text log : String} {x y : Index}
    (loaded : (Log.read log).map (x.replace (.ofText text)) = .ok (.ok (), y)) :
    ∃ records, Log.read log = .ok records ∧
      (∀ a b, text.length < max a b → y.messageFor a b = none) ∧
      (∀ a b, max a b ≤ text.length →
        y.messageFor a b =
          (records.find? fun r =>
            r.Covers (.ofText text) ((ofText text).positionAt (min a b)) ((ofText text).positionAt (max a b))).map
              Record.message) ∧
      (∀ o, y.messageAt o = y.messageFor o o) ∧
      (∀ records' z, List.Forall₂ Record.Alike records records' →
        Index.replace z (.ofText text) records' = (.ok (), y)) := by
  have hd := lined_ofText text
  cases hread : Log.read log with
  | error e => rw [hread] at loaded; cases loaded
  | ok records =>
    rw [hread] at loaded
    have hy := Index.replace_eq_ok_iff.mp (Except.ok.inj loaded)
    refine ⟨records, rfl, fun a b hab => ?_, fun a b hab => ?_, fun o => rfl, fun records' z halike => ?_⟩
    · rw [← length_ofText] at hab
      rw [hy.messageFor_eq (p := fun _ => false) fun r s hs => not_coversRange hd hs hab]
      simp
    · rw [← length_ofText] at hab
      refine hy.messageFor_eq fun r s hs => ?_
      exact Bool.eq_iff_iff.mpr ((coversRange_iff hd hs (by omega) hab).trans decide_eq_true_iff.symm)
    · exact Index.replace_eq_ok_iff.mpr (hy.of_alike halike)

/-- A selection of the whole second line, made backwards, lies in both records, and the first answers;
    one that goes past the text has no answer. Other files and start columns give the same index. -/
theorem messageFor_backwards_second_line :
    (Log.read "m.vpr,1:3,2:99,far\n\nx.vpr,2:9,2:3,near\n").map (Index.empty.replace (.ofText "ab\r\ncd")) =
        .ok (.ok (), ⟨[⟨0, 6⟩, ⟨4, 6⟩], ["far", "near"]⟩) ∧
      (Index.mk [⟨0, 6⟩, ⟨4, 6⟩] ["far", "near"]).messageFor 6 4 = some "far" ∧
      (Index.mk [⟨0, 6⟩, ⟨4, 6⟩] ["far", "near"]).messageFor 7 4 = none ∧
      Index.empty.replace (.ofText "ab\r\ncd") [⟨"", ⟨1, 0⟩, ⟨2, 99⟩, "far"⟩, ⟨"y", ⟨2, 1⟩, ⟨2, 3⟩, "near"⟩] =
        (.ok (), ⟨[⟨0, 6⟩, ⟨4, 6⟩], ["far", "near"]⟩) := by
  have loaded : (Log.read "m.vpr,1:3,2:99,far\n\nx.vpr,2:9,2:3,near\n").map (Index.empty.replace (.ofText "ab\r\ncd")) =
      .ok (.ok (), ⟨[⟨0, 6⟩, ⟨4, 6⟩], ["far", "near"]⟩) := rfl
  obtain ⟨records, hread, hpast, hin, -, halike⟩ := messageFor_eq_first_covering loaded
  obtain rfl : records = [⟨"m.vpr", ⟨1, 3⟩, ⟨2, 99⟩, "far"⟩, ⟨"x.vpr", ⟨2, 9⟩, ⟨2, 3⟩, "near"⟩] :=
    Except.ok.inj (hread.symm.trans rfl)
  refine ⟨loaded, ?_, hpast 7 4 (by decide), ?_⟩
  · rw [hin 6 4 (by decide)]
    rfl
  · exact halike _ _ (.cons ⟨rfl, rfl, rfl⟩ (.cons ⟨rfl, rfl, rfl⟩ .nil))

end CursorDiagnostics
