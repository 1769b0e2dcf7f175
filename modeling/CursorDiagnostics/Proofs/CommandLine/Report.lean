/-
  CursorDiagnostics.Proofs.CommandLine.Report — the report of a run, as a list of entries that no session is
  needed for.

  The regions are the records in the order of the log (`regionEntries`). Each offset asked for has two entries
  (`queryEntries`), of which the second is about the first record that reaches it (`messageOf`). A run moves
  the caret of a buffer and asks the session that listens to it instead. The caret's message is then the one
  that the diagnostics have for its offset (`answer_of_select`), and the diagnostics stay what they are from
  one caret to the next (`inquire_calls`), so a run that succeeds writes these entries
  (`run_output_eq_entries`).
-/

import CursorDiagnostics.Proofs.CommandLine.Output
import CursorDiagnostics.Proofs.Host.Runs

namespace CursorDiagnostics

open Document

/-! ## Places of a document -/

instance (d : Document) (line : Nat) : Decidable (d.HasLine line) := inferInstanceAs (Decidable (_ ∧ _))

def Document.offsetAt (d : Document) (p : Position) : Nat := d.offsetOf (p.line - 1) + (p.column - 1)

theorem Document.offsetAt_clamp (d : Document) (p : Position) :
    d.offsetAt (d.clamp p) = d.offsetOf (p.line - 1) + min (p.column - 1) (d.content (p.line - 1)) := by
  simp only [offsetAt, clamp]
  omega

theorem Document.offset_clamp {d : Document} {p : Position} (h : d.HasLine p.line) :
    d.offset p = .ok (d.offsetAt (d.clamp p)) :=
  offset_eq_ok_iff.mpr ⟨h, d.offsetAt_clamp p⟩

theorem Document.clamp_clamp (d : Document) (p : Position) : d.clamp (d.clamp p) = d.clamp p := by
  simp only [clamp, Position.mk.injEq, true_and]
  omega

def Record.opening (r : Record) : Position := ⟨r.start.line, 1⟩

/-- The record's text begins at or before the offset, and does not end before it. -/
def Record.Touches (r : Record) (d : Document) (offset : Nat) : Prop :=
  d.offsetAt r.opening ≤ offset ∧ offset ≤ d.offsetAt (d.clamp r.stop)

instance (r : Record) (d : Document) (offset : Nat) : Decidable (r.Touches d offset) :=
  inferInstanceAs (Decidable (_ ∧ _))

/-- What a span is when a record has one. -/
theorem span_eq_offsetAt {d : Document} {r : Record} {s : Span} (hs : d.span r = .ok s) :
    s = ⟨d.offsetAt r.opening, d.offsetAt (d.clamp r.stop)⟩ := by
  obtain ⟨-, -, -, rfl⟩ := span_eq_ok_iff.mp hs
  rw [offsetAt_clamp]
  rfl

namespace CommandLine

/-! ## The entries -/

def regionEntry (d : Document) (r : Record) : String :=
  let first := d.offsetAt r.opening
  let stop := d.clamp r.stop
  let last := d.offsetAt stop
  s!"  {r.start.line}:1-{stop.line}:{stop.column} [{first}..={last}]"

def regionEntries (a : Arguments) (d : Document) (records : List Record) : List String :=
  if records = [] then [s!"regions {a.regionKey}: none"]
  else s!"regions {a.regionKey}: {records.length} ({a.scope})" :: records.map (regionEntry d)

/-- The offsets to look up: a position in a line that the document does not have stands for its end. -/
def offsets (a : Arguments) (d : Document) : List Nat :=
  a.offsets ++ a.positions.map fun p => if d.HasLine p.line then d.offsetAt (d.clamp p) else d.length

def messageOf (d : Document) (records : List Record) (offset : Nat) : Option String :=
  (records.find? fun r => r.Touches d offset).map Record.message

/-- An empty message is shown like none. -/
def answerEntry (a : Arguments) (message : Option String) : String :=
  match message.filter (· ≠ ""), a.popup with
  | some m, false => s!"  status {a.regionKey}: {m}"
  | some m, true => s!"  popup (max {a.popupMaxWidth}px): {m}"
  | none, false => s!"  status {a.regionKey}: -"
  | none, true => "  popup: hidden"

def queryEntries (a : Arguments) (d : Document) (records : List Record) (offset : Nat) : List String :=
  let p := d.positionAt offset
  [s!"caret {p.line}:{p.column} (offset {offset})", answerEntry a (messageOf d records offset)]

def entries (a : Arguments) (d : Document) (records : List Record) : List String :=
  regionEntries a d records ++ (offsets a d).flatMap (queryEntries a d records)

/-! ## Regions -/

theorem lines_of_span {d : Document} (hd : d.Lined) {r : Record} {s : Span} (hs : d.span r = .ok s) :
    "  " ++ Console.span d s = regionEntry d r := by
  obtain ⟨hstart, hstop⟩ := positionAt_span hd hs
  rw [span_eq_offsetAt hs] at hstart hstop
  have one : Nat.toDigits 10 1 = ['1'] := rfl
  rw [span_eq_offsetAt hs, Console.span, hstart, hstop]
  simp [regionEntry, Console.position, Record.opening, toString, ← String.toList_inj, one]

theorem lines_regions {a : Arguments} {d : Document} (hd : d.Lined) {s : Session} (hs : s.settings = a.settings)
    {records : List Record} (hx : s.index.Holds d records) :
    Console.lines d (.request s.regions) = regionEntries a d records := by
  have hspans : s.index.spans.map (fun s => "  " ++ Console.span d s) = records.map (regionEntry d) := by
    rw [← List.forall₂_eq_eq_eq, List.forall₂_map_left_iff, List.forall₂_map_right_iff]
    exact hx.spans.flip.imp fun _ _ h => lines_of_span hd h
  have hlen : s.index.spans.length = records.length := hx.spans.length_eq.symm
  have hempty : s.index.isEmpty = true ↔ records = [] := by
    rw [Index.isEmpty, List.isEmpty_iff_length_eq_zero, hlen, List.length_eq_zero_iff]
  have hkey : s.settings.regionKey = a.regionKey := congrArg Settings.regionKey hs
  have hscope : s.style.scope = a.scope := congrArg Settings.scope hs
  unfold Session.regions regionEntries
  by_cases h : records = []
  · rw [if_pos (hempty.mpr h), if_pos h, Console.lines, hkey]
    rfl
  · rw [if_neg (mt hempty.mp h), if_neg h, Console.lines, hspans, hlen, hkey, hscope]
    simp [toString, ← String.toList_inj]

/-! ## Carets -/

def shownFor (a : Arguments) (message : Option String) : Request :=
  if a.popup then .popup (.ofMessage message a.popupMaxWidth) else .status (.ofMessage a.regionKey message)

theorem lines_shownFor (a : Arguments) (d : Document) (message : Option String) :
    Console.lines d (.request (shownFor a message)) = [answerEntry a message] := by
  have hf : message.filter (· ≠ "") = shown message := by
    refine congrArg message.filter (funext fun m => ?_)
    rw [Bool.eq_iff_iff]
    simp
  unfold shownFor answerEntry
  rw [hf]
  cases a.popup <;> cases h : shown message <;> simp [Popup.ofMessage, Status.ofMessage, h, Console.lines, toString]

theorem lines_caret (d : Document) (o : Nat) :
    Console.lines d (.caret o) =
      [s!"caret {(d.positionAt o).line}:{(d.positionAt o).column} (offset {o})"] := by
  simp [Console.lines, Console.position, toString, ← String.toList_inj]

/-- The caret's message is the one that the diagnostics have for its offset. -/
theorem answer_of_select {a : Arguments} {h : Host} (hh : h.Hears .selection) (hs : h.session.settings = a.settings) (o : Nat) :
    answer a (h.step (.select (.caret o))).host.session o = shownFor a (h.session.index.messageAt o) := by
  rw [Host.step_select_session, if_pos hh, Session.observe_session]
  unfold answer shownFor Session.popup Session.status
  rw [hs]
  rfl

/-- The diagnostics are the same at every caret. -/
theorem inquire_calls {a : Arguments} {h : Host} (hh : h.Hears .selection) (hs : h.session.settings = a.settings)
    (qs : List (Nat × Journal)) :
    (inquire a h qs).1 =
      qs.flatMap fun q => [.caret q.1, .request (shownFor a (h.session.index.messageAt q.1))] := by
  induction qs generalizing h with
  | nil => rfl
  | cons q qs ih =>
    obtain ⟨o, journal⟩ := q
    -- a caret changes the message alone, and the next answer does not depend on it
    have hstep : (h.step (.select (.caret o))).host.session =
        { h.session with message := h.session.index.messageAt o } := by
      rw [Host.step_select_session, if_pos hh, Session.observe_session]
      rfl
    have hh' : (h.step (.select (.caret o))).host.Hears .selection := by
      rw [Host.step_select_host]
      exact hh
    have hrest := ih hh' (by rw [hstep]; exact hs)
    rw [hstep] at hrest
    rw [inquire, List.flatMap_cons, ← hrest, ← answer_of_select hh hs]
    rfl

theorem coversRange_iff_touches {d : Document} {r : Record} {s : Span} (hs : d.span r = .ok s) {o : Nat} :
    s.coversRange o o = true ↔ r.Touches d o := by
  rw [span_eq_offsetAt hs]
  simp [Span.coversRange, Record.Touches]

theorem messageAt_eq_messageOf {x : Index} {d : Document} {records : List Record} (hx : x.Holds d records) (o : Nat) :
    x.messageAt o = messageOf d records o := by
  refine hx.messageFor_eq fun r s hs => ?_
  rw [Nat.min_self, Nat.max_self]
  exact Bool.eq_iff_iff.mpr ((coversRange_iff_touches hs).trans decide_eq_true_iff.symm)

theorem queries_offsets (a : Arguments) (d : Document) : (queries a d).map Prod.fst = offsets a d := by
  have hplace : ∀ p, (place d p).1 = if d.HasLine p.line then d.offsetAt (d.clamp p) else d.length := fun p => by
    unfold place
    split_ifs with h
    · rw [offset_clamp h]
    · cases ho : d.offset p with
      | ok o => exact absurd (offset_eq_ok_iff.mp ho).1 h
      | error e => rfl
  simp [queries, offsets, Function.comp_def, hplace]

/-- Of a session that hears the carets, and holds the records of a log, the report is the one about these records. -/
theorem report_eq_entries {a : Arguments} {d : Document} (hd : d.Lined) {h : Host} (hh : h.Hears .selection)
    (hs : h.session.settings = a.settings) {records : List Record} (hx : h.session.index.Holds d records) :
    Console.report d (.request h.session.regions :: (inquire a h (queries a d)).1) = entries a d records := by
  have hquery : ∀ q : Nat × Journal,
      [Console.Call.caret q.1, .request (shownFor a (h.session.index.messageAt q.1))].flatMap (Console.lines d) =
        queryEntries a d records q.1 := fun q => by
    rw [messageAt_eq_messageOf hx, List.flatMap_cons, List.flatMap_cons, lines_caret, lines_shownFor]
    rfl
  rw [Console.report, List.flatMap_cons, lines_regions hd hs hx, inquire_calls hh hs, List.flatMap_assoc, entries,
    ← queries_offsets, List.flatMap_map]
  simp only [hquery]

/-! ## Runs -/

/-- The report is about what the session holds after the load, and there is none if the load failed. -/
theorem inspect_result (a : Arguments) (text : String) (file : Log.File) :
    let h := ((Host.start a.settings text).step .attach).host
    let t := h.session.startBuild.session.loadAndObserve file text h.buffer.selection
    (inspect a text file).result =
      match t.result with
      | .error e => .error (.diagnostics e)
      | .ok _ =>
        .ok (Console.report (.ofText text)
          (.request t.session.regions :: (inquire a { h with session := t.session } (queries a (.ofText text))).1)) := by
  intro h t
  show (match t.result with
    | .error e => (⟨.error (.diagnostics e), _⟩ : Composition)
    | .ok _ =>
      ⟨.ok (Console.report (.ofText text)
        (.request t.session.regions :: (inquire a { h with session := t.session } (queries a (.ofText text))).1)),
        _⟩).result = _
  cases t.result <;> rfl

/-- A report that is composed is the one about the records in the log, and each of them has a span. -/
theorem inspect_eq_entries {a : Arguments} {text : String} {file : Log.File} {lines : List String}
    (succeeds : (inspect a text file).result = .ok lines) :
    ∃ records, file.records = .ok records ∧ (∀ r ∈ records, ∃ s, (ofText text).span r = .ok s) ∧
      lines = entries a (.ofText text) records := by
  let h := ((Host.start a.settings text).step .attach).host
  let t := h.session.startBuild.session.loadAndObserve file text h.buffer.selection
  have hears : Host.Hears { h with session := t.session } .selection := ⟨List.mem_singleton.mpr rfl, rfl⟩
  rw [inspect_result] at succeeds
  rcases h.session.startBuild.session.loadAndObserve_cases file text h.buffer.selection with
    ⟨records, x, hrecords, hx, hs, hr⟩ | ⟨e, -, hr⟩
  · have hi : t.session.index = x := congrArg Session.index hs
    have hx : t.session.index.Holds (.ofText text) records := hi ▸ hx
    rw [hr] at succeeds
    have hspans := ((List.forall₂_and_left _ _).mp (hx.spans.imp fun r s hs => ⟨Exists.intro s hs, hs⟩)).1
    refine ⟨records, hrecords, hspans, ?_⟩
    rw [← report_eq_entries (lined_ofText text) hears (congrArg Session.settings hs) hx]
    exact (Except.ok.inj succeeds).symm
  · rw [hr] at succeeds
    cases succeeds

theorem records_eq_ok_iff {file : Log.File} {records : List Record} :
    file.records = .ok records ↔
      (∃ log, file.content = .ok log ∧ Log.read log = .ok records) ∨
      (file.content = .error .notFound ∧ records = []) := by
  unfold Log.File.records
  cases file.content with
  | ok log => simp
  | error fault => cases fault <;> simp [eq_comm]

theorem compose_eq_ok {disk : Disk} {a : Arguments} {lines : List String}
    (succeeds : (compose disk a).result = .ok lines) :
    ∃ path text, Template.expand a.errorFile a.packages = .ok path ∧ disk a.document = .ok text ∧
      (inspect a text ⟨path, disk path⟩).result = .ok lines := by
  have hlog : a.settings.errorLog a.packages = (Template.expand a.errorFile a.packages).map some := rfl
  unfold compose at succeeds
  rw [hlog] at succeeds
  cases hpath : Template.expand a.errorFile a.packages with
  | error e => rw [hpath] at succeeds; cases succeeds
  | ok path =>
    rw [hpath] at succeeds
    cases htext : disk a.document with
    | error fault => rw [htext] at succeeds; cases succeeds
    | ok text =>
      rw [htext] at succeeds
      exact ⟨path, text, rfl, rfl, succeeds⟩

/-- A run succeeds exactly if its report is composed, and then the writer has taken the report. -/
theorem run_cases (disk : Disk) (a : Arguments) :
    (∃ lines, (compose disk a).result = .ok lines ∧
      run disk a none = ⟨bytes (Console.text lines), none, (compose disk a).journal⟩) ∨
    (∃ e, run disk a none = ⟨[], some e, (compose disk a).journal⟩) := by
  cases hc : (compose disk a).result with
  | error e => exact Or.inr ⟨e, by simp only [run, hc]⟩
  | ok lines =>
    refine Or.inl ⟨lines, rfl, ?_⟩
    have hwritten := putLines_of_room (s := {}) rfl lines
    simp [run, hc, hwritten]

/-- A run that succeeds writes the entries for the document and the records of its log, or for no records if
    there is no log. Each record begins and ends at offsets that the document has for these places, and so does
    a position asked for whose line is one of the document. -/
theorem run_output_eq_entries {disk : Disk} {a : Arguments} (succeeds : (run disk a none).error = none) :
    ∃ path text records, Template.expand a.errorFile a.packages = .ok path ∧ disk a.document = .ok text ∧
      ((∃ log, disk path = .ok log ∧ Log.read log = .ok records) ∨ (disk path = .error .notFound ∧ records = [])) ∧
      let d := Document.ofText text
      (run disk a none).output = bytes (Console.text (entries a d records)) ∧
      (∀ r ∈ records, d.offset r.opening = .ok (d.offsetAt r.opening) ∧
        d.offset (d.clamp r.stop) = .ok (d.offsetAt (d.clamp r.stop))) ∧
      ∀ p, d.HasLine p.line → d.offset p = .ok (d.offsetAt (d.clamp p)) := by
  rcases run_cases disk a with ⟨lines, hlines, hrun⟩ | ⟨e, hrun⟩
  · obtain ⟨path, text, hpath, htext, hinspect⟩ := compose_eq_ok hlines
    obtain ⟨records, hrecords, hspans, rfl⟩ := inspect_eq_entries hinspect
    refine ⟨path, text, records, hpath, htext, records_eq_ok_iff.mp hrecords, congrArg Run.output hrun,
      fun r hr => ?_, fun p => offset_clamp⟩
    obtain ⟨s, hs⟩ := hspans r hr
    obtain ⟨hstart, hstop, -⟩ := span_eq_ok_iff.mp hs
    refine ⟨offset_eq_ok_iff.mpr ⟨hstart, by simp [offsetAt, Record.opening]⟩, ?_⟩
    have hlast := offset_clamp (p := (ofText text).clamp r.stop) hstop
    rwa [clamp_clamp] at hlast
  · rw [hrun] at succeeds
    cases succeeds

def twoLines : Disk
  | "m.vpr" => .ok "ab\r\ncd"
  | "./errors.log" => .ok "m.vpr,1:3,1:9,far\nm.vpr,2:1,2:2,\n"
  | _ => .error .notFound

def pastTheEnd : Arguments where
  document := "m.vpr"
  errorFile := "$packages/errors.log"
  packages := "."
  offsets := [2, 99]
  positions := [⟨2, 1⟩, ⟨9, 1⟩]
  popup := false
  regionKey := "silicon-errors"
  scope := "output.error"
  icon := ""
  popupMaxWidth := 680
  logLevel := "warn"

/-- The first region ends before the line break, and the caret in the second has no message to show. -/
theorem run_output_pastTheEnd :
    (run twoLines pastTheEnd none).error = none ∧
      (run twoLines pastTheEnd none).output = bytes (Console.text
        ["regions silicon-errors: 2 (output.error)", "  1:1-1:3 [0..=2]", "  2:1-2:2 [4..=5]",
          "caret 1:3 (offset 2)", "  status silicon-errors: far", "caret 2:3 (offset 99)", "  status silicon-errors: -",
          "caret 2:1 (offset 4)", "  status silicon-errors: -", "caret 2:3 (offset 6)", "  status silicon-errors: -"]) := by
  have succeeds : (run twoLines pastTheEnd none).error = none := by decide +kernel
  obtain ⟨path, text, records, hpath, htext, hlog, houtput, -⟩ := run_output_eq_entries succeeds
  obtain rfl : path = "./errors.log" := Except.ok.inj (hpath.symm.trans (by decide +kernel))
  obtain rfl : text = "ab\r\ncd" := Except.ok.inj (htext.symm.trans (by decide +kernel))
  obtain rfl : records = [⟨"m.vpr", ⟨1, 3⟩, ⟨1, 9⟩, "far"⟩, ⟨"m.vpr", ⟨2, 1⟩, ⟨2, 2⟩, ""⟩] := by
    rcases hlog with ⟨log, hdisk, hread⟩ | ⟨hdisk, -⟩
    · cases hdisk
      exact Except.ok.inj (hread.symm.trans (by decide +kernel))
    · cases hdisk
  refine ⟨succeeds, houtput.trans (congrArg (fun lines => bytes (Console.text lines)) ?_)⟩
  decide +kernel

end CommandLine

end CursorDiagnostics
