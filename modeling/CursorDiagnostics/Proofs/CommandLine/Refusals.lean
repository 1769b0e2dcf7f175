/-
  CursorDiagnostics.Proofs.CommandLine.Refusals — a run has a whole report or none, and says why.

  A run is refused for the first of its faults, and the faults have an order: the template of the log's path, the
  document, the log, the first record without a place in the document (`Refuses`). Each constructor asks that the
  faults before it are not there, and says nothing of those after it or of the queries. A run that is refused
  has written nothing. Of any other the writer has taken as much of the report as it has room for, and the run
  fails exactly if that is not all (`run_refused_or_written`).
-/

import CursorDiagnostics.Proofs.CommandLine.Report
import CursorDiagnostics.Proofs.Host.Failures
import CursorDiagnostics.Proofs.Template.Reading

namespace CursorDiagnostics

namespace CommandLine

variable {disk : Disk} {a : Arguments} {path text : String} {records : List Record} {e : Failure}

/-! ## Logs -/

/-- The log at the path cannot be read, or does not read. A log that is not there is no fault. -/
def LogFault (disk : Disk) (path : String) (e : Failure) : Prop :=
  (∃ fault, disk path = .error fault ∧ fault ≠ .notFound ∧ e = .io fault) ∨
    ∃ log, disk path = .ok log ∧ Log.read log = .error e

def LogHolds (disk : Disk) (path : String) (records : List Record) : Prop :=
  (∃ log, disk path = .ok log ∧ Log.read log = .ok records) ∨ (disk path = .error .notFound ∧ records = [])

theorem logFault_iff : LogFault disk path e ↔ Log.File.records ⟨path, disk path⟩ = .error e := by
  unfold Log.File.records LogFault
  cases h : disk path with
  | ok log => simp
  | error fault => cases fault <;> simp [eq_comm]

theorem logHolds_iff : LogHolds disk path records ↔ Log.File.records ⟨path, disk path⟩ = .ok records := by
  rw [records_eq_ok_iff, LogHolds]

/-! ## The report -/

/-- A report on a document and a log fails exactly if the load does. -/
theorem inspect_error_iff {file : Log.File} {refusal : RunError} :
    (inspect a text file).result = .error refusal ↔ ∃ e, Fault file.records text e ∧ refusal = .diagnostics e := by
  let h := ((Host.start a.settings text).step .attach).host
  let t := h.session.startBuild.session.loadAndObserve file text h.buffer.selection
  have hfault : ∀ e, t.result = .error e ↔ Fault file.records text e := by
    intro e
    rw [← Session.load_eq_error_iff (s := h.session.startBuild.session)]
    exact iff_of_eq (congrArg (· = _) (Session.loadAndObserve_result _ _ _ _))
  simp only [← hfault]
  rw [inspect_result]
  cases ht : t.result with
  | error e =>
    constructor
    · intro hr
      cases hr
      exact ⟨e, rfl, rfl⟩
    · intro ⟨_, he, hr⟩
      cases he
      subst hr
      rfl
  | ok o =>
    constructor
    · intro hr
      cases hr
    · intro ⟨_, he, _⟩
      cases he

theorem compose_result (disk : Disk) (a : Arguments) :
    (compose disk a).result =
      match Template.expand a.errorFile a.packages, disk a.document with
      | .error e, _ => .error (.diagnostics e)
      | .ok _, .error fault => .error (.document a.document fault)
      | .ok path, .ok text => (inspect a text ⟨path, disk path⟩).result := by
  have hlog : a.settings.errorLog a.packages = (Template.expand a.errorFile a.packages).map some := rfl
  unfold compose
  rw [hlog]
  cases Template.expand a.errorFile a.packages with
  | error e => rfl
  | ok path => cases disk a.document <;> rfl

/-! ## Refusals -/

/-- Why a run has no report. A fault decides if those before it are not there. -/
inductive Refuses (disk : Disk) (a : Arguments) : RunError → Prop
  | template {name : String} :
    Template.expand a.errorFile a.packages = .error (.unknownPlaceholder name) →
    Refuses disk a (.diagnostics (.unknownPlaceholder name))
  | document {path : String} {fault : IoFault} :
    Template.expand a.errorFile a.packages = .ok path → disk a.document = .error fault →
    Refuses disk a (.document a.document fault)
  | log {path text : String} {e : Failure} :
    Template.expand a.errorFile a.packages = .ok path → disk a.document = .ok text → LogFault disk path e →
    Refuses disk a (.diagnostics e)
  | record {path text : String} {records : List Record} {e : Failure} :
    Template.expand a.errorFile a.packages = .ok path → disk a.document = .ok text → LogHolds disk path records →
    Index.FirstFault (.ofText text) records e →
    Refuses disk a (.diagnostics e)

theorem refuses_iff {refusal : RunError} : Refuses disk a refusal ↔ (compose disk a).result = .error refusal := by
  rw [compose_result]
  constructor
  · intro h
    cases h with
    | template hpath => rw [hpath]
    | document hpath htext => rw [hpath, htext]
    | log hpath htext hlog =>
      rw [logFault_iff] at hlog
      simp only [hpath, htext, inspect_error_iff]
      exact ⟨_, Or.inl hlog, rfl⟩
    | record hpath htext hlog hfault =>
      rw [logHolds_iff] at hlog
      simp only [hpath, htext, inspect_error_iff]
      exact ⟨_, Or.inr ⟨_, hlog, hfault⟩, rfl⟩
  · intro h
    cases hpath : Template.expand a.errorFile a.packages with
    | error e =>
      rw [hpath] at h
      cases h
      obtain ⟨n, -, rfl⟩ := Template.expand_error hpath
      exact .template hpath
    | ok path =>
      cases htext : disk a.document with
      | error fault =>
        rw [hpath, htext] at h
        cases h
        exact .document hpath htext
      | ok text =>
        simp only [hpath, htext, inspect_error_iff] at h
        obtain ⟨e, hlog | ⟨records, hlog, hfault⟩, rfl⟩ := h
        · rw [← logFault_iff] at hlog
          exact .log hpath htext hlog
        · rw [← logHolds_iff] at hlog
          exact .record hpath htext hlog hfault

/-! ## Runs -/

theorem run_of_refused {refusal : RunError} (h : Refuses disk a refusal) (room : Option Nat) :
    (run disk a room).output = [] ∧ (run disk a room).error = some refusal := by
  rw [refuses_iff] at h
  simp only [run, h, and_self]

/-- Of a report the writer takes as much as it has room for. -/
theorem run_of_report {lines : List String} (h : (compose disk a).result = .ok lines) :
    (run disk a none).output = bytes (Console.text lines) ∧ (run disk a none).error = none ∧
    ∀ n, (run disk a (some n)).output = (bytes (Console.text lines)).take n ∧
      (run disk a (some n)).error =
        if n < (bytes (Console.text lines)).length then some (.output Sink.full) else none := by
  have hall := putLines_of_room (s := {}) rfl lines
  refine ⟨by simp [run, h, hall], by simp [run, h, hall], fun n => ?_⟩
  obtain ⟨htaken, hfault⟩ := putLines_of_limit (s := ⟨#[], some n⟩) rfl lines
  constructor
  · simp [run, h, htaken]
  · simp only [run, h, hfault]
    split <;> rfl

theorem error_eq_some_iff {refusal : RunError} : (run disk a none).error = some refusal ↔ Refuses disk a refusal := by
  cases hc : (compose disk a).result with
  | error e =>
    have h : Refuses disk a e := by rw [refuses_iff, hc]
    rw [(run_of_refused h none).2, refuses_iff, hc, Option.some.injEq, Except.error.injEq]
  | ok lines =>
    rw [(run_of_report hc).2.1, refuses_iff, hc]
    simp

/-- What is asked for is not what a run is refused for. -/
theorem Refuses.asked {refusal : RunError} (h : Refuses disk a refusal) (offsets : List Nat) (positions : List Position) :
    Refuses disk { a with offsets := offsets, positions := positions } refusal := by
  cases h with
  | template hpath => exact .template hpath
  | document hpath htext => exact .document (a := { a with offsets := offsets, positions := positions }) hpath htext
  | log hpath htext hlog => exact .log hpath htext hlog
  | record hpath htext hlog hfault => exact .record hpath htext hlog hfault

/-- A run that is refused fails for that reason and writes nothing, whatever room the writer has. Any other has a
    report, of which a writer with room for everything takes it all, and one with room for `n` bytes the first
    `n`, with a fault exactly if that is not all. The same run with other offsets and positions to look up fails
    alike. -/
theorem run_refused_or_written (disk : Disk) (a : Arguments) :
    (∀ refusal, Refuses disk a refusal → ∀ room,
      (run disk a room).error = some refusal ∧ (run disk a room).output = []) ∧
    ((∀ refusal, ¬ Refuses disk a refusal) →
      let full := (run disk a none).output
      (run disk a none).error = none ∧
      ∀ n, (run disk a (some n)).output = full.take (min n full.length) ∧
        (run disk a (some n)).error = if n < full.length then some (.output Sink.full) else none) ∧
    ∀ offsets positions,
      (run disk { a with offsets := offsets, positions := positions } none).error = (run disk a none).error := by
  refine ⟨fun refusal h room => ?_, fun h => ?_, fun offsets positions => ?_⟩
  · obtain ⟨houtput, herror⟩ := run_of_refused h room
    exact ⟨herror, houtput⟩
  · cases hc : (compose disk a).result with
    | error refusal =>
      rw [← refuses_iff] at hc
      exact absurd hc (h refusal)
    | ok lines =>
      obtain ⟨hfull, hnone, hlimit⟩ := run_of_report hc
      intro full
      have hfull : full = bytes (Console.text lines) := hfull
      refine ⟨hnone, fun n => ?_⟩
      rw [hfull, ← List.take_eq_take_min]
      exact hlimit n
  · refine Option.ext fun refusal => ?_
    rw [error_eq_some_iff, error_eq_some_iff]
    exact ⟨fun h => h.asked a.offsets a.positions, fun h => h.asked offsets positions⟩

def nothingThere : Arguments := { pastTheEnd with errorFile := "$home/errors.log", document := "none.vpr" }

/-- The template decides though the document is missing too. Of the report on two lines a writer with room for 161 bytes
    takes these, up to the middle of the entry for the second offset, and the two queries past the end are no
    fault. -/
theorem run_cutShort :
    Refuses twoLines nothingThere (.diagnostics (.unknownPlaceholder "home")) ∧
      (run twoLines nothingThere none).error = some (.diagnostics (.unknownPlaceholder "home")) ∧
      (∀ refusal, ¬ Refuses twoLines pastTheEnd refusal) ∧
      (run twoLines pastTheEnd (some 161)).error = some (.output Sink.full) ∧
      (run twoLines pastTheEnd (some 161)).output = bytes
        ("regions silicon-errors: 2 (output.error)\n  1:1-1:3 [0..=2]\n  2:1-2:2 [4..=5]\n" ++
          "caret 1:3 (offset 2)\n  status silicon-errors: far\ncaret 2:3 (offset 99)\n  status sil") ∧
      (run twoLines { pastTheEnd with offsets := [18446744073709551615], positions := [⟨9, 1⟩] } none).error = none := by
  have hrefused : Refuses twoLines nothingThere (.diagnostics (.unknownPlaceholder "home")) :=
    .template (by decide +kernel)
  have hnone : (run twoLines pastTheEnd none).error = none := by decide +kernel
  obtain ⟨-, written, asked⟩ := run_refused_or_written twoLines pastTheEnd
  have hallowed : ∀ refusal, ¬ Refuses twoLines pastTheEnd refusal := by
    intro refusal h
    rw [← error_eq_some_iff, hnone] at h
    cases h
  obtain ⟨-, limited⟩ := written hallowed
  obtain ⟨houtput, herror⟩ := limited 161
  refine ⟨hrefused, ((run_refused_or_written twoLines nothingThere).1 _ hrefused none).1, hallowed, ?_, ?_, ?_⟩
  · rw [herror]
    decide +kernel
  · rw [houtput]
    decide +kernel
  · rw [asked, hnone]

end CommandLine

end CursorDiagnostics
