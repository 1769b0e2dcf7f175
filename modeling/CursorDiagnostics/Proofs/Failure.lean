/-
  CursorDiagnostics.Proofs.Failure — the text of a failure says which failure it is, and stays on one line.

  The text begins with a letter that no other kind of failure begins with, and each number in it ends before a
  character that is no digit. The content of a malformed line is quoted, and what is repeated without quotes stands
  between fixed texts, so the fields can be read off the text too:
  - `eq_of_message_eq`: a failure that is no fault of a file shares its text with no other failure.
  - `Arises.worded`: what is repeated without quotes is made of letters, digits and underscores, so the text is on
    one line (`Worded.oneLine`).
  - `message_identifies`: a subscriber who is told why a load failed can tell which failure it was.
-/

import CursorDiagnostics.Proofs.Host.Failures
import CursorDiagnostics.Proofs.Log.FirstCut
import CursorDiagnostics.Proofs.Template.Reading
import CursorDiagnostics.Proofs.Text.Quoted

namespace CursorDiagnostics

open Text (OneLine BreaksLine quoteChars oneLine_append not_breaksLine)
open Text.Decimal (digits value_digits)

/-! ## Numbers in a text -/

namespace Text.Decimal

variable {m n : Nat} {sep u v : List Char}

theorem digits_injective : Function.Injective digits := Function.LeftInverse.injective value_digits

/-- A number is read off a text if what stands after it does not begin with a digit. -/
theorem digits_append_inj (hsep : sep.head?.map Char.isDigit = some false)
    (h : digits m ++ (sep ++ u) = digits n ++ (sep ++ v)) : m = n ∧ u = v := by
  obtain ⟨c, hc, hdigit⟩ := Option.map_eq_some_iff.mp hsep
  have hstop : ∀ w, ∀ d ∈ (sep ++ w).head?, d.isDigit = false := by
    intro w d hd
    rw [List.head?_append, hc] at hd
    cases hd
    exact hdigit
  obtain ⟨hmn, hrest⟩ := run_append_inj (Log.isNumeral_digits m).2 (hstop u) (Log.isNumeral_digits n).2 (hstop v) h
  exact ⟨digits_injective hmn, List.append_cancel_left hrest⟩

theorem append_digits_inj (hsep : sep.getLast?.map Char.isDigit = some false)
    (h : u ++ (sep ++ digits m) = v ++ (sep ++ digits n)) : u = v ∧ m = n := by
  obtain ⟨c, hc, hdigit⟩ := Option.map_eq_some_iff.mp hsep
  have hstop : ∀ w, ∀ d ∈ (w ++ sep).getLast?, d.isDigit = false := by
    intro w d hd
    rw [List.getLast?_append, hc] at hd
    cases hd
    exact hdigit
  rw [← List.append_assoc, ← List.append_assoc] at h
  obtain ⟨hfront, hmn⟩ := append_run_inj (Log.isNumeral_digits m).2 (hstop u) (Log.isNumeral_digits n).2 (hstop v) h
  exact ⟨List.append_cancel_right hfront, digits_injective hmn⟩

end Text.Decimal

namespace Failure

open Text.Decimal (digits_injective digits_append_inj append_digits_inj)

variable {f g : Failure}

/-! ## The fields of a text -/

theorem toList_message (f : Failure) :
    f.message.toList =
      match f with
      | io fault => "I/O error: ".toList ++ fault.message.toList
      | malformedLine line content =>
        "malformed diagnostic on line ".toList ++ (digits line ++ (": ".toList ++ quoteChars content.toList))
      | invalidNumber line ds => "invalid coordinate '".toList ++ (ds.toList ++ ("' on line ".toList ++ digits line))
      | outOfRange line lineCount =>
        "line ".toList ++ (digits line ++ (" is outside the document (1..=".toList ++ (digits lineCount ++ ")".toList)))
      | invertedSpan startLine stopLine =>
        "diagnostic ends on line ".toList ++
          (digits stopLine ++ (" before it starts on line ".toList ++ digits startLine))
      | unknownPlaceholder name =>
        "unknown placeholder '$".toList ++ (name.toList ++ "' in error file template".toList) := by
  unfold message
  cases f with
  | io fault => exact String.toList_append
  | malformedLine line content =>
    simp only [Text.quote, Nat.toString_eq_ofList_toDigits, String.toList_append, String.toList_ofList, List.append_assoc]
    rfl
  | unknownPlaceholder name => simp only [String.toList_append, List.append_assoc]
  | _ =>
    simp only [Nat.toString_eq_ofList_toDigits, String.toList_append, String.toList_ofList, List.append_assoc]
    rfl

def initial : Failure → Char
  | io _ => 'I'
  | malformedLine .. => 'm'
  | invalidNumber .. => 'i'
  | outOfRange .. => 'l'
  | invertedSpan .. => 'd'
  | unknownPlaceholder _ => 'u'

theorem head?_message (f : Failure) : f.message.toList.head? = some f.initial := by
  rw [toList_message]
  cases f with
  | _ => rfl

/-- The first letter is that of the kind, and of one kind the fields are read off from the left, but the number at the
    end of a text from the right. -/
theorem eq_of_message_eq (hf : ∀ fault, f ≠ io fault) (h : g.message = f.message) : g = f := by
  have hinitial : g.initial = f.initial := by
    have hhead := congrArg (fun text => text.toList.head?) h
    simp only [head?_message] at hhead
    exact Option.some.inj hhead
  have hchars := congrArg String.toList h
  rw [toList_message, toList_message] at hchars
  cases f with
  | io fault => exact absurd rfl (hf fault)
  | malformedLine line content =>
    cases g with
    | malformedLine line' content' =>
      obtain ⟨rfl, hquoted⟩ := digits_append_inj rfl (List.append_cancel_left hchars)
      obtain rfl := String.toList_injective (Text.quoteChars_injective hquoted)
      rfl
    | _ => simp [initial] at hinitial
  | invalidNumber line ds =>
    cases g with
    | invalidNumber line' ds' =>
      -- The digits of the failure need not be digits here, so the line is read off first.
      obtain ⟨hds, rfl⟩ := append_digits_inj rfl (List.append_cancel_left hchars)
      obtain rfl := String.toList_injective hds
      rfl
    | _ => simp [initial] at hinitial
  | outOfRange line lineCount =>
    cases g with
    | outOfRange line' lineCount' =>
      obtain ⟨rfl, hrest⟩ := digits_append_inj rfl (List.append_cancel_left hchars)
      obtain rfl := digits_injective (List.append_cancel_right hrest)
      rfl
    | _ => simp [initial] at hinitial
  | invertedSpan startLine stopLine =>
    cases g with
    | invertedSpan startLine' stopLine' =>
      obtain ⟨rfl, hstart⟩ := digits_append_inj rfl (List.append_cancel_left hchars)
      obtain rfl := digits_injective hstart
      rfl
    | _ => simp [initial] at hinitial
  | unknownPlaceholder name =>
    cases g with
    | unknownPlaceholder name' =>
      obtain rfl := String.toList_injective (List.append_cancel_right (List.append_cancel_left hchars))
      rfl
    | _ => simp [initial] at hinitial

/-! ## One line -/

/-- What the failure repeats without quotes is a run of digits or a name, and it is no fault of a file. -/
def Worded : Failure → Prop
  | io _ => False
  | malformedLine .. | outOfRange .. | invertedSpan .. => True
  | invalidNumber _ ds => ∀ c ∈ ds.toList, Template.Inner c
  | unknownPlaceholder name => ∀ c ∈ name.toList, Template.Inner c

theorem not_breaksLine_of_inner {c : Char} (h : Template.Inner c) : ¬ BreaksLine c := by
  rcases h with (rfl | ⟨hlo, hhi⟩ | ⟨hlo, hhi⟩) | ⟨hlo, hhi⟩
  · decide
  · exact not_breaksLine (Char.le_trans (by decide) hlo) (Char.le_trans hhi (by decide))
  · exact not_breaksLine (Char.le_trans (by decide) hlo) (Char.le_trans hhi (by decide))
  · exact not_breaksLine (Char.le_trans (by decide) hlo) (Char.le_trans hhi (by decide))

theorem oneLine_digits (n : Nat) : OneLine (digits n) := fun c hc =>
  not_breaksLine_of_inner (Template.inner_of_isDigit ((Log.isNumeral_digits n).2 c hc))

theorem Worded.oneLine (h : f.Worded) : OneLine f.message.toList := by
  rw [toList_message]
  cases f with
  | io fault => exact h.elim
  | malformedLine line content =>
    simp only [oneLine_append]
    exact ⟨by decide, oneLine_digits line, by decide, Text.oneLine_quoteChars _⟩
  | invalidNumber line ds =>
    simp only [oneLine_append]
    exact ⟨by decide, fun c hc => not_breaksLine_of_inner (h c hc), by decide, oneLine_digits line⟩
  | outOfRange line lineCount =>
    simp only [oneLine_append]
    exact ⟨by decide, oneLine_digits line, by decide, oneLine_digits lineCount, by decide⟩
  | invertedSpan startLine stopLine =>
    simp only [oneLine_append]
    exact ⟨by decide, oneLine_digits stopLine, by decide, oneLine_digits startLine⟩
  | unknownPlaceholder name =>
    simp only [oneLine_append]
    exact ⟨by decide, fun c hc => not_breaksLine_of_inner (h c hc), by decide⟩

/-! ## The failures that there are -/

/-- The failure is one of reading a log or a line of it, of placing a record in a document or of expanding a
    template. -/
inductive Arises : Failure → Prop
  | log {log : String} {e : Failure} : Log.read log = .error e → Arises e
  | line {number : Nat} {content : List Char} {e : Failure} : Log.readLine number content = .error e → Arises e
  | record {d : Document} {r : Record} {e : Failure} : d.span r = .error e → Arises e
  | template {template packages : String} {e : Failure} : Template.expand template packages = .error e → Arises e

theorem worded_of_readLine {number : Nat} {content : List Char} (h : Log.readLine number content = .error f) :
    f.Worded := by
  rcases Log.readLine_error h with rfl | ⟨ds, hds, rfl⟩
  · trivial
  · intro c hc
    rw [String.toList_ofList] at hc
    exact Template.inner_of_isDigit (hds.2 c hc)

theorem Arises.worded (h : Arises f) : f.Worded := by
  cases h with
  | log hread =>
    obtain ⟨before, ⟨number, content⟩, after, -, -, hline⟩ := mapM_eq_error_iff.mp hread
    exact worded_of_readLine hline
  | line hline => exact worded_of_readLine hline
  | record hspan =>
    cases Document.span_eq_error_iff.mp hspan with
    | _ => trivial
  | template hexpand =>
    obtain ⟨n, hn, rfl⟩ := Template.expand_error hexpand
    intro c hc
    rw [String.toList_ofList] at hc
    rcases hn with rfl | hn
    · exact absurd hc List.not_mem_nil
    · exact hn.inner c hc

theorem Worded.ne_io (h : f.Worded) (fault : IoFault) : f ≠ io fault := by
  rintro rfl
  exact h

theorem Arises.message_eq_iff (h : Arises f) : f.message = g.message ↔ f = g := by
  constructor
  · intro hm
    exact (eq_of_message_eq h.worded.ne_io hm.symm).symm
  · intro hfg
    rw [hfg]

/-! ## What subscribers are told -/

theorem arises_of_fault {records : Except Failure (List Record)} {text : String}
    (hrecords : ∀ e, records = .error e → Arises e) (h : Fault records text f) : Arises f := by
  rcases h with h | ⟨rs, -, good, r, rest, -, -, hspan⟩
  · exact hrecords f h
  · exact .record hspan

/-- Only a load that fails is told as one, and in the words of its failure. -/
theorem fault_of_loadFailed {s : Session} {t : Ticket} {records : Except Failure (List Record)} {text reason : String}
    {n : Nat} (h : ⟨.loadFailed reason, n⟩ ∈ (s.closeLoad t records text).events) :
    ∃ e, Fault records text e ∧ (s.closeLoad t records text).result = .error e ∧ reason = e.message := by
  rcases s.closeLoad_cases t records text with ⟨-, hc⟩ | ⟨-, _, _, -, -, hc⟩ | ⟨-, e, he, hc⟩
  · rw [hc] at h
    cases h
  · rw [hc] at h
    cases List.mem_singleton.mp h
  · rw [hc] at h ⊢
    cases List.mem_singleton.mp h
    exact ⟨e, fault_iff.mp he, rfl, rfl⟩

/-- The text of a failure that a log, a line of one, a record or a template can have is on one line, and no other
    failure has it. When subscribers are told that a load failed, what they are told is such a text: it is on one
    line, and the load has failed for that failure which has the text. -/
theorem message_identifies :
    (∀ f, Arises f → OneLine f.message.toList) ∧
    (∀ f g, Arises f → (f.message = g.message ↔ f = g)) ∧
    ∀ (s : Session) (t : Ticket) (records : Except Failure (List Record)) (text : String),
      (∀ e, records = .error e → Arises e) →
      ∀ reason n, ⟨.loadFailed reason, n⟩ ∈ (s.closeLoad t records text).events →
        OneLine reason.toList ∧ ∀ f, (s.closeLoad t records text).result = .error f ↔ f.message = reason := by
  refine ⟨fun f hf => hf.worded.oneLine, fun f g hf => hf.message_eq_iff, ?_⟩
  intro s t records text hrecords reason n htold
  obtain ⟨e, hfault, hresult, rfl⟩ := fault_of_loadFailed htold
  have harises : Arises e := arises_of_fault hrecords hfault
  refine ⟨harises.worded.oneLine, fun f => ?_⟩
  rw [hresult, Except.error.injEq, eq_comm (a := f.message)]
  exact harises.message_eq_iff.symm

/-- A line with a tab and a line separator is told apart from one that has their escapes written out, and the
    subscribers of a load can tell from what they are told which line did not read. -/
theorem message_identifies_escapes :
    let raw := malformedLine 7 "\t\u2028"
    let written := malformedLine 7 "\\t\\u\x7b2028\x7d"
    let s : Session := ({ settings := {} } : Session).openLoad.session
    let told := "malformed diagnostic on line 2: \"\\\\ \\\"?\\t!\""
    Arises raw ∧ Arises written ∧ raw.message ≠ written.message ∧ OneLine raw.message.toList ∧
      ⟨.loadFailed told, 1⟩ ∈ (s.closeLoad ⟨1⟩ (Log.read "\n \\ \"?\t!\r\n") "").events ∧
      (s.closeLoad ⟨1⟩ (Log.read "\n \\ \"?\t!\r\n") "").result = .error (malformedLine 2 "\\ \"?\t!") := by
  intro raw written s told
  have hraw : Log.readLine 7 "\t\u2028".toList = .error raw := by decide +kernel
  have hwritten : Log.readLine 7 "\\t\\u\x7b2028\x7d".toList = .error written := by decide +kernel
  have htold : ⟨.loadFailed told, 1⟩ ∈ (s.closeLoad ⟨1⟩ (Log.read "\n \\ \"?\t!\r\n") "").events := by
    decide +kernel
  obtain ⟨oneLine, identifies, subscribers⟩ := message_identifies
  have hresult := (subscribers s ⟨1⟩ _ "" (fun e he => .log he) told 1 htold).2
  refine ⟨.line hraw, .line hwritten, fun h => ?_, oneLine raw (.line hraw), htold, (hresult _).mpr (by decide +kernel)⟩
  exact absurd ((identifies raw written (.line hraw)).mp h) (by decide)

end Failure

end CursorDiagnostics
