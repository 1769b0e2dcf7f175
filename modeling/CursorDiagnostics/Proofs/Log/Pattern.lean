/-
  CursorDiagnostics.Proofs.Log.Pattern — a line of a log as the match of one pattern.

  The pattern is the whole line: a file as short as it can be, the coordinates, a message. Where the file ends there is
  one way to match what stands behind it, or none (`oneWay_ofCoordinates`). So the match that is preferred has the
  first block of the line (`groups_find?`), and the record is made of its groups (`readLine_eq_readMatch`).
-/

import CursorDiagnostics.Proofs.Log.Grammar
import CursorDiagnostics.Proofs.Text.Pattern

namespace CursorDiagnostics.Log

open Text (Pattern Match Groups)

def isInLine (c : Char) : Bool := c != '\n'

def field (sep : Char) (number : Nat) (b : Pattern) : Pattern :=
  .seq (.lit sep) (.seq (.group number (.run Char.isDigit Char.isDigit)) b)

def ofMessage : Pattern := .seq (.lit ',') (.seq (.group 6 (.many true isInLine)) .ending)

def ofCoordinates : Pattern := field ',' 2 (field ':' 3 (field ',' 4 (field ':' 5 ofMessage)))

/-- As an expression, `^(.*?),([0-9]+):([0-9]+),([0-9]+):([0-9]+),(.*)$`. -/
def linePattern : Pattern := .seq .beginning (.seq (.group 1 (.many false isInLine)) ofCoordinates)

/-- Every match has the groups (`groups_find?`). -/
def readMatch (line : Nat) (m : Match) : Except Failure Record := do
  let text := fun number => (m.group? number).getD []
  let startLine ← coordinate line (text 2)
  let startColumn ← coordinate line (text 3)
  let stopLine ← coordinate line (text 4)
  let stopColumn ← coordinate line (text 5)
  return ⟨String.ofList (text 1), ⟨startLine, startColumn⟩, ⟨stopLine, stopColumn⟩, String.ofList (text 6)⟩

/-! ## Behind the file -/

variable {cs : List Char} {b : Pattern} {g : List Char → Option Groups}

/-- There is one way at most, whose groups `g` has from the text. -/
def OneWay (b : Pattern) (g : List Char → Option Groups) : Prop :=
  ∀ n cs, (b.ways ⟨n, cs⟩).map Prod.snd = (g cs).toList

def messageGroups : List Char → Option Groups
  | ',' :: message => if '\n' ∈ message then none else some [(6, message)]
  | _ => none

def fieldGroups (sep : Char) (number : Nat) (g : List Char → Option Groups) (cs : List Char) : Option Groups :=
  (digitsAfter sep cs).bind fun r => (g r.2).map fun groups => (number, r.1) :: groups

def Block.groups (b : Block) : Groups :=
  [(2, b.startLine), (3, b.startColumn), (4, b.stopLine), (5, b.stopColumn), (6, b.message)]

theorem all_isInLine_iff : cs.all isInLine = true ↔ '\n' ∉ cs := by
  simp only [List.all_eq_true, isInLine, bne_iff_ne]
  exact ⟨fun h hn => h _ hn rfl, fun h c hc he => h (he ▸ hc)⟩

theorem oneWay_ofMessage : OneWay ofMessage messageGroups := by
  intro n cs
  cases cs with
  | nil => rfl
  | cons c message =>
    rw [ofMessage, Pattern.ways_lit_seq, Pattern.ways_group_many_ending]
    simp only [all_isInLine_iff]
    by_cases hc : c = ','
    · subst hc
      by_cases hn : '\n' ∈ message <;> simp [messageGroups, hn]
    · simp [messageGroups, hc]

theorem leading_isDigit (cs : List Char) :
    Pattern.leading Char.isDigit Char.isDigit cs = cs.takeWhile Char.isDigit := by
  cases cs with
  | nil => rfl
  | cons c cs => rw [Pattern.leading, List.takeWhile_cons]

/-- What stands behind a numeral and begins with no digit takes none from it. -/
theorem oneWay_field (hb : OneWay b g) (h : ∀ n c cs, c.isDigit = true → b.ways ⟨n, c :: cs⟩ = []) (sep : Char)
    (number : Nat) : OneWay (field sep number b) (fieldGroups sep number g) := by
  intro n cs
  cases cs with
  | nil => rfl
  | cons c cs =>
    rw [field, Pattern.ways_lit_seq]
    by_cases hc : c = sep
    · have hlead := leading_isDigit cs
      by_cases hd : cs.takeWhile Char.isDigit = []
      · rw [if_pos hc, Pattern.ways, Pattern.ways_group_run_of_leading (hlead.trans hd)]
        simp [fieldGroups, digitsAfter, hd]
      · rw [if_pos hc, Pattern.ways_group_run_seq h number (n + 1) (hlead ▸ hd), hlead,
          Text.Pattern.drop_length_takeWhile]
        have hways := hb (n + 1 + (cs.takeWhile Char.isDigit).length) (cs.dropWhile Char.isDigit)
        have hread : digitsAfter sep (c :: cs) = some (cs.takeWhile Char.isDigit, cs.dropWhile Char.isDigit) :=
          if_pos ⟨hc, hd⟩
        simp only [fieldGroups, hread, Option.bind_some, Option.toList_map, ← hways, List.map_map]
        rfl
    · simp [fieldGroups, digitsAfter, hc]

theorem ways_lit_seq_of_isDigit {sep : Char} (hsep : sep.isDigit = false) (n : Nat) {c : Char}
    (hc : c.isDigit = true) (cs : List Char) : (Pattern.seq (.lit sep) b).ways ⟨n, c :: cs⟩ = [] := by
  apply Pattern.ways_lit_seq_of_ne
  intro h
  cases h
  rw [hsep] at hc
  cases hc

theorem blockGroups_eq (cs : List Char) :
    fieldGroups ',' 2 (fieldGroups ':' 3 (fieldGroups ',' 4 (fieldGroups ':' 5 messageGroups))) cs =
      (block cs).bind fun b => if '\n' ∈ b.message then none else some b.groups := by
  simp only [fieldGroups, block, Option.bind_eq_bind, Option.bind_assoc, Option.map_bind, Function.comp_def]
  refine Option.bind_congr fun r₂ _ => Option.bind_congr fun r₃ _ => Option.bind_congr fun r₄ _ =>
    Option.bind_congr fun r₅ _ => ?_
  obtain ⟨column, rest⟩ := r₅
  cases rest with
  | nil => rfl
  | cons c message =>
    by_cases hc : c = ','
    · subst hc
      by_cases hn : '\n' ∈ message <;> simp [messageGroups, Block.groups, hn]
    · simp [messageGroups, hc]

/-- Behind the file there is one way at most: numerals do not give digits back, and the message is the rest. -/
theorem oneWay_ofCoordinates :
    OneWay ofCoordinates fun cs => (block cs).bind fun b => if '\n' ∈ b.message then none else some b.groups := by
  have h₅ := oneWay_field oneWay_ofMessage (fun n _ cs hc => ways_lit_seq_of_isDigit (by decide) n hc cs) ':' 5
  have h₄ := oneWay_field h₅ (fun n _ cs hc => ways_lit_seq_of_isDigit (by decide) n hc cs) ',' 4
  have h₃ := oneWay_field h₄ (fun n _ cs hc => ways_lit_seq_of_isDigit (by decide) n hc cs) ':' 3
  have h₂ := oneWay_field h₃ (fun n _ cs hc => ways_lit_seq_of_isDigit (by decide) n hc cs) ',' 2
  intro n cs
  rw [ofCoordinates, h₂ n cs, blockGroups_eq]

/-- A message with a line feed in it is not matched, and the numerals have none. -/
theorem groups_ofCoordinates (n : Nat) (cs : List Char) :
    (ofCoordinates.ways ⟨n, cs⟩).map Prod.snd = if '\n' ∈ cs then [] else ((block cs).map Block.groups).toList := by
  simp only [oneWay_ofCoordinates n cs]
  cases hb : block cs with
  | none => simp
  | some b =>
    obtain ⟨hnum, rfl⟩ := block_eq_some_iff.mp hb
    have hfeed : '\n' ∈ [] ++ b.chars ↔ '\n' ∈ [] ∨ '\n' ∈ b.message := feed_mem_iff hnum
    simp only [List.nil_append, List.not_mem_nil, false_or] at hfeed
    simp only [Option.bind_some, Option.map_some, hfeed]
    split <;> rfl

/-! ## The line -/

/-- The file grows until coordinates stand behind it. Here it is `file` already. -/
theorem head?_stops (file cs : List Char) :
    ((Text.stops isInLine file.length cs).flatMap fun y => ((ofCoordinates.ways y).map Prod.snd).map fun groups =>
      (1, (file ++ cs).take y.offset) :: groups).head? =
      (if '\n' ∈ cs then none else split cs).map fun s => (1, file ++ s.1) :: s.2.groups := by
  induction cs generalizing file with
  | nil => rfl
  | cons c cs ih =>
    rw [Text.stops, List.flatMap_cons, List.head?_append, groups_ofCoordinates, List.take_left]
    by_cases hc : c = '\n'
    · simp [hc, isInLine]
    · -- Without a block here the file takes `c` too.
      have hgo := ih (file ++ [c])
      have hline : isInLine c = true := by simpa [isInLine] using hc
      have hmem : '\n' ∈ c :: cs ↔ '\n' ∈ cs := by simp [Ne.symm hc]
      simp only [List.append_assoc, List.singleton_append, List.length_append, List.length_singleton] at hgo
      rw [if_pos hline, hgo]
      simp only [hmem, split]
      by_cases hn : '\n' ∈ cs
      · simp [hn]
      · cases hb : block (c :: cs) with
        | some b => simp [hn]
        | none => simp [hn, Function.comp_def]

theorem groups_find? (content : List Char) :
    (linePattern.find? 0 content).map Match.groups =
      (if '\n' ∈ content then none else split content).map fun s => (1, s.1) :: s.2.groups := by
  have hways : ((Pattern.seq (.group 1 (.many false isInLine)) ofCoordinates).ways ⟨0, content⟩).map Prod.snd =
      (Text.stops isInLine 0 content).flatMap fun y => ((ofCoordinates.ways y).map Prod.snd).map fun groups =>
        (1, content.take y.offset) :: groups := by
    simp [Pattern.ways, List.map_flatMap, List.flatMap_map, Function.comp_def]
  have hgo := head?_stops [] content
  simp only [List.nil_append, List.length_nil] at hgo
  rw [linePattern, Pattern.find?_seq_beginning, Pattern.matchAt?, Option.map_map, ← hgo, ← hways, List.head?_map]
  rfl

/-- The record of a line is made of the groups of its match. -/
theorem readLine_eq_readMatch (line : Nat) (content : List Char) :
    readLine line content =
      match linePattern.find? 0 content with
      | some m => readMatch line m
      | none => .error (.malformedLine line (String.ofList content)) := by
  have h := groups_find? content
  rw [readLine]
  cases hs : (if '\n' ∈ content then none else split content) with
  | none =>
    rw [hs, Option.map_none, Option.map_eq_none_iff] at h
    rw [h]
  | some s =>
    rw [hs, Option.map_some, Option.map_eq_some_iff] at h
    obtain ⟨m, hm, hgroups⟩ := h
    simp only [hm, readMatch, Match.group?, hgroups]
    rfl

end CursorDiagnostics.Log
