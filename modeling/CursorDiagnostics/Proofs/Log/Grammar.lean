/-
  CursorDiagnostics.Proofs.Log.Grammar — the ways to cut a line, and the one that the reader takes.

  A cut of a line is a file and a block of coordinates after it that give the line back. The message may
  hold coordinates of its own, so a line may have several cuts:
  - `block_eq_some_iff`: the block at the beginning of a text is the one that it is written with.
  - `split_eq_some_iff`: the reader takes the cut with the shortest file.
  - `split_append_iff`: so a file is read back exactly if it is plain: it has no block in it, and does not
    end in a place that the block after it would complete.
-/

import CursorDiagnostics.Log.Reader
import CursorDiagnostics.Proofs.Text.Runs

namespace CursorDiagnostics.Log

def IsNumeral (ds : List Char) : Prop := ds ≠ [] ∧ ∀ c ∈ ds, c.isDigit = true

theorem isNumeral_digits (n : Nat) : IsNumeral (Text.Decimal.digits n) :=
  ⟨Nat.toDigits_ne_nil, fun _ hc => Nat.isDigit_of_mem_toDigits (b := 10) (by decide) (by decide) hc⟩

def Block.chars (b : Block) : List Char :=
  ',' :: (b.startLine ++ ':' :: (b.startColumn ++ ',' :: (b.stopLine ++ ':' :: (b.stopColumn ++ ',' :: b.message))))

structure Block.Numeric (b : Block) : Prop where
  startLine : IsNumeral b.startLine
  startColumn : IsNumeral b.startColumn
  stopLine : IsNumeral b.stopLine
  stopColumn : IsNumeral b.stopColumn

def IsCut (line file : List Char) (b : Block) : Prop := b.Numeric ∧ line = file ++ b.chars

/-- The text has no block in it, and does not end in `,d:d`. -/
structure Plain (file : List Char) : Prop where
  within : ∀ u b, ¬ IsCut file u b
  ending : ∀ u l c, IsNumeral l → IsNumeral c → file ≠ u ++ ',' :: (l ++ ':' :: c)

/-! ## The block at the beginning of a text -/

variable {sep : Char} {cs ds rest file : List Char} {b : Block}

theorem digitsAfter_append (h : IsNumeral ds) {c : Char} (hc : c.isDigit = false) (rest : List Char) :
    digitsAfter sep (sep :: (ds ++ c :: rest)) = some (ds, c :: rest) := by
  have hstop : ∀ d ∈ (c :: rest).head?, d.isDigit = false := fun d hd => by
    cases hd
    exact hc
  rw [digitsAfter, Text.takeWhile_run h.2 hstop, Text.dropWhile_run h.2 hstop, if_pos ⟨rfl, h.1⟩]

theorem of_digitsAfter_eq_some (h : digitsAfter sep cs = some (ds, rest)) :
    IsNumeral ds ∧ cs = sep :: (ds ++ rest) := by
  cases cs with
  | nil => cases h
  | cons c cs =>
    simp only [digitsAfter] at h
    split at h
    · rename_i hc
      obtain ⟨rfl, hne⟩ := hc
      cases h
      exact ⟨⟨hne, List.all_eq_true.mp List.all_takeWhile⟩, by rw [List.takeWhile_append_dropWhile]⟩
    · cases h

/-- A text begins with a block exactly if it is the text of that block. -/
theorem block_eq_some_iff : block cs = some b ↔ b.Numeric ∧ cs = b.chars := by
  constructor
  · intro h
    simp only [block, Option.bind_eq_bind, Option.bind_eq_some_iff, Prod.exists] at h
    obtain ⟨sl, cs₁, h₁, sc, cs₂, h₂, el, cs₃, h₃, ec, cs₄, h₄, h⟩ := h
    obtain ⟨hsl, rfl⟩ := of_digitsAfter_eq_some h₁
    obtain ⟨hsc, rfl⟩ := of_digitsAfter_eq_some h₂
    obtain ⟨hel, rfl⟩ := of_digitsAfter_eq_some h₃
    obtain ⟨hec, rfl⟩ := of_digitsAfter_eq_some h₄
    split at h
    · cases h
      exact ⟨⟨hsl, hsc, hel, hec⟩, rfl⟩
    · cases h
  · intro ⟨h, hcs⟩
    subst hcs
    have hc : ','.isDigit = false := by decide
    have hs : ':'.isDigit = false := by decide
    simp only [block, Block.chars, digitsAfter_append h.startLine hs, digitsAfter_append h.startColumn hc,
      digitsAfter_append h.stopLine hs, digitsAfter_append h.stopColumn hc, Option.bind_eq_bind, Option.bind_some]

/-! ## The first cut -/

theorem isCut_nil_iff : IsCut cs [] b ↔ block cs = some b := block_eq_some_iff.symm

theorem isCut_cons_iff {c d : Char} : IsCut (c :: cs) (d :: file) b ↔ c = d ∧ IsCut cs file b := by
  simp only [IsCut, List.cons_append, List.cons.injEq]
  exact and_left_comm

theorem not_isCut_nil : ¬ IsCut [] file b := by
  intro ⟨_, h⟩
  have := congrArg List.length h
  simp only [Block.chars, List.length_append, List.length_cons, List.length_nil] at this
  omega

theorem split_cons_iff {c d : Char} (hb : block (c :: cs) = none) :
    split (c :: cs) = some (d :: file, b) ↔ c = d ∧ split cs = some (file, b) := by
  simp only [split, hb, Option.map_eq_some_iff, Prod.exists, Prod.mk.injEq, List.cons.injEq]
  constructor
  · intro ⟨_, _, hs, ⟨hd, hf⟩, hb⟩
    subst hf hb
    exact ⟨hd, hs⟩
  · intro ⟨hd, hs⟩
    exact ⟨_, _, hs, ⟨hd, rfl⟩, rfl⟩

theorem split_eq_none_iff : split cs = none ↔ ∀ file b, ¬ IsCut cs file b := by
  induction cs with
  | nil => exact ⟨fun _ _ _ => not_isCut_nil, fun _ => rfl⟩
  | cons c cs ih =>
    rw [split]
    cases hb : block (c :: cs) with
    | some b => exact ⟨fun h => (by cases h), fun h => absurd (isCut_nil_iff.mpr hb) (h [] b)⟩
    | none =>
      rw [Option.map_eq_none_iff, ih]
      constructor
      · intro h file b hcut
        cases file with
        | nil => exact absurd (isCut_nil_iff.mp hcut) (by simp [hb])
        | cons d file => exact h file b (isCut_cons_iff.mp hcut).2
      · intro h file b hcut
        exact h (c :: file) b (isCut_cons_iff.mpr ⟨rfl, hcut⟩)

/-- The reader takes the cut with the shortest file, and there is only one such cut. -/
theorem split_eq_some_iff :
    split cs = some (file, b) ↔ IsCut cs file b ∧ ∀ file' b', IsCut cs file' b' → file.length ≤ file'.length := by
  induction cs generalizing file with
  | nil => exact ⟨fun h => (by cases h), fun h => absurd h.1 not_isCut_nil⟩
  | cons c cs ih =>
    cases hb : block (c :: cs) with
    | some b₀ =>
      rw [split, hb]
      constructor
      · intro h
        cases h
        exact ⟨isCut_nil_iff.mpr hb, fun _ _ _ => Nat.zero_le _⟩
      · intro ⟨hcut, hmin⟩
        obtain rfl := List.length_eq_zero_iff.mp (Nat.le_zero.mp (hmin [] b₀ (isCut_nil_iff.mpr hb)))
        rw [← hb, isCut_nil_iff.mp hcut]
    | none =>
      -- No cut has an empty file, so the cuts are those of `cs` with one more character in the file.
      have hnil : ∀ b', ¬ IsCut (c :: cs) [] b' := fun b' h => absurd (isCut_nil_iff.mp h) (by simp [hb])
      cases file with
      | nil =>
        refine ⟨fun h => ?_, fun h => absurd h.1 (hnil b)⟩
        rw [split, hb] at h
        obtain ⟨p, -, hp⟩ := Option.map_eq_some_iff.mp h
        cases hp
      | cons d file =>
        rw [split_cons_iff hb, ih, isCut_cons_iff, and_assoc]
        refine and_congr_right fun _ => and_congr_right fun _ => ?_
        constructor
        · intro hmin file' b' hcut
          cases file' with
          | nil => exact absurd hcut (hnil b')
          | cons d' file' => exact Nat.succ_le_succ (hmin file' b' (isCut_cons_iff.mp hcut).2)
        · intro hmin file' b' hcut
          exact Nat.le_of_succ_le_succ (hmin (c :: file') b' (isCut_cons_iff.mpr ⟨rfl, hcut⟩))

/-! ## Files that are read back -/

theorem IsNumeral.not_mem (h : IsNumeral ds) {c : Char} (hc : c.isDigit = false) : c ∉ ds := fun hm => by
  rw [h.2 c hm] at hc
  cases hc

/-- The coordinates, from the first comma to the last. -/
theorem chars_eq (b : Block) : ∃ places : List Char,
    b.chars = places ++ ',' :: b.message ∧ places.head? = some ',' ∧ (b.Numeric → '\n' ∉ places) := by
  refine ⟨',' :: (b.startLine ++ ':' :: (b.startColumn ++ ',' :: (b.stopLine ++ ':' :: b.stopColumn))), ?_, rfl, ?_⟩
  · simp [Block.chars]
  · intro h
    have hn : '\n'.isDigit = false := by decide
    simp [h.startLine.not_mem hn, h.startColumn.not_mem hn, h.stopLine.not_mem hn, h.stopColumn.not_mem hn]

theorem feed_mem_iff (hb : b.Numeric) : '\n' ∈ file ++ b.chars ↔ '\n' ∈ file ∨ '\n' ∈ b.message := by
  obtain ⟨places, he, -, hn⟩ := chars_eq b
  simp [he, hn hb]

theorem comma_not_mem {l c : List Char} (hl : IsNumeral l) (hc : IsNumeral c) : ',' ∉ l ++ ':' :: c := by
  intro h
  rcases List.mem_append.mp h with h | h
  · exact hl.not_mem (by decide) h
  · rcases List.mem_cons.mp h with h | h
    · exact absurd h (by decide)
    · exact hc.not_mem (by decide) h

/-- A comma of a text stands at its first comma or after it. -/
theorem comma_cases {u s a t : List Char} (ha : ',' ∉ a) (h : u ++ ',' :: s = a ++ ',' :: t) :
    u = a ∨ ∃ v, u = a ++ ',' :: v ∧ t = v ++ ',' :: s := by
  rcases List.append_eq_append_iff.mp h with ⟨v, hu, hs⟩ | ⟨v, hu, ht⟩
  · cases v with
    | nil => exact Or.inl (by rw [hu, List.append_nil])
    | cons d v =>
      obtain ⟨rfl, -⟩ := List.cons.inj hs
      exact absurd (hu ▸ List.mem_append_right u List.mem_cons_self) ha
  · cases v with
    | nil => exact Or.inl (by rw [hu, List.append_nil])
    | cons d v =>
      obtain ⟨rfl, htail⟩ := List.cons.inj ht
      exact Or.inr ⟨v, hu, htail⟩

/-- A cut inside a plain file cannot borrow the text of the block after it: that block begins with a comma,
    and the commas of a block are those around its places. -/
theorem Plain.length_le (hf : Plain file) {line u : List Char} {b' : Block} (hb : IsCut line file b)
    (hu : IsCut line u b') : file.length ≤ u.length := by
  obtain ⟨-, rfl⟩ := hb
  obtain ⟨hn, he⟩ := hu
  refine Nat.le_of_not_lt fun hlt => ?_
  obtain ⟨t, rfl, ht⟩ : ∃ t, file = u ++ t ∧ b'.chars = t ++ b.chars := by
    rcases List.append_eq_append_iff.mp he with ⟨t, hu, -⟩ | ⟨t, hf, ht⟩
    · rw [hu, List.length_append] at hlt
      omega
    · exact ⟨t, hf, ht⟩
  cases t with
  | nil => simp at hlt
  | cons d t =>
    obtain ⟨rfl, htail⟩ := List.cons.inj ht
    have h₁ : t ++ ',' :: b.chars.tail = (b'.startLine ++ ':' :: b'.startColumn) ++
        ',' :: ((b'.stopLine ++ ':' :: b'.stopColumn) ++ ',' :: b'.message) := by
      simp only [List.append_assoc, List.cons_append, htail]
      rfl
    rcases comma_cases (comma_not_mem hn.startLine hn.startColumn) h₁ with h | ⟨t', h, h₂⟩
    · exact hf.ending u _ _ hn.startLine hn.startColumn (by rw [h])
    rcases comma_cases (comma_not_mem hn.stopLine hn.stopColumn) h₂.symm with h' | ⟨m, h', -⟩
    · refine hf.ending (u ++ ',' :: (b'.startLine ++ ':' :: b'.startColumn)) _ _ hn.stopLine hn.stopColumn ?_
      simp only [h, h', List.append_assoc, List.cons_append]
    · refine hf.within u { b' with message := m } ⟨⟨hn.startLine, hn.startColumn, hn.stopLine, hn.stopColumn⟩, ?_⟩
      simp only [h, h', Block.chars, List.append_assoc, List.cons_append]

/-- The file and the block of a line are read back exactly if the file is plain. -/
theorem split_append_iff (hb : b.Numeric) : split (file ++ b.chars) = some (file, b) ↔ Plain file := by
  rw [split_eq_some_iff]
  constructor
  · intro ⟨_, hmin⟩
    constructor
    · intro u b' ⟨hn, he⟩
      have hcut : IsCut (file ++ b.chars) u { b' with message := b'.message ++ b.chars } :=
        ⟨⟨hn.startLine, hn.startColumn, hn.stopLine, hn.stopColumn⟩, by
          simp only [he, Block.chars, List.append_assoc, List.cons_append]⟩
      have := hmin u _ hcut
      simp only [he, Block.chars, List.length_append, List.length_cons] at this
      omega
    · intro u l c hl hc he
      have hcut : IsCut (file ++ b.chars) u
          ⟨l, c, b.startLine, b.startColumn, b.stopLine ++ ':' :: (b.stopColumn ++ ',' :: b.message)⟩ :=
        ⟨⟨hl, hc, hb.startLine, hb.startColumn⟩, by
          simp only [he, Block.chars, List.append_assoc, List.cons_append]⟩
      have := hmin u _ hcut
      simp only [he, List.length_append, List.length_cons] at this
      omega
  · intro hf
    exact ⟨⟨hb, rfl⟩, fun u b' hu => hf.length_le ⟨hb, rfl⟩ hu⟩

end CursorDiagnostics.Log
