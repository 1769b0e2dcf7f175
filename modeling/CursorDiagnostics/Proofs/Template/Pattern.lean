/-
  CursorDiagnostics.Proofs.Template.Pattern — a template as the matches of one pattern.

  The pattern is a dollar sign and, of what may stand behind it, the first that does: a dollar sign, a name, a name in
  braces, nothing. The template is gone through match by match, and the text between two of them is taken over as it
  stands (`fill`). A match is the token that its dollar sign begins (`Stands.matchAt?_eq`), so the template is
  expanded to just this (`expand_eq_fill`).
-/

import CursorDiagnostics.Proofs.Template.Reading
import CursorDiagnostics.Proofs.Text.Pattern

namespace CursorDiagnostics.Template

open Text (Pattern Match)

def identifier : Pattern := .run isNameStart isNameChar

def inBraces : Pattern := .seq (.lit '\x7b') (.seq (.group 3 identifier) (.lit '\x7d'))

/-- As an expression, `\$(?:(\$)|([_A-Za-z][_A-Za-z0-9]*)|\{([_A-Za-z][_A-Za-z0-9]*)\}|)`. -/
def placeholder : Pattern :=
  .seq (.lit '$') (.alt (.group 1 (.lit '$')) (.alt (.group 2 identifier) (.alt inBraces .empty)))

def valueOf (packages : List Char) (m : Match) : Except Failure (List Char) :=
  if (m.group? 1).isSome then .ok ['$']
  else
    match (m.group? 2).or (m.group? 3) with
    | some name => if name = "packages".toList then .ok packages else .error (.unknownPlaceholder (String.ofList name))
    | none => .error (.unknownPlaceholder "")

/-- Goes through the matches with what is written so far, and the place up to which the template is done. -/
def fill (template packages : List Char) : List Char → Nat → List Match → Except Failure (List Char)
  | out, last, [] => .ok (out ++ template.drop last)
  | out, last, m :: ms => do
    let value ← valueOf packages m
    fill template packages (out ++ (template.take m.start).drop last ++ value) m.stop ms

/-! ## One match -/

variable {cs rest w : List Char} {f : Form}

def Form.groups : Form → Text.Groups
  | .dollar => [(1, ['$'])]
  | .bare name => [(2, name)]
  | .braced name => [(3, name)]
  | .char _ | .lone => []

theorem name_eq_leading (cs : List Char) : name cs = Pattern.leading isNameStart isNameChar cs := by
  cases cs <;> rfl

theorem ways_dollar_of_ne (h : cs.head? ≠ some '$') (n : Nat) : (Pattern.group 1 (.lit '$')).ways ⟨n, cs⟩ = [] := by
  rw [Pattern.ways, Pattern.ways_lit_of_ne h, List.map_nil]

theorem head?_ne_of_name {c : Char} (h : name cs ≠ []) (hc : ¬ Initial c) : cs.head? ≠ some c := fun hd => by
  obtain ⟨rest, rfl⟩ := List.head?_eq_some_iff.mp hd
  exact h (by simp [name, isNameStart_iff, hc])

theorem ways_identifier_of_nil (h : name cs = []) (number n : Nat) :
    (Pattern.group number identifier).ways ⟨n, cs⟩ = [] :=
  Pattern.ways_group_run_of_leading (name_eq_leading cs ▸ h)

theorem head?_ways_identifier (h : name cs ≠ []) (number n : Nat) :
    ((Pattern.group number identifier).ways ⟨n, cs⟩).head? =
      some (⟨n + (name cs).length, cs.drop (name cs).length⟩, [(number, name cs)]) := by
  rw [name_eq_leading] at h ⊢
  exact Pattern.head?_ways_group_run number n h

/-- A name between braces is closed at its end, if at all. -/
theorem ways_closed (h : name cs ≠ []) (n : Nat) :
    (Pattern.seq (.group 3 identifier) (.lit '\x7d')).ways ⟨n, cs⟩ =
      ((Pattern.lit '\x7d').ways ⟨n + (name cs).length, cs.drop (name cs).length⟩).map fun w =>
        (w.1, (3, name cs) :: w.2) := by
  have hclose : ∀ n c cs, isNameChar c = true → (Pattern.lit '\x7d').ways ⟨n, c :: cs⟩ = [] := fun n c cs hc =>
    Pattern.ways_lit_of_ne (fun hd => by cases hd; exact absurd hc (by decide)) n
  rw [name_eq_leading] at h ⊢
  exact Pattern.ways_group_run_seq hclose 3 n h

theorem ways_inBraces_of_lone (h : Stands .lone cs) (n : Nat) : inBraces.ways ⟨n, cs⟩ = [] := by
  cases h with
  | lone _ _ noBraces =>
    by_cases hb : cs.head? = some '\x7b'
    · obtain ⟨inner, rfl⟩ := List.head?_eq_some_iff.mp hb
      rw [inBraces, Pattern.ways_lit_seq, if_pos rfl]
      by_cases hn : name inner = []
      · rw [Pattern.ways, ways_identifier_of_nil hn, List.flatMap_nil]
      rw [ways_closed hn, List.map_eq_nil_iff]
      apply Pattern.ways_lit_of_ne
      intro hclose
      obtain ⟨rest, hrest⟩ := List.head?_eq_some_iff.mp hclose
      have hcs := List.prefix_iff_eq_append.mp (name_isPrefix inner)
      rw [hrest] at hcs
      refine noBraces _ (isName_name hn) ⟨rest, ?_⟩
      simp only [Form.chars, List.cons_append, List.append_assoc, List.nil_append, hcs]
    · exact Pattern.ways_lit_seq_of_ne hb n

/-- The way that is preferred behind a dollar sign is the token that it begins. -/
theorem Stands.head?_ways (h : Stands f rest) (hw : f.chars = '$' :: w) (n : Nat) :
    (placeholder.ways ⟨n, '$' :: (w ++ rest)⟩).head? = some (⟨n + 1 + w.length, rest⟩, f.groups) := by
  rw [placeholder, Pattern.ways_lit_seq, if_pos rfl]
  simp only [Pattern.ways_alt, List.head?_append]
  cases h with
  | char hc =>
    cases hw
    exact absurd rfl hc
  | dollar =>
    cases hw
    simp [Pattern.ways, Pattern.lit, Form.groups]
  | @bare m rest hm longest =>
    cases hw
    have hname : name (w ++ rest) = w := hm.name_append (stands_bare_iff.mp (.bare hm longest)).2
    have hne : name (w ++ rest) ≠ [] := hname.symm ▸ hm.ne_nil
    rw [ways_dollar_of_ne (head?_ne_of_name hne not_initial_dollar), head?_ways_identifier hne, hname, List.drop_left]
    rfl
  | @braced m rest hm =>
    cases hw
    -- The brace begins no name, so the alternatives before this one do not match.
    have hname : name (m ++ '\x7d' :: rest) = m := hm.name_append fun c hc => by
      cases hc
      decide
    have hne : name (m ++ '\x7d' :: rest) ≠ [] := hname.symm ▸ hm.ne_nil
    have hbrace : name ('\x7b' :: (m ++ '\x7d' :: rest)) = [] := rfl
    simp only [List.cons_append, List.append_assoc, List.nil_append]
    rw [ways_dollar_of_ne (by simp), ways_identifier_of_nil hbrace, inBraces, Pattern.ways_lit_seq, if_pos rfl,
      ways_closed hne, hname, List.drop_left, Pattern.ways_lit]
    simp [Form.groups]
    omega
  | lone noDollar noName noBraces =>
    cases hw
    have hd : rest.head? ≠ some '$' := fun hd => by
      obtain ⟨rest', rfl⟩ := List.head?_eq_some_iff.mp hd
      exact noDollar ⟨rest', rfl⟩
    have hname : name rest = [] := by
      by_contra hne
      exact noName _ (isName_name hne) (List.cons_prefix_cons.mpr ⟨rfl, name_isPrefix rest⟩)
    rw [List.nil_append, ways_dollar_of_ne hd, ways_identifier_of_nil hname,
      ways_inBraces_of_lone (.lone noDollar noName noBraces)]
    rfl

theorem Stands.matchAt?_eq (h : Stands f rest) (hw : f.chars = '$' :: w) (n : Nat) :
    placeholder.matchAt? ⟨n, '$' :: (w ++ rest)⟩ = some ⟨n, n + 1 + w.length, f.groups⟩ := by
  rw [Pattern.matchAt?, h.head?_ways hw]
  rfl

theorem matchAt?_of_ne (h : cs.head? ≠ some '$') (n : Nat) : placeholder.matchAt? ⟨n, cs⟩ = none :=
  Pattern.matchAt?_eq_none (Pattern.ways_lit_seq_of_ne h n)

theorem valueOf_groups (hw : f.chars = '$' :: w) (h : Stands f rest) (packages : List Char) (start stop : Nat) :
    valueOf packages ⟨start, stop, f.groups⟩ = f.token.value packages := by
  cases h with
  | char hc =>
    cases hw
    exact absurd rfl hc
  | _ => rfl

/-! ## All matches -/

variable {fs : List Form}

/-- A token that begins with a dollar sign is one match, with the text before it taken over. -/
theorem Stands.fill_eq (h : Stands f rest) (hw : f.chars = '$' :: w) (packages pre out : List Char)
    (last : Nat) :
    fill (pre ++ (f.chars ++ rest)) packages out last (placeholder.findAll 0 pre.length (f.chars ++ rest)) =
      f.token.value packages >>= fun value => fill (pre ++ f.chars ++ rest) packages (out ++ pre.drop last ++ value)
        (pre ++ f.chars).length (placeholder.findAll 0 (pre ++ f.chars).length rest) := by
  have hlen : (pre ++ f.chars).length = pre.length + 1 + w.length := by
    rw [hw, List.length_append, List.length_cons]
    omega
  rw [List.append_assoc, hlen, hw, List.cons_append, Pattern.findAll_of_some (h.matchAt?_eq hw pre.length) rfl, fill,
    valueOf_groups hw h, List.take_left]

/-- Begun at a place of the text, with the text done up to `last`. -/
theorem Reads.fill_eq (h : Reads fs cs) (packages pre out : List Char) {last : Nat} (hlast : last ≤ pre.length) :
    fill (pre ++ cs) packages out last (placeholder.findAll 0 pre.length cs) =
      (fs.mapM fun f => f.token.value packages) >>= fun values => .ok (out ++ pre.drop last ++ values.flatten) := by
  induction h generalizing pre out last with
  | nil =>
    rw [Pattern.findAll, matchAt?_of_ne (by simp)]
    simp [fill]
  | @cons f fs rest hf _ ih =>
    rw [List.mapM_cons]
    rcases hf.cases_dollar with ⟨c, hc, rfl⟩ | ⟨w, hw⟩
    · -- The character is taken over with the text before the next match.
      have hne : (c :: rest).head? ≠ some '$' := fun h => hc (Option.some.inj h)
      have hlast' : last ≤ (pre ++ [c]).length := Nat.le_trans hlast (List.prefix_append pre [c]).length_le
      have hgo := ih (pre ++ [c]) out hlast'
      rw [List.append_assoc, List.length_append, List.drop_append_of_le_length hlast] at hgo
      rw [Form.chars, List.singleton_append, Pattern.findAll_of_none (matchAt?_of_ne hne pre.length)]
      refine hgo.trans ?_
      cases fs.mapM fun f => f.token.value packages with
      | error => rfl
      | ok values => exact congrArg Except.ok (by simp)
    · rw [hf.fill_eq hw]
      cases f.token.value packages with
      | error => rfl
      | ok value =>
        refine (ih (pre ++ f.chars) _ (Nat.le_refl _)).trans ?_
        rw [List.drop_length]
        cases fs.mapM fun f => f.token.value packages with
        | error => rfl
        | ok values => exact congrArg Except.ok (by simp)

/-- A template is expanded by going through the matches of the pattern. -/
theorem expand_eq_fill (template packages : String) :
    expand template packages =
      (fill template.toList packages.toList [] 0 (placeholder.findAll 0 0 template.toList)).map String.ofList := by
  obtain ⟨fs, hfs⟩ := exists_reads template.toList
  have hfill := hfs.fill_eq packages.toList [] [] (Nat.le_refl 0)
  rw [List.nil_append, List.length_nil] at hfill
  rw [hfs.expand_eq, hfill]
  cases fs.mapM fun f => f.token.value packages.toList <;> rfl

end CursorDiagnostics.Template
