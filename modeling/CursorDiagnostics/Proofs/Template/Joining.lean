/-
  CursorDiagnostics.Proofs.Template.Joining — two templates one after the other, and texts that are to be taken as they
  are.

  What comes after a text can change how its last token is read, and no other (`Reads.extend`). A template that
  expands has no dollar sign that stands alone, so its last token stays what it is unless it is a name without braces
  that goes on behind the seam: then the longer name is asked for, and that is never `packages`.

  - `expand_append`: the expansion of two templates one after the other.
  - `reads_escape`: with each dollar sign doubled, a text is read as itself.
-/

import CursorDiagnostics.Proofs.Template.Reading

namespace CursorDiagnostics.Template

/-! ## Texts as they are -/

def escape (s : String) : String := String.ofList (s.toList.flatMap fun c => if c = '$' then ['$', '$'] else [c])

def literal (c : Char) : Form := if c = '$' then .dollar else .char c

theorem literal_known (c : Char) : (literal c).Known := by
  unfold literal
  split <;> trivial

theorem literal_value (packages : List Char) (c : Char) : (literal c).value packages = [c] := by
  unfold literal
  split
  · next hc => rw [hc]; rfl
  · rfl

theorem reads_escape (cs : List Char) :
    Reads (cs.map literal) (cs.flatMap fun c => if c = '$' then ['$', '$'] else [c]) := by
  induction cs with
  | nil => exact .nil
  | cons c cs ih =>
    rw [List.map_cons, List.flatMap_cons]
    by_cases hc : c = '$'
    · rw [literal, if_pos hc, if_pos hc]
      exact .cons .dollar ih
    · rw [literal, if_neg hc, if_neg hc]
      exact .cons (.char hc) ih

theorem expand_escape (s packages : String) : expand (escape s) packages = .ok s := by
  have hreads : Reads (s.toList.map literal) (escape s).toList := by
    rw [escape, String.toList_ofList]
    exact reads_escape _
  refine (expand_eq_ok_iff hreads).mpr ⟨fun f hf => ?_, ?_⟩
  · obtain ⟨c, -, rfl⟩ := List.mem_map.mp hf
    exact literal_known c
  · simp [List.flatMap_map, literal_value]

/-! ## The seam -/

/-- Before another text a token is read as it was, but a bare name must not go on there, and a dollar sign alone may
    not be alone. -/
theorem Stands.before {f : Form} {rest rest' : List Char} (h : Stands f rest) (hf : f ≠ .lone)
    (hbare : ∀ n, f = .bare n → ∀ c ∈ rest'.head?, ¬ Inner c) : Stands f rest' := by
  cases h with
  | char hc => exact .char hc
  | dollar => exact .dollar
  | @bare n _ hn _ => exact stands_bare_iff.mpr ⟨hn, hbare n rfl⟩
  | braced hn => exact .braced hn
  | lone _ _ _ => exact absurd rfl hf

/-- Only the last token of a text can be read otherwise when the text goes on. -/
theorem Stands.append {f : Form} {rest : List Char} (h : Stands f rest) (hf : f ≠ .lone) (hrest : rest ≠ [])
    (more : List Char) : Stands f (rest ++ more) := by
  refine h.before hf fun n hn c hc => ?_
  subst hn
  rw [List.head?_append_of_ne_nil _ hrest] at hc
  exact (stands_bare_iff.mp h).2 c hc

theorem Reads.ne_nil {fs : List Form} {cs : List Char} (h : Reads fs cs) (hfs : fs ≠ []) : cs ≠ [] := by
  cases h with
  | nil => exact absurd rfl hfs
  | @cons f _ _ _ _ => exact List.append_ne_nil_of_left_ne_nil f.chars_ne_nil _

/-- The last token of a text has nothing after it. -/
theorem Reads.stands_last {fs : List Form} {f : Form} {cs : List Char} (h : Reads (fs ++ [f]) cs) : Stands f [] := by
  induction fs generalizing cs with
  | nil =>
    cases h with
    | cons hf hnil =>
      cases hnil
      exact hf
  | cons g fs ih =>
    cases h with
    | cons _ hrest => exact ih hrest

/-- A text that goes on is read as before up to its last token, and from there as the rest of the text is. -/
theorem Reads.extend {fs gs : List Form} {f : Form} {cs more : List Char} (h : Reads (fs ++ [f]) cs)
    (hfs : ∀ g ∈ fs, g ≠ .lone) (hgs : Reads gs (f.chars ++ more)) : Reads (fs ++ gs) (cs ++ more) := by
  induction fs generalizing cs with
  | nil =>
    cases h with
    | cons _ hnil =>
      cases hnil
      simpa using hgs
  | cons g fs ih =>
    cases h with
    | cons hg hrest =>
      have hne := hrest.ne_nil (List.append_ne_nil_of_right_ne_nil fs (List.cons_ne_nil f []))
      rw [List.append_assoc, List.cons_append]
      exact .cons (hg.append (hfs g List.mem_cons_self) hne more) (ih hrest fun k hk => hfs k (List.mem_cons_of_mem g hk))

theorem Form.Known.ne_lone {f : Form} (h : f.Known) : f ≠ .lone := by
  rintro rfl
  exact h

/-! ## Templates one after the other -/

def EndsBare (a : String) : Prop := ∃ fs, Reads (fs ++ [.bare "packages".toList]) a.toList

def GoesOn (b : String) : Prop := ∃ c ∈ b.toList.head?, Inner c

def run (b : String) : List Char := b.toList.takeWhile fun c => decide (Inner c)

theorem reads_append {a b : String} {fs gs : List Form} (hfs : Reads fs a.toList) (hgs : Reads gs b.toList)
    (known : ∀ f ∈ fs, f.Known) (hseam : ¬ (EndsBare a ∧ GoesOn b)) : Reads (fs ++ gs) (a ++ b).toList := by
  rw [String.toList_append]
  rcases List.eq_nil_or_concat' fs with rfl | ⟨fs, f, rfl⟩
  · rw [← hfs.flatMap_chars]
    exact hgs
  · have hf : f.Known := known f (by simp)
    have hstands : Stands f b.toList := by
      refine hfs.stands_last.before hf.ne_lone fun n hn c hc hin => hseam ⟨⟨fs, ?_⟩, c, hc, hin⟩
      subst hn
      rwa [← show n = "packages".toList from hf]
    rw [List.append_assoc]
    exact hfs.extend (fun g hg => (known g (List.mem_append_left _ hg)).ne_lone) (.cons hstands hgs)

/-- A bare name takes the run after the seam. -/
theorem stands_bare_run {n : List Char} (hn : IsName n) (b : String) :
    Stands (.bare (n ++ run b)) (b.toList.dropWhile fun c => decide (Inner c)) := by
  have hall : ∀ d ∈ run b, Inner d := fun d hd =>
    of_decide_eq_true (List.mem_takeWhile_imp (p := fun c => decide (Inner c)) hd)
  refine stands_bare_iff.mpr ⟨hn.append hall, fun c hc => ?_⟩
  have hstop := List.head?_dropWhile_not (fun c => decide (Inner c)) b.toList
  rw [Option.mem_def.mp hc] at hstop
  exact of_decide_eq_false hstop

theorem run_ne_nil {b : String} (h : GoesOn b) : run b ≠ [] := by
  obtain ⟨c, hc, hin⟩ := h
  obtain ⟨cs, hcs⟩ := List.head?_eq_some_iff.mp hc
  rw [run, hcs, List.takeWhile_cons_of_pos (p := fun c => decide (Inner c)) (decide_eq_true hin)]
  exact List.cons_ne_nil _ _

theorem expand_append_of_apart {a b packages x : String} (hx : expand a packages = .ok x)
    (hseam : ¬ (EndsBare a ∧ GoesOn b)) :
    (∀ y, expand b packages = .ok y → expand (a ++ b) packages = .ok (x ++ y)) ∧
    (∀ e, expand b packages = .error e → expand (a ++ b) packages = .error e) := by
  obtain ⟨fs, hfs⟩ := exists_reads a.toList
  obtain ⟨gs, hgs⟩ := exists_reads b.toList
  obtain ⟨known, rfl⟩ := (expand_eq_ok_iff hfs).mp hx
  have hreads := reads_append hfs hgs known hseam
  refine ⟨fun y hy => ?_, fun e he => ?_⟩
  · obtain ⟨known', rfl⟩ := (expand_eq_ok_iff hgs).mp hy
    refine (expand_eq_ok_iff hreads).mpr ⟨fun f hf => ?_, ?_⟩
    · rcases List.mem_append.mp hf with hf | hf
      · exact known f hf
      · exact known' f hf
    · rw [List.flatMap_append, String.ofList_append]
  · obtain ⟨before, f, after, rfl, hbefore, hf, rfl⟩ := (expand_eq_error_iff hgs).mp he
    refine (expand_eq_error_iff hreads).mpr ⟨fs ++ before, f, after, (List.append_assoc ..).symm, fun g hg => ?_, hf, rfl⟩
    rcases List.mem_append.mp hg with hg | hg
    · exact known g hg
    · exact hbefore g hg

/-- The bare name goes on behind the seam, so another placeholder is asked for. -/
theorem expand_append_of_bare {a b packages x : String} (hx : expand a packages = .ok x) (ha : EndsBare a)
    (hb : GoesOn b) :
    expand (a ++ b) packages = .error (.unknownPlaceholder ("packages" ++ String.ofList (run b))) := by
  obtain ⟨fs, hfs⟩ := ha
  obtain ⟨known, -⟩ := (expand_eq_ok_iff hfs).mp hx
  obtain ⟨gs, hgs⟩ := exists_reads (b.toList.dropWhile fun c => decide (Inner c))
  have hb' : run b ++ (b.toList.dropWhile fun c => decide (Inner c)) = b.toList := List.takeWhile_append_dropWhile
  have hname : IsName "packages".toList := by decide
  have hreads : Reads (fs ++ .bare ("packages".toList ++ run b) :: gs) (a ++ b).toList := by
    rw [String.toList_append, ← hb']
    refine hfs.extend (fun g hg => (known g (List.mem_append_left _ hg)).ne_lone) ?_
    have := Reads.cons (stands_bare_run hname b) hgs
    rwa [Form.chars, ← List.cons_append, List.append_assoc] at this
  refine (expand_eq_error_iff hreads).mpr
    ⟨fs, _, gs, rfl, fun g hg => known g (List.mem_append_left _ hg), fun hlong => ?_, ?_⟩
  · have hlen := congrArg List.length hlong
    rw [List.length_append] at hlen
    have := List.length_pos_of_ne_nil (run_ne_nil hb)
    omega
  · rw [Form.name, String.ofList_append, String.ofList_toList]

/-- A text with its dollar signs doubled is expanded to itself. A template that expands, with another one after it, is
    expanded to both results one after the other, and fails as the other one does. But if the first ends in `packages`
    without braces and the second begins with what a name can go on with, the placeholder with the longer name is
    unknown, whatever comes after it. -/
theorem expand_append (packages : String) :
    (∀ s, expand (escape s) packages = .ok s) ∧
    ∀ a b x, expand a packages = .ok x →
      (¬ (EndsBare a ∧ GoesOn b) →
        (∀ y, expand b packages = .ok y → expand (a ++ b) packages = .ok (x ++ y)) ∧
        (∀ e, expand b packages = .error e → expand (a ++ b) packages = .error e)) ∧
      (EndsBare a → GoesOn b →
        expand (a ++ b) packages = .error (.unknownPlaceholder ("packages" ++ String.ofList (run b)))) := by
  refine ⟨fun s => expand_escape s packages, fun a b x hx => ⟨fun hseam => ?_, fun ha hb => ?_⟩⟩
  · exact expand_append_of_apart hx hseam
  · exact expand_append_of_bare hx ha hb

/-- Doubled dollar signs do not go with a third one behind the seam, and braces end a name; a bare name goes on. -/
theorem expand_append_seams :
    expand ("a$$" ++ "$packages") "/p" = .ok ("a$" ++ "/p") ∧
      expand ("$\x7bpackages\x7d" ++ "x$1") "/p" = .error (.unknownPlaceholder "") ∧
      expand ("$packages" ++ "_1/$packages") "/p" = .error (.unknownPlaceholder "packages_1") := by
  obtain ⟨-, joined⟩ := expand_append "/p"
  have braced : Reads [.braced "packages".toList] "$\x7bpackages\x7d".toList := .cons (.braced (by decide)) .nil
  have bare : Reads ([] ++ [.bare "packages".toList]) "$packages".toList :=
    .cons (stands_bare_iff.mpr ⟨by decide, fun c hc => by cases hc⟩) .nil
  refine ⟨?_, ?_, ?_⟩
  · refine ((joined "a$$" "$packages" "a$" rfl).1 fun ⟨_, c, hc, hin⟩ => ?_).1 "/p" rfl
    cases hc
    exact absurd hin (by decide)
  · refine ((joined "$\x7bpackages\x7d" "x$1" "/p" rfl).1 fun ⟨⟨fs, hfs⟩, _⟩ => ?_).2 _ rfl
    have hlast := congrArg List.getLast? (reads_unique hfs braced)
    simp at hlast
  · exact (joined "$packages" "_1/$packages" "/p" rfl).2 ⟨[], bare⟩ ⟨'_', rfl, by decide⟩

end CursorDiagnostics.Template
