/-
  CursorDiagnostics.Proofs.Template.Reading — a template as its tokens, read from the left.

  A dollar sign goes with a second one, else with the longest name after it, else with a name in braces that is
  complete, and else it stands alone (`Stands`). A template is read in exactly one way (`reads_unique`,
  `exists_reads`), and the written tokens, one after the other, are the template. What it is expanded to follows
  from the tokens:
  - `expand_eq_ok_iff`: all of them have a value, and the result is their values.
  - `expand_eq_error_iff`: the first that has none is named in the failure, and what comes after it does not matter.
-/

import CursorDiagnostics.Template
import CursorDiagnostics.Proofs.Steps
import CursorDiagnostics.Proofs.Text.Runs

namespace CursorDiagnostics.Template

/-! ## Names -/

def Initial (c : Char) : Prop := c = '_' ∨ ('A' ≤ c ∧ c ≤ 'Z') ∨ ('a' ≤ c ∧ c ≤ 'z')

def Inner (c : Char) : Prop := Initial c ∨ ('0' ≤ c ∧ c ≤ '9')

def IsName : List Char → Prop
  | [] => False
  | c :: cs => Initial c ∧ ∀ d ∈ cs, Inner d

theorem isNameStart_iff {c : Char} : isNameStart c = true ↔ Initial c := by
  have hupper : c.isUpper = decide ('A' ≤ c ∧ c ≤ 'Z') := rfl
  have hlower : c.isLower = (decide ('a' ≤ c) && decide (c ≤ 'z')) := rfl
  have halpha : c.isAlpha = (c.isUpper || c.isLower) := rfl
  simp [isNameStart, Initial, halpha, hupper, hlower]

theorem isNameChar_iff {c : Char} : isNameChar c = true ↔ Inner c := by
  simp [isNameChar, Inner, isNameStart_iff, Char.isDigit, Char.le_def]

theorem inner_of_isDigit {c : Char} (h : c.isDigit = true) : Inner c :=
  isNameChar_iff.mp (by rw [isNameChar, h, Bool.or_true])

instance (c : Char) : Decidable (Initial c) := decidable_of_iff (isNameStart c = true) isNameStart_iff

instance (c : Char) : Decidable (Inner c) := decidable_of_iff (isNameChar c = true) isNameChar_iff

theorem isName_name {cs : List Char} (h : name cs ≠ []) : IsName (name cs) := by
  cases cs with
  | nil => exact absurd rfl h
  | cons c cs =>
    by_cases hc : isNameStart c
    · simp only [name, hc, if_true]
      exact ⟨isNameStart_iff.mp hc, fun d hd => isNameChar_iff.mp (List.mem_takeWhile_imp hd)⟩
    · simp [name, hc] at h

theorem name_isPrefix (cs : List Char) : name cs <+: cs := by
  cases cs with
  | nil => exact List.prefix_refl _
  | cons c cs =>
    by_cases hc : isNameStart c
    · simp only [name, hc, if_true]
      exact List.cons_prefix_cons.mpr ⟨rfl, List.takeWhile_prefix _⟩
    · simp [name, hc]

/-- A name at the start of a text is continued by the longest one. -/
theorem IsName.isPrefix_name {n cs : List Char} (hn : IsName n) (h : n <+: cs) : n <+: name cs := by
  obtain ⟨rest, rfl⟩ := h
  cases n with
  | nil => exact hn.elim
  | cons c n =>
    have hall : ∀ d ∈ n, isNameChar d = true := fun d hd => isNameChar_iff.mpr (hn.2 d hd)
    simp only [List.cons_append, name, isNameStart_iff.mpr hn.1, if_true]
    rw [List.takeWhile_append_of_pos hall, ← List.cons_append]
    exact List.prefix_append _ _

theorem IsName.inner {n : List Char} (hn : IsName n) : ∀ c ∈ n, Inner c := by
  cases n with
  | nil => exact hn.elim
  | cons d n =>
    intro c hc
    rcases List.mem_cons.mp hc with rfl | hc
    · exact Or.inl hn.1
    · exact hn.2 c hc

theorem IsName.ne_nil {n : List Char} (hn : IsName n) : n ≠ [] := by
  rintro rfl
  exact hn

theorem IsName.name_ne_nil {n cs : List Char} (hn : IsName n) (h : n <+: cs) : name cs ≠ [] := fun hname =>
  hn.ne_nil (List.prefix_nil.mp (hname ▸ hn.isPrefix_name h))

theorem IsName.append {n cs : List Char} (hn : IsName n) (h : ∀ d ∈ cs, Inner d) : IsName (n ++ cs) := by
  cases n with
  | nil => exact hn.elim
  | cons c n =>
    refine ⟨hn.1, fun d hd => ?_⟩
    rcases List.mem_append.mp hd with hd | hd
    · exact hn.2 d hd
    · exact h d hd

/-- A name that cannot go on is the longest. -/
theorem IsName.name_append {n rest : List Char} (hn : IsName n) (h : ∀ c ∈ rest.head?, ¬ Inner c) :
    name (n ++ rest) = n := by
  cases n with
  | nil => exact hn.elim
  | cons c n =>
    have hall : ∀ d ∈ n, isNameChar d = true := fun d hd => isNameChar_iff.mpr (hn.2 d hd)
    have hstop : ∀ d ∈ rest.head?, isNameChar d = false := fun d hd =>
      Bool.eq_false_iff.mpr (mt isNameChar_iff.mp (h d hd))
    simp only [List.cons_append, name, isNameStart_iff.mpr hn.1, if_true, Text.takeWhile_run hall hstop]

theorem isName_iff {n : List Char} : IsName n ↔ n ≠ [] ∧ name n = n := by
  constructor
  · intro hn
    have hself : name (n ++ []) = n := hn.name_append fun c hc => nomatch hc
    rw [List.append_nil] at hself
    exact ⟨hn.ne_nil, hself⟩
  · intro ⟨hne, hself⟩
    rw [← hself] at hne ⊢
    exact isName_name hne

instance (n : List Char) : Decidable (IsName n) := decidable_of_iff _ isName_iff.symm

theorem not_initial_dollar : ¬ Initial '$' := by decide

theorem not_initial_brace : ¬ Initial '\x7b' := by decide

/-! ## Written tokens -/

/-- A token as it is written: a name with braces around it or without. -/
inductive Form where
  | char (c : Char)
  | dollar
  | bare (name : List Char)
  | braced (name : List Char)
  | lone
  deriving DecidableEq, Repr

namespace Form

def chars : Form → List Char
  | char c => [c]
  | dollar => ['$', '$']
  | bare name => '$' :: name
  | braced name => '$' :: '\x7b' :: (name ++ ['\x7d'])
  | lone => ['$']

def token : Form → Token
  | char c => .char c
  | dollar => .dollar
  | bare name | braced name => .placeholder name
  | lone => .lone

def name : Form → List Char
  | bare name | braced name => name
  | _ => []

/-- What is meant is known: anything but a dollar sign alone and the names other than `packages`. -/
def Known : Form → Prop
  | char _ | dollar => True
  | bare name | braced name => name = "packages".toList
  | lone => False

instance : (f : Form) → Decidable f.Known
  | char _ | dollar => inferInstanceAs (Decidable True)
  | bare _ | braced _ => inferInstanceAs (Decidable (_ = _))
  | lone => inferInstanceAs (Decidable False)

def value (packages : List Char) : Form → List Char
  | char c => [c]
  | dollar => ['$']
  | bare _ | braced _ => packages
  | lone => []

theorem chars_ne_nil (f : Form) : f.chars ≠ [] := by
  cases f <;> simp [chars]

/-- Two tokens of one kind and one length are written in one way. -/
theorem eq_of_token_eq {f g : Form} (ht : f.token = g.token) (hl : f.chars.length = g.chars.length) : f = g := by
  cases f <;> cases g <;> simp_all [token, chars]
  omega

end Form

/-- Before `rest`, the token is read as it is written. -/
inductive Stands : Form → List Char → Prop
  | char {c : Char} {rest : List Char} : c ≠ '$' → Stands (.char c) rest
  | dollar {rest : List Char} : Stands .dollar rest
  | bare {n rest : List Char} : IsName n → (∀ m, IsName m → m <+: n ++ rest → m.length ≤ n.length) →
      Stands (.bare n) rest
  | braced {n rest : List Char} : IsName n → Stands (.braced n) rest
  | lone {rest : List Char} : ¬ Form.dollar.chars <+: '$' :: rest →
      (∀ n, IsName n → ¬ (Form.bare n).chars <+: '$' :: rest) →
      (∀ n, IsName n → ¬ (Form.braced n).chars <+: '$' :: rest) → Stands .lone rest

inductive Reads : List Form → List Char → Prop
  | nil : Reads [] []
  | cons {f : Form} {fs : List Form} {rest : List Char} : Stands f rest → Reads fs rest → Reads (f :: fs) (f.chars ++ rest)

/-! ## One reading -/

/-- A bare name ends where no name could go on. -/
theorem stands_bare_iff {n rest : List Char} :
    Stands (.bare n) rest ↔ IsName n ∧ ∀ c ∈ rest.head?, ¬ Inner c := by
  constructor
  · intro h
    cases h with
    | bare hn longest =>
      refine ⟨hn, fun c hc hin => ?_⟩
      obtain ⟨rest, rfl⟩ := List.head?_eq_some_iff.mp hc
      have hle := longest (n ++ [c]) (hn.append (by simpa using hin)) ⟨rest, by simp⟩
      rw [List.length_append, List.length_singleton] at hle
      omega
  · intro ⟨hn, hstop⟩
    refine .bare hn fun m hm hp => ?_
    have hle := (hm.isPrefix_name hp).length_le
    rwa [hn.name_append hstop] at hle

/-- The longest name is read as a whole. -/
theorem stands_bare_name {cs : List Char} (h : name cs ≠ []) : Stands (.bare (name cs)) (cs.drop (name cs).length) := by
  refine .bare (isName_name h) fun m hm hp => ?_
  rw [List.prefix_iff_eq_append.mp (name_isPrefix cs)] at hp
  exact (hm.isPrefix_name hp).length_le

theorem afterDollar_of_name {cs : List Char} (h : name cs ≠ []) :
    afterDollar cs = (.placeholder (name cs), (name cs).length) := by
  unfold afterDollar
  split
  · exact absurd (by simp [name, isNameStart_iff, not_initial_dollar]) h
  · exact absurd (by simp [name, isNameStart_iff, not_initial_brace]) h
  · exact if_pos h

theorem afterDollar_of_braces {n rest : List Char} (hn : IsName n) :
    afterDollar ('\x7b' :: (n ++ '\x7d' :: rest)) = (.placeholder n, n.length + 2) := by
  have hname : name (n ++ '\x7d' :: rest) = n := hn.name_append fun c hc => by
    cases hc
    decide
  simp [afterDollar, hname, hn.ne_nil]

theorem afterDollar_of_lone {rest : List Char} (h : Stands .lone rest) : afterDollar rest = (.lone, 0) := by
  cases h with
  | lone noDollar noName noBraces =>
    have hname : name rest = [] := by
      by_contra hne
      exact noName _ (isName_name hne) (List.cons_prefix_cons.mpr ⟨rfl, name_isPrefix rest⟩)
    unfold afterDollar
    split
    · exact absurd ⟨_, rfl⟩ noDollar
    · next cs =>
      refine if_neg fun ⟨hne, hclose⟩ => noBraces _ (isName_name hne) ?_
      have hcs := List.prefix_iff_eq_append.mp (name_isPrefix cs)
      obtain ⟨after, hafter⟩ := List.head?_eq_some_iff.mp hclose
      rw [hafter] at hcs
      exact ⟨after, by simp [Form.chars, hcs]⟩
    · exact if_neg (not_not.mpr hname)

/-- A token that begins with a dollar sign is what the text after that makes of it. -/
theorem Stands.afterDollar_eq {f : Form} {rest w : List Char} (h : Stands f rest) (hw : f.chars = '$' :: w) :
    afterDollar (w ++ rest) = (f.token, w.length) := by
  cases f with
  | char c =>
    cases h with
    | char hc =>
      cases hw
      exact absurd rfl hc
  | dollar =>
    cases hw
    rfl
  | bare n =>
    cases hw
    obtain ⟨hn, hstop⟩ := stands_bare_iff.mp h
    have hname := hn.name_append hstop
    rw [afterDollar_of_name (hname.symm ▸ hn.ne_nil), hname]
    rfl
  | braced n =>
    cases hw
    cases h with
    | braced hn =>
      simp only [List.cons_append, List.append_assoc, List.nil_append]
      rw [afterDollar_of_braces hn]
      simp [Form.token]
  | lone =>
    cases hw
    exact afterDollar_of_lone h

theorem tokens_cons_dollar (cs : List Char) :
    tokens ('$' :: cs) = (afterDollar cs).1 :: tokens (cs.drop (afterDollar cs).2) := by
  rw [← tokensAfter_eq_drop]
  rfl

theorem tokens_cons {c : Char} (hc : c ≠ '$') (cs : List Char) : tokens (c :: cs) = .char c :: tokens cs := by
  simp only [tokens, tokensAfter, if_neg hc]

theorem Stands.cases_dollar {f : Form} {rest : List Char} (h : Stands f rest) :
    (∃ c, c ≠ '$' ∧ f = .char c) ∨ ∃ w, f.chars = '$' :: w := by
  cases h with
  | char hc => exact Or.inl ⟨_, hc, rfl⟩
  | _ => exact Or.inr ⟨_, rfl⟩

theorem Stands.tokens_append {f : Form} {rest : List Char} (h : Stands f rest) :
    tokens (f.chars ++ rest) = f.token :: tokens rest := by
  rcases h.cases_dollar with ⟨c, hc, rfl⟩ | ⟨w, hw⟩
  · exact tokens_cons hc rest
  · rw [hw, List.cons_append, tokens_cons_dollar, h.afterDollar_eq hw, List.drop_left]

/-- The program reads the tokens of a text. -/
theorem Reads.tokens_eq {fs : List Form} {cs : List Char} (h : Reads fs cs) : tokens cs = fs.map Form.token := by
  induction h with
  | nil => rfl
  | cons hf _ ih => rw [hf.tokens_append, ih, List.map_cons]

/-- Of one text, the first token and what is left are determined. -/
theorem Stands.unique {f g : Form} {rest rest' : List Char} (h : Stands f rest) (h' : Stands g rest')
    (heq : f.chars ++ rest = g.chars ++ rest') : f = g ∧ rest = rest' := by
  have same : f = g := by
    rcases h.cases_dollar with ⟨c, hc, rfl⟩ | ⟨w, hw⟩ <;> rcases h'.cases_dollar with ⟨c', hc', rfl⟩ | ⟨w', hw'⟩
    · rw [(List.cons.inj heq).1]
    · rw [hw'] at heq
      exact absurd (List.cons.inj heq).1 hc
    · rw [hw] at heq
      exact absurd (List.cons.inj heq).1.symm hc'
    · have hd := h.afterDollar_eq hw
      have hd' := h'.afterDollar_eq hw'
      rw [hw, hw', List.cons_append, List.cons_append] at heq
      rw [(List.cons.inj heq).2, hd'] at hd
      obtain ⟨ht, hl⟩ := Prod.mk.inj hd
      exact Form.eq_of_token_eq ht.symm (by rw [hw, hw', List.length_cons, List.length_cons, hl])
  subst same
  exact ⟨rfl, List.append_cancel_left heq⟩

theorem reads_unique {fs gs : List Form} {cs : List Char} (h : Reads fs cs) (h' : Reads gs cs) : fs = gs := by
  induction h generalizing gs with
  | nil =>
    generalize hcs : ([] : List Char) = cs at h'
    cases h' with
    | nil => rfl
    | cons _ _ => exact absurd (List.append_eq_nil_iff.mp hcs.symm).1 (Form.chars_ne_nil _)
  | @cons f fs rest hf _ ih =>
    generalize hcs : f.chars ++ rest = cs at h'
    cases h' with
    | nil => exact absurd (List.append_eq_nil_iff.mp hcs).1 f.chars_ne_nil
    | cons hg hgs =>
      obtain ⟨rfl, rfl⟩ := hf.unique hg hcs
      rw [ih hgs]

/-- A text that begins with something is read as some token first. -/
theorem exists_stands (c : Char) (cs : List Char) :
    ∃ f rest, Stands f rest ∧ f.chars ++ rest = c :: cs := by
  by_cases hc : c = '$'
  · subst hc
    by_cases hd : Form.dollar.chars <+: '$' :: cs
    · obtain ⟨rest, hrest⟩ := hd
      exact ⟨.dollar, rest, .dollar, hrest⟩
    by_cases hn : ∃ n, IsName n ∧ (Form.bare n).chars <+: '$' :: cs
    · obtain ⟨n, hn, hp⟩ := hn
      have hne : name cs ≠ [] := hn.name_ne_nil (List.cons_prefix_cons.mp hp).2
      have hcs := List.prefix_iff_eq_append.mp (name_isPrefix cs)
      exact ⟨.bare (name cs), _, stands_bare_name hne, by rw [Form.chars, List.cons_append, hcs]⟩
    by_cases hb : ∃ n, IsName n ∧ (Form.braced n).chars <+: '$' :: cs
    · obtain ⟨n, hn, rest, hrest⟩ := hb
      exact ⟨.braced n, rest, .braced hn, hrest⟩
    · exact ⟨.lone, cs, .lone hd (fun n h h' => hn ⟨n, h, h'⟩) (fun n h h' => hb ⟨n, h, h'⟩), rfl⟩
  · exact ⟨.char c, cs, .char hc, rfl⟩

theorem exists_reads (cs : List Char) : ∃ fs, Reads fs cs := by
  induction h : cs.length using Nat.strongRecOn generalizing cs with
  | ind n ih =>
    cases cs with
    | nil => exact ⟨[], .nil⟩
    | cons c cs =>
      obtain ⟨f, rest, hf, heq⟩ := exists_stands c cs
      have hpos := List.length_pos_of_ne_nil f.chars_ne_nil
      have hlen := congrArg List.length heq
      rw [List.length_append] at hlen
      obtain ⟨fs, hfs⟩ := ih rest.length (by omega) rest rfl
      exact ⟨f :: fs, heq ▸ .cons hf hfs⟩

/-! ## Expansion -/

theorem Reads.flatMap_chars {fs : List Form} {cs : List Char} (h : Reads fs cs) : fs.flatMap Form.chars = cs := by
  induction h with
  | nil => rfl
  | cons _ _ ih => rw [List.flatMap_cons, ih]

theorem Form.token_value (packages : List Char) (f : Form) :
    f.token.value packages =
      if f.Known then .ok (f.value packages) else .error (.unknownPlaceholder (String.ofList f.name)) := by
  cases f <;> rfl

theorem Form.token_value_eq_ok_iff {packages v : List Char} {f : Form} :
    f.token.value packages = .ok v ↔ f.Known ∧ f.value packages = v := by
  rw [f.token_value]
  split <;> simp_all

theorem Form.token_value_eq_error_iff {packages : List Char} {f : Form} {e : Failure} :
    f.token.value packages = .error e ↔ ¬ f.Known ∧ e = .unknownPlaceholder (String.ofList f.name) := by
  rw [f.token_value]
  split <;> simp_all [eq_comm]

theorem Reads.expand_eq {fs : List Form} {template : String} (h : Reads fs template.toList) (packages : String) :
    expand template packages =
      (fs.mapM fun f => f.token.value packages.toList) >>= fun values => .ok (String.ofList values.flatten) := by
  rw [expand, h.tokens_eq, List.mapM_map]
  rfl

/-- All values are there exactly if every token is known. -/
theorem mapM_value_eq_ok_iff {fs : List Form} {packages : List Char} {values : List (List Char)} :
    (fs.mapM fun f => f.token.value packages) = .ok values ↔
      (∀ f ∈ fs, f.Known) ∧ fs.map (Form.value packages) = values := by
  simp only [mapM_eq_ok_iff, Form.token_value_eq_ok_iff, List.forall₂_and_left]
  refine and_congr_right fun _ => ?_
  rw [← List.forall₂_map_left_iff (f := Form.value packages) (R := Eq), List.forall₂_eq_eq_eq]

theorem expand_eq_ok_iff {fs : List Form} {template packages x : String} (h : Reads fs template.toList) :
    expand template packages = .ok x ↔
      (∀ f ∈ fs, f.Known) ∧ x = String.ofList (fs.flatMap (Form.value packages.toList)) := by
  rw [h.expand_eq, bind_eq_ok_iff]
  simp only [mapM_value_eq_ok_iff, Except.ok.injEq]
  constructor
  · rintro ⟨_, ⟨hk, rfl⟩, rfl⟩
    exact ⟨hk, by rw [List.flatMap_def]⟩
  · rintro ⟨hk, rfl⟩
    exact ⟨_, ⟨hk, rfl⟩, by rw [List.flatMap_def]⟩

theorem expand_eq_error_iff {fs : List Form} {template packages : String} {e : Failure} (h : Reads fs template.toList) :
    expand template packages = .error e ↔
      ∃ before f after, fs = before ++ f :: after ∧ (∀ g ∈ before, g.Known) ∧ ¬ f.Known ∧
        e = .unknownPlaceholder (String.ofList f.name) := by
  rw [h.expand_eq, bind_eq_error_iff, mapM_eq_error_iff]
  simp only [Form.token_value_eq_ok_iff, Form.token_value_eq_error_iff, exists_and_left, exists_eq', and_true,
    reduceCtorEq, and_false, exists_false, or_false]

theorem Stands.name_cases {f : Form} {rest : List Char} (h : Stands f rest) : f.name = [] ∨ IsName f.name := by
  cases h with
  | bare hn _ => exact Or.inr hn
  | braced hn => exact Or.inr hn
  | _ => exact Or.inl rfl

theorem Reads.name_cases {fs : List Form} {cs : List Char} (h : Reads fs cs) {f : Form} (hf : f ∈ fs) :
    f.name = [] ∨ IsName f.name := by
  induction h with
  | nil => exact absurd hf List.not_mem_nil
  | cons hstands _ ih =>
    rcases List.mem_cons.mp hf with rfl | hf
    · exact hstands.name_cases
    · exact ih hf

/-- Only a placeholder can be wrong with a template, and what is said of it is a name or nothing. -/
theorem expand_error {template packages : String} {e : Failure} (h : expand template packages = .error e) :
    ∃ n, (n = [] ∨ IsName n) ∧ e = .unknownPlaceholder (String.ofList n) := by
  obtain ⟨fs, hfs⟩ := exists_reads template.toList
  obtain ⟨before, f, after, rfl, -, -, he⟩ := (expand_eq_error_iff hfs).mp h
  exact ⟨f.name, hfs.name_cases (List.mem_append_right before List.mem_cons_self), he⟩

/-- A template is read as tokens in exactly one way, and as they are written they make it up. It is expanded exactly
    if each dollar sign is part of a pair or of a placeholder for `packages`, and then to the values of the tokens,
    in which nothing is read again. Otherwise the first token that is a dollar sign alone or another placeholder is
    the failure, with its name, whatever comes after it. -/
theorem expand_by_tokens (template packages : String) :
    (∃! fs, Reads fs template.toList) ∧
    ∀ fs, Reads fs template.toList →
      fs.flatMap Form.chars = template.toList ∧
      (∀ x, expand template packages = .ok x ↔
        (∀ f ∈ fs, f.Known) ∧ x = String.ofList (fs.flatMap (Form.value packages.toList))) ∧
      (∀ e, expand template packages = .error e ↔
        ∃ before f after, fs = before ++ f :: after ∧ (∀ g ∈ before, g.Known) ∧ ¬ f.Known ∧
          e = .unknownPlaceholder (String.ofList f.name)) := by
  obtain ⟨fs, hfs⟩ := exists_reads template.toList
  refine ⟨⟨fs, hfs, fun gs hgs => reads_unique hgs hfs⟩, fun fs hfs => ⟨hfs.flatMap_chars, fun x => ?_, fun e => ?_⟩⟩
  · exact expand_eq_ok_iff hfs
  · exact expand_eq_error_iff hfs

/-- A pair of dollar signs stands before a placeholder, and the directory has a dollar sign in its name. The name
    that is not known is as long as it can be, and the placeholder after it is not reached. -/
theorem expand_by_tokens_dollars :
    expand "$$$\x7bpackages\x7d/$packages" "$p" = .ok "$$p/$p" ∧
      expand "$packages/$packages_1$home" "$p" = .error (.unknownPlaceholder "packages_1") := by
  have known : Reads [.dollar, .braced "packages".toList, .char '/', .bare "packages".toList]
      "$$$\x7bpackages\x7d/$packages".toList :=
    .cons .dollar (.cons (.braced (by decide)) (.cons (.char (by decide))
      (.cons (stands_bare_iff.mpr ⟨by decide, fun c hc => by cases hc⟩) .nil)))
  have unknown : Reads [.bare "packages".toList, .char '/', .bare "packages_1".toList, .bare "home".toList]
      "$packages/$packages_1$home".toList :=
    .cons (stands_bare_iff.mpr ⟨by decide, fun c hc => by cases hc; decide⟩) (.cons (.char (by decide))
      (.cons (stands_bare_iff.mpr ⟨by decide, fun c hc => by cases hc; decide⟩)
        (.cons (stands_bare_iff.mpr ⟨by decide, fun c hc => by cases hc⟩) .nil)))
  obtain ⟨-, expanded, -⟩ := (expand_by_tokens _ "$p").2 _ known
  obtain ⟨-, -, failed⟩ := (expand_by_tokens _ "$p").2 _ unknown
  exact ⟨(expanded _).mpr ⟨by decide, rfl⟩,
    (failed _).mpr ⟨[.bare "packages".toList, .char '/'], _, [.bare "home".toList], rfl, by decide, by decide, rfl⟩⟩

/-- What stands between the braces is no name. -/
example : expand "$\x7ba-b\x7d$packages" "/p" = .error (.unknownPlaceholder "") := rfl

end CursorDiagnostics.Template
