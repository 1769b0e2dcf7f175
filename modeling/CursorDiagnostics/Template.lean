/-
  CursorDiagnostics.Template — the path of an error log, with a placeholder for the packages
  directory.

  Two dollar signs stand for one. A dollar sign before a name, bare or between braces, is a
  placeholder: a bare name is as long as it can be, and `packages` is the only name with a value.
  A dollar sign that begins neither is an error, as is any other name; the first one decides. What
  is put in for a placeholder is not read again.
-/

import CursorDiagnostics.Failure

namespace CursorDiagnostics.Template

inductive Token where
  | char (c : Char)
  | dollar
  | placeholder (name : List Char)
  | lone
  deriving DecidableEq, Repr

def isNameStart (c : Char) : Bool := c == '_' || c.isAlpha

def isNameChar (c : Char) : Bool := isNameStart c || c.isDigit

/-- The longest name at the start of a text, empty if there is none. -/
def name : List Char → List Char
  | [] => []
  | c :: cs => if isNameStart c then c :: cs.takeWhile isNameChar else []

/-- What the text after a dollar sign makes of it, and how many characters of that text it takes. -/
def afterDollar : List Char → Token × Nat
  | '$' :: _ => (.dollar, 1)
  | '\x7b' :: cs =>
    if name cs ≠ [] ∧ (cs.drop (name cs).length).head? = some '\x7d' then
      (.placeholder (name cs), (name cs).length + 2)
    else (.lone, 0)
  | cs => if name cs ≠ [] then (.placeholder (name cs), (name cs).length) else (.lone, 0)

/-- The tokens after the first `taken` characters. -/
def tokensAfter : Nat → List Char → List Token
  | _, [] => []
  | taken + 1, _ :: cs => tokensAfter taken cs
  | 0, c :: cs =>
    if c = '$' then (afterDollar cs).1 :: tokensAfter (afterDollar cs).2 cs
    else .char c :: tokensAfter 0 cs

def tokens (cs : List Char) : List Token := tokensAfter 0 cs

theorem tokensAfter_eq_drop (n : Nat) (cs : List Char) : tokensAfter n cs = tokens (cs.drop n) := by
  induction cs generalizing n with
  | nil => cases n <;> simp [tokens, tokensAfter]
  | cons c cs ih =>
    cases n with
    | zero => rfl
    | succ n => rw [List.drop_succ_cons, ← ih n]; rfl

/-- What a token stands for, `packages` being the packages directory. -/
def Token.value (packages : List Char) : Token → Except Failure (List Char)
  | .char c => .ok [c]
  | .dollar => .ok ['$']
  | .placeholder name =>
    if name = "packages".toList then .ok packages else .error (.unknownPlaceholder (String.ofList name))
  | .lone => .error (.unknownPlaceholder "")

def expand (template packages : String) : Except Failure String := do
  let values ← (tokens template.toList).mapM (Token.value packages.toList)
  return String.ofList values.flatten

end CursorDiagnostics.Template
