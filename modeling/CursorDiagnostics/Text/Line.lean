/-
  CursorDiagnostics.Text.Line — a text as its lines.

  Only a line feed ends a line. A carriage return directly before it belongs to the break, and only
  one does: a line may still end in a carriage return, and so may the last line, which has no
  break. Form feeds, vertical tabs and the Unicode separators are ordinary characters of a line.
  A text has one line more than it has line feeds.

  `flatMap_lines`: the lines with their breaks, one after the other, are the text.
-/

namespace CursorDiagnostics.Text

/-- How a line ends: with the text, with a line feed, or with a carriage return and a line feed. -/
inductive Ending where
  | last
  | feed
  | returnFeed
  deriving DecidableEq, Repr

def Ending.chars : Ending → List Char
  | .last => []
  | .feed => ['\n']
  | .returnFeed => ['\r', '\n']

structure Line where
  content : List Char
  ending : Ending
  deriving DecidableEq, Repr

namespace Line

def chars (l : Line) : List Char := l.content ++ l.ending.chars

/-- The number of characters of a line without its break. -/
def length (l : Line) : Nat := l.content.length

/-- The number of characters of a line with its break. -/
def width (l : Line) : Nat := l.length + l.ending.chars.length

/-- The lines of `c` and the text after it, given the lines of that text. -/
def before (c : Char) : List Line → List Line
  | [] => [⟨[c], .last⟩]
  | l :: ls =>
    if c = '\n' then ⟨[], .feed⟩ :: l :: ls
    else if c = '\r' ∧ l = ⟨[], .feed⟩ then ⟨[], .returnFeed⟩ :: ls
    else ⟨c :: l.content, l.ending⟩ :: ls

end Line

def lines (cs : List Char) : List Line := cs.foldr Line.before [⟨[], .last⟩]

@[simp] theorem lines_nil : lines [] = [⟨[], .last⟩] := rfl

@[simp] theorem lines_cons (c : Char) (cs : List Char) : lines (c :: cs) = Line.before c (lines cs) := rfl

theorem lines_ne_nil (cs : List Char) : lines cs ≠ [] := by
  cases cs with
  | nil => simp
  | cons c cs => rw [lines_cons]; unfold Line.before; split <;> (repeat' split) <;> simp

theorem flatMap_before (c : Char) {ls : List Line} (h : ls ≠ []) :
    (Line.before c ls).flatMap Line.chars = c :: ls.flatMap Line.chars := by
  cases ls with
  | nil => exact absurd rfl h
  | cons l ls =>
    simp only [Line.before]
    split
    · next hc => subst hc; simp [Line.chars, Ending.chars]
    · split
      · next hc => obtain ⟨rfl, rfl⟩ := hc; simp [Line.chars, Ending.chars]
      · simp [Line.chars]

theorem flatMap_lines (cs : List Char) : (lines cs).flatMap Line.chars = cs := by
  induction cs with
  | nil => rfl
  | cons c cs ih => rw [lines_cons, flatMap_before c (lines_ne_nil cs), ih]

end CursorDiagnostics.Text
