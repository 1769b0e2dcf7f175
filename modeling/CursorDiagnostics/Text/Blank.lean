/-
  CursorDiagnostics.Text.Blank — blank characters, and text without those at its two ends.

  A character is blank if it has the Unicode property White_Space. The class is larger than ASCII's
  and larger than `Char.isWhitespace`: it has the vertical tab, the form feed, the next-line
  control, the no-break spaces and the line and paragraph separators too.
-/

import CursorDiagnostics.Text.Ranges

namespace CursorDiagnostics.Text

/-- The code points with the property White_Space, in increasing order. -/
def blanks : Ranges :=
  [(0x9, 0xd), (0x20, 0x20), (0x85, 0x85), (0xa0, 0xa0), (0x1680, 0x1680), (0x2000, 0x200a),
   (0x2028, 0x2029), (0x202f, 0x202f), (0x205f, 0x205f), (0x3000, 0x3000)]

def isBlank (c : Char) : Bool := blanks.covers c.toNat

/-- Drops the blanks at the end. -/
def trimEnd (cs : List Char) : List Char := (cs.reverse.dropWhile isBlank).reverse

/-- Drops the blanks at both ends; those between other characters stay. -/
def trim (cs : List Char) : List Char := trimEnd (cs.dropWhile isBlank)

end CursorDiagnostics.Text
