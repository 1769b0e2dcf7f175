/-
  CursorDiagnostics.Text.Quoted — text between double quotes, on one line, readable back.

  The quote, the backslash and four control characters have short escapes; a character that is
  unprintable or combining is written as its code point in lower-case hexadecimal between braces,
  without leading zeros. All other characters, the single quote among them, stand for themselves.
-/

import CursorDiagnostics.Text.Combining
import CursorDiagnostics.Text.Unprintable

namespace CursorDiagnostics.Text

/-- The code point of `c`, as it is written in a quoted text. -/
def escapeCode (c : Char) : List Char :=
  ['\\', 'u', '\x7b'] ++ Nat.toDigits 16 c.toNat ++ ['\x7d']

def escape (c : Char) : List Char :=
  if c = '"' then ['\\', '"']
  else if c = '\\' then ['\\', '\\']
  else if c = '\n' then ['\\', 'n']
  else if c = '\r' then ['\\', 'r']
  else if c = '\t' then ['\\', 't']
  else if c = '\x00' then ['\\', '0']
  else if isCombining c || isUnprintable c then escapeCode c
  else [c]

def quoteChars (cs : List Char) : List Char := '"' :: cs.flatMap escape ++ ['"']

def quote (s : String) : String := String.ofList (quoteChars s.toList)

end CursorDiagnostics.Text
