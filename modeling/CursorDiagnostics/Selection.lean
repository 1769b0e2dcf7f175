/-
  CursorDiagnostics.Selection — the selected part of a buffer, or the caret.

  The ends are character offsets, in the order in which the selection was made; nothing says that
  they lie in the text.
-/

namespace CursorDiagnostics

structure Selection where
  start : Nat
  stop : Nat
  deriving DecidableEq, Repr

namespace Selection

def caret (offset : Nat) : Selection := ⟨offset, offset⟩

def isCaret (s : Selection) : Bool := s.start == s.stop

end Selection

end CursorDiagnostics
