/-
  CursorDiagnostics.Text.Utf8 — bytes as text.

  A character is a lead byte and the continuation bytes that the lead byte asks for, each in the
  range that keeps the encoding shortest, outside the surrogates and below the end of Unicode.
  Where no character can be completed, the bytes that began one are a broken part; the byte that
  broke it is looked at afresh. So every broken part is as long as it can be, and at least one
  byte. A text is `strict` when it has no broken part; a `lossy` reading shows U+FFFD for each.
-/

namespace CursorDiagnostics.Text.Utf8

/-- A character that has begun: the bits read so far, and the ranges that the next bytes must
    lie in. -/
structure Partial where
  bits : Nat
  next : Nat × Nat
  later : List (Nat × Nat)
  deriving DecidableEq, Repr

/-- What a byte says at the start of a character: all of it, its beginning, or nothing. -/
inductive Lead where
  | whole (c : Char)
  | begins (p : Partial)
  | broken
  deriving DecidableEq, Repr

def continuation : Nat × Nat := (0x80, 0xbf)

def lead (b : Nat) : Lead :=
  if b < 0x80 then .whole (Char.ofNat b)
  else if b < 0xc2 then .broken
  else if b < 0xe0 then .begins ⟨b - 0xc0, continuation, []⟩
  else if b = 0xe0 then .begins ⟨0, (0xa0, 0xbf), [continuation]⟩
  else if b = 0xed then .begins ⟨0xd, (0x80, 0x9f), [continuation]⟩
  else if b < 0xf0 then .begins ⟨b - 0xe0, continuation, [continuation]⟩
  else if b = 0xf0 then .begins ⟨0, (0x90, 0xbf), [continuation, continuation]⟩
  else if b < 0xf4 then .begins ⟨b - 0xf0, continuation, [continuation, continuation]⟩
  else if b = 0xf4 then .begins ⟨4, (0x80, 0x8f), [continuation, continuation]⟩
  else .broken

/-- The characters read so far, last first, `none` standing for a broken part, and the character
    that has begun. -/
structure Reading where
  done : List (Option Char)
  begun : Option Partial
  deriving DecidableEq, Repr

def begin (done : List (Option Char)) (b : Nat) : Reading :=
  match lead b with
  | .whole c => ⟨some c :: done, none⟩
  | .begins p => ⟨done, some p⟩
  | .broken => ⟨none :: done, none⟩

def feed (r : Reading) (byte : UInt8) : Reading :=
  let b := byte.toNat
  match r.begun with
  | none => begin r.done b
  | some p =>
    if p.next.1 ≤ b ∧ b ≤ p.next.2 then
      let bits := p.bits * 0x40 + (b - 0x80)
      match p.later with
      | [] => ⟨some (Char.ofNat bits) :: r.done, none⟩
      | n :: ns => ⟨r.done, some ⟨bits, n, ns⟩⟩
    else begin (none :: r.done) b

/-- The characters and the broken parts of a run of bytes, in order. -/
def parts (bytes : List UInt8) : List (Option Char) :=
  let r := bytes.foldl feed ⟨[], none⟩
  (if r.begun.isSome then none :: r.done else r.done).reverse

/-- The text of bytes that have no broken part. -/
def strict (bytes : List UInt8) : Option String :=
  if none ∈ parts bytes then none else some (String.ofList ((parts bytes).filterMap id))

/-- The text of any bytes, U+FFFD standing for each broken part. -/
def lossy (bytes : List UInt8) : String := String.ofList ((parts bytes).map (·.getD '\ufffd'))

end CursorDiagnostics.Text.Utf8
