/-
  CursorDiagnostics.Text.Decimal — decimal numerals in ASCII digits, and the ways to misspell one.

  A numeral is a non-empty run of ASCII digits after an optional sign; leading zeros do not matter.
  Digits are read from the left and the first fault decides: a value that has grown past the
  largest one allowed is too large even if a letter follows. Reading ends there, so a long numeral
  costs no more than its digits.

  `valueUpTo_eq`: reading up to a bound gives the value exactly if the bound is not passed.
-/

namespace CursorDiagnostics.Text.Decimal

/-- Coordinates and offsets are words of 64 bits. -/
def wordLimit : Nat := UInt64.size

inductive Fault where
  | empty
  | badDigit
  | tooLarge
  | tooSmall
  deriving DecidableEq, Repr

def Fault.message : Fault → String
  | .empty => "cannot parse integer from empty string"
  | .badDigit => "invalid digit found in string"
  | .tooLarge => "number too large to fit in target type"
  | .tooSmall => "number too small to fit in target type"

/-- The value of a run of digits. -/
def value (ds : List Char) : Nat := Nat.ofDigitChars 10 ds 0

def digits (n : Nat) : List Char := Nat.toDigits 10 n

@[simp] theorem value_digits (n : Nat) : value (digits n) = n :=
  Nat.ofDigitChars_toDigits (by decide) (by decide)

/-- Reads the digits `ds` after others of the value `n`, up to the digit that passes `most`. -/
def valueUpToFrom (most n : Nat) : List Char → Option Nat
  | [] => some n
  | d :: ds =>
    let m := 10 * n + (d.toNat - '0'.toNat)
    if m ≤ most then valueUpToFrom most m ds else none

/-- The value of a run of digits, or nothing if it is above `most`. -/
def valueUpTo (most : Nat) (ds : List Char) : Option Nat := valueUpToFrom most 0 ds

theorem le_ofDigitChars (n : Nat) (ds : List Char) : n ≤ Nat.ofDigitChars 10 ds n := by
  induction ds generalizing n with
  | nil => simp
  | cons d ds ih =>
    rw [Nat.ofDigitChars_cons]
    exact Nat.le_trans (by omega) (ih _)

theorem valueUpToFrom_eq {most n : Nat} (h : n ≤ most) (ds : List Char) :
    valueUpToFrom most n ds =
      if Nat.ofDigitChars 10 ds n ≤ most then some (Nat.ofDigitChars 10 ds n) else none := by
  induction ds generalizing n with
  | nil => simp [valueUpToFrom, h]
  | cons d ds ih =>
    simp only [valueUpToFrom, Nat.ofDigitChars_cons]
    split
    · next hm => exact ih hm
    · next hm => rw [if_neg fun hv => hm (Nat.le_trans (le_ofDigitChars _ ds) hv)]

theorem valueUpTo_eq (most : Nat) (ds : List Char) :
    valueUpTo most ds = if value ds ≤ most then some (value ds) else none :=
  valueUpToFrom_eq (Nat.zero_le most) ds

/-- Reads unsigned digits, `past` being the fault of a value above `most`. -/
def magnitude (most : Nat) (past : Fault) (cs : List Char) : Except Fault Nat :=
  match valueUpTo most (cs.takeWhile Char.isDigit) with
  | none => .error past
  | some n => if cs = [] ∨ cs.dropWhile Char.isDigit ≠ [] then .error .badDigit else .ok n

/-- Reads a number below `limit`, written with an optional plus. -/
def readNat (limit : Nat) : List Char → Except Fault Nat
  | [] => .error .empty
  | '+' :: cs => magnitude (limit - 1) .tooLarge cs
  | cs => magnitude (limit - 1) .tooLarge cs

/-- Reads a number from `-limit` to below `limit`, written with an optional sign. -/
def readInt (limit : Nat) : List Char → Except Fault Int
  | [] => .error .empty
  | '-' :: cs => (magnitude limit .tooSmall cs).map fun n => -(n : Int)
  | '+' :: cs => (magnitude (limit - 1) .tooLarge cs).map Int.ofNat
  | cs => (magnitude (limit - 1) .tooLarge cs).map Int.ofNat

end CursorDiagnostics.Text.Decimal
