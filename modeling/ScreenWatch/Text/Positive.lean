import ScreenWatch.Text.Bytes

/-!
# Positive numbers in arguments

A number is read from the front of a text, with white space and a sign in front of it, and is held in 64 bits
with a sign (`LeadingNumber.read`).  An argument has to be such a number and nothing else, and one from 1 to
65535 (`positive?`); otherwise the number that it is meant to replace stays as it is (`assignPositive`).
-/

namespace ScreenWatch.Text

/-- Space, tab, newline, vertical tab, form feed and carriage return. -/
def isBlank (b : UInt8) : Bool := b == 0x20 || (0x09 ≤ b && b ≤ 0x0D)

structure LeadingNumber where
  value : Int
  /-- Whether the number that stands there is the value; otherwise the value is the bound that it exceeds. -/
  isExact : Bool
  rest : Bytes
  deriving DecidableEq

namespace LeadingNumber

def least : Int := -0x8000000000000000

def greatest : Int := 0x7FFFFFFFFFFFFFFF

def hold (n : Int) (rest : Bytes) : LeadingNumber :=
  if n < least then ⟨least, false, rest⟩
  else if greatest < n then ⟨greatest, false, rest⟩
  else ⟨n, true, rest⟩

/-- The word without the sign in front of it. -/
def unsigned (word : Bytes) : Bytes := if word.head? = some 0x2D ∨ word.head? = some 0x2B then word.tail else word

/-- Reads blanks, a sign and digits.  Without digits nothing is read, not even the blanks. -/
def read (text : Bytes) : LeadingNumber :=
  let word := text.dropWhile isBlank
  let digits := (unsigned word).takeWhile isDigit
  if digits = [] then ⟨0, true, text⟩
  else
    let magnitude : Int := decimalValue digits
    hold (if word.head? = some 0x2D then -magnitude else magnitude) ((unsigned word).dropWhile isDigit)

end LeadingNumber

def maxPositive : Nat := 65535

/-- The number that an argument writes, if it is one. -/
def positive? (argument : Bytes) : Option Nat :=
  if argument = [] then none
  else
    let number := LeadingNumber.read argument
    if number.isExact = false ∨ number.rest ≠ [] ∨ number.value ≤ 0 ∨ maxPositive < number.value then none
    else some number.value.toNat

/-- Replaces a number by the one that an argument writes, and says whether it writes one. -/
def assignPositive (argument : Option Bytes) (present : Nat) : Bool × Nat :=
  match argument.bind positive? with
  | some n => (true, n)
  | none => (false, present)

end ScreenWatch.Text
