import ScreenWatch.Text.Bytes

/-!
# Collected sequences

What a control sequence has brought along when its final character arrives: numeric parameters, separated by
semicolons, and intermediate characters.  All of it is bounded: a parameter saturates at 65535, at most 256
parameters and eight intermediate characters are kept, and of the parameter that is being read at most sixteen
digits after its leading zeros.
-/

namespace ScreenWatch.Control

structure Sequence where
  params : List Nat := []
  /-- The digits of the parameter that is being read. -/
  current : Bytes := []
  intermediate : Bytes := []
  deriving DecidableEq, Inhabited

namespace Sequence

def maxParam : Nat := 65535

def maxParams : Nat := 256

def maxDigits : Nat := 16

def maxIntermediates : Nat := 8

def empty : Sequence := { }

/-- The parameter being read is complete. -/
def pushCurrent (s : Sequence) : Sequence :=
  let value := min (Text.decimalValue s.current) maxParam
  { s with
    params := if s.params.length < maxParams then s.params ++ [value] else s.params
    current := [] }

/-- The parameter being read, if there is one, is complete. -/
def flush (s : Sequence) : Sequence := if s.current.isEmpty then s else s.pushCurrent

/-- One more digit.  A lone zero before it carries no value and gives way. -/
def pushDigit (s : Sequence) (c : Int) : Sequence :=
  let digits := if s.current = [0x30] then [] else s.current
  { s with current := if digits.length < maxDigits then digits ++ [c.toNat.toUInt8] else digits }

def pushParam (s : Sequence) (c : Int) : Sequence :=
  if c = 0x3B then s.pushCurrent else s.pushDigit c

def collect (s : Sequence) (c : Int) : Sequence :=
  if s.intermediate.length < maxIntermediates ∧ c ≤ 255 then
    { s with intermediate := s.intermediate ++ [c.toNat.toUInt8] }
  else s

/-- The parameter at an index; one that is missing or zero has the default value. -/
def param (s : Sequence) (index : Nat) (default : Int) : Int :=
  match s.params[index]? with
  | some value => if 0 < value then value else default
  | none => default

/-- The parameters and intermediate characters as they are logged. -/
def summary (s : Sequence) : Bytes :=
  ascii "[params=\"" ++ Text.joined [0x3B] (s.params.map Text.decimal) ++ ascii "\" intermediate=\""
    ++ s.intermediate ++ ascii "\"]"

end Sequence

end ScreenWatch.Control
