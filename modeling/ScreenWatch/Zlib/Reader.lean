import ScreenWatch.Text.Bytes

/-!
# Reading bits

Compressed data is read bit by bit, the lowest bit of a byte first, and gives bytes for which there is limited
space.  Reading halts when the data is wrong (`corrupt`) or when input or space is used up (`stalled`); what
has been written until then is kept.
-/

namespace ScreenWatch.Zlib

inductive Halt
  | corrupt
  | stalled
  deriving DecidableEq, Inhabited

structure Reader where
  input : Bytes
  /-- The bits taken from the input and not yet read, as a number. -/
  hold : Nat := 0
  count : Nat := 0
  output : Array UInt8 := #[]
  space : Nat

abbrev ReaderM := EStateM Halt Reader

namespace Reader

/-- Takes bytes from the input until there are enough bits, if it lasts. -/
def fill? (bits hold count : Nat) (input : Bytes) : Option (Bytes × Nat × Nat) :=
  if bits ≤ count then some (input, hold, count)
  else match input with
    | [] => none
    | b :: rest => fill? bits (hold + (b.toNat <<< count)) (count + 8) rest

def readBits (bits : Nat) : ReaderM Nat := fun ⟨input, hold, count, output, space⟩ =>
  match fill? bits hold count input with
  | none => .error .stalled ⟨input, hold, count, output, space⟩
  | some (input, hold, count) =>
    .ok (hold % (1 <<< bits)) ⟨input, hold >>> bits, count - bits, output, space⟩

/-- Skips the bits up to the next whole byte. -/
def align : ReaderM Unit := do
  discard (readBits ((← get).count % 8))

def write (b : UInt8) : ReaderM Unit := fun ⟨input, hold, count, output, space⟩ =>
  if output.size < space then .ok () ⟨input, hold, count, output.push b, space⟩
  else .error .stalled ⟨input, hold, count, output, space⟩

/-- Writes again what was written `distance` bytes ago. -/
def writeAgain (distance : Nat) : ReaderM Unit := do
  let output := (← get).output
  write (output.getD (output.size - distance) 0)

def writeAgainTimes (distance : Nat) : Nat → ReaderM Unit
  | 0 => return
  | n + 1 => do
    writeAgain distance
    writeAgainTimes distance n

/-- Repeats a part of the output.  A lack of space is noticed before a distance that reaches too far back. -/
def repeatOutput (distance length : Nat) : ReaderM Unit := do
  let r ← get
  if r.space ≤ r.output.size then throw .stalled
  if r.output.size < distance then throw .corrupt
  writeAgainTimes distance length

/-- Copies bytes of the input, which is at the start of a byte. -/
def copyInput : Nat → ReaderM Unit
  | 0 => return
  | n + 1 => do
    write (← readBits 8).toUInt8
    copyInput n

end Reader

end ScreenWatch.Zlib
