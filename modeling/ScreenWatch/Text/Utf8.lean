import ScreenWatch.Text.Bytes

/-!
# UTF-8

Code points are integers, since a cell may be asked to hold any 32-bit value; those that are no Unicode scalar
value are written as U+FFFD (`encode`).  `Decoder` reads one byte at a time, so that a sequence may be split
anywhere: it keeps the unfinished sequence together with the range in which its next byte has to lie, and
every maximal ill-formed part of the input gives one U+FFFD.
-/

namespace ScreenWatch.Utf8

def replacement : Int := 0xFFFD

/-- The Unicode scalar values: all code points except the surrogates. -/
def IsScalar (c : Int) : Prop := (0 ≤ c ∧ c < 0xD800) ∨ (0xE000 ≤ c ∧ c ≤ 0x10FFFF)

instance (c : Int) : Decidable (IsScalar c) := inferInstanceAs (Decidable (_ ∨ _))

/-- The continuation byte with six payload bits, of which the last one counts `weight`. -/
def continuation (c weight : Nat) : UInt8 := (0x80 + c / weight % 0x40).toUInt8

def encodeScalar (c : Nat) : Bytes :=
  if c ≤ 0x7F then [c.toUInt8]
  else if c ≤ 0x7FF then [(0xC0 + c / 0x40).toUInt8, continuation c 1]
  else if c ≤ 0xFFFF then [(0xE0 + c / 0x1000).toUInt8, continuation c 0x40, continuation c 1]
  else [(0xF0 + c / 0x40000).toUInt8, continuation c 0x1000, continuation c 0x40, continuation c 1]

def encode (c : Int) : Bytes := encodeScalar (if IsScalar c then c else replacement).toNat

def encodeAll (codes : List Int) : Bytes := codes.flatMap encode

/-! ### Decoding -/

/-- An unfinished sequence: the value of its payload so far, the number of bytes still missing, and the bounds
of the next one. -/
structure Partial where
  value : Nat
  missing : Nat
  low : UInt8
  high : UInt8
  deriving DecidableEq, Inhabited

structure Decoder where
  unfinished : Option Partial := none
  deriving DecidableEq, Inhabited

namespace Decoder

def start : Decoder := ⟨none⟩

def isPending (d : Decoder) : Bool := d.unfinished.isSome

/-- The sequence that a lead byte opens.  The bounds after E0 and F0 exclude overlong forms, those after ED
the surrogates, and those after F4 everything past U+10FFFF. -/
def opened? (b : UInt8) : Option Partial :=
  let payload (base : Nat) := b.toNat - base
  if 0xC2 ≤ b ∧ b ≤ 0xDF then some ⟨payload 0xC0, 1, 0x80, 0xBF⟩
  else if b = 0xE0 then some ⟨payload 0xE0, 2, 0xA0, 0xBF⟩
  else if b = 0xED then some ⟨payload 0xE0, 2, 0x80, 0x9F⟩
  else if 0xE1 ≤ b ∧ b ≤ 0xEF then some ⟨payload 0xE0, 2, 0x80, 0xBF⟩
  else if b = 0xF0 then some ⟨payload 0xF0, 3, 0x90, 0xBF⟩
  else if 0xF1 ≤ b ∧ b ≤ 0xF3 then some ⟨payload 0xF0, 3, 0x80, 0xBF⟩
  else if b = 0xF4 then some ⟨payload 0xF0, 3, 0x80, 0x8F⟩
  else none

/-- A byte that stands at the start of something new. -/
def fresh (b : UInt8) : List Int × Decoder :=
  if b ≤ 0x7F then ([b.toNat], start)
  else match opened? b with
    | some p => ([], ⟨some p⟩)
    | none => ([replacement], start)

/-- One byte: the code points it completes and the decoder after it.  A byte that breaks an unfinished
sequence replaces it by U+FFFD and is then looked at again as the start of something new. -/
def step (d : Decoder) (b : UInt8) : List Int × Decoder :=
  match d.unfinished with
  | none => fresh b
  | some p =>
    if p.low ≤ b ∧ b ≤ p.high then
      let value := 64 * p.value + (b.toNat - 0x80)
      if p.missing ≤ 1 then ([value], start) else ([], ⟨some ⟨value, p.missing - 1, 0x80, 0xBF⟩⟩)
    else
      let (codes, d) := fresh b
      (replacement :: codes, d)

/-- `found` holds, in reverse, the code points before the text. -/
def runFrom (d : Decoder) (found : List Int) : Bytes → List Int × Decoder
  | [] => (found.reverse, d)
  | b :: rest => (d.step b).2.runFrom ((d.step b).1.reverse ++ found) rest

/-- All code points of a text, and the decoder at its end. -/
def run (d : Decoder) (text : Bytes) : List Int × Decoder := d.runFrom [] text

theorem runFrom_eq (d : Decoder) (found : List Int) (text : Bytes) :
    d.runFrom found text = (found.reverse ++ (d.run text).1, (d.run text).2) := by
  induction text generalizing d found with
  | nil => simp [run, runFrom]
  | cons b rest ih =>
    rw [run, runFrom, runFrom, ih, ih _ ((d.step b).1.reverse ++ [])]
    simp

@[simp] theorem run_nil (d : Decoder) : d.run [] = ([], d) := rfl

theorem run_cons (d : Decoder) (b : UInt8) (rest : Bytes) :
    d.run (b :: rest) = ((d.step b).1 ++ ((d.step b).2.run rest).1, ((d.step b).2.run rest).2) := by
  rw [run, runFrom, runFrom_eq]
  simp

/-- A text may be cut anywhere. -/
theorem run_append (d : Decoder) (s t : Bytes) :
    d.run (s ++ t) = ((d.run s).1 ++ ((d.run s).2.run t).1, ((d.run s).2.run t).2) := by
  induction s generalizing d with
  | nil => simp
  | cons b s ih => simp [run_cons, ih, List.append_assoc]

end Decoder

end ScreenWatch.Utf8
