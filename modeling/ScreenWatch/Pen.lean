import ScreenWatch.Text.Bytes

/-!
# Pens

A pen is what a character is drawn with: two of the eight named colours and three attributes.  `Pen.apply` is
the effect of one parameter of the control sequence "select graphic rendition", and `Pen.sgr` the sequence
that selects a pen whatever was selected before.
-/

namespace ScreenWatch

inductive Color
  | black
  | red
  | green
  | yellow
  | blue
  | magenta
  | cyan
  | white
  deriving DecidableEq, Inhabited

namespace Color

/-- The colour of a number, of which the three lowest bits count. -/
def ofInt (n : Int) : Color :=
  match (n % 8).toNat with
  | 0 => black
  | 1 => red
  | 2 => green
  | 3 => yellow
  | 4 => blue
  | 5 => magenta
  | 6 => cyan
  | _ => white

def index : Color → Nat
  | black => 0
  | red => 1
  | green => 2
  | yellow => 3
  | blue => 4
  | magenta => 5
  | cyan => 6
  | white => 7

def name : Color → String
  | black => "black"
  | red => "red"
  | green => "green"
  | yellow => "yellow"
  | blue => "blue"
  | magenta => "magenta"
  | cyan => "cyan"
  | white => "white"

@[simp] theorem ofInt_index (c : Color) : ofInt c.index = c := by
  cases c <;> rfl

end Color

inductive Attribute
  | bold
  | underlined
  | inverse
  deriving DecidableEq, Inhabited

structure Pen where
  foreground : Color := .white
  background : Color := .black
  bold : Bool := false
  underlined : Bool := false
  inverse : Bool := false
  deriving DecidableEq, Inhabited

namespace Pen

/-- White on black, without attributes. -/
def plain : Pen := { }

def setAttribute (p : Pen) (a : Attribute) (on : Bool) : Pen :=
  match a with
  | .bold => { p with bold := on }
  | .underlined => { p with underlined := on }
  | .inverse => { p with inverse := on }

def clearAttributes (p : Pen) : Pen := { p with bold := false, underlined := false, inverse := false }

/-- The effect of one rendition code; unknown codes have none. -/
def apply (p : Pen) (n : Int) : Pen :=
  if n = 0 then plain
  else if 30 ≤ n ∧ n ≤ 37 then { p with foreground := .ofInt (n - 30) }
  else if 40 ≤ n ∧ n ≤ 47 then { p with background := .ofInt (n - 40) }
  else if n = 1 then p.setAttribute .bold true
  else if n = 22 then p.setAttribute .bold false
  else if n = 4 then p.setAttribute .underlined true
  else if n = 24 then p.setAttribute .underlined false
  else if n = 7 then p.setAttribute .inverse true
  else if n = 27 then p.setAttribute .inverse false
  else p

/-- `;` and a code of two digits. -/
def codeOf (tens : UInt8) (c : Color) : Bytes := [0x3B, tens, 0x30 + c.index.toUInt8]

/-- `ESC [ 0`, then the codes in which the pen differs from the plain one, then `m`. -/
def sgr (p : Pen) : Bytes :=
  [0x1B, 0x5B, 0x30]
    ++ (if p.bold then [0x3B, 0x31] else [])
    ++ (if p.underlined then [0x3B, 0x34] else [])
    ++ (if p.inverse then [0x3B, 0x37] else [])
    ++ (if p.foreground = .white then [] else codeOf 0x33 p.foreground)
    ++ (if p.background = .black then [] else codeOf 0x34 p.background)
    ++ [0x6D]

end Pen

end ScreenWatch
