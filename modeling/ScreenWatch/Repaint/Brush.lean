import ScreenWatch.Screen.Basic

/-!
# Painting on a terminal

A frame is painted by strokes.  A stroke gives the bytes to send and keeps track of what is believed of the
terminal that receives them: where its cursor is, with which pen it draws, and whether the cursor shows
(`Brush`).  A coordinate of -1 is unknown; the next move is then absolute.
-/

namespace ScreenWatch.Repaint

structure Brush where
  col : Int := 0
  row : Int := 0
  pen : Pen := .plain
  visible : Bool := true
  deriving DecidableEq, Inhabited

abbrev Stroke := Brush → Bytes × Brush

namespace Stroke

def nothing : Stroke := fun b => ([], b)

/-- Bytes that leave everything as it was. -/
def put (bytes : Bytes) : Stroke := fun b => (bytes, b)

/-- A correction of what is believed. -/
def believe (f : Brush → Brush) : Stroke := fun b => ([], f b)

def andThen (s t : Stroke) : Stroke := fun b =>
  let (first, b) := s b
  let (second, b) := t b
  (first ++ second, b)

def all : List Stroke → Stroke
  | [] => nothing
  | s :: rest => s.andThen (all rest)

/-! ### Single strokes -/

def hideCursor : Bytes := [0x1B, 0x5B, 0x3F, 0x32, 0x35, 0x6C]

def showCursor : Bytes := [0x1B, 0x5B, 0x3F, 0x32, 0x35, 0x68]

def eraseLine : Bytes := [0x1B, 0x5B, 0x4B]

/-- All attributes off, the cursor home, the screen cleared. -/
def clearAll : Bytes := [0x1B, 0x5B, 0x30, 0x6D, 0x1B, 0x5B, 0x48, 0x1B, 0x5B, 0x32, 0x4A]

/-- The absolute move to a row and column, which the sequence counts from one. -/
def absoluteMove (row col : Int) : Bytes :=
  [0x1B, 0x5B] ++ Text.decimalInt (row + 1) ++ [0x3B] ++ Text.decimalInt (col + 1) ++ [0x48]

/-- The bytes of a move: none if the cursor is there, line feeds to the first column of one of the next four
lines, and an absolute move otherwise. -/
def moveBytes (b : Brush) (row col : Int) : Bytes :=
  if b.col = -1 ∨ b.row = -1 then absoluteMove row col
  else if col = b.col ∧ row = b.row then []
  else if col = 0 ∧ 0 ≤ row - b.row ∧ row - b.row < 5 then
    (if b.col ≠ 0 then [0x0D] else []) ++ List.replicate (row - b.row).toNat 0x0A
  else absoluteMove row col

def move (row col : Int) : Stroke := fun b => (moveBytes b row col, { b with row, col })

/-- A move behind a hidden cursor. -/
def silentMove (row col : Int) : Stroke := fun b =>
  if b.col = col ∧ b.row = row then ([], b)
  else if b.visible then ((put hideCursor).andThen (move row col)) { b with visible := false }
  else move row col b

/-- Selects a pen; `force` does so even if it is believed to be selected. -/
def usePen (pen : Pen) (force : Bool) : Stroke := fun b =>
  if force ∨ b.pen ≠ pen then (pen.sgr, { b with pen }) else ([], b)

/-- A character; where the cursor stands after it is for the caller to say. -/
def drawCell (c : Cell) : Stroke := put (Utf8.encode c.code)

end Stroke

end ScreenWatch.Repaint
