import ScreenWatch.Pen
import ScreenWatch.Text.Utf8

/-!
# Screens

A screen is a grid of cells, kept row by row in one array, with a cursor, margins, a pen and, while the
alternate screen is shown, the main screen behind it.  The column of the cursor may equal the width: the next
character then wraps.  Edits run in `ScreenM`, which keeps the screen also when an edit fails, so that what a
failed edit has done can be seen.

Cells and the characters of the text are counted in an int.  There is no screen with more cells than that, and
no text with more characters.
-/

namespace ScreenWatch

structure Cell where
  code : Int
  pen : Pen
  deriving DecidableEq, Inhabited

namespace Cell

def blank (pen : Pen) : Cell := ⟨0x20, pen⟩

end Cell

structure Position where
  col : Nat := 0
  row : Nat := 0
  deriving DecidableEq, Inhabited

/-- The rows that scroll, both inclusive.  The top one may lie below the bottom one. -/
structure Margins where
  top : Nat
  bottom : Nat
  deriving DecidableEq, Inhabited

/-- The main screen while the alternate one is shown. -/
structure Snapshot where
  cells : Array Cell
  cursor : Position
  deriving DecidableEq, Inhabited

structure Screen where
  width : Nat
  height : Nat
  cells : Array Cell
  cursor : Position := { }
  margins : Margins
  pen : Pen := .plain
  saved : Position := { }
  visible : Bool := true
  behind : Option Snapshot := none
  deriving DecidableEq, Inhabited

/-- What can be out of its range: the index of a cell, the number of cells of a grid, the length of a text. -/
inductive Extent
  | cell
  | grid
  | text
  deriving DecidableEq, Inhabited

inductive Fault
  | outOfRange {e : Extent}
  /-- A width or height that is not positive. -/
  | badSize
  deriving DecidableEq, Inhabited

namespace Fault

/-- A cell outside the grid was asked for. -/
@[match_pattern]
abbrev noCell : Fault := .outOfRange (e := .cell)

/-- More cells were asked for than can be counted. -/
@[match_pattern]
abbrev tooManyCells : Fault := .outOfRange (e := .grid)

/-- A text was asked for that is longer than can be counted. -/
@[match_pattern]
abbrev textTooLong : Fault := .outOfRange (e := .text)

def message : Fault → String
  | noCell => "cell outside the grid"
  | tooManyCells => "cannot create std::vector larger than max_size()"
  | textTooLong => "basic_string::reserve"
  | badSize => "terminal dimensions must be positive"

end Fault

/-- An edit: it ends well or in a fault, and leaves a screen in both cases. -/
abbrev ScreenM := EStateM Fault Screen

namespace Screen

/-! ### Sizes -/

/-- Cells and characters are counted in an int. -/
def maxCount : Nat := 2147483647

/-- The cells of a grid of that size can be counted. -/
def HasCellRoom (width height : Nat) : Prop := width * height ≤ maxCount

/-- The characters of its text can be counted: one for each cell, and one for the end of each row. -/
def HasTextRoom (width height : Nat) : Prop := (width + 1) * height ≤ maxCount

instance (width height : Nat) : Decidable (HasCellRoom width height) := inferInstanceAs (Decidable (_ ≤ _))

instance (width height : Nat) : Decidable (HasTextRoom width height) := inferInstanceAs (Decidable (_ ≤ _))

/-- What is wrong with the size of a grid, if anything. -/
def sizeFault? (width height : Int) : Option Fault :=
  if width ≤ 0 ∨ height ≤ 0 then some .badSize
  else if HasCellRoom width.toNat height.toNat then none
  else some .tooManyCells

/-! ### New screens -/

/-- The empty screen: blank cells, the cursor at home, margins at the edges. -/
def empty (width height : Nat) : Screen where
  width := width
  height := height
  cells := Array.replicate (width * height) (Cell.blank .plain)
  margins := ⟨0, height - 1⟩

def create (width height : Int) : Except Fault Screen :=
  match sizeFault? width height with
  | some fault => .error fault
  | none => .ok (empty width.toNat height.toNat)

def isAlternate (s : Screen) : Bool := s.behind.isSome

/-- The cell of a row and column; a plain blank outside the grid. -/
def cellAt (s : Screen) (row col : Nat) : Cell := s.cells.getD (row * s.width + col) (.blank .plain)

/-- Two screens that look the same and go on in the same way, except for what lies behind them. -/
def LooksLike (s t : Screen) : Prop :=
  s.cells = t.cells ∧ s.isAlternate = t.isAlternate ∧ s.width = t.width ∧ s.height = t.height ∧
    s.cursor = t.cursor ∧ s.visible = t.visible ∧ s.pen = t.pen ∧ s.saved = t.saved ∧ s.margins = t.margins

instance (s t : Screen) : Decidable (s.LooksLike t) := inferInstanceAs (Decidable (_ ∧ _))

/-! ### Looking up a cell -/

/-- The index of a cell.  A row or column of -1 is the one of the cursor.  Only the index itself is checked,
so a column past the width is a cell of a later row. -/
def index? (s : Screen) (row col : Int) : Option Nat :=
  let row := if row = -1 then (s.cursor.row : Int) else row
  let col := if col = -1 then (s.cursor.col : Int) else col
  let i := row * s.width + col
  if 0 ≤ i ∧ i < s.cells.size then some i.toNat else none

def indexOf (row col : Int) : ScreenM Nat := fun s =>
  match s.index? row col with
  | some i => .ok i s
  | none => .error .noCell s

def getCell (row col : Int) : ScreenM Cell := do
  let i ← indexOf row col
  return (← get).cells.getD i default

def setCell (row col : Int) (cell : Cell) : ScreenM Unit := do
  let i ← indexOf row col
  modify fun s => { s with cells := s.cells.setIfInBounds i cell }

/-- A cell becomes a blank of the present pen. -/
def resetCell (row col : Int) : ScreenM Unit := do
  setCell row col (.blank (← get).pen)

/-! ### Many cells -/

/-- Copies `count` cells from index `src` on to index `dst` on, one after the other. -/
def copyCells (dst src : Nat) : Nat → Array Cell → Array Cell
  | 0, cells => cells
  | count + 1, cells =>
    copyCells (dst + 1) (src + 1) count (cells.setIfInBounds dst (cells.getD src default))

/-- `copyCells` on the grid, which has to hold all cells that are read and written. -/
def moveCells (dst src count : Nat) : ScreenM Unit := fun s =>
  if count = 0 ∨ (src + count ≤ s.cells.size ∧ dst + count ≤ s.cells.size) then
    .ok () { s with cells := copyCells dst src count s.cells }
  else .error .noCell s

def copyRow (dst src : Nat) : ScreenM Unit := do
  let width := (← get).width
  moveCells (dst * width) (src * width) width

/-- The cells of a row between two columns, both inclusive and cut to the grid, become blank. -/
def resetCells (row first last : Int) : ScreenM Unit := do
  let width : Int := (← get).width
  let first := max first 0
  let last := min last (width - 1)
  (List.range (last + 1 - first).toNat).forM fun i => resetCell row (first + i)

def resetRow (row : Int) : ScreenM Unit := do
  resetCells row 0 ((← get).width - 1)

/-! ### Text -/

/-- A grid of cells row by row, joined by newlines; `write` says how one cell is written. -/
def layout (cells : Array Cell) (width height : Nat) (write : Cell → Bytes) : Bytes :=
  Text.joined [Text.newline] <| (List.range height).map fun y =>
    (List.range width).flatMap fun x => write (cells.getD (y * width + x) (.blank .plain))

def text (s : Screen) : Bytes := layout s.cells s.width s.height fun c => Utf8.encode c.code

/-- The text, if its characters can be counted. -/
def readText : ScreenM Bytes := fun s =>
  if HasTextRoom s.width s.height then .ok s.text s else .error .textTooLong s

/-- The text with an asterisk after each bold cell. -/
def markedText (s : Screen) : Bytes :=
  layout s.cells s.width s.height fun c =>
    Utf8.encode c.code ++ (if c.pen.bold then [0x2A] else [])

/-- One step of the hash; code points count modulo 2³². -/
def hashStep (hash : UInt32) (code : Int) : UInt32 := hash * 31 + UInt32.ofInt code

/-- The hash of all code points, row by row with a newline between two rows. -/
def hash (s : Screen) : UInt32 :=
  (List.range s.height).foldl
    (fun hash y => (List.range s.width).foldl (fun hash x => hashStep hash (s.cellAt y x).code)
      (if y = 0 then hash else hashStep hash Text.newline.toNat))
    0

end Screen

end ScreenWatch
