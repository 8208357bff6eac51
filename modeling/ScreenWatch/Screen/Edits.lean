import ScreenWatch.Screen.Basic

/-!
# Edits

What moves the cursor and changes the margins and the pen, none of which touches a cell; scrolling between the
margins, inserting and deleting lines and characters, one line or character at a time; drawing; and new sizes, where
the upper left corner that fits stays where it is and new cells are blanks of the present pen.
-/

namespace ScreenWatch

/-- The position moved left and up as far as the grid asks for. -/
def Position.within (p : Position) (width height : Nat) : Position :=
  ⟨min p.col (width - 1), min p.row (height - 1)⟩

namespace Screen

/-! ### The cursor, the margins and the pen

Movements stop at the edges of the screen.  Only `advance` lets the cursor stand past the last column, and a position
saved there is restored there.
-/

/-- The number moved into the range from zero to `limit`. -/
def clamp (n : Int) (limit : Nat) : Nat := min n.toNat limit

def moveToRow (s : Screen) (row : Int) : Screen :=
  { s with cursor.row := clamp row (s.height - 1) }

def moveByRows (s : Screen) (n : Int) : Screen := s.moveToRow (s.cursor.row + n)

def moveToCol (s : Screen) (col : Int) : Screen :=
  { s with cursor.col := clamp col (s.width - 1) }

def moveByCols (s : Screen) (n : Int) : Screen := s.moveToCol (s.cursor.col + n)

def advance (s : Screen) : Screen := { s with cursor.col := s.cursor.col + 1 }

/-- The cursor at a column and row; the column may be the one past the last. -/
def setCursor (s : Screen) (col row : Int) : Screen :=
  { s with cursor := ⟨clamp col s.width, clamp row (s.height - 1)⟩ }

def home (s : Screen) : Screen := s.setCursor 0 0

/-- New margins; the cursor goes to the first column of the top one. -/
def setMargins (s : Screen) (top bottom : Int) : Screen :=
  let top := clamp top (s.height - 1)
  { s with margins := ⟨top, clamp bottom (s.height - 1)⟩, cursor := ⟨0, top⟩ }

def saveCursor (s : Screen) : Screen := { s with saved := s.cursor }

def restoreCursor (s : Screen) : Screen := s.setCursor s.saved.col s.saved.row

def setVisible (s : Screen) (on : Bool) : Screen := { s with visible := on }

def applyRendition (s : Screen) (n : Int) : Screen := { s with pen := s.pen.apply n }

/-- The next tab stop; there is one every eight columns. -/
def tab (s : Screen) : Screen := s.moveToCol (s.cursor.col / 8 * 8 + 8 : Nat)

/-! ### Scrolling and editing

`stepsOf` cuts a count to the number of steps after which further steps change nothing.
-/

/-- How often a step is worth doing for a count, where `span` lines or characters can move. -/
def stepsOf (count span : Int) : Nat :=
  if count ≤ 0 then 0 else (min count (max span 1)).toNat

def repeated : Nat → ScreenM Unit → ScreenM Unit
  | 0, _ => pure ()
  | n + 1, edit => do
    edit
    repeated n edit

/-- The rows from `top` to `bottom` move up by one, the last one becomes blank. -/
def shiftUp (top bottom : Nat) : ScreenM Unit := do
  (List.range (bottom - top)).forM fun i => copyRow (top + i) (top + i + 1)
  resetRow bottom

/-- The rows from `top` to `bottom` move down by one, the first one becomes blank. -/
def shiftDown (top bottom : Nat) : ScreenM Unit := do
  (List.range (bottom - top)).forM fun i => copyRow (bottom - i) (bottom - i - 1)
  resetRow top

def scrollUp (count : Int) : ScreenM Unit := do
  let ⟨top, bottom⟩ := (← get).margins
  repeated (stepsOf count (bottom - top + 1)) (shiftUp top bottom)

def scrollDown (count : Int) : ScreenM Unit := do
  let ⟨top, bottom⟩ := (← get).margins
  repeated (stepsOf count (bottom - top + 1)) (shiftDown top bottom)

def insertLine (count : Int) : ScreenM Unit := do
  let s ← get
  let row := s.cursor.row
  let bottom := s.margins.bottom
  repeated (stepsOf count (bottom - row + 1)) (shiftDown row bottom)

def deleteLine (count : Int) : ScreenM Unit := do
  let s ← get
  let row := s.cursor.row
  let bottom := s.margins.bottom
  repeated (stepsOf count (bottom - row + 1)) (shiftUp row bottom)

/-- The cells of a row from column `col` on move left by one, the last one becomes blank. -/
def shiftLeft (row col : Nat) : ScreenM Unit := do
  let width := (← get).width
  moveCells (row * width + col) (row * width + col + 1) (width - 1 - col)
  resetCell row (width - 1)

def deleteCell (count : Int) : ScreenM Unit := do
  let s ← get
  repeated (stepsOf count (s.width - s.cursor.col)) (shiftLeft s.cursor.row s.cursor.col)

/-! ### Feeding lines -/

/-- The first column of the next line.  The last line of the screen, wherever the margins are, is not left:
there the lines between the margins scroll. -/
def lineFeed : ScreenM Unit := do
  modify (·.moveToCol 0)
  let s ← get
  if s.cursor.row ≥ s.height - 1 then scrollUp 1 else set (s.moveByRows 1)

/-- One line up; at or above the top margin the lines between the margins scroll down. -/
def reverseIndex : ScreenM Unit := do
  let s ← get
  if s.cursor.row ≤ s.margins.top then scrollDown 1 else set (s.moveByRows (-1))

/-- Draws a character at the cursor, after the wrap that may be pending. -/
def print (code : Int) : ScreenM Unit := do
  let s ← get
  if s.cursor.col ≥ s.width then lineFeed
  setCell (-1) (-1) ⟨code, (← get).pen⟩
  modify advance

/-! ### The whole screen -/

/-- All cells become blanks of the present pen, and the cursor goes home. -/
def clear : ScreenM Unit :=
  modify fun s => { s with cells := Array.replicate s.cells.size (.blank s.pen) }.home

/-- The blank alternate screen, unless it is shown already. -/
def showAlternate : ScreenM Unit := do
  let s ← get
  if s.isAlternate then return
  set { s with behind := some ⟨s.cells, s.cursor⟩ }
  clear

/-- Back to the main screen, if the alternate one is shown. -/
def showMain : ScreenM Unit :=
  modify fun s =>
    match s.behind with
    | none => s
    | some main => { s with cells := main.cells, behind := none }.setCursor main.cursor.col main.cursor.row

def reset : ScreenM Unit := modify fun s => empty s.width s.height

/-! ### New sizes

The screen behind the alternate one is treated in the same way, and all positions move into the new grid.
-/

/-- The cells of an old grid laid out in a new one. -/
def refit (cells : Array Cell) (oldWidth oldHeight width height : Nat) (fill : Cell) : Array Cell :=
  (List.range (min oldHeight height)).foldl
    (fun fitted y => (List.range (min oldWidth width)).foldl
      (fun fitted x => fitted.setIfInBounds (y * width + x) (cells.getD (y * oldWidth + x) fill)) fitted)
    (Array.replicate (width * height) fill)

/-- The screen in another size, both of its numbers positive. -/
def resized (s : Screen) (width height : Nat) : Screen :=
  let refit (cells : Array Cell) := refit cells s.width s.height width height (.blank s.pen)
  let bottom := min s.margins.bottom (height - 1)
  { s with
    width := width
    height := height
    cells := refit s.cells
    cursor := s.cursor.within width height
    saved := s.saved.within width height
    margins := ⟨min s.margins.top bottom, bottom⟩
    behind := s.behind.map fun main => ⟨refit main.cells, main.cursor.within width height⟩ }

def resize (width height : Int) : ScreenM Unit := do
  if let some fault := sizeFault? width height then throw fault
  modify (·.resized width.toNat height.toNat)

end Screen

end ScreenWatch
