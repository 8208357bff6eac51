import ScreenWatch.Screen.Command

/-!
# The arithmetic of edits

The numbers of a screen are ints of 32 bits.  What an edit does is said without bounds; here are the values of the
expressions that it evaluates on the way, as long as it does not fail: the numbers of cells, rows and columns that are
looked up, moved by or counted to (`Values.ofCommand`).
-/

namespace ScreenWatch.Bounded

open Screen (Command)

def IsInt (n : Int) : Prop := -2147483648 ≤ n ∧ n ≤ 2147483647

instance (n : Int) : Decidable (IsInt n) := inferInstanceAs (Decidable (_ ∧ _))

namespace Values

/-! ### Loops -/

/-- From `first` up to the number before `last`; the counter ends at `last`. -/
def countUp (first last : Int) (body : Int → List Int) : List Int :=
  (List.range (last - first).toNat).flatMap fun (i : Nat) => body (first + i) ++ [first + i + 1]

/-- From `first` down to the number after `last`; the counter ends at `last`. -/
def countDown (first last : Int) (body : Int → List Int) : List Int :=
  (List.range (first - last).toNat).flatMap fun (i : Nat) => body (first - i) ++ [first - i - 1]

/-! ### The cursor and the margins -/

/-- A row or column that is moved to; only one past the last is replaced. -/
def stop (n : Int) (size : Nat) : List Int := if size ≤ max n 0 then [(size : Int) - 1] else []

variable (s : Screen)

def moveToRow (row : Int) : List Int := stop row s.height

def moveByRows (n : Int) : List Int := [s.cursor.row + n] ++ moveToRow s (s.cursor.row + n)

def moveToCol (col : Int) : List Int := stop col s.width

def moveByCols (n : Int) : List Int := [s.cursor.col + n] ++ moveToCol s (s.cursor.col + n)

def tab : List Int :=
  let stop : Int := (s.cursor.col : Int) / 8 * 8
  [stop, stop + 8] ++ moveToCol s (stop + 8)

def advance : List Int := [(s.cursor.col : Int) + 1]

/-- A cursor that is set, or margins, are held against the last row. -/
def lastRow : List Int := [(s.height : Int) - 1]

/-- A color is told by its distance from the first one. -/
def rendition (n : Int) : List Int :=
  if 30 ≤ n ∧ n ≤ 37 then [n - 30] else if 40 ≤ n ∧ n ≤ 47 then [n - 40] else []

/-! ### Cells -/

/-- A row or column of -1 is the one of the cursor. -/
def cell (row col : Int) : List Int :=
  let row := if row = -1 then (s.cursor.row : Int) else row
  let col := if col = -1 then (s.cursor.col : Int) else col
  [row * s.width, row * s.width + col]

def copyRow (dst src : Int) : List Int := [src * s.width, src + 1, (src + 1) * s.width, dst * s.width]

def resetCells (row first last : Int) : List Int :=
  [(s.width : Int) - 1] ++ countUp (max first 0) (min last (s.width - 1) + 1) (cell s row)

def resetRow (row : Int) : List Int := [(s.width : Int) - 1] ++ resetCells s row 0 (s.width - 1)

/-! ### Scrolling and editing -/

def shiftUp (top bottom : Int) : List Int :=
  (countUp top bottom fun y => [y + 1] ++ copyRow s y (y + 1)) ++ resetRow s bottom

def shiftDown (top bottom : Int) : List Int :=
  (countDown bottom top fun y => [y - 1] ++ copyRow s y (y - 1)) ++ resetRow s top

def shiftLeft (row col : Int) : List Int :=
  [(s.width : Int) - 1] ++
    (countUp col (s.width - 1) fun x => [x + 1] ++ cell s row (x + 1) ++ cell s row x) ++ cell s row (s.width - 1)

/-- A step as often as a count says, where `span` lines or characters can move. -/
def repeated (count span : Int) (step : List Int) : List Int := countUp 0 (Screen.stepsOf count span) fun _ => step

/-- How many rows there are from one to another. -/
def rows (top bottom : Int) : List Int := [bottom - top, bottom - top + 1]

def scrollUp (count : Int) : List Int :=
  let top := s.margins.top
  let bottom := s.margins.bottom
  rows top bottom ++ repeated count (bottom - top + 1) (shiftUp s top bottom)

def scrollDown (count : Int) : List Int :=
  let top := s.margins.top
  let bottom := s.margins.bottom
  rows top bottom ++ repeated count (bottom - top + 1) (shiftDown s top bottom)

def insertLine (count : Int) : List Int :=
  let row := s.cursor.row
  let bottom := s.margins.bottom
  rows row bottom ++ repeated count (bottom - row + 1) (shiftDown s row bottom)

def deleteLine (count : Int) : List Int :=
  let row := s.cursor.row
  let bottom := s.margins.bottom
  rows row bottom ++ repeated count (bottom - row + 1) (shiftUp s row bottom)

def deleteCell (count : Int) : List Int :=
  let span := (s.width : Int) - s.cursor.col
  [span] ++ repeated count span (shiftLeft s s.cursor.row s.cursor.col)

def lineFeed : List Int :=
  moveToCol s 0 ++ lastRow s ++ if s.cursor.row ≥ s.height - 1 then scrollUp s 1 else moveByRows s 1

def reverseIndex : List Int :=
  if s.cursor.row ≤ s.margins.top then scrollDown s 1 else moveByRows s (-1)

/-- A character goes to the cell of the cursor, and the cursor to the next column. -/
def draw : List Int := cell s (-1) (-1) ++ advance s

def print : List Int :=
  if s.cursor.col ≥ s.width then
    lineFeed s ++ match Screen.lineFeed s with
      | .ok _ t => draw t
      | .error _ _ => []
  else draw s

/-! ### Grids -/

/-- The margins of a new grid, and its cells. -/
def empty (width height : Int) : List Int := [height - 1, width * height]

def refit (oldWidth oldHeight width height : Int) : List Int :=
  [width * height] ++ countUp 0 (min oldHeight height) fun y =>
    [y * oldWidth, y * oldWidth + min oldWidth width, y * width]

def resize (width height : Int) : List Int :=
  let refit := refit s.width s.height width height
  let corner := [width - 1, height - 1]
  if width ≤ 0 ∨ height ≤ 0 then []
  else refit ++ (if s.isAlternate then refit ++ corner else []) ++ corner

/-- The length of the text, for which space is reserved, and all cells. -/
def text : List Int :=
  [(s.width : Int) + 1, (s.width + 1) * s.height] ++
    countUp 0 s.height fun y => countUp 0 s.width fun x => cell s y x

/-! ### Commands -/

def ofCommand : Command → List Int
  | .print _ => print s
  | .lineFeed => lineFeed s
  | .reverseIndex => reverseIndex s
  | .tab => tab s
  | .scrollUp n => scrollUp s n
  | .scrollDown n => scrollDown s n
  | .insertLine n => insertLine s n
  | .deleteLine n => deleteLine s n
  | .deleteCell n => deleteCell s n
  | .resetRow row => resetRow s row
  | .resetCells row first last => resetCells s row first last
  | .showAlternate => if s.isAlternate then [] else lastRow s
  | .showMain => if s.isAlternate then lastRow s else []
  | .reset => empty s.width s.height
  | .resize width height => resize s width height
  | .moveToRow row => moveToRow s row
  | .moveByRows n => moveByRows s n
  | .moveToCol col => moveToCol s col
  | .moveByCols n => moveByCols s n
  | .advance => advance s
  | .clear | .setCursor _ _ | .setMargins _ _ | .restoreCursor => lastRow s
  | .applyRendition n => rendition n
  | .setForeground _ | .setBackground _ | .saveCursor | .setVisible _ => []

end Values

/-- The numbers that a command is given. -/
def numbers : Command → List Int
  | .scrollUp n | .scrollDown n | .insertLine n | .deleteLine n | .deleteCell n | .resetRow n | .moveToRow n
  | .moveByRows n | .moveToCol n | .moveByCols n | .applyRendition n => [n]
  | .setMargins m n | .setCursor m n | .resize m n => [m, n]
  | .resetCells row first last => [row, first, last]
  | _ => []

end ScreenWatch.Bounded
