import ScreenWatch.Repaint.Brush

/-!
# Frames

The bytes that turn what a terminal shows of one screen into another (`frame`).  Only rows that differ are
painted.  A row is painted from the left, its trailing blanks are erased, and the bottom right corner is never
written, because the terminal would scroll.
-/

namespace ScreenWatch.Repaint

/-- Whether a cell may be left to an erasure of the line.  With `bce`, the terminal erases with the background
that is selected; without it, it erases to plain cells. -/
def isErasable (bce : Bool) (c : Cell) : Bool := c.code == 0x20 && (bce || c.pen == .plain)

def rowCells (s : Screen) (row : Nat) : List Cell := (List.range s.width).map (s.cellAt row)

def drawnLength (bce : Bool) (s : Screen) (row : Nat) : Nat :=
  let length := ((rowCells s row).reverse.dropWhile (isErasable bce)).length
  if row + 1 = s.height ∧ length = s.width then s.width - 1 else length

def paintCell (c : Cell) : Stroke :=
  .all [.usePen c.pen false, .drawCell c, .believe fun b => { b with col := b.col + 1 }]

def paintErasure (bce : Bool) (s : Screen) (row : Nat) : Stroke :=
  .andThen (.usePen (if bce then (s.cellAt row (s.width - 1)).pen else .plain) false) (.put Stroke.eraseLine)

/-- After the last column the terminal may have wrapped or not. -/
def forgetAtEdge (width : Nat) : Stroke :=
  .believe fun b => if b.col ≥ width then { b with col := -1, row := -1 } else b

def paintRow (bce : Bool) (s : Screen) (row : Nat) : Stroke :=
  let drawn := drawnLength bce s row
  .all [
    .silentMove row 0,
    .all (((rowCells s row).take drawn).map paintCell),
    if drawn < s.width then paintErasure bce s row else .nothing,
    forgetAtEdge s.width]

def rowDiffers (last s : Screen) (row : Nat) : Bool := rowCells last row != rowCells s row

/-- Where the cursor of a screen shows; a pending wrap shows in the last column. -/
def shownCol (s : Screen) : Nat := if s.cursor.col ≥ s.width then s.width - 1 else s.cursor.col

def paintCursor (s : Screen) : Stroke :=
  .all [
    .move s.cursor.row (shownCol s),
    fun b =>
      if b.visible ≠ s.visible then
        (if s.visible then Stroke.showCursor else Stroke.hideCursor, { b with visible := s.visible })
      else ([], b),
    .usePen s.pen false]

/-- Whether a frame can build on what is shown. -/
def canUpdate (initialized : Bool) (last s : Screen) : Bool :=
  initialized && s.width == last.width && s.height == last.height

/-- The start of a frame: of an update, with the plain pen; else of a cleared screen.  A cleared screen is
believed to show its cursor. -/
def opening (update : Bool) (last : Screen) : Stroke :=
  if update then
    .andThen (.usePen .plain true) (.believe fun b => { b with col := -1, row := -1, visible := last.visible })
  else fun _ => (Stroke.clearAll, { })

/-- The strokes of a frame that shows `s` where `last` was shown, if anything was. -/
def frameStroke (bce initialized : Bool) (last s : Screen) : Stroke :=
  let update := canUpdate initialized last s
  .all [
    opening update last,
    .all <| (List.range s.height).map fun row =>
      if update && !rowDiffers last s row then .nothing else paintRow bce s row,
    paintCursor s]

def frame (bce initialized : Bool) (last s : Screen) : Bytes := (frameStroke bce initialized last s { }).1

end ScreenWatch.Repaint
