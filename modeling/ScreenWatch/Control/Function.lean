import ScreenWatch.Control.Sequence
import ScreenWatch.Screen.Command

/-!
# Control functions

The functions that controls, escape sequences and control sequences stand for.  The final character alone
selects the function; what it does to the screen depends on the parameters of the sequence.
-/

namespace ScreenWatch.Control

inductive Kind
  | escape
  | csi
  | control
  deriving DecidableEq, Inhabited

def Kind.name : Kind → String
  | escape => "ESC"
  | csi => "CSI"
  | control => "control"

inductive Function
  | eraseInLine
  | eraseInDisplay
  | cursorUp
  | cursorDown
  | cursorForward
  | cursorBack
  | cursorPosition
  | lineFeed
  | carriageReturn
  | backspace
  | tab
  | reverseIndex
  | nextLine
  | saveCursor
  | restoreCursor
  | reset
  | setMode
  | resetMode
  | setMargins
  | selectRendition
  | insertLine
  | deleteLine
  | deleteCharacter
  | scrollUp
  | scrollDown
  | linePosition
  | characterPosition
  deriving DecidableEq, Inhabited

namespace Function

/-- The function of a final character, if it has one. -/
def ofFinal? (kind : Kind) (final : Int) : Option Function :=
  let letter? := if 0 ≤ final ∧ final ≤ 0x7F then some (Char.ofNat final.toNat) else none
  match kind, letter? with
  | .csi, some 'K' => some eraseInLine
  | .csi, some 'J' => some eraseInDisplay
  | .csi, some 'A' => some cursorUp
  | .csi, some 'B' => some cursorDown
  | .csi, some 'C' => some cursorForward
  | .csi, some 'D' => some cursorBack
  | .csi, some 'H' => some cursorPosition
  | .csi, some 'f' => some cursorPosition
  | .csi, some 's' => some saveCursor
  | .csi, some 'u' => some restoreCursor
  | .csi, some 'h' => some setMode
  | .csi, some 'l' => some resetMode
  | .csi, some 'r' => some setMargins
  | .csi, some 'm' => some selectRendition
  | .csi, some 'L' => some insertLine
  | .csi, some 'M' => some deleteLine
  | .csi, some 'P' => some deleteCharacter
  | .csi, some 'S' => some scrollUp
  | .csi, some 'T' => some scrollDown
  | .csi, some 'd' => some linePosition
  | .csi, some 'G' => some characterPosition
  | .escape, some 'D' => some lineFeed
  | .escape, some 'M' => some reverseIndex
  | .escape, some 'E' => some nextLine
  | .escape, some '7' => some saveCursor
  | .escape, some '8' => some restoreCursor
  | .escape, some 'c' => some reset
  | .control, some '\n' => some lineFeed
  | .control, some '\r' => some carriageReturn
  | .control, some '\x08' => some backspace
  | .control, some '\t' => some tab
  | _, _ => none

open Screen (Command)

def runAll (commands : List Command) : ScreenM Unit := commands.forM Screen.editor.run

/-- Erases in the line of the cursor: from the cursor on, up to the cursor, or all of it. -/
def erasureInLine (s : Screen) (extent : Int) : List Command :=
  let row : Int := s.cursor.row
  if extent = 0 then [.resetCells row s.cursor.col (s.width - 1)]
  else if extent = 1 then [.resetCells row 0 s.cursor.col]
  else if extent = 2 then [.resetRow row]
  else []

/-- Erases in the screen: from the cursor on, up to the cursor, or all of it with the cursor going home. -/
def erasureInDisplay (s : Screen) (extent : Int) : List Command :=
  let row := s.cursor.row
  if extent = 0 then
    .resetCells row s.cursor.col (s.width - 1)
      :: (List.range (s.height - (row + 1))).map fun i => .resetRow (row + 1 + i : Nat)
  else if extent = 1 then
    (List.range row).map (fun y => .resetRow y) ++ [.resetCells row 0 s.cursor.col]
  else if extent = 2 then [.clear]
  else []

/-- The private modes: 25 shows the cursor, 1049 the alternate screen. -/
def modeChange (on : Bool) (mode : Nat) : List Command :=
  if mode = 25 then [.setVisible on]
  else if mode = 1049 then [if on then .showAlternate else .showMain]
  else []

/-- What a function does to a screen, with the parameters of its sequence. -/
def commands (f : Function) (q : Sequence) (s : Screen) : List Command :=
  let first := q.param 0 1
  match f with
  | eraseInLine => erasureInLine s (q.param 0 0)
  | eraseInDisplay => erasureInDisplay s (q.param 0 0)
  | cursorUp => [.moveByRows (-first)]
  | cursorDown => [.moveByRows first]
  | cursorForward => [.moveByCols first]
  | cursorBack => [.moveByCols (-first)]
  | cursorPosition => [.moveToRow (first - 1), .moveToCol (q.param 1 1 - 1)]
  | lineFeed => [.lineFeed]
  | carriageReturn => [.moveToCol 0]
  | backspace => [.moveByCols (-1)]
  | tab => [.tab]
  | reverseIndex => [.reverseIndex]
  | nextLine => [.moveToCol 0, .lineFeed]
  | saveCursor => [.saveCursor]
  | restoreCursor => [.restoreCursor]
  | reset => [.reset]
  | setMode => if q.intermediate = [0x3F] then q.params.flatMap (modeChange true) else []
  | resetMode => if q.intermediate = [0x3F] then q.params.flatMap (modeChange false) else []
  | setMargins => [.setMargins (first - 1) (q.param 1 s.height - 1)]
  | selectRendition =>
    if q.params.isEmpty then [.applyRendition 0] else q.params.map fun (n : Nat) => .applyRendition n
  | insertLine => [.insertLine first]
  | deleteLine => [.deleteLine first]
  | deleteCharacter => [.deleteCell first]
  | scrollUp => [.scrollUp first]
  | scrollDown => [.scrollDown first]
  | linePosition => [.moveToRow (first - 1), .moveByCols 0]
  | characterPosition => [.moveToCol (first - 1)]

def performBy {ε : Type} (editor : Screen.Editor ε) (f : Function) (q : Sequence) : EStateM ε Screen Unit := do
  (f.commands q (← get)).forM editor.run

def perform (f : Function) (q : Sequence) : ScreenM Unit := f.performBy Screen.editor q

end Function

end ScreenWatch.Control
