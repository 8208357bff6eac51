import ScreenWatch.Screen.Edits

/-!
# Commands on a screen

The operations that a screen offers, as data: whatever happens to a screen is a list of commands.  Emulators and
terminals leave open how a command is carried out (`Editor`).
-/

namespace ScreenWatch.Screen

inductive Command
  | print (code : Int)
  | lineFeed
  | reverseIndex
  | tab
  | scrollUp (count : Int)
  | scrollDown (count : Int)
  | insertLine (count : Int)
  | deleteLine (count : Int)
  | deleteCell (count : Int)
  | resetRow (row : Int)
  | resetCells (row first last : Int)
  | clear
  | showAlternate
  | showMain
  | reset
  | resize (width height : Int)
  | moveToRow (row : Int)
  | moveByRows (n : Int)
  | moveToCol (col : Int)
  | moveByCols (n : Int)
  | advance
  | setCursor (col row : Int)
  | setMargins (top bottom : Int)
  | applyRendition (n : Int)
  | setForeground (c : Color)
  | setBackground (c : Color)
  | saveCursor
  | restoreCursor
  | setVisible (on : Bool)
  deriving DecidableEq

def Command.run : Command → ScreenM Unit
  | print code => Screen.print code
  | lineFeed => Screen.lineFeed
  | reverseIndex => Screen.reverseIndex
  | tab => modify Screen.tab
  | scrollUp n => Screen.scrollUp n
  | scrollDown n => Screen.scrollDown n
  | insertLine n => Screen.insertLine n
  | deleteLine n => Screen.deleteLine n
  | deleteCell n => Screen.deleteCell n
  | resetRow row => Screen.resetRow row
  | resetCells row first last => Screen.resetCells row first last
  | clear => Screen.clear
  | showAlternate => Screen.showAlternate
  | showMain => Screen.showMain
  | reset => Screen.reset
  | resize width height => Screen.resize width height
  | moveToRow row => modify (Screen.moveToRow · row)
  | moveByRows n => modify (Screen.moveByRows · n)
  | moveToCol col => modify (Screen.moveToCol · col)
  | moveByCols n => modify (Screen.moveByCols · n)
  | advance => modify Screen.advance
  | setCursor col row => modify (Screen.setCursor · col row)
  | setMargins top bottom => modify (Screen.setMargins · top bottom)
  | applyRendition n => modify (Screen.applyRendition · n)
  | setForeground c => modify fun s => { s with pen.foreground := c }
  | setBackground c => modify fun s => { s with pen.background := c }
  | saveCursor => modify Screen.saveCursor
  | restoreCursor => modify Screen.restoreCursor
  | setVisible on => modify (Screen.setVisible · on)

/-- A way to carry out commands and to read the text; `ε` is what can go wrong. -/
structure Editor (ε : Type) where
  run : Command → EStateM ε Screen Unit
  readText : EStateM ε Screen Bytes

/-- Numbers are as large as they need to be; only cells and characters have to be counted. -/
def editor : Editor Fault := ⟨Command.run, readText⟩

end ScreenWatch.Screen
