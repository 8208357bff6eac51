import ScreenWatch.Control.Function

/-!
# Notices

What a terminal has to say on the side: traces of control functions, of what was written to it and of the
changes that this made, and the failures of its listeners.  A notice is data; `Notice.text` is its wording.
-/

namespace ScreenWatch

inductive Notice
  /-- An escape or control sequence was carried out. -/
  | handled (kind : Control.Kind) (final : Int) (sequence : Control.Sequence)
  /-- A sequence without a meaning was skipped. -/
  | unhandled (kind : Control.Kind) (final : Int) (sequence : Control.Sequence)
  | received (chunk : Bytes)
  /-- A chunk is about to be applied. -/
  | input (time : Nat) (chunk : Bytes) (cursor : Position)
  | cursorAfter (cursor : Position)
  | screenChange (frame : Nat) (before after : Bytes)
  | noScreenChange
  | verboseEnabled (width height : Nat) (cursor : Position)
  /-- The screen with which verbose mode begins. -/
  | initialScreen (text : Bytes)
  | state (cursor : Position) (margins : Margins) (alternate : Bool) (frames listeners : Nat) (unread : Bool)
  /-- The screen that belongs to a state. -/
  | currentScreen (text : Bytes)
  | screen (text : Bytes)
  /-- A listener failed; `none` if it did not say why. -/
  | listenerFailed (what : Option Bytes)
  deriving DecidableEq

namespace Notice

def line (text : Bytes) : Bytes := text ++ [Text.newline]

/-- Every line of a text between bars, after its number.  Of a line that holds a NUL, only what stands before
it is shown. -/
def numbered (text : Bytes) : Bytes :=
  (Text.lines text).zipIdx.flatMap fun (row, i) =>
    line (Text.padded 2 i ++ ascii ": |" ++ row.takeWhile (· ≠ 0) ++ ascii "|")

def position (p : Position) : Bytes :=
  ascii "(" ++ Text.decimal p.col ++ ascii ", " ++ Text.decimal p.row ++ ascii ")"

def truth (b : Bool) : Bytes := ascii (if b then "true" else "false")

def text : Notice → Bytes
  | handled kind final sequence =>
    line (ascii kind.name ++ [0x20, final.toNat.toUInt8, 0x20] ++ sequence.summary)
  | unhandled kind final sequence =>
    line (ascii "Unhandled " ++ ascii kind.name ++ ascii " final 0x" ++ Text.hex (final % 0x100000000).toNat
      ++ [0x20] ++ sequence.summary)
  | received chunk => line (ascii "Complete::write: " ++ Text.quoted chunk)
  | input time chunk cursor =>
    line [] ++ line (ascii "=== INPUT [" ++ Text.isoTime time ++ ascii "] ===")
      ++ line (ascii "Raw data: " ++ Text.quoted chunk)
      ++ line (ascii "Length: " ++ Text.decimal chunk.length)
      ++ line (ascii "Cursor before: " ++ position cursor)
  | cursorAfter cursor => line (ascii "Cursor after: " ++ position cursor)
  | screenChange frame before after =>
    line [] ++ line (ascii "--- SCREEN CHANGE (Frame " ++ Text.decimal frame ++ ascii ") ---")
      ++ line (ascii "BEFORE:") ++ numbered before
      ++ line [] ++ line (ascii "AFTER:") ++ numbered after
      ++ line (ascii "--- END SCREEN CHANGE ---")
  | noScreenChange => line (ascii "No screen changes detected.")
  | verboseEnabled width height cursor =>
    line [] ++ line (ascii "vtmirror verbose mode enabled")
      ++ line (ascii "Screen dimensions: " ++ Text.decimal width ++ ascii " x " ++ Text.decimal height)
      ++ line (ascii "Initial cursor position: " ++ position cursor)
      ++ line (ascii "Initial screen:")
  | initialScreen text => numbered text ++ line (List.replicate 60 0x3D)
  | state cursor margins alternate frames listeners unread =>
    line [] ++ line (ascii "--- TERMINAL STATE ---")
      ++ line (ascii "Cursor: " ++ position cursor)
      ++ line (ascii "Scroll Region: [" ++ Text.decimal margins.top ++ ascii ", " ++ Text.decimal margins.bottom
        ++ ascii "]")
      ++ line (ascii "Alt Screen: " ++ truth alternate)
      ++ line (ascii "Frame Counter: " ++ Text.decimal frames)
      ++ line (ascii "Change Listeners: " ++ Text.decimal listeners)
      ++ line (ascii "Has Changed Since Last Check: " ++ truth unread)
      ++ line (ascii "Current Screen:")
  | currentScreen text => numbered text ++ line (ascii "--- END STATE ---") ++ line []
  | screen text => numbered text
  | listenerFailed what =>
    line (ascii "Error in change listener: " ++ what.getD (ascii "unknown exception"))

end Notice

def logText (log : List Notice) : Bytes := log.flatMap Notice.text

end ScreenWatch
