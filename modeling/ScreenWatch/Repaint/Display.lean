import ScreenWatch.Repaint.Frame

/-!
# Displays

What is known of the terminal that is painted on: how it erases, and how its own alternate screen is entered
and left.  The answers come from its description (`Description`), which may lack what is asked of it.
-/

namespace ScreenWatch.Repaint

inductive Capability
  /-- The description knows no such capability. -/
  | unknown
  /-- The terminal does not have it. -/
  | absent
  | bytes (b : Bytes)
  deriving DecidableEq, Inhabited

/-- The description of a terminal: whether it was found (status zero) or else why not, and its capabilities.
-/
structure Description where
  status : Int := -1
  cause : Int := 0
  /-- The flag for erasing with the background colour; -1 if unknown. -/
  bce : Int := -1
  enter : Capability := .unknown
  leave : Capability := .unknown
  deriving DecidableEq, Inhabited

inductive DescriptionError
  | hardcopy
  | unknownType
  | noDatabase
  | unexplained
  | noFlag (name : String)
  | noString (name : String)
  deriving DecidableEq

namespace DescriptionError

def ofCause (cause : Int) : DescriptionError :=
  if cause = 1 then hardcopy
  else if cause = 0 then unknownType
  else if cause = -1 then noDatabase
  else unexplained

def message : DescriptionError → String
  | hardcopy => "terminal is hardcopy and cannot be mirrored onto"
  | unknownType => "unknown terminal type (is TERM set?)"
  | noDatabase => "terminfo database could not be found"
  | unexplained => "unknown terminfo error"
  | noFlag name => "terminfo has no boolean capability " ++ name
  | noString name => "terminfo has no string capability " ++ name

end DescriptionError

structure Display where
  bce : Bool := true
  enter : Bytes := []
  leave : Bytes := []
  deriving DecidableEq, Inhabited

namespace Display

/-- A terminal that follows the standard and has no alternate screen. -/
def standard : Display := { }

def stringOf (name : String) : Capability → Except DescriptionError Bytes
  | .unknown => .error (.noString name)
  | .absent => .ok []
  | .bytes b => .ok b

/-- The display of a described terminal; with `inPlace` its alternate screen is not used. -/
def ofDescription (d : Description) (inPlace : Bool) : Except DescriptionError Display := do
  if d.status ≠ 0 then throw (.ofCause d.cause)
  if d.bce = -1 then throw (.noFlag "bce")
  let bce := d.bce ≠ 0
  if inPlace then return { bce }
  let enter ← stringOf "smcup" d.enter
  let leave ← stringOf "rmcup" d.leave
  return { bce, enter, leave }

def opening (d : Display) : Bytes := d.enter

/-- Attributes off and the cursor shown, then back from the alternate screen. -/
def closing (d : Display) : Bytes := Pen.plain.sgr ++ Stroke.showCursor ++ d.leave

def frame (d : Display) (initialized : Bool) (last s : Screen) : Bytes := Repaint.frame d.bce initialized last s

end Display

end ScreenWatch.Repaint
