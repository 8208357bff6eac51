import ScreenWatch.Text.Utf8

/-!
# The grammar of terminal streams

A stream of code points is cut into printed characters, controls, escape sequences, control sequences and
operating system commands by a machine with four states.  `step` gives the actions that one code point asks
for, in order, and the next state.  Inside a control sequence or a command no code point is special except
those that the state itself knows, so an escape character there starts nothing.

A `Stream` reads bytes.  Chunks may end anywhere, also within a character or a sequence (`take_append`).
-/

namespace ScreenWatch.Escape

/-- Where the stream stands: in plain text, after ESC, after `ESC [`, or after `ESC ]`. -/
inductive State
  | ground
  | escape
  | csi
  | oscString
  deriving DecidableEq, Inhabited

inductive Action
  | print (code : Int)
  /-- A control that moves the cursor. -/
  | execute (code : Int)
  /-- The start of a sequence: what an earlier one collected is void. -/
  | clear
  /-- A character between the parameters and the final one. -/
  | collect (code : Int)
  /-- A digit or separator of the parameters. -/
  | param (code : Int)
  | escDispatch (code : Int)
  | csiDispatch (code : Int)
  deriving DecidableEq

/-- Backspace, tab, line feed and carriage return; the other controls do nothing. -/
def isExecuted (c : Int) : Bool := c == 0x08 || c == 0x09 || c == 0x0A || c == 0x0D

/-- The finals of the escape sequences without further structure: `D M E 7 8 c`. -/
def isEscapeFinal (c : Int) : Bool :=
  c == 0x44 || c == 0x4D || c == 0x45 || c == 0x37 || c == 0x38 || c == 0x63

def isParameter (c : Int) : Bool := (0x30 ≤ c && c ≤ 0x39) || c == 0x3B

def isIntermediate (c : Int) : Bool := (0x20 ≤ c && c ≤ 0x2F) || c == 0x3F

/-- BEL, or the backslash that ends the string terminator. -/
def isTerminator (c : Int) : Bool := c == 0x07 || c == 0x5C

def step : State → Int → List Action × State
  | .ground, c =>
    if c = 0x1B then ([.clear], .escape)
    else if isExecuted c then ([.execute c], .ground)
    else if 0 ≤ c ∧ c < 0x20 then ([], .ground)
    else ([.print c], .ground)
  | .escape, c =>
    if c = 0x5B then ([], .csi)
    else if c = 0x5D then ([], .oscString)
    else if isEscapeFinal c then ([.escDispatch c], .ground)
    else ([], .ground)
  | .csi, c =>
    if isParameter c then ([.param c], .csi)
    else if isIntermediate c then ([.collect c], .csi)
    else ([.csiDispatch c], .ground)
  | .oscString, c => ([], if isTerminator c then .ground else .oscString)

/-- `found` holds, in reverse, the actions before the stream. -/
def runFrom (state : State) (found : List Action) : List Int → List Action × State
  | [] => (found.reverse, state)
  | c :: rest => runFrom (step state c).2 ((step state c).1.reverse ++ found) rest

/-- The actions of a whole stream, in order, and the state at its end. -/
def run (state : State) (codes : List Int) : List Action × State := runFrom state [] codes

theorem runFrom_eq (state : State) (found : List Action) (codes : List Int) :
    runFrom state found codes = (found.reverse ++ (run state codes).1, (run state codes).2) := by
  induction codes generalizing state found with
  | nil => simp [run, runFrom]
  | cons c rest ih =>
    rw [run, runFrom, runFrom, ih, ih _ ((step state c).1.reverse ++ [])]
    simp

@[simp] theorem run_nil (state : State) : run state [] = ([], state) := rfl

theorem run_cons (state : State) (c : Int) (rest : List Int) :
    run state (c :: rest) =
      ((step state c).1 ++ (run (step state c).2 rest).1, (run (step state c).2 rest).2) := by
  rw [run, runFrom, runFrom_eq]
  simp

/-- A stream may be cut anywhere. -/
theorem run_append (state : State) (s t : List Int) :
    run state (s ++ t) = ((run state s).1 ++ (run (run state s).2 t).1, (run (run state s).2 t).2) := by
  induction s generalizing state with
  | nil => simp
  | cons c s ih => simp [run_cons, ih, List.append_assoc]

namespace Action

/-- The code point that an action carries. -/
def code? : Action → Option Int
  | clear => none
  | print c | execute c | collect c | param c | escDispatch c | csiDispatch c => some c

end Action

/-! ### Bytes -/

/-- The decoder of UTF-8 in front of the machine. -/
structure Stream where
  decoder : Utf8.Decoder := .start
  state : State := .ground
  deriving DecidableEq, Inhabited

namespace Stream

def start : Stream := { }

def take (s : Stream) (chunk : Bytes) : List Action × Stream :=
  let (codes, decoder) := s.decoder.run chunk
  let (actions, state) := run s.state codes
  (actions, ⟨decoder, state⟩)

theorem take_append (s : Stream) (a b : Bytes) :
    s.take (a ++ b) = ((s.take a).1 ++ ((s.take a).2.take b).1, ((s.take a).2.take b).2) := by
  simp [take, Utf8.Decoder.run_append, run_append]

end Stream

end ScreenWatch.Escape
