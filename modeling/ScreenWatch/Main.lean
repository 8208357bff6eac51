import ScreenWatch.Session.Program

/-!
# The command line

A session on a real machine.  What the child would write comes from the standard input, so that the program
stands at the end of a pipe; a command cannot be started from here, and asking for one fails like a fork that
is not permitted.
-/

namespace ScreenWatch.CommandLine

open Session

def bytes (s : String) : Bytes := s.toUTF8.toList

def variableNames : List String :=
  ["VTMIRROR_COLS", "VTMIRROR_ROWS", "VTMIRROR_NO_TERM_INIT", "POSIXLY_CORRECT", "LC_ALL", "LC_CTYPE", "LANG"]

def readEnvironment : IO Host.Environment :=
  variableNames.filterMapM fun name => do
    return (← IO.getEnv name).map fun value => (bytes name, bytes value)

/-- A terminal with an alternate screen that erases with the selected background. -/
def description : Repaint.Description where
  status := 0
  bce := 1
  enter := .bytes (bytes "\x1b[?1049h")
  leave := .bytes (bytes "\x1b[?1049l")

def send (stream : IO.FS.Stream) (pieces : List Bytes) : IO Unit := do
  pieces.forM fun piece => stream.write ⟨piece.toArray⟩
  stream.flush

/-- The bytes that are meant for the user's terminal. -/
def sent (calls : Array Call) : List Bytes :=
  calls.toList.filterMap fun
    | .write .user data => some data
    | _ => none

/-- Lets everything out that a session has written, and forgets it. -/
def release (w : World) : IO World := do
  send (← IO.getStdout) (sent w.calls ++ w.output.toList)
  send (← IO.getStderr) w.complaints.toList
  return { w with calls := #[], received := #[], output := #[], complaints := #[] }

/-- Runs a part of a session on the machine; none if the session ends there. -/
def perform {α : Type} (act : SessionM α) (w : World) : IO (Option α × World) := do
  match act w with
  | .ok a w => return (some a, ← release w)
  | .error (.raised message) w =>
    let w ← release w
    send (← IO.getStderr) [bytes "Fatal error: ", message, bytes "\n"]
    return (none, w)
  | .error _ w => return (none, ← release w)

def nextEvent : IO Host.Event := do
  let chunk ← (← IO.getStdin).read World.bufferSize.toUSize
  let answer := if chunk.isEmpty then Host.ReadAnswer.endOfFile else .bytes chunk.toList
  return { millis := some (← IO.monoMsNow), reads := [(childTerminal, answer)] }

partial def followInput (p : Pump) (w : World) : IO (Option Pump × World) := do
  let event ← nextEvent
  match ← perform (p.step (some event)) w with
  | (none, w) => return (none, w)
  | (some (true, p), w) => followInput p w
  | (some (false, p), w) => return (some p, w)

/-- Shows the standard input on a terminal, and gives the exit status. -/
def follow (o : Options) (env : Host.Environment) : IO UInt32 := do
  let machine : Machine := { env, description }
  let begin : SessionM Pump := do
    let p ← Pump.start o
    Pump.watch
    return p
  let (some p, w) ← perform begin { machine } | return 1
  let (some p, w) ← followInput p w | return 1
  let (some _, w) ← perform (Pump.finish o p) w | return 1
  let _ ← perform (World.print (bytes "\n[vtmirror is exiting.]\n")) w
  return 0

def run (arguments : List String) : IO UInt32 := do
  let program := bytes (← IO.appPath).toString
  let env ← readEnvironment
  match Options.parse env (program :: arguments.map bytes) with
  | .error refusal =>
    send (← IO.getStdout) [refusal.output program]
    send (← IO.getStderr) [refusal.complaint program]
    return refusal.status.toUInt32
  | .ok o =>
    if o.command.isSome then
      send (← IO.getStderr) [Host.Errno.report (bytes "forkpty") 1]
      return 1
    follow o env

end ScreenWatch.CommandLine

def main (arguments : List String) : IO UInt32 := ScreenWatch.CommandLine.run arguments
