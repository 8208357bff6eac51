import ScreenWatch.Session.Pump

/-!
# The program

A session from its command line to its exit status.  The user's terminal is put into raw mode while the
session goes on, and gets its mode back however the session ends.
-/

namespace ScreenWatch.Session

open Host World

namespace Program

/-- Where the locale uses UTF-8, so does the child's terminal. -/
def childMode (m : Machine) : ChildMode :=
  if !m.isTerminal then .unspecified
  else if m.hasUtf8Mode || Locale.isUtf8 m.codeset then .utf8
  else .plain

def childTerminalType : Bytes := ascii "xterm-color"

def execute (searches : Bool) (file : Bytes) (arguments : List Bytes) : SessionM Unit := do
  record (.execute searches childTerminalType file arguments)
  let e := (← get).machine.execError
  setErrno e
  complain (e.report file)
  throw (.exit 1)

def runChild (o : Options) : SessionM Unit := do
  let m := (← get).machine
  if let some e := m.setVariableError then giveUp "setenv" e
  match o.command with
  | some (file :: arguments) => execute true file (file :: arguments)
  | _ =>
    match m.env.nonempty? "SHELL", m.shell with
    | some shell, _ => execute false shell [shell]
    | none, some shell => execute false shell [shell]
    | none, none => giveUp "getpwuid" Errno.noEntry

/-- Gives the user's terminal its mode back, if there is one. -/
def restoreMode : SessionM (Option Errno) := do
  if (← get).machine.isTerminal then setMode .saved else return none

/-- Follows the child, and gives the exit status.  A failure that was raised is reported at once, with the
mode given back before. -/
def followGuarded (o : Options) (events : List Event) : SessionM Nat :=
  tryCatch (do discard (Pump.follow o events); return 0) fun
    | .raised message => do
      discard restoreMode
      complain (ascii "Fatal error: " ++ message ++ [Text.newline])
      return 1
    | stop => throw stop

/-- The parent follows the child's screen, waits for the child and takes its leave. -/
def runParent (o : Options) (events : List Event) : SessionM Nat := do
  if (← get).machine.isTerminal then
    if let some e ← setMode .raw then giveUp "tcsetattr" e
  let status ← followGuarded o events
  if let some e ← restoreMode then giveUp "tcsetattr" e
  record .closeChild
  if let some e := (← get).machine.closeError then reportFailure "close" e
  record .waitForChild
  if let some e := (← get).machine.waitError then reportFailure "waitpid" e
  print (ascii "\n[vtmirror is exiting.]\n")
  return status

def runSession (o : Options) (events : List Event) : SessionM Nat := do
  let m := (← get).machine
  record .setLocale
  complain (Locale.setNative m.env m.localeError)
  if m.isTerminal then
    if let some e := m.getModeError then giveUp "tcgetattr" e
  record (.fork o.cols o.rows (childMode m))
  if let some e := m.forkError then giveUp "forkpty" e
  if m.isChild then runChild o
  runParent o events

/-- The whole program, started with its name and arguments. -/
def main (arguments : List Bytes) (events : List Event) : SessionM Nat := do
  match Options.parse (← get).machine.env arguments with
  | .error .noName => throw .fatal
  | .error refusal =>
    let program := arguments.headD []
    print (refusal.output program)
    complain (refusal.complaint program)
    throw (.exit refusal.status)
  | .ok o => runSession o events

end Program

structure Report where
  /-- The exit status; none if a condition that must hold did not. -/
  status : Option Nat
  output : Bytes
  complaints : Bytes
  calls : List Call

/-- Runs the program on a machine that answers writes and waits as given. -/
def report (m : Machine) (arguments : List Bytes) (writes : List Int) (events : List Event) : Report :=
  let conclude (status : Option Nat) (w : World) : Report :=
    ⟨status, w.output.toList.flatten, w.complaints.toList.flatten, w.calls.toList⟩
  match Program.main arguments events { machine := m, writes } with
  | .ok status w => conclude (some status) w
  | .error (.exit status) w => conclude (some status) w
  | .error .fatal w => conclude none w
  | .error (.raised _) w => conclude none w

end ScreenWatch.Session
