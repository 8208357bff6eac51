import ScreenWatch.Host.Delivery
import ScreenWatch.Host.Selector
import ScreenWatch.Repaint.Display
import ScreenWatch.Session.Options

/-!
# The world of a session

What the operating system answers to a session (`Machine`), and what of it changes while the session goes on
(`World`): the answers that are left, the clock, the last error number, and everything that the session has
done and said.
-/

namespace ScreenWatch.Session

open Host

/-- The answers that stay the same; an error number means that the call fails. -/
structure Machine where
  env : Environment := []
  description : Repaint.Description := { }
  wall : Nat := 0
  isTerminal : Bool := false
  codeset : Option Bytes := some (ascii "ANSI_X3.4-1968")
  localeError : Option Errno := none
  getModeError : Option Errno := none
  /-- Whether the terminal treats its input as UTF-8. -/
  hasUtf8Mode : Bool := false
  /-- Which of the calls that set a mode fails, counted from one. -/
  failingSetMode : Option Nat := none
  forkError : Option Errno := none
  /-- Whether the session is the child after the fork. -/
  isChild : Bool := false
  closeError : Option Errno := none
  waitError : Option Errno := none
  setVariableError : Option Errno := none
  execError : Errno := Errno.noEntry
  /-- The shell of the user, if there is an entry for the user. -/
  shell : Option Bytes := none
  /-- Why the log of frames cannot be opened, if it cannot. -/
  logError : Option Errno := none
  /-- What is raised when the record of a frame is appended to the log, if anything. -/
  recordFailure : Nat → Option Bytes := fun _ => none

inductive ChildMode
  | unspecified
  | plain
  | utf8
  deriving DecidableEq

inductive Mode
  | raw
  | saved
  deriving DecidableEq

inductive Target
  | user
  | child
  deriving DecidableEq

namespace Target

def descriptor : Target → Nat
  | user => 1
  | child => 99

end Target

def userInput : Int := 0

def childTerminal : Int := 99

inductive Call
  | setLocale
  | fork (cols rows : Nat) (mode : ChildMode)
  | setMode (mode : Mode)
  | wait (count : Int) (limit : Option (Nat × Nat))
  | write (target : Target) (data : Bytes)
  | execute (searches : Bool) (terminal file : Bytes) (arguments : List Bytes)
  | closeChild
  | waitForChild
  deriving DecidableEq

namespace Call

def modeName : ChildMode → String
  | .unspecified => "no termios"
  | .plain => "plain"
  | .utf8 => "iutf8"

def line : Call → Bytes
  | setLocale => ascii "setlocale LC_ALL"
  | fork cols rows mode =>
    ascii "forkpty " ++ Text.decimal cols ++ ascii "x" ++ Text.decimal rows ++ ascii " " ++ ascii (modeName mode)
  | setMode .raw => ascii "tcsetattr 0 raw"
  | setMode .saved => ascii "tcsetattr 0 saved"
  | wait count limit =>
    ascii "pselect " ++ Text.decimalInt count ++ ascii " " ++
      match limit with
      | none => ascii "forever"
      | some (seconds, nanoseconds) => Text.decimal seconds ++ ascii "." ++ Text.padded 9 nanoseconds
  | write .user data => ascii "write stdout " ++ data
  | write .child data => ascii "write child " ++ data
  | execute searches terminal file arguments =>
    ascii (if searches then "execvp" else "execv") ++ ascii " TERM=" ++ terminal ++ ascii " " ++ file ++ ascii ": "
      ++ Text.joined (ascii " ") arguments
  | closeChild => ascii "close child"
  | waitForChild => ascii "waitpid"

end Call

structure World where
  machine : Machine
  writes : List Int := []
  millis : Nat := 0
  clock : Clock := { }
  selector : Selector := { }
  errno : Errno := 0
  modesSet : Nat := 0
  calls : Array Call := #[]
  received : Array (Int × Bytes) := #[]
  output : Array Bytes := #[]
  complaints : Array Bytes := #[]

inductive Stop
  | exit (status : Nat)
  /-- A condition that always holds did not hold. -/
  | fatal
  | raised (message : Bytes)
  deriving DecidableEq, Inhabited

abbrev SessionM := EStateM Stop World

namespace World

def record (call : Call) : SessionM Unit := modify fun w => { w with calls := w.calls.push call }

def print (text : Bytes) : SessionM Unit := modify fun w => { w with output := w.output.push text }

def complain (text : Bytes) : SessionM Unit := modify fun w => { w with complaints := w.complaints.push text }

def setErrno (e : Errno) : SessionM Unit := modify fun w => { w with errno := e }

def reportFailure (subject : String) (e : Errno) : SessionM Unit := do
  setErrno e
  complain (e.report (ascii subject))

def giveUp {α : Type} (subject : String) (e : Errno) : SessionM α := do
  reportFailure subject e
  throw (.exit 1)

def demand {α : Type} : Option α → SessionM α
  | some a => return a
  | none => throw .fatal

/-! ### System calls -/

/-- Writes everything to a target, and says whether that was possible. -/
def deliver (target : Target) (data : Bytes) : SessionM Bool := do
  let delivery := Delivery.deliver data (← get).writes
  modify fun w => { w with
    writes := delivery.unused
    errno := delivery.lastError.getD w.errno
    calls := w.calls ++ (delivery.pieces.map (Call.write target)).toArray }
  match delivery.failure with
  | none => return true
  | some failure =>
    complain (failure.report target.descriptor)
    return false

/-- Sets the mode of the user's terminal, and says whether that was possible. -/
def setMode (mode : Mode) : SessionM (Option Errno) := do
  record (.setMode mode)
  let w ← get
  let count := w.modesSet + 1
  set { w with modesSet := count }
  if w.machine.failingSetMode = some count then
    setErrno Errno.inputOutput
    return some Errno.inputOutput
  return none

/-- Waits for an event, and freezes the time at which the waiting has ended. -/
def wait (timeout : Int) (event : Option Event) : SessionM (Except Errno Nat) := do
  let w ← get
  record (.wait w.selector.span (Selector.limit timeout))
  let (result, selector) := w.selector.wait event
  let millis := (event.bind Event.millis).getD w.millis
  let errno := match event with
    | none => Errno.inputOutput
    | some e => if e.signals.isSome then Errno.interrupted else e.error.getD w.errno
  modify fun w => { w with selector, millis, errno }
  let (clock, report) := (← get).clock.freeze (.ofMillis millis)
  modify fun w => { w with clock }
  complain report
  return result

def time : SessionM UInt64 := do
  let w ← get
  let (time, clock, report) := w.clock.time (.ofMillis w.millis)
  modify fun w => { w with clock }
  complain report
  return time

def isReadable (descriptor : Int) : SessionM Bool := do
  demand ((← get).selector.isReadable? descriptor)

def takeSignal (signal : Int) : SessionM Bool := do
  let (arrived, selector) ← demand ((← get).selector.takeSignal signal)
  modify fun w => { w with selector }
  return arrived

def watchDescriptor (descriptor : Int) : SessionM Unit := do
  let selector ← demand ((← get).selector.addDescriptor descriptor)
  modify fun w => { w with selector }

def watchSignal (signal : Int) : SessionM Unit := do
  let selector ← demand ((← get).selector.addSignal signal)
  modify fun w => { w with selector }

def bufferSize : Nat := 16384

/-- Reads after an event: bytes, of which there are none at the end of the input, or the number of a failure.
-/
def read (event : Event) (descriptor : Int) : SessionM (Except Errno Bytes) := do
  match event.answer descriptor with
  | .failed e =>
    setErrno e
    return .error e
  | .endOfFile => return .ok []
  | .bytes b =>
    let chunk := b.take bufferSize
    modify fun w => { w with received := w.received.push (descriptor, chunk) }
    return .ok chunk

end World

end ScreenWatch.Session
