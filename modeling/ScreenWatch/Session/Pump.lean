import ScreenWatch.Session.World
import ScreenWatch.Terminal.Basic

/-!
# The pump

The loop of a session.  Bytes from the user go to the child as they are, bytes from the child to the terminal;
after each event the presenter may repaint.  The loop ends with a signal, the end of either input, or a
failure.
-/

namespace ScreenWatch.Session

open Host World

/-! ### The presenter -/

/-- Repaints the user's terminal.  It remembers the screen that it has painted last and when that was. -/
structure Presenter where
  display : Repaint.Display
  interval : Nat
  painted : Screen
  initialized : Bool := false
  lastTime : UInt64 := 0

namespace Presenter

def isEarly (p : Presenter) (now : UInt64) (force : Bool) : Bool :=
  p.initialized && !force && now - p.lastTime < UInt64.ofNat p.interval

def isUpToDate (p : Presenter) (t : Terminal) : Bool :=
  p.initialized && !t.unread && decide (p.painted.LooksLike t.screen)

def paint (p : Presenter) (t : Terminal) (now : UInt64) : SessionM (Terminal × Presenter) := do
  let delivered ← World.deliver .user (p.display.frame p.initialized p.painted t.screen)
  unless delivered do
    throw (.raised (ascii "write: " ++ ascii (Host.Errno.description (← get).errno)))
  let t := { t with unread := false, readHash := t.screen.hash }
  return (t, { p with painted := t.screen, initialized := true, lastTime := now })

/-- Brings the user's terminal up to date, unless it is too early for that and `force` does not ask for it.
Says whether nothing is left to do. -/
def tick (p : Presenter) (t : Terminal) (force : Bool) : SessionM (Bool × Terminal × Presenter) := do
  let now ← World.time
  if p.isEarly now force then return (false, t, p)
  if p.isUpToDate t then return (true, t, p)
  let (t, p) ← p.paint t now
  return (true, t, p)

end Presenter

/-! ### The loop -/

structure Pump where
  terminal : Terminal
  presenter : Option Presenter
  /-- How long to wait for the next event; below zero, forever. -/
  timeout : Int := -1

namespace Pump

/-- Hang-up, interrupt and termination. -/
def fatalSignals : List Int := [15, 1, 2]

def onTerminal {α : Type} (p : Pump) (act : TerminalM α) : SessionM (α × Pump) :=
  match act p.terminal with
  | .ok a terminal => return (a, { p with terminal })
  | .error fault _ => throw (.raised (ascii fault.message))

def log (notices : List Notice) : SessionM Unit := notices.forM fun notice => complain notice.text

/-- Passes the user's input on.  Says whether the session goes on. -/
def passInput (event : Event) : SessionM Bool := do
  match ← read event userInput with
  | .error e =>
    reportFailure "read" e
    return false
  | .ok [] => return false
  | .ok chunk => deliver .child chunk

/-- Writes a chunk of the child's output to the terminal.  Of the listeners, the log of frames may fail. -/
def receive (p : Pump) (chunk : Bytes) : SessionM Pump := do
  let machine := (← get).machine
  log (p.terminal.openingNotices machine.wall chunk)
  let (notices, p) ← p.onTerminal
    (Terminal.receive machine.wall chunk fun _ change => machine.recordFailure change.frame)
  log notices
  return p

/-- Shows the child's output to the terminal; an input/output error means that the child has ended. -/
def takeOutput (p : Pump) (event : Event) : SessionM (Bool × Pump) := do
  match ← read event childTerminal with
  | .error e =>
    if e ≠ Errno.inputOutput then reportFailure "read" e
    return (false, p)
  | .ok [] => return (false, p)
  | .ok chunk => return (true, ← p.receive chunk)

def isEnded : List Int → SessionM Bool
  | [] => return false
  | signal :: rest => do
    if ← takeSignal signal then return true
    isEnded rest

/-- Deals with the input that is there.  Says whether the session goes on. -/
def handle (p : Pump) (event : Event) : SessionM (Bool × Pump) := do
  if (← get).machine.isTerminal then
    if ← isReadable userInput then return (← passInput event, p)
  if ← isReadable childTerminal then p.takeOutput event
  else return (true, p)

/-- Lets the presenter repaint, and chooses how long to wait next. -/
def present (p : Pump) (force : Bool) : SessionM Pump := do
  let some presenter := p.presenter | return p
  let (isDone, terminal, presenter) ← presenter.tick p.terminal force
  return { terminal, presenter := some presenter, timeout := if isDone then -1 else presenter.interval }

/-- Waits for an event and deals with it.  Says whether the session goes on. -/
def step (p : Pump) (event : Option Event) : SessionM (Bool × Pump) := do
  match ← wait p.timeout event, event with
  | .error e, _ =>
    reportFailure "select" e
    return (false, p)
  | .ok _, none => return (false, p)
  | .ok _, some event =>
    if ← isEnded fatalSignals then return (false, p)
    let (goesOn, p) ← p.handle event
    if goesOn then return (true, ← p.present false) else return (false, p)

/-- Deals with events in turn until the session ends; when there are no more events, waiting fails. -/
def run : List Event → Pump → SessionM Pump
  | [], p => return (← p.step none).2
  | event :: rest, p => do
    let (goesOn, p) ← p.step (some event)
    if goesOn then run rest p else return p

/-! ### The whole loop -/

/-- A display for the user's terminal, whose alternate screen is entered unless the environment says
otherwise. -/
def openDisplay : SessionM Repaint.Display := do
  let machine := (← get).machine
  match Repaint.Display.ofDescription machine.description (machine.env.get? "VTMIRROR_NO_TERM_INIT").isSome with
  | .error e => throw (.raised (ascii e.message))
  | .ok display =>
    discard (deliver .user display.opening)
    return display

/-- The terminal that the child's output is shown to. -/
def openTerminal (o : Options) : SessionM Terminal :=
  match Terminal.create o.cols o.rows with
  | .error fault => throw (.raised (ascii fault.message))
  | .ok terminal => return terminal

/-- The listener that appends a record of each change to the log of frames. -/
def logListener : ListenerName := "frame log"

/-- Opens the log of frames, if one is asked for, and lets it hear of the changes. -/
def openLog (p : Pump) (o : Options) : SessionM Pump := do
  if o.frameLog.isEmpty then return p
  if let some e := (← get).machine.logError then
    setErrno e
    throw (.raised (o.frameLog ++ ascii ": " ++ ascii (Errno.description e)))
  return { p with terminal.registry := p.terminal.registry.add logListener }

def start (o : Options) : SessionM Pump := do
  let terminal ← openTerminal o
  let p : Pump := { terminal, presenter := none }
  let (notices, p) ← p.onTerminal (Terminal.setVerbose o.verbose)
  log notices
  let (notices, p) ← p.onTerminal Terminal.initialScreen
  log notices
  let (_, p) ← p.onTerminal (Terminal.setDebug o.debug)
  let p ← p.openLog o
  if o.present then
    let display ← openDisplay
    return { p with presenter := some { display, interval := o.interval, painted := .empty o.cols o.rows } }
  return p

def watch : SessionM Unit := do
  if (← get).machine.isTerminal then watchDescriptor userInput
  watchDescriptor childTerminal
  fatalSignals.forM watchSignal

/-- The last repaint, which does not wait, and the last words. -/
def finish (o : Options) (p : Pump) : SessionM Pump := do
  let p ← p.present true
  if let some presenter := p.presenter then discard (deliver .user presenter.display.closing)
  if o.verbose then
    log [p.terminal.stateNotice]
    let (notices, _) ← p.onTerminal Terminal.currentScreen
    log notices
  if p.terminal.failures ≠ 0 then
    complain (Text.decimal p.terminal.failures ++ ascii " change listener error(s).\n")
  return p

/-- Follows the child's screen until the session ends, and gives the pump as it is then. -/
def follow (o : Options) (events : List Event) : SessionM Pump := do
  let p ← start o
  watch
  let p ← run events p
  finish o p

end Pump

end ScreenWatch.Session
