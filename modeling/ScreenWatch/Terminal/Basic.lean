import ScreenWatch.Emulator
import ScreenWatch.Terminal.Registry

/-!
# Terminals

An emulator together with those who listen to it.  Whenever a chunk of output changes the text of the screen,
the terminal counts a frame and describes the change; the frame counter, the flag for unread changes and the
hash of the screen that was read last belong to the terminal, not to the screen.
-/

namespace ScreenWatch

structure Change where
  /-- Frames are numbered from one. -/
  frame : Nat
  time : Nat
  before : Bytes
  after : Bytes
  cursor : Position
  chunk : Bytes
  deriving DecidableEq

abbrev ListenerName := String

structure Terminal where
  emulator : Emulator
  registry : Registry ListenerName := .empty
  /-- The changes so far.  The number has 64 bits, more than there can be changes. -/
  frames : Nat := 0
  unread : Bool := false
  readHash : UInt32 := 0
  /-- The calls of listeners that failed, as far as 32 bits count them. -/
  failureCount : UInt32 := 0
  verbose : Bool := false
  deriving DecidableEq, Inhabited

abbrev TerminalM := EStateM Fault Terminal

namespace Terminal

def create (width height : Int) : Except Fault Terminal :=
  (Emulator.create width height).map fun emulator => { emulator }

def screen (t : Terminal) : Screen := t.emulator.screen

def text (t : Terminal) : Bytes := t.screen.text

def debug (t : Terminal) : Bool := t.emulator.debug

def failures (t : Terminal) : Nat := t.failureCount.toNat

section Editing

variable {ε α : Type}

def onEmulator (act : EStateM ε Emulator α) : EStateM ε Terminal α :=
  fun ⟨emulator, registry, frames, unread, readHash, failureCount, verbose⟩ =>
    match act emulator with
    | .ok a emulator => .ok a ⟨emulator, registry, frames, unread, readHash, failureCount, verbose⟩
    | .error fault emulator => .error fault ⟨emulator, registry, frames, unread, readHash, failureCount, verbose⟩

variable (editor : Screen.Editor ε)

def editBy (c : Screen.Command) : EStateM ε Terminal Unit := onEmulator (Emulator.onScreen (editor.run c))

def takeBy (chunk : Bytes) : EStateM ε Terminal (List Notice) := onEmulator (Emulator.takeBy editor chunk)

def readTextBy : EStateM ε Terminal Bytes := onEmulator (Emulator.onScreen editor.readText)

end Editing

/-- Takes a chunk of output, without counting a frame. -/
def take (chunk : Bytes) : TerminalM (List Notice) := takeBy Screen.editor chunk

def resize (width height : Int) : TerminalM Unit := editBy Screen.editor (.resize width height)

def reset : TerminalM Unit := editBy Screen.editor .reset

/-- The text of the screen, if its characters can be counted. -/
def readText : TerminalM Bytes := readTextBy Screen.editor

/-! ### Changes -/

section Counting

variable {ε : Type}

/-- Counts a frame for a chunk that has changed the text, and describes the change. -/
def countChange (time : Nat) (before chunk : Bytes) : EStateM ε Terminal Change :=
  modifyGet fun t =>
    let t := { t with frames := t.frames + 1, unread := true }
    (⟨t.frames, time, before, t.text, t.screen.cursor, chunk⟩, t)

def countFailures (count : Nat) : EStateM ε Terminal Unit :=
  modify fun t => { t with failureCount := t.failureCount + UInt32.ofNat count }

end Counting

/-- Whether there was a change since the last question or reading; the answer is given once. -/
def takeUnread : TerminalM Bool := modifyGet fun t => (t.unread, { t with unread := false })

def markRead : TerminalM Unit :=
  modify fun t => { t with unread := false, readHash := t.screen.hash }

/-! ### Notices -/

/-- The notices before a chunk is applied. -/
def openingNotices (t : Terminal) (time : Nat) (chunk : Bytes) : List Notice :=
  (if t.debug then [.received chunk] else []) ++
    (if t.verbose then [.input time chunk t.screen.cursor] else [])

/-- The notices after a chunk was applied and its change, if there was one, was told to the listeners. -/
def closingNotices (t : Terminal) (before after : Bytes) : List Notice :=
  if t.verbose then
    [.cursorAfter t.screen.cursor,
      if before = after then .noScreenChange else .screenChange t.frames before after]
  else []

def setVerbose (on : Bool) : TerminalM (List Notice) :=
  modifyGet fun t =>
    let t := { t with verbose := on }
    (if on then [.verboseEnabled t.screen.width t.screen.height t.screen.cursor] else [], t)

/-- The screen that is shown when verbose mode begins. -/
def initialScreen : TerminalM (List Notice) := do
  if (← get).verbose then return [.initialScreen (← readText)] else return []

def setDebug (on : Bool) : TerminalM Unit := modify fun t => { t with emulator.debug := on }

def stateNotice (t : Terminal) : Notice :=
  .state t.screen.cursor t.screen.margins t.screen.isAlternate t.frames t.registry.size t.unread

/-- The screen that is shown after a state. -/
def currentScreen : TerminalM (List Notice) := return [.currentScreen (← readText)]

/-! ### Listeners that only hear -/

section Editing

variable {ε : Type} (editor : Screen.Editor ε) (raises : ListenerName → Change → Option Bytes)

/-- Tells the listeners of a change; `raises` says what each of them raises, if anything. -/
def tellAll (change : Change) : EStateM ε Terminal (List Notice) := do
  let raised := (← get).registry.members.filterMap fun name => raises name change
  countFailures raised.length
  return raised.map fun what => .listenerFailed (some what)

def receiveBy (time : Nat) (chunk : Bytes) : EStateM ε Terminal (List Notice) := do
  let before ← readTextBy editor
  let traces ← takeBy editor chunk
  let after ← readTextBy editor
  let failures ← if before ≠ after then do tellAll raises (← countChange time before chunk) else pure []
  return traces ++ failures ++ (← get).closingNotices before after

end Editing

/-- Writes a chunk of output to a terminal whose listeners do nothing to it. -/
def receive (time : Nat) (chunk : Bytes) (raises : ListenerName → Change → Option Bytes := fun _ _ => none) :
    TerminalM (List Notice) :=
  receiveBy Screen.editor raises time chunk

end Terminal

end ScreenWatch
