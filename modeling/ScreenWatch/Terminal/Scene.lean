import ScreenWatch.Terminal.Basic

/-!
# Scenes

A terminal and the listeners that may be subscribed to it, with everything that can be done to them as data
(`Command`).  A listener answers to a change with commands of its own, which may write to the same terminal,
subscribe, unsubscribe or fail; so a chunk may be written while the listeners are being told of another one.

Listeners are told in the order of registration, those that were registered when the dispatch began and are
still registered when their turn comes.  The failure of one is counted and does not reach the others.  Calls
within calls go at most `maxNesting` deep; a listener that is called beyond that hears the change and does
nothing.
-/

namespace ScreenWatch

abbrev HandleName := String

inductive Command
  /-- A new terminal takes the place of the present one. -/
  | create (width height : Int)
  | destroy
  | setTime (millis : Nat)
  | write (chunk : Bytes)
  | resize (width height : Int)
  | reset
  | takeUnread
  | markRead
  | markedText
  | setVerbose (on : Bool)
  | setDebug (on : Bool)
  | logState
  | logScreen (text : Bytes)
  /-- A listener that answers to its first calls with the lists of a script, and then always with the same
  list. -/
  | listener (name : ListenerName) (callable : Bool) (script : List (List Command)) (always : List Command)
  | subscribe (name : Option ListenerName) (handle : Option HandleName)
  | unlisten (name : Option ListenerName)
  | unsubscribe (handle : HandleName)
  | isActive (handle : HandleName)
  | copyHandle (source target : HandleName)
  /-- A listener gives up, and may say why. -/
  | fail (what : Option Bytes)
  deriving Inhabited

inductive Reply
  | done
  | truth (b : Bool)
  | text (t : Bytes)
  deriving DecidableEq

inductive Failure
  | fault (f : Fault)
  | nullListener
  | notCallable
  | raised (what : Option Bytes)
  deriving DecidableEq, Inhabited

namespace Failure

/-- What is said of a failure, if anything. -/
def what : Failure → Option Bytes
  | fault f => some (ascii f.message)
  | nullListener => some (ascii "change listener must not be NULL")
  | notCallable => some (ascii "change callback must be callable")
  | raised what => what

end Failure

structure Listener where
  script : List (List Command) := []
  always : List Command := []
  calls : Nat := 0

namespace Listener

def answer (l : Listener) : List Command := l.script.getD l.calls l.always

end Listener

/-- A subscription: the generation of the terminal it was made with, and the listener. -/
structure Subscription where
  generation : Nat
  listener : ListenerName
  deriving DecidableEq

structure Scene where
  now : Nat := 0
  terminal : Option Terminal := none
  /-- How many terminals there have been; it tells the present one from the earlier ones. -/
  generation : Nat := 0
  listeners : List (ListenerName × Listener) := []
  handles : List (HandleName × Subscription) := []
  /-- Who has heard what, in order. -/
  heard : List (ListenerName × Change) := []
  log : List Notice := []
  deriving Inhabited

abbrev SceneM := EStateM Failure Scene

namespace Scene

/-- An association list in which the key has a new value, or none. -/
def assign {α : Type} (key : String) (value : Option α) (entries : List (String × α)) : List (String × α) :=
  let others := entries.filter fun e => e.1 ≠ key
  match value with
  | some v => (key, v) :: others
  | none => others

def note (notices : List Notice) : SceneM Unit := modify fun s => { s with log := s.log ++ notices }

/-- Something that happens in the terminal; nothing if there is none. -/
def onTerminal {α : Type} (absent : α) (act : TerminalM α) : SceneM α :=
  fun ⟨now, terminal, generation, listeners, handles, heard, log⟩ =>
    match terminal with
    | none => .ok absent ⟨now, none, generation, listeners, handles, heard, log⟩
    | some t =>
      match act t with
      | .ok a t => .ok a ⟨now, some t, generation, listeners, handles, heard, log⟩
      | .error fault t => .error (.fault fault) ⟨now, some t, generation, listeners, handles, heard, log⟩

/-! ### Subscriptions -/

/-- Whether the terminal of a subscription exists and the listener is registered there. -/
def isInForce (s : Scene) (subscription : Subscription) : Bool :=
  match s.terminal with
  | some t => s.generation == subscription.generation && t.registry.contains subscription.listener
  | none => false

def isActive (s : Scene) (handle : HandleName) : Bool :=
  match s.handles.lookup handle with
  | some subscription => s.isInForce subscription
  | none => false

def subscribe (name : Option ListenerName) (handle : Option HandleName) : SceneM Unit := do
  let some name := name | throw .nullListener
  onTerminal () (modify fun t => { t with registry := t.registry.add name })
  let some handle := handle | return
  modify fun s => { s with handles := assign handle (some ⟨s.generation, name⟩) s.handles }

def unlisten (name : Option ListenerName) : SceneM Unit := do
  let some name := name | return
  onTerminal () (modify fun t => { t with registry := t.registry.remove name })

/-- Removes the listener of a subscription if its terminal still exists; the handle is void afterwards. -/
def unsubscribe (handle : HandleName) : SceneM Unit := do
  let s ← get
  let some subscription := s.handles.lookup handle | return
  if s.generation = subscription.generation then unlisten (some subscription.listener)
  modify fun s => { s with handles := assign handle none s.handles }

/-! ### Dispatch -/

/-- Tells one listener, if it is registered still, and puts up with its failure. -/
def tell (hear : ListenerName → Change → SceneM Unit) (change : Change) (name : ListenerName) : SceneM Unit := do
  let registered ← onTerminal false (return (← get).registry.contains name)
  if registered then
    tryCatch (hear name change) fun failure => do
      note [.listenerFailed failure.what]
      onTerminal () (Terminal.countFailures 1)

/-- Tells the listeners that are registered now. -/
def notify (hear : ListenerName → Change → SceneM Unit) (change : Change) : SceneM Unit := do
  let members ← onTerminal [] (return (← get).registry.members)
  members.forM (tell hear change)

def write (hear : ListenerName → Change → SceneM Unit) (chunk : Bytes) : SceneM Unit := do
  let time := (← get).now
  note (← onTerminal [] (return (← get).openingNotices time chunk))
  let before ← onTerminal [] Terminal.readText
  note (← onTerminal [] (Terminal.take chunk))
  let after ← onTerminal [] Terminal.readText
  if before ≠ after then
    let change ← onTerminal none (some <$> Terminal.countChange time before chunk)
    if let some change := change then notify hear change
  note (← onTerminal [] (return (← get).closingNotices before after))

/-- Carries out a command; `hear` is what listeners do with a change. -/
def perform (hear : ListenerName → Change → SceneM Unit) : Command → SceneM Reply
  | .create width height => do
    modify fun s => { s with terminal := none }
    match Terminal.create width height with
    | .error fault => throw (.fault fault)
    | .ok terminal =>
      modify fun s => { s with terminal := some terminal, generation := s.generation + 1 }
      return .done
  | .destroy => do
    modify fun s => { s with terminal := none }
    return .done
  | .setTime millis => do
    modify fun s => { s with now := millis }
    return .done
  | .write chunk => do
    write hear chunk
    return .done
  | .resize width height => do
    onTerminal () (Terminal.resize width height)
    return .done
  | .reset => do
    onTerminal () Terminal.reset
    return .done
  | .takeUnread => onTerminal .done (.truth <$> Terminal.takeUnread)
  | .markRead => do
    onTerminal () Terminal.markRead
    return .done
  | .markedText => onTerminal .done (return .text (← get).screen.markedText)
  | .setVerbose on => do
    note (← onTerminal [] (Terminal.setVerbose on))
    note (← onTerminal [] Terminal.initialScreen)
    return .done
  | .setDebug on => do
    onTerminal () (Terminal.setDebug on)
    return .done
  | .logState => do
    note (← onTerminal [] (return [(← get).stateNotice]))
    note (← onTerminal [] Terminal.currentScreen)
    return .done
  | .logScreen text => do
    note [.screen text]
    return .done
  | .listener name callable script always => do
    unless callable do throw .notCallable
    modify fun s => { s with listeners := assign name (some { script, always }) s.listeners }
    return .done
  | .subscribe name handle => do
    subscribe name handle
    return .done
  | .unlisten name => do
    unlisten name
    return .done
  | .unsubscribe handle => do
    unsubscribe handle
    return .done
  | .isActive handle => return .truth ((← get).isActive handle)
  | .copyHandle source target => do
    modify fun s => { s with handles := assign target (s.handles.lookup source) s.handles }
    return .done
  | .fail what => throw (.raised what)

/-! ### Nesting -/

def maxNesting : Nat := 21

/-- A call of a listener, with room for that many calls within calls. -/
def hear : Nat → ListenerName → Change → SceneM Unit
  | room, name, change => do
    modify fun s => { s with heard := s.heard ++ [(name, change)] }
    let listener := ((← get).listeners.lookup name).getD { }
    modify fun s =>
      { s with listeners := assign name (some { listener with calls := listener.calls + 1 }) s.listeners }
    match room with
    | 0 => return
    | room + 1 => listener.answer.forM fun command => discard (perform (hear room) command)

def run (command : Command) : SceneM Reply := perform (hear maxNesting) command

/-- The notices and calls since the last time they were taken, and the scene without them. -/
def takeOutput (s : Scene) : (List Notice × List (ListenerName × Change)) × Scene :=
  ((s.log, s.heard), { s with log := [], heard := [] })

end Scene

end ScreenWatch
