import ScreenWatch.Escape.Grammar
import ScreenWatch.Notice

/-!
# The emulator

The stream of output that is being read, the sequence being collected, and the screen.  Which actions a chunk
asks for depends on the stream alone (`Stream.take`); they are then applied in order.
-/

namespace ScreenWatch

structure Emulator where
  stream : Escape.Stream := .start
  sequence : Control.Sequence := .empty
  screen : Screen
  /-- Whether control functions leave a notice. -/
  debug : Bool := false
  deriving DecidableEq, Inhabited

/-- What happens inside an emulator; it keeps its state also when a step fails. -/
abbrev EmulatorM := EStateM Fault Emulator

namespace Emulator

def create (width height : Int) : Except Fault Emulator :=
  (Screen.create width height).map fun screen => { screen }

section Editing

variable {ε α : Type}

def onScreen (edit : EStateM ε Screen α) : EStateM ε Emulator α := fun ⟨stream, sequence, screen, debug⟩ =>
  match edit screen with
  | .ok a screen => .ok a ⟨stream, sequence, screen, debug⟩
  | .error fault screen => .error fault ⟨stream, sequence, screen, debug⟩

variable (editor : Screen.Editor ε)

/-- Carries out a control function, if the final character has one.  Plain controls leave no notice of
success. -/
def dispatchBy (kind : Control.Kind) (final : Int) : EStateM ε Emulator (List Notice) := do
  let sequence := (← get).sequence
  let debug := (← get).debug
  match Control.Function.ofFinal? kind final with
  | none => return if debug then [.unhandled kind final sequence] else []
  | some f =>
    onScreen (f.performBy editor sequence)
    return if debug ∧ kind ≠ .control then [.handled kind final sequence] else []

/-- Applies one action, with the notices it leaves. -/
def applyBy : Escape.Action → EStateM ε Emulator (List Notice)
  | .print c => do
    onScreen (editor.run (.print c))
    return []
  | .execute c => dispatchBy editor .control c
  | .clear => do
    modify fun e => { e with sequence := .empty }
    return []
  | .collect c => do
    modify fun e => { e with sequence := e.sequence.collect c }
    return []
  | .param c => do
    modify fun e => { e with sequence := e.sequence.pushParam c }
    return []
  | .escDispatch c => dispatchBy editor .escape c
  | .csiDispatch c => do
    modify fun e => { e with sequence := e.sequence.flush }
    dispatchBy editor .csi c

/-- Applies actions in order; `found` holds, in reverse, the notices before them. -/
def applyAllFromBy (found : List Notice) : List Escape.Action → EStateM ε Emulator (List Notice)
  | [] => return found.reverse
  | a :: rest => do
    let notices ← applyBy editor a
    applyAllFromBy (notices.reverse ++ found) rest

def takeBy (chunk : Bytes) : EStateM ε Emulator (List Notice) := do
  let (actions, stream) := (← get).stream.take chunk
  modify fun e => { e with stream }
  applyAllFromBy editor [] actions

end Editing

def dispatch (kind : Control.Kind) (final : Int) : EmulatorM (List Notice) := dispatchBy Screen.editor kind final

def apply (a : Escape.Action) : EmulatorM (List Notice) := applyBy Screen.editor a

def applyAllFrom (found : List Notice) (actions : List Escape.Action) : EmulatorM (List Notice) :=
  applyAllFromBy Screen.editor found actions

theorem applyAllFrom_cons (found : List Notice) (a : Escape.Action) (rest : List Escape.Action) :
    applyAllFrom found (a :: rest) = (do
      let notices ← apply a
      applyAllFrom (notices.reverse ++ found) rest) := rfl

def applyAll (actions : List Escape.Action) : EmulatorM (List Notice) := applyAllFrom [] actions

def take (chunk : Bytes) : EmulatorM (List Notice) := takeBy Screen.editor chunk

/-- Forgets the sequence that is being read, not what it has collected. -/
def resetInput (e : Emulator) : Emulator := { e with stream := .start }

end Emulator

end ScreenWatch
