import ScreenWatch.Bounded.Arithmetic
import ScreenWatch.Terminal.Basic

/-!
# Terminals with bounded numbers

A terminal whose edits stop at the first expression that is out of the range, with its value; what would follow has no
meaning.
-/

namespace ScreenWatch.Bounded

inductive Stop
  /-- The value of an expression is not an int. -/
  | overflow (value : Int)
  | fault (f : Fault)
  deriving DecidableEq

abbrev BoundedM (σ : Type) := EStateM Stop σ

variable {σ α : Type}

/-- The first of the values that is not an int. -/
def overflow? (values : List Int) : Option Int := values.find? fun value => ¬ IsInt value

def evaluate (values : List Int) : BoundedM σ Unit :=
  match overflow? values with
  | some value => throw (.overflow value)
  | none => pure ()

/-- An action as it is without bounds. -/
def lift (act : EStateM Fault σ α) : BoundedM σ α := fun s =>
  match act s with
  | .ok a t => .ok a t
  | .error f t => .error (.fault f) t

/-- The numbers of a command are evaluated before it is carried out. -/
def run (c : Screen.Command) : BoundedM Screen Unit := do
  evaluate (numbers c)
  evaluate (Values.ofCommand (← get) c)
  lift c.run

def readText : BoundedM Screen Bytes := do
  evaluate (Values.text (← get))
  lift Screen.readText

def editor : Screen.Editor Stop := ⟨run, readText⟩

/-! ### Calls -/

/-- What is asked of a terminal: to take a chunk of output, to begin anew or to have another size. -/
inductive Call
  | receive (time : Nat) (chunk : Bytes)
  | reset
  | resize (width height : Nat)

namespace Call

def runBy {ε : Type} (editor : Screen.Editor ε) : Call → EStateM ε Terminal Unit
  | receive time chunk => discard (Terminal.receiveBy editor (fun _ _ => none) time chunk)
  | reset => Terminal.editBy editor .reset
  | resize width height => Terminal.editBy editor (.resize width height)

def run (c : Call) : TerminalM Unit := c.runBy Screen.editor

/-- The same with bounded numbers. -/
def perform (c : Call) : BoundedM Terminal Unit := c.runBy editor

end Call

/-- A new terminal. -/
def create (width height : Int) : Except Stop Terminal :=
  match overflow? (if width ≤ 0 ∨ height ≤ 0 then [] else Values.empty width height) with
  | some value => .error (.overflow value)
  | none => (Terminal.create width height).mapError .fault

/-- A new terminal, and what is asked of it. -/
def follow (width height : Int) (calls : List Call) : Except Stop Terminal :=
  match create width height with
  | .error stop => .error stop
  | .ok t =>
    match calls.forM Call.perform t with
    | .ok _ t' => .ok t'
    | .error stop _ => .error stop

end ScreenWatch.Bounded
