import ScreenWatch.Host.Locale
import ScreenWatch.Session.Arguments
import ScreenWatch.Text.Positive

/-!
# Options of a session

The size of the terminal, the interval between repaints, what is shown and logged, and the command to run.
The size may also come from the environment; options come later and win.
-/

namespace ScreenWatch.Session

open Host (Environment)

structure Options where
  cols : Nat := 80
  rows : Nat := 24
  interval : Nat := 20
  frameLog : Bytes := []
  present : Bool := true
  verbose : Bool := false
  debug : Bool := false
  command : Option (List Bytes) := none
  deriving DecidableEq, Inhabited

inductive Refusal
  /-- Not even the name of the program is given. -/
  | noName
  | help
  | version
  | badVariable (name : String) (value : Bytes)
  /-- An option whose value is not the number that it should be. -/
  | badNumber (what : String) (value : Bytes)
  | invalidLetter (letter : UInt8)
  | missingValue (letter : UInt8)
  deriving DecidableEq

namespace Refusal

def usage (program : Bytes) : Bytes :=
  ascii "Usage: " ++ program
    ++ ascii " [-c COLS] [-r ROWS] [-i INTERVAL_MS] [-o FRAMELOG] [-n] [-v] [-d] [-- COMMAND...]\n"

def versionText : Bytes :=
  ascii "vtmirror (vtmirror 1.0.0) [build 1.0.0]\n"
    ++ ascii "Copyright 2026 the vtmirror authors\n"
    ++ ascii "License GPLv3+: GNU GPL version 3 or later <http://gnu.org/licenses/gpl.html>.\n"
    ++ ascii "This is free software: you are free to change and redistribute it.\n"
    ++ ascii "There is NO WARRANTY, to the extent permitted by law.\n"

def output (program : Bytes) : Refusal → Bytes
  | help => usage program
  | version => versionText
  | _ => []

def complaint (program : Bytes) : Refusal → Bytes
  | noName | help | version => []
  | badVariable name value =>
    program ++ ascii ": Bad " ++ ascii name ++ ascii ": " ++ value ++ [Text.newline]
  | badNumber what value =>
    program ++ ascii ": Bad " ++ ascii what ++ ascii " (" ++ value ++ ascii ")\n" ++ usage program
  | invalidLetter letter =>
    program ++ ascii ": invalid option -- '" ++ [letter] ++ ascii "'\n" ++ usage program
  | missingValue letter =>
    program ++ ascii ": option requires an argument -- '" ++ [letter] ++ ascii "'\n" ++ usage program

def status : Refusal → Nat
  | help | version => 0
  | noName => 2
  | _ => 1

end Refusal

namespace Options

/-- The letters `c r i o` take a value, `n v d` are flags. -/
def meaning (letter : UInt8) : Letter :=
  if letter = 0x63 ∨ letter = 0x72 ∨ letter = 0x69 ∨ letter = 0x6F then .takesValue
  else if letter = 0x6E ∨ letter = 0x76 ∨ letter = 0x64 then .flag
  else .unknown

/-- The number that the value of an option writes, in the place of the present one. -/
def number (what : String) (value : Bytes) (present : Nat) : Except Refusal Nat :=
  match Text.assignPositive (some value) present with
  | (true, n) => .ok n
  | (false, _) => .error (.badNumber what value)

def apply (o : Options) : Item → Except Refusal Options
  | .invalid letter => .error (.invalidLetter letter)
  | .missing letter => .error (.missingValue letter)
  | .option letter value =>
    let value := value.getD []
    if letter = 0x63 then return { o with cols := ← number "number of columns" value o.cols }
    else if letter = 0x72 then return { o with rows := ← number "number of rows" value o.rows }
    else if letter = 0x69 then return { o with interval := ← number "repaint interval" value o.interval }
    else if letter = 0x6F then return { o with frameLog := value }
    else if letter = 0x6E then return { o with present := false }
    else if letter = 0x76 then return { o with verbose := true }
    else return { o with debug := true }

/-- The number of a variable, or the default where it is not set. -/
def sizeFrom (env : Environment) (name : String) (default : Nat) : Except Refusal Nat :=
  match env.get? name with
  | none => .ok default
  | some value =>
    match Text.assignPositive (some value) default with
    | (true, n) => .ok n
    | (false, _) => .error (.badVariable name value)

def ofEnvironment (env : Environment) : Except Refusal Options := do
  let o : Options := { }
  let cols ← sizeFrom env "VTMIRROR_COLS" o.cols
  let rows ← sizeFrom env "VTMIRROR_ROWS" o.rows
  return { o with cols, rows }

/-- The first of the requests for help and for the version, which count wherever they stand. -/
def request? (arguments : List Bytes) : Option Refusal :=
  arguments.findSome? fun a =>
    if a = ascii "--help" then some .help
    else if a = ascii "--version" then some .version
    else none

/-- The options of a command line, of which the first argument is the name of the program. -/
def parse (env : Environment) : List Bytes → Except Refusal Options
  | [] => .error .noName
  | _ :: arguments => do
    if let some request := request? arguments then throw request
    let o ← ofEnvironment env
    let scanned := scan meaning (env.get? "POSIXLY_CORRECT").isSome arguments
    let o ← scanned.items.foldlM apply o
    return { o with command := if scanned.operands.isEmpty then none else some scanned.operands }

end Options

end ScreenWatch.Session
