import ScreenWatch.Text.Bytes

/-!
# Arguments of a command line

Arguments are scanned from left to right for options of one letter, several of which may share an argument.
What is no option is an operand.  Operands may stand between options, unless `posix` asks that the first one
ends the options; everything after `--` is an operand.
-/

namespace ScreenWatch.Session

inductive Letter
  | flag
  | takesValue
  | unknown
  deriving DecidableEq

inductive Item
  | option (letter : UInt8) (value : Option Bytes)
  /-- A letter that is no option. -/
  | invalid (letter : UInt8)
  /-- An option whose value is missing. -/
  | missing (letter : UInt8)
  deriving DecidableEq

inductive ClusterEnd
  | complete
  /-- The last option takes the next argument as its value. -/
  | wantsValue (letter : UInt8)
  | invalid (letter : UInt8)
  deriving DecidableEq

/-- The options of one argument, without its dash. -/
def scanCluster (meaning : UInt8 → Letter) : Bytes → List Item × ClusterEnd
  | [] => ([], .complete)
  | letter :: more =>
    match meaning letter with
    | .unknown => ([], .invalid letter)
    | .takesValue =>
      if more.isEmpty then ([], .wantsValue letter) else ([.option letter (some more)], .complete)
    | .flag =>
      let (items, finish) := scanCluster meaning more
      (.option letter none :: items, finish)

/-- Whether an argument holds options: a dash alone does not. -/
def isCluster (argument : Bytes) : Bool :=
  match argument with
  | 0x2D :: _ :: _ => true
  | _ => false

structure Scanned where
  items : List Item := []
  operands : List Bytes := []
  deriving DecidableEq

namespace Scanned

def withItems (items : List Item) (s : Scanned) : Scanned := { s with items := items ++ s.items }

def withOperand (operand : Bytes) (s : Scanned) : Scanned := { s with operands := operand :: s.operands }

end Scanned

/-- The options and operands among arguments.  Nothing is scanned after an error. -/
def scan (meaning : UInt8 → Letter) (posix : Bool) : List Bytes → Scanned
  | [] => { }
  | argument :: rest =>
    if argument = [0x2D, 0x2D] then { operands := rest }
    else if isCluster argument then
      match scanCluster meaning argument.tail with
      | (items, .complete) => (scan meaning posix rest).withItems items
      | (items, .invalid letter) => { items := items ++ [.invalid letter] }
      | (items, .wantsValue letter) =>
        match rest with
        | [] => { items := items ++ [.missing letter] }
        | value :: rest => (scan meaning posix rest).withItems (items ++ [.option letter (some value)])
    else if posix then { operands := argument :: rest }
    else (scan meaning posix rest).withOperand argument

end ScreenWatch.Session
