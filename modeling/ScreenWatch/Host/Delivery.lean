import ScreenWatch.Text.Bytes

/-!
# Error numbers and deliveries

Writing a buffer to a descriptor that takes only part of it at a time.  Interruptions and full pipes are
waited out; any other failure, and a write that takes nothing, ends the delivery.
-/

namespace ScreenWatch.Host

/-! ### Error numbers

The numbers by which the operating system says why a call failed, and their wording.
-/

abbrev Errno := Nat

namespace Errno

def noEntry : Errno := 2

def interrupted : Errno := 4

def inputOutput : Errno := 5

def tryAgain : Errno := 11

def description : Errno → String
  | 0 => "Success"
  | 1 => "Operation not permitted"
  | 2 => "No such file or directory"
  | 4 => "Interrupted system call"
  | 5 => "Input/output error"
  | 9 => "Bad file descriptor"
  | 10 => "No child processes"
  | 11 => "Resource temporarily unavailable"
  | 12 => "Cannot allocate memory"
  | 13 => "Permission denied"
  | 22 => "Invalid argument"
  | 25 => "Inappropriate ioctl for device"
  | 28 => "No space left on device"
  | 32 => "Broken pipe"
  | n => "Unknown error " ++ toString n

/-- The line about a failed call; an empty subject is left out. -/
def report (subject : Bytes) (e : Errno) : Bytes :=
  (if subject.isEmpty then [] else subject ++ ascii ": ") ++ ascii (description e) ++ [Text.newline]

end Errno

/-! ### Deliveries -/

inductive DeliveryFailure
  | failed (e : Errno)
  | noProgress
  deriving DecidableEq

def DeliveryFailure.report (descriptor : Nat) : DeliveryFailure → Bytes
  | failed e => e.report (ascii "write")
  | noProgress => ascii "write: no progress on fd " ++ Text.decimal descriptor ++ [Text.newline]

structure Delivery where
  /-- What each successful write has taken. -/
  pieces : List Bytes := []
  /-- The answers that were not needed. -/
  unused : List Int := []
  /-- The error number of the last write that failed. -/
  lastError : Option Errno := none
  failure : Option DeliveryFailure := none
  deriving DecidableEq

namespace Delivery

def taken (d : Delivery) : Bytes := d.pieces.flatten

def withPiece (piece : Bytes) (d : Delivery) : Delivery := { d with pieces := piece :: d.pieces }

def afterError (e : Errno) (d : Delivery) : Delivery := { d with lastError := d.lastError.or (some e) }

/-- Delivers a buffer.  An answer says how many bytes a write takes at most, or is an error number below zero;
when no answers are left, writes take everything. -/
def deliver (data : Bytes) : List Int → Delivery
  | [] => if data.isEmpty then { } else { pieces := [data] }
  | answer :: rest =>
    if data.isEmpty then { unused := answer :: rest }
    else if answer < 0 then
      let e : Errno := answer.natAbs
      if e = Errno.interrupted ∨ e = Errno.tryAgain then (deliver data rest).afterError e
      else { unused := rest, lastError := some e, failure := some (.failed e) }
    else
      let n := answer.toNat
      if n = 0 then { pieces := [[]], unused := rest, failure := some .noProgress }
      else (deliver (data.drop n) rest).withPiece (data.take n)

end Delivery

end ScreenWatch.Host
