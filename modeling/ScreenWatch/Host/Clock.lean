import ScreenWatch.Host.Delivery

/-!
# Clocks

Times are counted in milliseconds, modulo 2⁶⁴.  There are two sources: a clock, and the time of day where the
clock fails.  A frozen time is kept until it is frozen anew, so that everything that is done between two
pauses happens at one time.
-/

namespace ScreenWatch.Host

/-- What the sources answer; an error number other than zero is a failure. -/
structure ClockAnswers where
  seconds : Int := 0
  nanoseconds : Int := 0
  clockError : Errno := 0
  daySeconds : Int := 0
  dayMicroseconds : Int := 0
  dayError : Errno := 0
  deriving DecidableEq, Inhabited

namespace ClockAnswers

/-- A clock that shows a number of milliseconds. -/
def ofMillis (millis : Nat) : ClockAnswers :=
  { seconds := millis / 1000, nanoseconds := (millis % 1000 : Nat) * 1000000 }

def millis (seconds part : Int) : UInt64 := UInt64.ofInt seconds * 1000 + UInt64.ofInt part

/-- The time of the first source that answers. -/
def read (a : ClockAnswers) : Except Errno UInt64 :=
  if a.clockError = 0 then .ok (millis a.seconds (a.nanoseconds.tdiv 1000000))
  else if a.dayError = 0 then .ok (millis a.daySeconds (a.dayMicroseconds.tdiv 1000))
  else .error a.dayError

end ClockAnswers

/-- The time that is frozen, or the largest number if none is yet. -/
structure Clock where
  frozen : UInt64 := 0xFFFFFFFFFFFFFFFF
  deriving DecidableEq, Inhabited

namespace Clock

def unset : UInt64 := 0xFFFFFFFFFFFFFFFF

def failed (e : Errno) : Bytes := e.report (ascii "gettimeofday")

/-- The present time, or zero, with what is reported. -/
def now (a : ClockAnswers) : UInt64 × Bytes :=
  match a.read with
  | .ok time => (time, [])
  | .error e => (0, failed e)

/-- Freezes the present time; it stays as it was if there is no answer. -/
def freeze (c : Clock) (a : ClockAnswers) : Clock × Bytes :=
  match a.read with
  | .ok time => (⟨time⟩, [])
  | .error e => (c, failed e)

/-- The frozen time; the first question freezes it. -/
def time (c : Clock) (a : ClockAnswers) : UInt64 × Clock × Bytes :=
  let (c, report) := if c.frozen = unset then c.freeze a else (c, [])
  (c.frozen, c, report)

end Clock

end ScreenWatch.Host
