import ScreenWatch.Host.Clock

/-!
# Waiting for descriptors and signals

A selector waits for one of several descriptors to become readable.  Signals that it is to watch arrive only
while it waits; they interrupt the waiting and are noted until they are asked for.
-/

namespace ScreenWatch.Host

inductive ReadAnswer
  | bytes (b : Bytes)
  | endOfFile
  | failed (e : Errno)
  deriving DecidableEq

structure Event where
  millis : Option Nat := none
  /-- Signals that arrive and interrupt the waiting. -/
  signals : Option (List Int) := none
  error : Option Errno := none
  ready : List Int := []
  /-- Descriptors that are ready, and what reading from them gives. -/
  reads : List (Int × ReadAnswer) := []
  deriving DecidableEq

namespace Event

def isReady (e : Event) (descriptor : Int) : Bool :=
  e.ready.contains descriptor || (e.reads.map (·.1)).contains descriptor

def answer (e : Event) (descriptor : Int) : ReadAnswer := (e.reads.lookup descriptor).getD .endOfFile

end Event

/-- What a wait comes to: the signals that are delivered meanwhile, and the descriptors that are found readable. -/
structure Outcome where
  delivered : List Int := []
  result : Except Errno (List Int)

/-- Of an event only the descriptors that are watched and the signals that are handled count; signals interrupt. -/
def Event.outcome (e : Event) (watched handled : List Int) : Outcome :=
  match e.signals, e.error with
  | some signals, _ => { delivered := signals.filter (· ∈ handled), result := .error Errno.interrupted }
  | none, some e => { result := .error e }
  | none, none => { result := .ok (watched.filter e.isReady) }

structure Selector where
  highest : Int := -1
  watched : List Int := []
  readable : List Int := []
  handled : List Int := []
  /-- The signals that have arrived and were not asked for yet. -/
  arrived : List Int := []
  deriving DecidableEq, Inhabited

namespace Selector

/-- The number of descriptors that can be watched. -/
def maxDescriptors : Int := 1024

def maxSignal : Int := 64

/-- The numbers that cannot be handled: zero is no signal, 9 and 19 always have their own effect, and 32 and 33 are
reserved for the threads of a program. -/
def unhandleable : List Int := [0, 9, 19, 32, 33]

/-- Watches a descriptor; none if it is no possible descriptor. -/
def addDescriptor (s : Selector) (descriptor : Int) : Option Selector :=
  if 0 ≤ descriptor ∧ descriptor < maxDescriptors then
    some { s with
      highest := max s.highest descriptor
      watched := if descriptor ∈ s.watched then s.watched else s.watched ++ [descriptor] }
  else none

def isSignal (signal : Int) : Bool := 0 ≤ signal && signal ≤ maxSignal

/-- Notes a signal from now on; none if that is impossible. -/
def addSignal (s : Selector) (signal : Int) : Option Selector :=
  if isSignal signal ∧ signal ∉ unhandleable then
    some { s with handled := if signal ∈ s.handled then s.handled else signal :: s.handled }
  else none

/-- Whether a watched descriptor was found readable; none for any other descriptor. -/
def isReadable? (s : Selector) (descriptor : Int) : Option Bool :=
  if descriptor ∈ s.watched then some (descriptor ∈ s.readable) else none

/-- Whether a signal has arrived, which is then forgotten; none for what is no signal. -/
def takeSignal (s : Selector) (signal : Int) : Option (Bool × Selector) :=
  if isSignal signal then
    some (signal ∈ s.arrived, { s with arrived := s.arrived.filter (· ≠ signal) })
  else none

/-- Notes that a signal has arrived. -/
def deliver (s : Selector) (signal : Int) : Selector :=
  if isSignal signal ∧ signal ∉ s.arrived then { s with arrived := signal :: s.arrived } else s

/-- The number of descriptors, counted from zero, among which the watched ones are looked for. -/
def span (s : Selector) : Int := s.highest + 1

/-- Takes note of what the waiting has come to, and gives the number of readable descriptors or an error.  After an
interruption no descriptor is readable; after another error, all that are watched count as such. -/
def settle (s : Selector) (outcome : Outcome) : Except Errno Nat × Selector :=
  let s := outcome.delivered.foldl deliver s
  match outcome.result with
  | .ok readable => (.ok readable.length, { s with readable })
  | .error e =>
    if e = Errno.interrupted then (.ok 0, { s with readable := [] })
    else (.error e, { s with readable := s.watched })

/-- Waits until an event comes.  Without an event, the waiting fails. -/
def wait (s : Selector) (event : Option Event) : Except Errno Nat × Selector :=
  s.settle (match event with
    | none => { result := .error Errno.inputOutput }
    | some event => event.outcome s.watched s.handled)

/-- The time limit as it is given to the operating system, in seconds and nanoseconds; none waits forever. -/
def limit (timeout : Int) : Option (Nat × Nat) :=
  if timeout < 0 then none else some (timeout.toNat / 1000, timeout.toNat % 1000 * 1000000)

end Selector

end ScreenWatch.Host
