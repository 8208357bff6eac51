import ScreenWatch.Zlib.Library

/-!
# Compressed frames

A frame is compressed for transport and sent with its length; the receiver accepts it only with that length, which may
not exceed a limit.  Both ways go through one buffer (`Compressor`), which a call leaves in the size it has needed and
with what the library has written to it.
-/

namespace ScreenWatch.Zlib

inductive FrameError
  | oversized
  | compressFailed (e : CallError)
  | uncompressFailed (e : CallError)
  | wrongLength
  deriving DecidableEq

namespace FrameError

def message : FrameError → String
  | oversized => "compressed frame claims an oversized payload"
  | compressFailed e => "zlib compress failed: " ++ e.message
  | uncompressFailed e => "zlib uncompress failed: " ++ e.message
  | wrongLength => "uncompressed frame has the wrong length"

end FrameError

structure Compressor where
  buffer : Array UInt8 := #[]

abbrev CompressorM := EStateM FrameError Compressor

namespace Compressor

/-- The limit for the length of a frame. -/
def maxFrame : Nat := 16777216

/-- The buffer gets a size: it is cut, or filled up with zeros. -/
def resizeBuffer (size : Nat) : CompressorM Unit :=
  modify fun c => { buffer := c.buffer.take size ++ Array.replicate (size - c.buffer.size) 0 }

/-- The start of the buffer is written to, and the length that is reported may be used. -/
def acceptAnswer (answer : Answer) (failed : CallError → FrameError) : CompressorM Nat := do
  modify fun c => { buffer := answer.written.toArray ++ c.buffer.drop answer.written.length }
  match answer.error with
  | some e => throw (failed e)
  | none => return answer.length

def readBuffer (length : Nat) : CompressorM Bytes := return ((← get).buffer.take length).toList

def compress (l : Library) (data : Bytes) : CompressorM Bytes := do
  let space := l.bound data.length
  resizeBuffer space
  let length ← acceptAnswer (l.compress space data) .compressFailed
  readBuffer length

/-- The data of a compressed frame that is said to be of a length. -/
def uncompress (l : Library) (frame : Bytes) (length : Nat) : CompressorM Bytes := do
  if maxFrame < length then throw .oversized
  resizeBuffer (length + 1)
  let found ← acceptAnswer (l.uncompress length frame) .uncompressFailed
  if found ≠ length then throw .wrongLength
  readBuffer found

end Compressor

/-! ### New compressors -/

def compress (data : Bytes) : Bytes :=
  match Compressor.compress .storing data { } with
  | .ok frame _ => frame
  | .error _ _ => []

/-- A length below zero counts as one that is too large. -/
def uncompress (frame : Bytes) (length : Int) : Except FrameError Bytes :=
  if length < 0 then .error .oversized
  else match Compressor.uncompress .storing frame length.toNat { } with
    | .ok data _ => .ok data
    | .error e _ => .error e

end ScreenWatch.Zlib
