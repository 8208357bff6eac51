import ScreenWatch.Zlib.Inflate

/-!
# Compression libraries

What is asked of a library for compression: how much space the compressed form of data may take, and two calls that
write to the space they are offered.  A call reports a length or an error, and in both cases some of the space has been
written to.  `Library.storing` compresses to the simplest form, a header, blocks of bytes that are stored as they are
and a checksum, and reads every form of compressed data.
-/

namespace ScreenWatch.Zlib

/-! ### Stored data -/

def maxStored : Nat := 65535

/-- The bytes of a number below 65536, the lower one first. -/
def littleEndian16 (n : Nat) : Bytes := [n.toUInt8, (n / 256).toUInt8]

def storedBlock (last : Bool) (data : Bytes) : Bytes :=
  [if last then 1 else 0] ++ littleEndian16 data.length ++ littleEndian16 (maxStored - data.length) ++ data

def storedBlocks (data : Bytes) : Bytes :=
  match _h : data.drop maxStored with
  | [] => storedBlock true data
  | b :: rest => storedBlock false (data.take maxStored) ++ storedBlocks (b :: rest)
termination_by data.length
decreasing_by
  have hlen := congrArg List.length _h
  simp only [maxStored, List.length_drop, List.length_cons] at hlen ⊢
  omega

/-- The bytes of a checksum, the highest one first. -/
def bigEndian32 (n : Nat) : Bytes :=
  [(n / 16777216).toUInt8, (n / 65536).toUInt8, (n / 256).toUInt8, n.toUInt8]

def stored (data : Bytes) : Bytes := [0x78, 0x01] ++ storedBlocks data ++ bigEndian32 (adler32 data)

/-! ### Libraries -/

inductive CallError
  | badData
  /-- The data is right so far, and there is no space left for more of it. -/
  | noSpace
  deriving DecidableEq

def CallError.message : CallError → String
  | badData => "data error"
  | noSpace => "buffer error"

/-- What a call leaves: the bytes at the start of the space that it has written, the length that it reports, and the
error, if there was one. -/
structure Answer where
  written : Bytes
  length : Nat
  error : Option CallError := none
  deriving DecidableEq

structure Library where
  /-- Space that is enough for the compressed form of data of a length. -/
  bound : Nat → Nat
  compress : Nat → Bytes → Answer
  uncompress : Nat → Bytes → Answer

namespace Library

/-- What fits of some bytes. -/
def answerWithin (space : Nat) (data : Bytes) : Answer :=
  if data.length ≤ space then ⟨data, data.length, none⟩ else ⟨data.take space, space, some .noSpace⟩

/-- Inflates to the space that there is.  Without any, one byte is inflated to a place of its own, in order to
tell complete data; it is not counted. -/
def inflateWithin (space : Nat) (frame : Bytes) : Answer :=
  let inflated := inflate frame (max space 1)
  let written := inflated.output.take space
  match inflated.halt with
  | none => ⟨written, written.length, none⟩
  | some .corrupt => ⟨written, written.length, some .badData⟩
  | some .stalled =>
    ⟨written, written.length, some (if space ≠ 0 ∧ written.length = space then .noSpace else .badData)⟩

def storing : Library where
  bound n := n + n / 4096 + n / 16384 + n / 33554432 + 13
  compress space data := answerWithin space (stored data)
  uncompress := inflateWithin

end Library

end ScreenWatch.Zlib
