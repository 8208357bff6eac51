import ScreenWatch.Zlib.Reader

/-!
# Canonical prefix codes

A code is given by the length of each symbol's word, zero for symbols without one.  Words of one length are
consecutive numbers in the order of their symbols, and follow on those that are shorter.
-/

namespace ScreenWatch.Zlib

def maxWord : Nat := 15

structure PrefixCode where
  counts : Array Nat
  symbols : Array Nat
  longest : Nat

namespace PrefixCode

def ofLengths (lengths : List Nat) : PrefixCode :=
  let ofLength (n : Nat) := (lengths.zipIdx.filter fun e => e.1 == n).map (·.2)
  let groups := (List.range (maxWord + 1)).map fun n => if n = 0 then [] else ofLength n
  { counts := (groups.map List.length).toArray
    symbols := groups.flatten.toArray
    longest := lengths.foldl max 0 }

/-- The share of all words of the maximal length that the code uses up, out of `2 ^ maxWord`. -/
def used (lengths : List Nat) : Nat :=
  lengths.foldl (fun share n => if n = 0 then share else share + (1 <<< (maxWord - n))) 0

def isEmpty (lengths : List Nat) : Bool := lengths.all (· == 0)

def isComplete (lengths : List Nat) : Bool := used lengths == 1 <<< maxWord

/-- Whether the lengths may describe a code of lengths: nothing at all, or a complete code. -/
def isLengthCode (lengths : List Nat) : Bool := isEmpty lengths || isComplete lengths

/-- Whether the lengths may describe a code of literals or distances, of which a single word of one bit is
also one. -/
def isDataCode (lengths : List Nat) : Bool :=
  isLengthCode lengths || (lengths.foldl max 0 == 1 && used lengths < 1 <<< maxWord)

/-- Reads on in a word.  Of the words that begin like it, `first` would be the first one of this length, and
`index` is its place among the symbols. -/
def decodeFrom (code : PrefixCode) : Nat → Nat → Nat → Nat → Nat → ReaderM (Option Nat)
  | 0, _, _, _, _ => return none
  | left + 1, length, first, index, word => do
    let word := word + (← Reader.readBits 1)
    let count := code.counts.getD length 0
    if word < first + count then return some (code.symbols.getD (index + (word - first)) 0)
    else decodeFrom code left (length + 1) (2 * (first + count)) (index + count) (2 * word)

/-- The symbol of the next word, or nothing if the bits are no word. -/
def decode (code : PrefixCode) : ReaderM (Option Nat) :=
  decodeFrom code (max 1 code.longest) 1 0 0 0

end PrefixCode

end ScreenWatch.Zlib
