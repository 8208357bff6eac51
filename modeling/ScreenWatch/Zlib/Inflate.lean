import ScreenWatch.Zlib.PrefixCode

/-!
# Inflating

The format of compressed data: a header, blocks that are stored or coded with fixed or own prefix codes, and an
Adler-32 checksum.  `inflate` says how reading ends, and what has been written.
-/

namespace ScreenWatch.Zlib

open Reader

/-! ### The checksum -/

def adlerBase : Nat := 65521

/-- Two running sums, the second one of the values of the first. -/
def adlerStep (sums : Nat × Nat) (b : UInt8) : Nat × Nat :=
  let low := (sums.1 + b.toNat) % adlerBase
  (low, (sums.2 + low) % adlerBase)

def adler32 (data : Bytes) : Nat :=
  let (low, high) := data.foldl adlerStep (1, 0)
  high * 65536 + low

/-! ### Tables -/

/-- The base and the number of extra bits of the lengths from symbol 257 on. -/
def lengthTable : Array (Nat × Nat) :=
  #[(3, 0), (4, 0), (5, 0), (6, 0), (7, 0), (8, 0), (9, 0), (10, 0), (11, 1), (13, 1), (15, 1), (17, 1), (19, 2),
    (23, 2), (27, 2), (31, 2), (35, 3), (43, 3), (51, 3), (59, 3), (67, 4), (83, 4), (99, 4), (115, 4), (131, 5),
    (163, 5), (195, 5), (227, 5), (258, 0)]

def distanceTable : Array (Nat × Nat) :=
  #[(1, 0), (2, 0), (3, 0), (4, 0), (5, 1), (7, 1), (9, 2), (13, 2), (17, 3), (25, 3), (33, 4), (49, 4), (65, 5),
    (97, 5), (129, 6), (193, 6), (257, 7), (385, 7), (513, 8), (769, 8), (1025, 9), (1537, 9), (2049, 10),
    (3073, 10), (4097, 11), (6145, 11), (8193, 12), (12289, 12), (16385, 13), (24577, 13)]

/-- The number that a symbol of a table stands for, with its extra bits. -/
def readEntry (table : Array (Nat × Nat)) (i : Nat) : ReaderM Nat := do
  let some (base, extra) := table[i]? | throw .corrupt
  return base + (← readBits extra)

/-- The symbol of the next word; it is an error if there is none. -/
def readSymbol (code : PrefixCode) : ReaderM Nat := do
  let some symbol ← code.decode | throw .corrupt
  return symbol

/-- A block of literals and repetitions, until its end.  Every symbol takes at least one bit, so that the
number of bits bounds the number of symbols. -/
def inflateCoded (literals distances : PrefixCode) : Nat → ReaderM Unit
  | 0 => throw .stalled
  | bits + 1 => do
    let symbol ← readSymbol literals
    if symbol = 256 then return
    if symbol < 256 then write symbol.toUInt8
    else
      let length ← readEntry lengthTable (symbol - 257)
      let distance ← readEntry distanceTable (← readSymbol distances)
      repeatOutput distance length
    inflateCoded literals distances bits

/-! ### Blocks -/

def inflateStored : ReaderM Unit := do
  align
  let lengths ← readBits 32
  let length := lengths % 65536
  if length + lengths / 65536 ≠ 65535 then throw .corrupt
  copyInput length

def fixedLiterals : PrefixCode :=
  .ofLengths (List.replicate 144 8 ++ List.replicate 112 9 ++ List.replicate 24 7 ++ List.replicate 8 8)

def fixedDistances : PrefixCode := .ofLengths (List.replicate 32 5)

/-- The order in which the lengths of the code of lengths come. -/
def lengthOrder : List Nat := [16, 17, 18, 0, 8, 7, 9, 6, 10, 5, 11, 4, 12, 3, 13, 2, 14, 1, 15]

/-- The given number of lengths of three bits each, in reverse. -/
def readLengthCodeFrom (found : List Nat) : Nat → ReaderM (List Nat)
  | 0 => return found.reverse
  | n + 1 => do
    let length ← readBits 3
    readLengthCodeFrom (length :: found) n

/-- The lengths of the code of lengths, of which the first ones in `lengthOrder` are given. -/
def readLengthCode (given : Nat) : ReaderM (List Nat) := do
  let lengths ← readLengthCodeFrom [] given
  let entries := lengthOrder.zip lengths
  return (List.range 19).map fun symbol => (entries.lookup symbol).getD 0

/-- The next symbol of the code of lengths.  Without any word, every bit stands for the length zero. -/
def readLengthSymbol (lengthCode : List Nat) (code : PrefixCode) : ReaderM Nat :=
  if PrefixCode.isEmpty lengthCode then do
    discard (readBits 1)
    return 0
  else readSymbol code

/-- How often a symbol above 15 repeats a length. -/
def readRepetitions (symbol : Nat) : ReaderM Nat := do
  if symbol = 16 then return 3 + (← readBits 2)
  else if symbol = 17 then return 3 + (← readBits 3)
  else return 11 + (← readBits 7)

/-- The length that a symbol above 15 repeats: the last one, if there is one, or zero. -/
def repeatedLength (symbol : Nat) (found : List Nat) : ReaderM Nat :=
  match symbol, found with
  | 16, [] => throw .corrupt
  | 16, last :: _ => return last
  | _, _ => return 0

/-- Lengths up to the number that is wanted; `found` holds, in reverse, those before them. -/
def readLengthsFrom (next : ReaderM Nat) (wanted : Nat) (found : List Nat) : Nat → ReaderM (List Nat)
  | 0 => return found.reverse
  | steps + 1 => do
    if found.length ≥ wanted then return found.reverse
    let symbol ← next
    if symbol < 16 then readLengthsFrom next wanted (symbol :: found) steps
    else
      let times ← readRepetitions symbol
      let length ← repeatedLength symbol found
      if found.length + times > wanted then throw .corrupt
      readLengthsFrom next wanted (List.replicate times length ++ found) steps

def readLengths (lengthCode : List Nat) (wanted : Nat) : ReaderM (List Nat) :=
  readLengthsFrom (readLengthSymbol lengthCode (.ofLengths lengthCode)) wanted [] wanted

def readCodes : ReaderM (PrefixCode × PrefixCode) := do
  let sizes ← readBits 14
  let literalCount := sizes % 32 + 257
  let distanceCount := sizes / 32 % 32 + 1
  if literalCount > 286 ∨ distanceCount > 30 then throw .corrupt
  let lengthCode ← readLengthCode (sizes / 1024 + 4)
  unless PrefixCode.isLengthCode lengthCode do throw .corrupt
  let lengths ← readLengths lengthCode (literalCount + distanceCount)
  let literals := lengths.take literalCount
  let distances := lengths.drop literalCount
  if literals.getD 256 0 = 0 then throw .corrupt
  unless PrefixCode.isDataCode literals do throw .corrupt
  unless PrefixCode.isDataCode distances do throw .corrupt
  return (.ofLengths literals, .ofLengths distances)

/-- Blocks up to the last one.  Every block takes at least three bits. -/
def inflateBlocks (bits : Nat) : Nat → ReaderM Unit
  | 0 => throw .stalled
  | left + 1 => do
    let header ← readBits 3
    match header / 2 with
    | 0 => inflateStored
    | 1 => inflateCoded fixedLiterals fixedDistances bits
    | 2 => do
      let (literals, distances) ← readCodes
      inflateCoded literals distances bits
    | _ => throw .corrupt
    if header % 2 = 1 then return
    inflateBlocks bits left

/-! ### The whole format -/

/-- The two bytes of the header: the method is 8, the window is not too large, and there is no preset
dictionary. -/
def readHeader : ReaderM Unit := do
  let header ← readBits 16
  let method := header % 256
  let flags := header / 256
  if (256 * method + flags) % 31 ≠ 0 then throw .corrupt
  if method % 16 ≠ 8 ∨ method / 16 > 7 then throw .corrupt
  if flags / 32 % 2 = 1 then throw .corrupt

/-- The checksum, its highest byte first. -/
def readChecksum : ReaderM Nat := do
  let sum ← readBits 32
  return sum % 256 * 16777216 + sum / 256 % 256 * 65536 + sum / 65536 % 256 * 256 + sum / 16777216

def inflateAll : ReaderM Unit := do
  readHeader
  let bits := 8 * (← get).input.length + (← get).count + 1
  inflateBlocks bits bits
  align
  let checksum ← readChecksum
  if checksum ≠ adler32 (← get).output.toList then throw .corrupt

/-- How reading ended, and what was written. -/
structure Inflated where
  halt : Option Halt
  output : Bytes
  deriving DecidableEq

def inflate (data : Bytes) (space : Nat) : Inflated :=
  match inflateAll { input := data, space } with
  | .ok _ r => ⟨none, r.output.toList⟩
  | .error halt r => ⟨some halt, r.output.toList⟩

end ScreenWatch.Zlib
