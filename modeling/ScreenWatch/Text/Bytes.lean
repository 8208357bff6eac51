/-!
# Bytes and their notations

Everything that crosses a boundary of the library is a list of bytes: what programs print, what is painted,
what is logged.  Here are the ASCII literals of such lists and the decimal notation, written (`decimal`,
`decimalInt`, `padded`), read (`decimalValue`), and in base sixteen (`hex`); quoted data, as it stands in a log
(`quoted`); and dates (`isoTime`).
-/

namespace ScreenWatch

abbrev Bytes := List UInt8

/-- The bytes of an ASCII text, one per character. -/
def ascii (s : String) : Bytes := s.toList.map fun c => c.toNat.toUInt8

namespace Text

def newline : UInt8 := 0x0A

def isDigit (b : UInt8) : Bool := 0x30 ≤ b && b ≤ 0x39

/-- The decimal digits of a number, without leading zeros. -/
def decimal (n : Nat) : Bytes := (Nat.toDigits 10 n).map fun c => c.toNat.toUInt8

def decimalInt : Int → Bytes
  | .ofNat n => decimal n
  | .negSucc n => 0x2D :: decimal (n + 1)

/-- The number with at least `width` digits, zeros in front. -/
def padded (width n : Nat) : Bytes :=
  let digits := decimal n
  List.replicate (width - digits.length) 0x30 ++ digits

/-- Lower-case hexadecimal digits. -/
def hex (n : Nat) : Bytes := (Nat.toDigits 16 n).map fun c => c.toNat.toUInt8

def paddedHex (width n : Nat) : Bytes :=
  let digits := hex n
  List.replicate (width - digits.length) 0x30 ++ digits

/-- The number written by a list of decimal digits, the most significant one first. -/
def decimalValue (digits : Bytes) : Nat :=
  digits.foldl (fun value b => 10 * value + (b.toNat - 0x30)) 0

/-- The lines between newlines; a text with `n` newlines has `n + 1` of them. -/
def lines (text : Bytes) : List Bytes := text.splitOn newline

def joined (separator : Bytes) (texts : List Bytes) : Bytes := (texts.intersperse separator).flatten

/-! ### Order of digits -/

theorem decimalValue_append_digit (digits : Bytes) (b : UInt8) :
    decimalValue (digits ++ [b]) = 10 * decimalValue digits + (b.toNat - 0x30) := by
  simp [decimalValue]

/-! ### Quoted data

Data in a log stands between double quotes, with escapes for quotes, backslashes and controls, so that it fits
on one line.  All other bytes, those outside ASCII included, stand for themselves.
-/

/-- A byte as it is written between quotes. -/
def quotedByte (b : UInt8) : Bytes :=
  if b = 0x22 then [0x5C, 0x22]
  else if b = 0x5C then [0x5C, 0x5C]
  else if b = 0x0A then [0x5C, 0x6E]
  else if b = 0x0D then [0x5C, 0x72]
  else if b = 0x09 then [0x5C, 0x74]
  else if b < 0x20 ∨ b = 0x7F then [0x5C, 0x75] ++ paddedHex 4 b.toNat
  else [b]

def quoted (data : Bytes) : Bytes := 0x22 :: data.flatMap quotedByte ++ [0x22]

/-! ### Calendar dates

Times are milliseconds since the beginning of 1970 in Coordinated Universal Time, and are written in the form
`1970-01-01T00:00:00.000Z`.  Days are counted in eras of 400 years that begin on the first of March, so that
the leap day is the last day of its year (`civil`).
-/

structure Date where
  year : Nat
  month : Nat
  day : Nat
  deriving DecidableEq

/-- The date of a day, counted from the first of January 1970. -/
def civil (days : Nat) : Date :=
  let fromMarch := days + 719468
  let era := fromMarch / 146097
  let dayOfEra := fromMarch % 146097
  let yearOfEra := (dayOfEra - dayOfEra / 1460 + dayOfEra / 36524 - dayOfEra / 146096) / 365
  let dayOfYear := dayOfEra - (365 * yearOfEra + yearOfEra / 4 - yearOfEra / 100)
  let monthFromMarch := (5 * dayOfYear + 2) / 153
  let day := dayOfYear - (153 * monthFromMarch + 2) / 5 + 1
  let month := if monthFromMarch < 10 then monthFromMarch + 3 else monthFromMarch - 9
  let year := era * 400 + yearOfEra + (if month ≤ 2 then 1 else 0)
  ⟨year, month, day⟩

def isoTime (millis : Nat) : Bytes :=
  let seconds := millis / 1000
  let date := civil (seconds / 86400)
  let ofDay := seconds % 86400
  decimal date.year ++ ascii "-" ++ padded 2 date.month ++ ascii "-" ++ padded 2 date.day
    ++ ascii "T" ++ padded 2 (ofDay / 3600) ++ ascii ":" ++ padded 2 (ofDay / 60 % 60)
    ++ ascii ":" ++ padded 2 (ofDay % 60) ++ ascii "." ++ padded 3 (millis % 1000) ++ ascii "Z"

end Text

end ScreenWatch
