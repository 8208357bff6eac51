import ScreenWatch.Notice

/-!
# Reading quoted data

Quoted data is read from one quote to the next that no backslash stands before (`readQuoted?`).  Whatever the data
is, quoting it gives one line of printable bytes, and reading this line gives the data back wherever it stands
(`quoted_reads_back`): the byte after a backslash tells which of the escapes it begins, and a backslash of the data
itself has become two.
-/

namespace ScreenWatch.Text

/-- The value of a hexadecimal digit in lower case. -/
def hexDigitValue (b : UInt8) : Nat := if isDigit b then b.toNat - 0x30 else b.toNat - 0x57

/-- The byte whose number is written by hexadecimal digits. -/
def byteOfHex (digits : Bytes) : UInt8 :=
  (digits.foldl (fun value b => 16 * value + hexDigitValue b) 0).toUInt8

/-- What a letter after a backslash stands for. -/
def unescaped (letter : UInt8) : UInt8 :=
  if letter = 0x6E then 0x0A else if letter = 0x72 then 0x0D else if letter = 0x74 then 0x09 else letter

/-- Reads up to the quote that ends the data, and gives the data and what follows the quote. -/
def readBody? : Bytes → Option (Bytes × Bytes)
  | [] => none
  | 0x22 :: rest => some ([], rest)
  | 0x5C :: 0x75 :: a :: b :: c :: d :: rest =>
    (readBody? rest).map fun read => (byteOfHex [a, b, c, d] :: read.1, read.2)
  | 0x5C :: letter :: rest => (readBody? rest).map fun read => (unescaped letter :: read.1, read.2)
  | b :: rest => (readBody? rest).map fun read => (b :: read.1, read.2)

/-- Reads quoted data, and gives the data and what follows it. -/
def readQuoted? : Bytes → Option (Bytes × Bytes)
  | 0x22 :: rest => readBody? rest
  | _ => none

/-- Neither a control character nor DEL. -/
def IsPrintable (b : UInt8) : Prop := 0x20 ≤ b ∧ b ≠ 0x7F

instance : DecidablePred IsPrintable := fun _ => inferInstanceAs (Decidable (_ ∧ _))

variable {b : UInt8}

/-! ### Single bytes -/

/-- A hexadecimal digit. -/
private def hexDigit (d : Nat) : UInt8 := d.digitChar.toNat.toUInt8

private theorem hexDigit_spec {d : Nat} (h : d < 16) : hexDigitValue (hexDigit d) = d ∧ IsPrintable (hexDigit d) := by
  have hall : ∀ d < 16, hexDigitValue (hexDigit d) = d ∧ IsPrintable (hexDigit d) := by decide
  exact hall d h

private theorem paddedHex_byte (b : UInt8) :
    paddedHex 4 b.toNat = [0x30, 0x30, hexDigit (b.toNat / 16), hexDigit (b.toNat % 16)] := by
  unfold paddedHex hex
  have hbound := b.toNat_lt
  rcases Nat.lt_or_ge b.toNat 16 with h | h
  · rw [Nat.toDigits_of_lt_base h, Nat.div_eq_of_lt h, Nat.mod_eq_of_lt h]
    rfl
  · rw [Nat.toDigits_of_base_le (by decide) h, Nat.toDigits_of_lt_base (by omega)]
    rfl

private theorem byteOfHex_byte (b : UInt8) :
    byteOfHex [0x30, 0x30, hexDigit (b.toNat / 16), hexDigit (b.toNat % 16)] = b := by
  have hbound := b.toNat_lt
  have hhigh := (hexDigit_spec (show b.toNat / 16 < 16 by omega)).1
  have hlow := (hexDigit_spec (Nat.mod_lt b.toNat (show 0 < 16 by decide))).1
  show (16 * (16 * 0 + hexDigitValue (hexDigit (b.toNat / 16))) + hexDigitValue (hexDigit (b.toNat % 16))).toUInt8 = b
  rw [hhigh, hlow, Nat.mul_zero, Nat.zero_add, Nat.div_add_mod]
  exact UInt8.ofNat_toNat ..

/-- The ways in which a byte is written: after a backslash as a letter, after a backslash as a number, or as itself. -/
private theorem quotedByte_cases (b : UInt8) :
    (∃ letter, quotedByte b = [0x5C, letter] ∧ letter ≠ 0x75 ∧ unescaped letter = b ∧ IsPrintable letter) ∨
      quotedByte b = [0x5C, 0x75, 0x30, 0x30, hexDigit (b.toNat / 16), hexDigit (b.toNat % 16)] ∨
      quotedByte b = [b] ∧ b ≠ 0x22 ∧ b ≠ 0x5C ∧ IsPrintable b := by
  unfold quotedByte
  by_cases hquote : b = 0x22
  · subst hquote
    exact .inl ⟨0x22, by decide⟩
  by_cases hbackslash : b = 0x5C
  · subst hbackslash
    exact .inl ⟨0x5C, by decide⟩
  by_cases hnewline : b = 0x0A
  · subst hnewline
    exact .inl ⟨0x6E, by decide⟩
  by_cases hreturn : b = 0x0D
  · subst hreturn
    exact .inl ⟨0x72, by decide⟩
  by_cases htab : b = 0x09
  · subst htab
    exact .inl ⟨0x74, by decide⟩
  rw [if_neg hquote, if_neg hbackslash, if_neg hnewline, if_neg hreturn, if_neg htab]
  by_cases hcontrol : b < 0x20 ∨ b = 0x7F
  · rw [if_pos hcontrol, paddedHex_byte]
    exact .inr (.inl rfl)
  · obtain ⟨hlow, hdel⟩ := not_or.1 hcontrol
    exact .inr (.inr ⟨if_neg hcontrol, hquote, hbackslash, UInt8.not_lt.1 hlow, hdel⟩)

private theorem isPrintable_of_mem_quotedByte {c : UInt8} (h : c ∈ quotedByte b) : IsPrintable c := by
  rcases quotedByte_cases b with ⟨letter, hb, -, -, hletter⟩ | hb | ⟨hb, -, -, hself⟩
  · rw [hb, List.mem_cons, List.mem_singleton] at h
    rcases h with rfl | rfl
    · decide
    · exact hletter
  · have hbound := b.toNat_lt
    rw [hb] at h
    simp only [List.mem_cons, List.not_mem_nil, or_false] at h
    rcases h with rfl | rfl | rfl | rfl | rfl | rfl
    · decide
    · decide
    · decide
    · decide
    · exact (hexDigit_spec (by omega)).2
    · exact (hexDigit_spec (by omega)).2
  · rw [hb, List.mem_singleton] at h
    exact h ▸ hself

private theorem readBody?_letter {letter : UInt8} (h : letter ≠ 0x75) (rest : Bytes) :
    readBody? (0x5C :: letter :: rest) = (readBody? rest).map fun read => (unescaped letter :: read.1, read.2) := by
  rw [readBody?.eq_4]
  rintro _ _ _ _ _ rfl
  exact absurd rfl h

private theorem readBody?_self (hquote : b ≠ 0x22) (hbackslash : b ≠ 0x5C) (rest : Bytes) :
    readBody? (b :: rest) = (readBody? rest).map fun read => (b :: read.1, read.2) := by
  rw [readBody?.eq_5]
  · exact hquote
  · rintro _ _ _ _ _ rfl
    exact absurd rfl hbackslash
  · rintro _ _ rfl
    exact absurd rfl hbackslash

/-- A byte that is written is the next one that is read. -/
private theorem readBody?_quotedByte (b : UInt8) (rest : Bytes) :
    readBody? (quotedByte b ++ rest) = (readBody? rest).map fun read => (b :: read.1, read.2) := by
  rcases quotedByte_cases b with ⟨letter, hb, hne, hvalue, -⟩ | hb | ⟨hb, hquote, hbackslash, -⟩
  · rw [hb]
    exact hvalue ▸ readBody?_letter hne rest
  · have hread := readBody?.eq_3 0x30 0x30 (hexDigit (b.toNat / 16)) (hexDigit (b.toNat % 16)) rest
    rw [byteOfHex_byte] at hread
    rw [hb]
    exact hread
  · rw [hb]
    exact readBody?_self hquote hbackslash rest

/-! ### Quoted data -/

theorem isPrintable_of_mem_quoted {data : Bytes} (h : b ∈ quoted data) : IsPrintable b := by
  rw [quoted, List.cons_append, List.mem_cons, List.mem_append, List.mem_flatMap, List.mem_singleton] at h
  rcases h with rfl | ⟨c, -, hc⟩ | rfl
  · decide
  · exact isPrintable_of_mem_quotedByte hc
  · decide

theorem newline_not_mem_quoted (data : Bytes) : newline ∉ quoted data :=
  fun h => absurd (isPrintable_of_mem_quoted h) (by decide)

private theorem readBody?_flatMap (data rest : Bytes) :
    readBody? (data.flatMap quotedByte ++ 0x22 :: rest) = some (data, rest) := by
  induction data with
  | nil => exact readBody?.eq_2 rest
  | cons b data ih => rw [List.flatMap_cons, List.append_assoc, readBody?_quotedByte, ih, Option.map_some]

theorem readQuoted?_quoted (data rest : Bytes) : readQuoted? (quoted data ++ rest) = some (data, rest) := by
  rw [quoted, List.cons_append, List.cons_append, List.append_assoc]
  exact readBody?_flatMap data rest

theorem quoted_injective : Function.Injective quoted := by
  intro data data' h
  have hread := readQuoted?_quoted data []
  rw [h, readQuoted?_quoted] at hread
  exact (Prod.mk.inj (Option.some.inj hread)).1.symm

/-! ### Traces -/

private theorem newline_not_mem_labelled {label : Bytes} (h : newline ∉ label) (data : Bytes) :
    newline ∉ label ++ quoted data := by
  rw [List.mem_append, not_or]
  exact ⟨h, newline_not_mem_quoted data⟩

/-- A line stands among the lines of a text in which it is written as one. -/
private theorem mem_lines_of_line {text : Bytes} (h : newline ∉ text) (before after : Bytes) :
    text ∈ lines (Notice.line before ++ Notice.line text ++ after) := by
  have hwhole : Notice.line before ++ Notice.line text ++ after = before ++ newline :: (text ++ newline :: after) := by
    simp [Notice.line]
  unfold lines
  rw [hwhole, List.splitOn_append_cons_self, List.splitOn_append_cons_self_of_not_mem h]
  exact List.mem_append_right _ (List.mem_cons_self ..)

/-- Quoted data stands between quotes and consists of printable bytes, so it is one line; reading it gives the data
back, whatever follows, so different data are quoted differently.  In this way a chunk that is written to a terminal
stands in the traces of it, after a label and alone on its line. -/
theorem quoted_reads_back :
    (∀ data, ∃ body, quoted data = 0x22 :: body ++ [0x22]) ∧
    (∀ data, ∀ b ∈ quoted data, 0x20 ≤ b ∧ b ≠ 0x7F) ∧
    (∀ data, lines (quoted data) = [quoted data]) ∧
    (∀ data rest, readQuoted? (quoted data ++ rest) = some (data, rest)) ∧
    Function.Injective quoted ∧
    (∀ chunk, lines (Notice.received chunk).text = [ascii "Complete::write: " ++ quoted chunk, []]) ∧
    ∀ time chunk cursor, ascii "Raw data: " ++ quoted chunk ∈ lines (Notice.input time chunk cursor).text := by
  refine ⟨fun data => ⟨_, rfl⟩, fun data b => isPrintable_of_mem_quoted, fun data => ?_, readQuoted?_quoted,
    quoted_injective, fun chunk => ?_, fun time chunk cursor => ?_⟩
  · exact List.splitOn_eq_singleton (newline_not_mem_quoted data)
  · exact List.splitOn_append_cons_self_of_not_mem (newline_not_mem_labelled (by decide) chunk) []
  · have hlabel : newline ∉ ascii "Raw data: " := by decide
    have hline := mem_lines_of_line (newline_not_mem_labelled hlabel chunk)
      (Notice.line [] ++ (ascii "=== INPUT [" ++ isoTime time ++ ascii "] ==="))
      (Notice.line (ascii "Length: " ++ decimal chunk.length) ++
        Notice.line (ascii "Cursor before: " ++ Notice.position cursor))
    simpa only [Notice.text, Notice.line, List.append_assoc] using hline

end ScreenWatch.Text
