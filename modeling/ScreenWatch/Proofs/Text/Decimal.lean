import ScreenWatch.Text.Bytes

/-!
# Decimal notation

A number is written with digits only, the last of which is its remainder (`decimal_of_ge`), and is read back
(`decimalValue_decimal`).
-/

namespace ScreenWatch.Text

private theorem toNat_digitChar {d : Nat} (h : d < 10) : d.digitChar.toNat.toUInt8 = (0x30 + d).toUInt8 := by
  have : ∀ d < 10, d.digitChar.toNat.toUInt8 = (0x30 + d).toUInt8 := by decide
  exact this d h

theorem decimal_of_lt {n : Nat} (h : n < 10) : decimal n = [(0x30 + n).toUInt8] := by
  rw [decimal, Nat.toDigits_of_lt_base h, List.map_singleton, toNat_digitChar h]

theorem decimal_of_ge {n : Nat} (h : 10 ≤ n) : decimal n = decimal (n / 10) ++ [(0x30 + n % 10).toUInt8] := by
  rw [decimal, Nat.toDigits_of_base_le (by decide) h, List.map_append, List.map_singleton,
    toNat_digitChar (Nat.mod_lt n (by decide))]
  rfl

theorem isDigit_digit {d : Nat} (h : d < 10) : isDigit (0x30 + d).toUInt8 = true := by
  have : ∀ d < 10, isDigit (0x30 + d).toUInt8 = true := by decide
  exact this d h

theorem isDigit_decimal (n : Nat) : ∀ b ∈ decimal n, isDigit b = true := by
  induction n using Nat.strongRecOn with
  | ind n ih =>
    intro b hb
    rcases Nat.lt_or_ge n 10 with h | h
    · rw [decimal_of_lt h, List.mem_singleton] at hb
      rw [hb]
      exact isDigit_digit h
    · rw [decimal_of_ge h, List.mem_append, List.mem_singleton] at hb
      rcases hb with hb | rfl
      · exact ih (n / 10) (by omega) b hb
      · exact isDigit_digit (Nat.mod_lt n (by decide))

theorem decimalValue_decimal (n : Nat) : decimalValue (decimal n) = n := by
  have digit : ∀ d < 10, (0x30 + d).toUInt8.toNat - 0x30 = d := by decide
  induction n using Nat.strongRecOn with
  | ind n ih =>
    rcases Nat.lt_or_ge n 10 with h | h
    · rw [decimal_of_lt h]
      simpa [decimalValue] using digit n h
    · rw [decimal_of_ge h, decimalValue_append_digit, ih (n / 10) (by omega), digit _ (Nat.mod_lt n (by decide))]
      omega

theorem decimal_ne_nil (n : Nat) : decimal n ≠ [] := by
  simp [decimal, Nat.toDigits_ne_nil]

end ScreenWatch.Text
