import Mathlib.Data.List.Induction
import Mathlib.Data.List.TakeWhile
import Mathlib.Data.Nat.Digits.Defs
import ScreenWatch.Text.Positive

/-!
# Which arguments are positive numbers

A text either begins with a number, behind white space and a sign, or nothing is read from it
(`LeadingNumber.read_cases`, `LeadingNumber.read_append`).  An argument that has to be a positive number is read in
this way and then checked, for its sign, its size and what follows the number.  What comes through are exactly the
arguments that are white space, perhaps a plus sign, and digits of a number from 1 to 65535
(`assigns_exactly_numerals`).
-/

namespace ScreenWatch.Text

/-- Space, tab, newline, vertical tab, form feed and carriage return. -/
def whiteSpace : Bytes := [0x20, 0x09, 0x0A, 0x0B, 0x0C, 0x0D]

/-- The text is white space, perhaps a plus sign, and digits that write `n`; zeros may come first. -/
def IsNumeral (text : Bytes) (n : Nat) : Prop :=
  ∃ blanks sign digits, text = blanks ++ sign ++ digits ∧ (∀ b ∈ blanks, b ∈ whiteSpace) ∧
    (sign = [] ∨ sign = [0x2B]) ∧ digits ≠ [] ∧ (∀ b ∈ digits, 0x30 ≤ b ∧ b ≤ 0x39) ∧
    Nat.ofDigits 10 (digits.reverse.map fun b => b.toNat - 0x30) = n

variable {text blanks sign digits rest : Bytes} {b : UInt8} {n : Nat}

theorem isBlank_iff : isBlank b = true ↔ b ∈ whiteSpace := by
  have hb := b.toNat_lt
  simp only [isBlank, whiteSpace, Bool.or_eq_true, beq_iff_eq, Bool.and_eq_true, decide_eq_true_eq, List.mem_cons,
    List.not_mem_nil, or_false, UInt8.le_iff_toNat_le, ← UInt8.toNat_inj, UInt8.reduceToNat]
  omega

theorem isDigit_iff : isDigit b = true ↔ 0x30 ≤ b ∧ b ≤ 0x39 := by simp [isDigit]

theorem decimalValue_eq (digits : Bytes) :
    decimalValue digits = Nat.ofDigits 10 (digits.reverse.map fun b => b.toNat - 0x30) := by
  induction digits using List.reverseRecOn with
  | nil => rfl
  | append_singleton digits b ih =>
    rw [decimalValue_append_digit, ih, List.reverse_append, List.reverse_singleton, List.singleton_append,
      List.map_cons, Nat.ofDigits_cons, Nat.add_comm]

namespace LeadingNumber

/-- What may stand between the white space and the digits. -/
def IsSign (sign : Bytes) : Prop := sign = [] ∨ sign = [0x2B] ∨ sign = [0x2D]

/-- The number that a sign and digits write. -/
def signed (sign digits : Bytes) : Int := if sign = [0x2D] then -(decimalValue digits : Int) else decimalValue digits

theorem hold_exact {n : Int} (h : (hold n rest).isExact = true) : (hold n rest).value = n := by
  unfold hold at h ⊢
  split at h
  · cases h
  · split at h
    · cases h
    · next hlow hhigh => rw [if_neg hlow, if_neg hhigh]

theorem hold_of_bounds {n : Int} (hlow : least ≤ n) (hhigh : n ≤ greatest) (rest : Bytes) :
    hold n rest = ⟨n, true, rest⟩ := by
  unfold hold
  rw [if_neg (by omega), if_neg (by omega)]

theorem rest_hold (n : Int) (rest : Bytes) : (hold n rest).rest = rest := by
  unfold hold
  split
  · rfl
  · split <;> rfl

private theorem dropWhile_of_head {p : UInt8 → Bool} (h : ∀ b ∈ rest.head?, p b = false) : rest.dropWhile p = rest := by
  cases rest with
  | nil => rfl
  | cons b rest => exact List.dropWhile_cons_of_neg (by simp [h b rfl])

private theorem takeWhile_of_head {p : UInt8 → Bool} (h : ∀ b ∈ rest.head?, p b = false) : rest.takeWhile p = [] := by
  cases rest with
  | nil => rfl
  | cons b rest => exact List.takeWhile_cons_of_neg (by simp [h b rfl])

theorem exists_sign (word : Bytes) : ∃ sign, IsSign sign ∧ word = sign ++ unsigned word := by
  unfold unsigned
  split
  · next h =>
    obtain ⟨rest, rfl⟩ | ⟨rest, rfl⟩ := h.imp List.head?_eq_some_iff.mp List.head?_eq_some_iff.mp
    · exact ⟨[0x2D], .inr (.inr rfl), rfl⟩
    · exact ⟨[0x2B], .inr (.inl rfl), rfl⟩
  · exact ⟨[], .inl rfl, rfl⟩

/-- Digits are no white space and no sign. -/
private theorem digit_is_plain (h : isDigit b = true) : isBlank b = false ∧ b ≠ 0x2D ∧ b ≠ 0x2B := by
  have hb := b.toNat_lt
  simp only [isDigit, isBlank, Bool.and_eq_true, decide_eq_true_eq, Bool.or_eq_false_iff, beq_eq_false_iff_ne, ne_eq,
    Bool.and_eq_false_iff, decide_eq_false_iff_not, UInt8.le_iff_toNat_le, ← UInt8.toNat_inj, UInt8.reduceToNat] at h ⊢
  omega

/-- A number at the front of a text is read, and what follows it is left. -/
theorem read_append (hblanks : ∀ b ∈ blanks, isBlank b = true) (hsign : IsSign sign) (hne : digits ≠ [])
    (hdigits : ∀ b ∈ digits, isDigit b = true) (hrest : ∀ b ∈ rest.head?, isDigit b = false) :
    read (blanks ++ (sign ++ (digits ++ rest))) = hold (signed sign digits) rest := by
  obtain ⟨d, ds, rfl⟩ := List.exists_cons_of_ne_nil hne
  obtain ⟨hblank, hminus, hplus⟩ := digit_is_plain (hdigits d List.mem_cons_self)
  have hword : (blanks ++ (sign ++ (d :: ds ++ rest))).dropWhile isBlank = sign ++ (d :: ds ++ rest) := by
    rw [List.dropWhile_append_of_pos hblanks]
    apply dropWhile_of_head
    rcases hsign with rfl | rfl | rfl
    · simpa using hblank
    · exact fun b hb => Option.some.inj hb ▸ rfl
    · exact fun b hb => Option.some.inj hb ▸ rfl
  have hunsigned : unsigned (sign ++ (d :: ds ++ rest)) = d :: ds ++ rest := by
    rcases hsign with rfl | rfl | rfl <;> simp [unsigned, hminus, hplus]
  have hnegative : (sign ++ (d :: ds ++ rest)).head? = some 0x2D ↔ sign = [0x2D] := by
    rcases hsign with rfl | rfl | rfl <;> simp [hminus]
  have htake : (d :: ds ++ rest).takeWhile isDigit = d :: ds := by
    rw [List.takeWhile_append_of_pos hdigits, takeWhile_of_head hrest, List.append_nil]
  have hdrop : (d :: ds ++ rest).dropWhile isDigit = rest := by
    rw [List.dropWhile_append_of_pos hdigits, dropWhile_of_head hrest]
  simp only [read, hword, hunsigned, htake, hdrop, hnegative, hne, if_false, signed]

/-- Either nothing is read from a text, or it begins with a number. -/
theorem read_cases (text : Bytes) : read text = ⟨0, true, text⟩ ∨
    ∃ blanks sign digits rest, text = blanks ++ (sign ++ (digits ++ rest)) ∧ (∀ b ∈ blanks, isBlank b = true) ∧
      IsSign sign ∧ digits ≠ [] ∧ (∀ b ∈ digits, isDigit b = true) ∧ read text = hold (signed sign digits) rest := by
  by_cases hnone : (unsigned (text.dropWhile isBlank)).takeWhile isDigit = []
  · left
    simp only [read, hnone, if_true]
  · right
    obtain ⟨sign, hsign, hword⟩ := exists_sign (text.dropWhile isBlank)
    generalize unsigned (text.dropWhile isBlank) = word at hnone hword
    have htext : text = text.takeWhile isBlank ++ (sign ++ (word.takeWhile isDigit ++ word.dropWhile isDigit)) := by
      rw [List.takeWhile_append_dropWhile, ← hword, List.takeWhile_append_dropWhile]
    have hblanks : ∀ b ∈ text.takeWhile isBlank, isBlank b = true := fun _ => List.mem_takeWhile_imp
    have hdigits : ∀ b ∈ word.takeWhile isDigit, isDigit b = true := fun _ => List.mem_takeWhile_imp
    have hrest : ∀ b ∈ (word.dropWhile isDigit).head?, isDigit b = false := by
      intro b hb
      have h := List.head?_dropWhile_not isDigit word
      rwa [hb] at h
    exact ⟨_, sign, _, _, htext, hblanks, hsign, hnone, hdigits,
      htext ▸ read_append hblanks hsign hnone hdigits hrest⟩

end LeadingNumber

open LeadingNumber

theorem isNumeral_iff : IsNumeral text n ↔ ∃ blanks sign digits, text = blanks ++ (sign ++ digits) ∧
    (∀ b ∈ blanks, isBlank b = true) ∧ (sign = [] ∨ sign = [0x2B]) ∧ digits ≠ [] ∧
    (∀ b ∈ digits, isDigit b = true) ∧ decimalValue digits = n := by
  simp only [IsNumeral, isBlank_iff, isDigit_iff, decimalValue_eq, List.append_assoc]

theorem positive?_of_isNumeral (h : IsNumeral text n) (hpos : 1 ≤ n) (hmax : n ≤ maxPositive) :
    positive? text = some n := by
  obtain ⟨blanks, sign, digits, rfl, hblanks, hsign, hne, hdigits, hvalue⟩ := isNumeral_iff.mp h
  have hsigned : signed sign digits = n := by
    unfold signed
    rw [hvalue, if_neg (by rcases hsign with rfl | rfl <;> decide)]
  have hread : read (blanks ++ (sign ++ (digits ++ []))) = hold (signed sign digits) [] :=
    read_append hblanks (hsign.imp_right .inl) hne hdigits (by simp)
  unfold maxPositive at hmax
  rw [List.append_nil, hsigned, hold_of_bounds (by unfold least; omega) (by unfold greatest; omega)] at hread
  unfold positive?
  rw [if_neg (by simp [hne]), hread]
  exact if_neg (by simp [maxPositive]; omega)

theorem isNumeral_of_positive? (h : positive? text = some n) : IsNumeral text n ∧ 1 ≤ n ∧ n ≤ maxPositive := by
  simp only [positive?] at h
  split at h
  · cases h
  split at h
  · cases h
  next hcheck =>
  obtain ⟨hexact, hrest, hpos, hmax⟩ : (read text).isExact = true ∧ (read text).rest = [] ∧ 0 < (read text).value ∧
      (read text).value ≤ maxPositive := by simpa using hcheck
  have hvalue : (read text).value.toNat = n := Option.some.inj h
  obtain hnone | ⟨blanks, sign, digits, rest, rfl, hblanks, hsign, hne, hdigits, hread⟩ := read_cases text
  · rw [hnone] at hpos
    exact absurd hpos (Int.lt_irrefl 0)
  rw [hread] at hexact hrest hpos hmax hvalue
  rw [rest_hold] at hrest
  rw [hold_exact hexact] at hpos hmax hvalue
  have hminus : sign ≠ [0x2D] := by
    rintro rfl
    simp only [signed, if_true] at hpos
    omega
  have hdecimal : decimalValue digits = n := by rwa [signed, if_neg hminus, Int.toNat_natCast] at hvalue
  refine ⟨isNumeral_iff.mpr ⟨blanks, sign, digits, by rw [hrest, List.append_nil], hblanks, ?_, hne, hdigits, hdecimal⟩,
    by omega, by omega⟩
  exact hsign.imp_right (·.resolve_right hminus)

/-- The argument is there and is a numeral of `n`, and `n` is in the range that is allowed. -/
def IsPositiveNumeral (argument : Option Bytes) (n : Nat) : Prop :=
  ∃ text, argument = some text ∧ IsNumeral text n ∧ 1 ≤ n ∧ n ≤ 65535

theorem bind_positive?_eq_some_iff {argument : Option Bytes} :
    argument.bind positive? = some n ↔ IsPositiveNumeral argument n := by
  rw [Option.bind_eq_some_iff]
  constructor
  · rintro ⟨text, htext, h⟩
    exact ⟨text, htext, isNumeral_of_positive? h⟩
  · rintro ⟨text, htext, h, hpos, hmax⟩
    exact ⟨text, htext, positive?_of_isNumeral h hpos hmax⟩

/-- A place takes exactly the numbers from 1 to 65535 of arguments that are numerals, and keeps what it holds for
every other argument and where there is none. -/
theorem assigns_exactly_numerals (argument : Option Bytes) (place : Nat) :
    (∀ n, assignPositive argument place = (true, n) ↔ IsPositiveNumeral argument n) ∧
      (assignPositive argument place = (false, place) ↔ ¬∃ n, IsPositiveNumeral argument n) := by
  simp only [← bind_positive?_eq_some_iff, assignPositive]
  cases argument.bind positive? <;> simp

example : positive? [0x20, 0x09, 0x2B, 0x30, 0x38, 0x30] = some 80 := by decide

end ScreenWatch.Text
