import Mathlib.Algebra.Group.Nat.Defs
import ScreenWatch.Control.Sequence
import ScreenWatch.Proofs.Escape.Tokens
import ScreenWatch.Proofs.Text.Decimal

/-!
# Reading parameters

What is collected of a control sequence, byte by byte (`ofBody`), is what its body says when it is read as a whole
(`ofBody_eq_written`): its intermediate characters, and the numbers between its separators, of any length and with any
number of zeros in front.  The digits that are kept of a number have its value, or both values are far past the bound
(`Keeps`), and what a body adds to a shorter one is told by its last byte (`Collects.takeByte`).  Hence numbers that
are written in decimal notation are read back (`ofBody_params`).
-/

namespace ScreenWatch.Control.Sequence

open Text (decimal decimalValue decimalValue_append_digit isDigit)

/-- One more byte between `ESC [` and the final one. -/
def takeByte (q : Sequence) (b : UInt8) : Sequence :=
  if Escape.isParameter b.toNat then q.pushParam b.toNat else q.collect b.toNat

/-- What has been collected when the final byte arrives. -/
def ofBody (body : Bytes) : Sequence := (body.foldl takeByte .empty).flush

/-- The digits and separators of a body. -/
def numerals (body : Bytes) : Bytes := body.filter fun b => (b.toNat : Int) ∉ Escape.intermediateCodes

/-- The characters of a body that are neither. -/
def intermediates (body : Bytes) : Bytes := body.filter fun b => (b.toNat : Int) ∈ Escape.intermediateCodes

/-- What stands between the separators; nothing after the last one is no field. -/
def fields (body : Bytes) : List Bytes :=
  let all := (numerals body).splitOn 0x3B
  if all.getLast? = some [] then all.dropLast else all

/-- What the body of a control sequence says. -/
def written (body : Bytes) : Sequence where
  params := ((fields body).map fun field => min (decimalValue field) 65535).take 256
  intermediate := (intermediates body).take 8

/-! ### Bytes of a body -/

private theorem digit_bounds {b : UInt8} (h : isDigit b = true) : 0x30 ≤ b.toNat ∧ b.toNat ≤ 0x39 := by
  simpa [isDigit, UInt8.le_iff_toNat_le] using h

private theorem bodyCode_cases {b : UInt8} (h : (b.toNat : Int) ∈ Escape.bodyCodes) :
    isDigit b = true ∧ (b.toNat : Int) ∉ Escape.intermediateCodes ∨ b = 0x3B ∨
      Escape.isParameter b.toNat = false ∧ (b.toNat : Int) ∈ Escape.intermediateCodes := by
  rw [Escape.mem_bodyCodes] at h
  rw [← Escape.isIntermediate_iff]
  simp only [Escape.isParameter, Escape.isIntermediate, isDigit, Bool.or_eq_true, Bool.and_eq_true,
    Bool.or_eq_false_iff, Bool.and_eq_false_iff, decide_eq_true_eq, decide_eq_false_iff_not, beq_iff_eq,
    beq_eq_false_iff_ne, UInt8.le_iff_toNat_le, ← UInt8.toNat_inj, UInt8.reduceToNat] at h ⊢
  omega

private theorem digit_classes {b : UInt8} (h : isDigit b = true) :
    Escape.isParameter b.toNat = true ∧ (b.toNat : Int) ∉ Escape.intermediateCodes := by
  have hbounds := digit_bounds h
  rw [← Escape.isIntermediate_iff]
  simp only [Escape.isParameter, Escape.isIntermediate, Bool.or_eq_true, Bool.and_eq_true, decide_eq_true_eq,
    beq_iff_eq]
  omega

private theorem takeByte_digit {b : UInt8} (h : isDigit b = true) (q : Sequence) :
    q.takeByte b = q.pushDigit b.toNat := by
  have hbounds := digit_bounds h
  rw [takeByte, if_pos (digit_classes h).1, pushParam, if_neg (by omega)]

private theorem takeByte_intermediate {b : UInt8} (hparam : Escape.isParameter b.toNat = false) (q : Sequence) :
    q.takeByte b = { q with intermediate :=
      if q.intermediate.length < 8 then q.intermediate ++ [b] else q.intermediate } := by
  have hbyte : (b.toNat : Int) ≤ 255 := by
    have := b.toNat_lt
    omega
  rw [takeByte, hparam, if_neg (by decide), collect]
  by_cases hroom : q.intermediate.length < 8
  · rw [if_pos ⟨hroom, hbyte⟩, if_pos hroom]
    simp
  · rw [if_neg fun h => hroom h.1, if_neg hroom]

/-- A digit or separator at the end of a body. -/
private theorem concat_numeral (body : Bytes) {b : UInt8} (hb : (b.toNat : Int) ∉ Escape.intermediateCodes) :
    numerals (body ++ [b]) = numerals body ++ [b] ∧ intermediates (body ++ [b]) = intermediates body := by
  simp [numerals, intermediates, hb]

private theorem concat_intermediate (body : Bytes) {b : UInt8} (hb : (b.toNat : Int) ∈ Escape.intermediateCodes) :
    numerals (body ++ [b]) = numerals body ∧ intermediates (body ++ [b]) = intermediates body ++ [b] := by
  simp [numerals, intermediates, hb]

/-! ### Digits -/

/-- The digits that are kept of a field: they have its value, unless both are too large to be told apart. -/
structure Keeps (field kept : Bytes) : Prop where
  nil_iff : kept = [] ↔ field = []
  length_le : kept.length ≤ 16
  /-- Only a lone zero stands in front. -/
  leading : kept ≠ [] → kept ≠ [0x30] → 10 ^ (kept.length - 1) ≤ decimalValue kept
  value : decimalValue kept = decimalValue field ∨ 10 ^ 15 ≤ decimalValue kept ∧ 10 ^ 15 ≤ decimalValue field

theorem Keeps.nothing : Keeps [] [] := ⟨Iff.rfl, by decide, fun h => (h rfl).elim, .inl rfl⟩

theorem Keeps.min_eq {field kept : Bytes} (h : Keeps field kept) :
    min (decimalValue kept) maxParam = min (decimalValue field) 65535 := by
  unfold maxParam
  rcases h.value with h | ⟨h, h'⟩
  · rw [h]
  · omega

/-- The first digit, and the first one after a lone zero. -/
private theorem Keeps.first {field : Bytes} (h : decimalValue field = 0) {b : UInt8} (hb : isDigit b = true) :
    Keeps (field ++ [b]) [b] where
  nil_iff := by simp
  length_le := by simp
  leading _ hne := by
    have hzero : b.toNat ≠ 0x30 := by
      intro e
      exact hne (by rw [UInt8.toNat_inj.1 (show b.toNat = (0x30 : UInt8).toNat from e)])
    have hbounds := digit_bounds hb
    have hvalue : decimalValue [b] = b.toNat - 0x30 := by simp [decimalValue]
    rw [hvalue, List.length_singleton]
    omega
  value := .inl (by rw [decimalValue_append_digit, h]; rfl)

theorem Keeps.pushDigit {field kept : Bytes} (h : Keeps field kept) {b : UInt8} (hb : isDigit b = true)
    (params : List Nat) (intermediate : Bytes) :
    Keeps (field ++ [b]) (Sequence.pushDigit ⟨params, kept, intermediate⟩ b.toNat).current := by
  have hvalue := h.value
  have hbyte : (b.toNat : Int).toNat.toUInt8 = b := by simp
  simp only [Sequence.pushDigit, hbyte, maxDigits]
  -- A lone zero is replaced by the next digit; otherwise digits are kept while there is room.
  by_cases hzero : kept = [0x30]
  · have hfield : decimalValue field = 0 := by
      have : decimalValue kept = 0 := by rw [hzero]; rfl
      omega
    simpa [hzero] using Keeps.first hfield hb
  · rw [if_neg hzero]
    by_cases hnil : kept = []
    · have hfield : field = [] := h.nil_iff.1 hnil
      simpa [hnil] using @Keeps.first field (by rw [hfield]; rfl) b hb
    · have hlarge := h.leading hnil hzero
      have hlen := h.length_le
      by_cases hroom : kept.length < 16
      · rw [if_pos hroom]
        refine ⟨by simp, by simp; omega, ?_, ?_⟩
        · intro _ _
          have hpow : 10 ^ kept.length = 10 * 10 ^ (kept.length - 1) := by
            rw [← Nat.pow_succ']
            congr 1
            have := List.length_pos_iff.2 hnil
            omega
          rw [decimalValue_append_digit, List.length_append, List.length_singleton, Nat.add_sub_cancel, hpow]
          omega
        · rw [decimalValue_append_digit, decimalValue_append_digit]
          omega
      · -- There are sixteen digits, and no zeros in front of them.
        have hlength : kept.length = 16 := by omega
        rw [hlength] at hlarge
        rw [if_neg hroom]
        refine ⟨by simp [hnil], hlen, h.leading, .inr ⟨hlarge, ?_⟩⟩
        rw [decimalValue_append_digit]
        omega

/-! ### Fields -/

/-- A bounded list takes one more element if there is room. -/
private theorem take_concat {α : Type} (l : List α) (a : α) (n : Nat) :
    (if (l.take n).length < n then l.take n ++ [a] else l.take n) = (l ++ [a]).take n := by
  rw [List.length_take]
  by_cases h : l.length < n
  · rw [if_pos (by omega), List.take_of_length_le (by omega), List.take_of_length_le (by simp; omega)]
  · rw [if_neg (by omega), List.take_append_of_le_length (by omega)]

/-- What has been collected of a body, of which some fields are complete and one is being read. -/
structure Collects (body : Bytes) (done : List Bytes) (field : Bytes) (q : Sequence) : Prop where
  numerals_eq : numerals body = done.flatMap (· ++ [0x3B]) ++ field
  digits : ∀ f ∈ field :: done, ∀ b ∈ f, isDigit b = true
  params_eq : q.params = (done.map fun f => min (decimalValue f) 65535).take 256
  current : Keeps field q.current
  intermediate_eq : q.intermediate = (intermediates body).take 8

theorem Collects.start : Collects [] [] [] .empty := ⟨rfl, by simp, rfl, .nothing, rfl⟩

/-- A field that is complete counts if there is room. -/
theorem Collects.params_pushCurrent {body : Bytes} {done : List Bytes} {field : Bytes} {q : Sequence}
    (h : Collects body done field q) :
    q.pushCurrent.params = ((done ++ [field]).map fun f => min (decimalValue f) 65535).take 256 := by
  rw [List.map_append, List.map_singleton, ← take_concat, ← h.params_eq, ← h.current.min_eq]
  rfl

/-- One more byte of the body is a digit of the field, or completes it, or is an intermediate character. -/
theorem Collects.takeByte {body : Bytes} {done : List Bytes} {field : Bytes} {q : Sequence}
    (h : Collects body done field q) {b : UInt8} (hb : (b.toNat : Int) ∈ Escape.bodyCodes) :
    ∃ done' field', Collects (body ++ [b]) done' field' (q.takeByte b) := by
  have hfield : ∀ c ∈ field, isDigit c = true := h.digits field (by simp)
  have hdone : ∀ f ∈ done, ∀ c ∈ f, isDigit c = true := fun f hf => h.digits f (by simp [hf])
  rcases bodyCode_cases hb with ⟨hdigit, hinter⟩ | rfl | ⟨hparam, hinter⟩
  · obtain ⟨hnum, hint⟩ := concat_numeral body hinter
    rw [takeByte_digit hdigit]
    refine ⟨done, field ++ [b], ?_, ?_, h.params_eq, h.current.pushDigit hdigit _ _, hint ▸ h.intermediate_eq⟩
    · rw [hnum, h.numerals_eq, List.append_assoc]
    · exact List.forall_mem_cons.2
        ⟨List.forall_mem_append.2 ⟨hfield, List.forall_mem_singleton.2 hdigit⟩, hdone⟩
  · obtain ⟨hnum, hint⟩ := concat_numeral body (b := 0x3B) (by decide)
    refine ⟨done ++ [field], [], ?_, ?_, h.params_pushCurrent, .nothing, hint ▸ h.intermediate_eq⟩
    · rw [hnum, h.numerals_eq]
      simp
    · exact List.forall_mem_cons.2
        ⟨by simp, List.forall_mem_append.2 ⟨hdone, List.forall_mem_singleton.2 hfield⟩⟩
  · obtain ⟨hnum, hint⟩ := concat_intermediate body hinter
    rw [takeByte_intermediate hparam]
    refine ⟨done, field, hnum ▸ h.numerals_eq, h.digits, h.params_eq, h.current, ?_⟩
    rw [hint, ← take_concat, ← h.intermediate_eq]

theorem Collects.foldl {before : Bytes} {done : List Bytes} {field : Bytes} {q : Sequence}
    (h : Collects before done field q) {body : Bytes} (hbody : ∀ b ∈ body, (b.toNat : Int) ∈ Escape.bodyCodes) :
    ∃ done' field', Collects (before ++ body) done' field' (body.foldl Sequence.takeByte q) := by
  induction body generalizing before done field q with
  | nil => exact ⟨done, field, by simpa using h⟩
  | cons b body ih =>
    obtain ⟨done', field', h'⟩ := h.takeByte (hbody b (by simp))
    rw [List.append_cons]
    exact ih h' fun c hc => hbody c (by simp [hc])

/-- Fields are told apart by the separators between them. -/
private theorem splitOn_fields {a : UInt8} {done : List Bytes} {field : Bytes} (h : ∀ f ∈ field :: done, a ∉ f) :
    (done.flatMap (· ++ [a]) ++ field).splitOn a = done ++ [field] := by
  induction done with
  | nil => exact List.splitOn_eq_singleton (h field (by simp))
  | cons f done ih =>
    have hf : a ∉ f := h f (by simp)
    have hrest : ∀ g ∈ field :: done, a ∉ g := by
      intro g hg
      rcases List.mem_cons.1 hg with rfl | hg
      · exact h g (by simp)
      · exact h g (by simp [hg])
    rw [List.flatMap_cons, List.append_assoc, List.append_assoc, List.singleton_append,
      List.splitOn_append_cons_self_of_not_mem hf, ih hrest, List.cons_append]

theorem Collects.splitOn_eq {body : Bytes} {done : List Bytes} {field : Bytes} {q : Sequence}
    (h : Collects body done field q) : (numerals body).splitOn 0x3B = done ++ [field] := by
  rw [h.numerals_eq]
  refine splitOn_fields ?_
  intro f hf hmem
  exact absurd (h.digits f hf _ hmem) (by decide)

theorem Collects.flush_eq {body : Bytes} {done : List Bytes} {field : Bytes} {q : Sequence}
    (h : Collects body done field q) : q.flush = written body := by
  have hfields : fields body = if field = [] then done else done ++ [field] := by
    simp [fields, h.splitOn_eq]
  unfold flush
  by_cases hfield : field = []
  · have hcurrent := h.current.nil_iff.2 hfield
    rw [if_pos hfield] at hfields
    rw [if_pos (by simp [hcurrent]), written, hfields, ← h.params_eq, ← h.intermediate_eq, ← hcurrent]
  · have hcurrent : q.current ≠ [] := fun e => hfield (h.current.nil_iff.1 e)
    rw [if_neg hfield] at hfields
    rw [if_neg (by simp [hcurrent]), written, hfields, ← h.params_pushCurrent, ← h.intermediate_eq]
    rfl

/-- What is collected of a body is what the body says. -/
theorem ofBody_eq_written {body : Bytes} (hbody : ∀ b ∈ body, (b.toNat : Int) ∈ Escape.bodyCodes) :
    ofBody body = written body := by
  obtain ⟨done, field, h⟩ := Collects.start.foldl hbody
  exact h.flush_eq

/-! ### Numbers -/

private theorem separator_not_mem_decimal (n : Nat) : 0x3B ∉ decimal n := by
  intro h
  exact absurd (Text.isDigit_decimal n _ h) (by decide)

/-- Numbers with semicolons between them are digits and separators. -/
private theorem mem_numbers {n : Nat} {rest : List Nat} {b : UInt8}
    (h : b ∈ decimal n ++ rest.flatMap fun m => 0x3B :: decimal m) : isDigit b = true ∨ b = 0x3B := by
  rcases List.mem_append.1 h with h | h
  · exact .inl (Text.isDigit_decimal n b h)
  · obtain ⟨m, -, h⟩ := List.mem_flatMap.1 h
    rcases List.mem_cons.1 h with rfl | h
    · exact .inr rfl
    · exact .inl (Text.isDigit_decimal m b h)

theorem bodyCodes_numbers (n : Nat) (rest : List Nat) :
    ∀ b ∈ decimal n ++ rest.flatMap fun m => 0x3B :: decimal m, (b.toNat : Int) ∈ Escape.bodyCodes := by
  intro b hb
  rcases mem_numbers hb with hdigit | rfl
  · exact Escape.mem_bodyCodes.2 (.inl (digit_classes hdigit).1)
  · decide

private theorem splitOn_numbers (n : Nat) (rest : List Nat) :
    (decimal n ++ rest.flatMap fun m => 0x3B :: decimal m).splitOn 0x3B = (n :: rest).map decimal := by
  induction rest generalizing n with
  | nil => simpa using List.splitOn_eq_singleton (separator_not_mem_decimal n)
  | cons m rest ih =>
    rw [List.flatMap_cons, List.cons_append, List.splitOn_append_cons_self_of_not_mem (separator_not_mem_decimal n), ih,
      List.map_cons, List.map_cons, List.map_cons]

/-- A body of digits and separators. -/
private theorem filter_numbers {body : Bytes} (h : ∀ b ∈ body, isDigit b = true ∨ b = 0x3B) :
    numerals body = body ∧ intermediates body = [] := by
  have hclass : ∀ b ∈ body, (b.toNat : Int) ∉ Escape.intermediateCodes := by
    intro b hb
    rcases h b hb with hdigit | rfl
    · exact (digit_classes hdigit).2
    · decide
  exact ⟨List.filter_eq_self.2 fun b hb => by simp [hclass b hb],
    List.filter_eq_nil_iff.2 fun b hb => by simp [hclass b hb]⟩

/-- Numbers with semicolons between them are read back. -/
theorem ofBody_params {n : Nat} {rest : List Nat} (hlen : rest.length < maxParams)
    (h : ∀ m ∈ n :: rest, m ≤ maxParam) :
    ofBody (decimal n ++ rest.flatMap fun m => 0x3B :: decimal m) = ⟨n :: rest, [], []⟩ := by
  obtain ⟨hnum, hint⟩ := filter_numbers fun _ hb => @mem_numbers n rest _ hb
  have hlast : ((n :: rest).map decimal).getLast? ≠ some [] := by
    rw [List.getLast?_map]
    simp [Text.decimal_ne_nil]
  have hvalues : (n :: rest).map (fun m => min (decimalValue (decimal m)) 65535) = n :: rest := by
    refine (List.map_congr_left fun m hm => ?_).trans (List.map_id _)
    rw [Text.decimalValue_decimal]
    exact Nat.min_eq_left (h m hm)
  have htake : (n :: rest).take 256 = n :: rest := List.take_of_length_le hlen
  rw [ofBody_eq_written (bodyCodes_numbers n rest), written, fields, hint, hnum, splitOn_numbers]
  rw [if_neg hlast, List.map_map, Function.comp_def, hvalues, htake, List.take_nil]

end ScreenWatch.Control.Sequence
