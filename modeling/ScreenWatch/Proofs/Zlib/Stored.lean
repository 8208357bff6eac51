import Mathlib.Tactic.Ring
import ScreenWatch.Proofs.Outcome
import ScreenWatch.Zlib.Library

/-!
# Reading stored data

Inflating undoes storing (`inflate_stored`).  Where there is too little space, what fits of the data is written and the
reading stalls.  Between two blocks the input is at the start of a byte, so that a piece of the format can be described by
the data it writes and the input it leaves (`Writes`); such pieces are put one after another, and the induction over the
blocks follows `storedBlocks`.
-/

namespace ScreenWatch.Zlib

open Reader

/-! ### Numbers -/

/-- The number that bytes stand for, the lowest one first. -/
def littleEndian : Bytes → Nat
  | [] => 0
  | b :: rest => b.toNat + 256 * littleEndian rest

theorem littleEndian_lt (bytes : Bytes) : littleEndian bytes < 1 <<< (8 * bytes.length) := by
  induction bytes with
  | nil => decide
  | cons b rest ih =>
    have hb := b.toNat_lt
    simp only [littleEndian, List.length_cons, Nat.mul_add, Nat.shiftLeft_eq, Nat.pow_add, one_mul] at ih ⊢
    omega

/-- A reader at the start of a byte. -/
def Reader.fresh (input written : Bytes) (space : Nat) : Reader := { input, output := written.toArray, space }

theorem fill?_bytes (bytes rest : Bytes) (hold count : Nat) :
    fill? (count + 8 * bytes.length) hold count (bytes ++ rest) =
      some (rest, hold + (littleEndian bytes <<< count), count + 8 * bytes.length) := by
  induction bytes generalizing hold count with
  | nil =>
    rw [fill?.eq_def, if_pos (by simp)]
    simp [littleEndian]
  | cons b bytes ih =>
    have hcount : count + 8 * (b :: bytes).length = count + 8 + 8 * bytes.length := by
      rw [List.length_cons]
      omega
    rw [fill?.eq_def, if_neg (by rw [hcount]; omega), List.cons_append, hcount]
    dsimp only
    rw [ih, littleEndian]
    simp only [Nat.shiftLeft_eq, Nat.pow_add, Nat.reducePow]
    congr 3
    ring

/-- Whole bytes are read as the number that they stand for. -/
theorem readBits_bytes (bytes rest written : Bytes) (space : Nat) :
    readBits (8 * bytes.length) (.fresh (bytes ++ rest) written space) =
      .ok (littleEndian bytes) (.fresh rest written space) := by
  have hfill := fill?_bytes bytes rest 0 0
  have hlt := littleEndian_lt bytes
  rw [Nat.zero_add, Nat.shiftLeft_zero, Nat.zero_add] at hfill
  unfold readBits Reader.fresh
  dsimp only
  rw [hfill]
  dsimp only
  rw [Nat.mod_eq_of_lt hlt, Nat.shiftRight_eq_div_pow, Nat.div_eq_of_lt (by rwa [Nat.shiftLeft_eq, one_mul] at hlt),
    Nat.sub_self]

theorem align_fresh (input written : Bytes) (space : Nat) :
    align (.fresh input written space) = .ok () (.fresh input written space) := by
  show (discard (readBits 0) : ReaderM Unit) _ = _
  exact bind_of_ok (readBits_bytes [] input written space)

/-! ### Pieces of the format -/

/-- From the input the action reads all but the rest, and writes the data; or it stalls when there is no space left for
more of the data. -/
structure Writes (act : ReaderM Unit) (input data rest : Bytes) (written : Bytes) (space : Nat) : Prop where
  of_le : written.length + data.length ≤ space →
    act (.fresh input written space) = .ok () (.fresh rest (written ++ data) space)
  of_gt : written.length ≤ space → space < written.length + data.length →
    ∃ r, act (.fresh input written space) = .error .stalled r ∧
      r.output.toList = written ++ data.take (space - written.length)

namespace Writes

variable {act act' : ReaderM Unit} {input input' data data' rest rest' written : Bytes} {space : Nat}

theorem nothing (h : ∀ written, act (.fresh input written space) = .ok () (.fresh rest written space)) :
    Writes act input [] rest written space where
  of_le _ := by rw [List.append_nil, h]
  of_gt hle hgt := by
    rw [List.length_nil] at hgt
    omega

theorem of_eq (h : act (.fresh input written space) = act' (.fresh input' written space))
    (h' : Writes act' input' data rest written space) : Writes act input data rest written space where
  of_le hle := h.trans (h'.of_le hle)
  of_gt hle hgt := h ▸ h'.of_gt hle hgt

/-- One piece after another. -/
theorem bind (h : Writes act input data rest written space)
    (h' : Writes act' rest data' rest' (written ++ data) space) :
    Writes (act >>= fun _ => act') input (data ++ data') rest' written space := by
  constructor
  · intro hle
    rw [List.length_append] at hle
    have hrest := h'.of_le (by rw [List.length_append]; omega)
    rw [bind_of_ok (h.of_le (by omega)), hrest, List.append_assoc]
  · intro hle hgt
    rw [List.length_append] at hgt
    by_cases hfirst : written.length + data.length ≤ space
    · obtain ⟨r, hr, hout⟩ := h'.of_gt (by rwa [List.length_append]) (by rw [List.length_append]; omega)
      refine ⟨r, (bind_of_ok (h.of_le hfirst)).trans hr, ?_⟩
      have hroom : space - (written ++ data).length = space - written.length - data.length := by
        rw [List.length_append]
        omega
      have hall : data.take (space - written.length) = data := List.take_of_length_le (by omega)
      rw [hout, hroom, List.append_assoc, List.take_append, hall]
    · obtain ⟨r, hr, hout⟩ := h.of_gt hle (by omega)
      refine ⟨r, bind_of_error hr, ?_⟩
      rw [hout, List.take_append_of_le_length (by omega)]

end Writes

theorem copyInput_writes (data rest written : Bytes) (space : Nat) :
    Writes (copyInput data.length) (data ++ rest) data rest written space := by
  induction data generalizing written with
  | nil => exact .nothing fun _ => rfl
  | cons b data ih =>
    -- A byte that is at the start of the input is read in one go; writing it stalls if there is no space.
    have hbyte : Writes (do write (← readBits 8).toUInt8) (b :: data ++ rest) [b] (data ++ rest) written space := by
      have hread := readBits_bytes [b] (data ++ rest) written space
      have hvalue : littleEndian [b] = b.toNat := by simp [littleEndian]
      have hsame : b.toNat.toUInt8 = b := by simp
      rw [hvalue] at hread
      constructor
      · intro hle
        refine (bind_of_ok hread).trans ?_
        have hroom : written.toArray.size < space := by
          rw [List.size_toArray]
          exact hle
        rw [hsame]
        unfold write Reader.fresh
        dsimp only
        rw [if_pos hroom, List.push_toArray]
      · intro hle hgt
        have hfull : space = written.length := by
          rw [List.length_singleton] at hgt
          omega
        refine ⟨.fresh (data ++ rest) written space, (bind_of_ok hread).trans ?_, ?_⟩
        · unfold write Reader.fresh
          dsimp only
          rw [if_neg (by simp [hfull])]
        · simp [Reader.fresh, hfull]
    show Writes (readBits 8 >>= fun n => write n.toUInt8 >>= fun _ => copyInput data.length) _ _ _ _ _
    rw [← bind_assoc]
    exact hbyte.bind (ih _)

/-! ### Blocks -/

/-- The flag of a block takes three bits; the others of its byte are not used. -/
private theorem readBits_flag (last : Bool) (input written : Bytes) (space : Nat) :
    readBits 3 (.fresh ((if last then 1 else 0) :: input) written space) =
      .ok (if last then 1 else 0) { input, count := 5, output := written.toArray, space } := by
  unfold readBits Reader.fresh
  dsimp only
  rw [fill?.eq_def, if_neg (by decide)]
  dsimp only
  rw [fill?.eq_def, if_pos (by decide)]
  cases last <;> rfl

private theorem littleEndian_lengths {n : Nat} (hn : n ≤ maxStored) :
    littleEndian (littleEndian16 n ++ littleEndian16 (maxStored - n)) = n + 65536 * (maxStored - n) := by
  unfold maxStored at hn ⊢
  simp only [littleEndian16, littleEndian, List.cons_append, List.nil_append, Nat.toUInt8_eq, UInt8.toNat_ofNat']
  omega

/-- What is left of the byte of the flag is skipped. -/
private theorem align_flag (input written : Bytes) (space : Nat) :
    align { input, count := 5, output := written.toArray, space } = .ok () (.fresh input written space) := by
  show (discard (readBits 5) : ReaderM Unit) _ = _
  refine bind_of_ok (a := 0) (t := Reader.fresh input written space) ?_
  unfold readBits
  dsimp only
  rw [fill?.eq_def, if_pos (by decide)]
  rfl

theorem inflateBlocks_block (last : Bool) (bits left : Nat) (input written : Bytes) (space : Nat) :
    inflateBlocks bits (left + 1) (.fresh ((if last then 1 else 0) :: input) written space) =
      (do inflateStored; if last then pure () else inflateBlocks bits left)
        { input, count := 5, output := written.toArray, space } := by
  rw [inflateBlocks, bind_of_ok (readBits_flag last input written space)]
  cases last <;> simp

/-- The lengths and the bytes of a block, from the flag on. -/
private theorem inflateStored_eq {n : Nat} (hn : n ≤ maxStored) (input written : Bytes) (space : Nat) :
    inflateStored { input := littleEndian16 n ++ littleEndian16 (maxStored - n) ++ input, count := 5,
                    output := written.toArray, space } = copyInput n (.fresh input written space) := by
  have hread := readBits_bytes (littleEndian16 n ++ littleEndian16 (maxStored - n)) input written space
  rw [littleEndian_lengths hn] at hread
  unfold inflateStored
  rw [bind_of_ok (align_flag _ written space)]
  refine (bind_of_ok hread).trans ?_
  unfold maxStored at hn ⊢
  have hlow : (n + 65536 * (65535 - n)) % 65536 = n := by omega
  have hhigh : (n + 65536 * (65535 - n)) / 65536 = 65535 - n := by omega
  dsimp only
  rw [hlow, hhigh, if_neg (by omega)]

private theorem bind_of_eq {ε σ α β : Type} {x x' : EStateM ε σ α} {f : α → EStateM ε σ β} {s s' : σ}
    (h : x s = x' s') : (x >>= f) s = (x' >>= f) s' := by
  show EStateM.bind x f s = EStateM.bind x' f s'
  unfold EStateM.bind
  rw [h]

/-- A block writes its bytes, and then what the blocks after it write. -/
private theorem block_writes (last : Bool) {data input data' rest written : Bytes} (hdata : data.length ≤ maxStored)
    {bits left space : Nat}
    (h : Writes (if last then pure () else inflateBlocks bits left) input data' rest (written ++ data) space) :
    Writes (inflateBlocks bits (left + 1)) (storedBlock last data ++ input) (data ++ data') rest written space := by
  refine .of_eq ?_ ((copyInput_writes data input written space).bind h)
  have hinput : storedBlock last data ++ input = (if last then 1 else 0) ::
      (littleEndian16 data.length ++ littleEndian16 (maxStored - data.length) ++ (data ++ input)) := by
    simp only [storedBlock, List.append_assoc, List.cons_append, List.nil_append]
  rw [hinput, inflateBlocks_block]
  exact bind_of_eq (inflateStored_eq hdata (data ++ input) written space)

private theorem storedBlocks_last {data : Bytes} (h : data.drop maxStored = []) :
    storedBlocks data = storedBlock true data := by
  rw [storedBlocks]
  split
  · rfl
  · simp_all

private theorem storedBlocks_more {data rest : Bytes} {b : UInt8} (h : data.drop maxStored = b :: rest) :
    storedBlocks data = storedBlock false (data.take maxStored) ++ storedBlocks (b :: rest) := by
  rw [storedBlocks]
  split
  · simp_all
  · next h' =>
    rw [h] at h'
    obtain ⟨rfl, rfl⟩ := List.cons.inj h'
    rfl

private theorem storedBlock_length (last : Bool) (data : Bytes) :
    (storedBlock last data).length = 5 + data.length := by
  simp [storedBlock, littleEndian16]
  omega

/-- Induction over the blocks.  None takes less than a byte, so that there are never more of them than bytes. -/
theorem inflateBlocks_writes (data rest written : Bytes) {bits left space : Nat}
    (hleft : (storedBlocks data).length ≤ left) :
    Writes (inflateBlocks bits left) (storedBlocks data ++ rest) data rest written space := by
  induction data using storedBlocks.induct generalizing written left with
  | case1 data h =>
    rw [storedBlocks_last h, storedBlock_length] at hleft
    obtain ⟨left, rfl⟩ : ∃ n, left = n + 1 := ⟨left - 1, by omega⟩
    have hnothing : Writes (pure ()) rest [] rest (written ++ data) space := .nothing fun _ => rfl
    have hlast : Writes (inflateBlocks bits (left + 1)) _ _ _ _ _ :=
      block_writes true (List.drop_eq_nil_iff.1 h) hnothing
    rwa [List.append_nil, ← storedBlocks_last h] at hlast
  | case2 data b data' h ih =>
    rw [storedBlocks_more h, List.length_append, storedBlock_length] at hleft
    obtain ⟨left, rfl⟩ : ∃ n, left = n + 1 := ⟨left - 1, by omega⟩
    have hrest : Writes (inflateBlocks bits left) _ _ _ _ space := ih (written ++ data.take maxStored) (by omega)
    have hblock := block_writes false (by rw [List.length_take]; exact min_le_left _ _) hrest
    rwa [← List.append_assoc, ← storedBlocks_more h, ← h, List.take_append_drop] at hblock

/-! ### The whole format -/

private theorem readHeader_stored (rest written : Bytes) (space : Nat) :
    readHeader (.fresh ([0x78, 0x01] ++ rest) written space) = .ok () (.fresh rest written space) := by
  have hread := readBits_bytes [0x78, 0x01] rest written space
  unfold readHeader
  refine (bind_of_ok hread).trans ?_
  rfl

theorem adler32_lt (data : Bytes) : adler32 data < 4294967296 := by
  have hsums (sums : Nat × Nat) (h : sums.1 < adlerBase ∧ sums.2 < adlerBase) :
      (data.foldl adlerStep sums).1 < adlerBase ∧ (data.foldl adlerStep sums).2 < adlerBase := by
    induction data generalizing sums with
    | nil => exact h
    | cons b data ih => exact ih _ ⟨Nat.mod_lt _ (by decide), Nat.mod_lt _ (by decide)⟩
  have hlast := hsums (1, 0) (by decide)
  unfold adlerBase at hlast
  unfold adler32
  dsimp only
  omega

private theorem reverse_digits {a b c d : Nat} (ha : a < 256) (hb : b < 256) (hc : c < 256) :
    (a + 256 * b + 65536 * c + 16777216 * d) % 256 * 16777216 +
      (a + 256 * b + 65536 * c + 16777216 * d) / 256 % 256 * 65536 +
      (a + 256 * b + 65536 * c + 16777216 * d) / 65536 % 256 * 256 +
      (a + 256 * b + 65536 * c + 16777216 * d) / 16777216 = 16777216 * a + 65536 * b + 256 * c + d := by
  have h₁ : (a + 256 * b + 65536 * c + 16777216 * d) % 256 = a := by omega
  have h₂ : (a + 256 * b + 65536 * c + 16777216 * d) / 256 % 256 = b := by omega
  have h₃ : (a + 256 * b + 65536 * c + 16777216 * d) / 65536 % 256 = c := by omega
  have h₄ : (a + 256 * b + 65536 * c + 16777216 * d) / 16777216 = d := by omega
  omega

private theorem readChecksum_bytes {n : Nat} (hn : n < 4294967296) (rest written : Bytes) (space : Nat) :
    readChecksum (.fresh (bigEndian32 n ++ rest) written space) = .ok n (.fresh rest written space) := by
  have hread := readBits_bytes (bigEndian32 n) rest written space
  have hvalue : littleEndian (bigEndian32 n) =
      n / 16777216 + 256 * (n / 65536 % 256) + 65536 * (n / 256 % 256) + 16777216 * (n % 256) := by
    simp only [bigEndian32, littleEndian, Nat.toUInt8_eq, UInt8.toNat_ofNat']
    omega
  unfold readChecksum
  refine (bind_of_ok hread).trans (congrArg (EStateM.Result.ok · _) ?_)
  rw [hvalue, reverse_digits (by omega) (Nat.mod_lt _ (by decide)) (Nat.mod_lt _ (by decide))]
  have hhigh := Nat.div_div_eq_div_mul n 65536 256
  have hlow := Nat.div_div_eq_div_mul n 256 256
  omega

/-- After the header, there are more bits than blocks. -/
private theorem inflateAll_stored (data : Bytes) (space : Nat) :
    ∃ bits, Writes (inflateBlocks bits bits) (storedBlocks data ++ bigEndian32 (adler32 data)) data
        (bigEndian32 (adler32 data)) [] space ∧
      inflateAll (.fresh (stored data) [] space) =
        (do
          inflateBlocks bits bits
          align
          let checksum ← readChecksum
          if checksum ≠ adler32 (← get).output.toList then throw Halt.corrupt : ReaderM Unit)
        (.fresh (storedBlocks data ++ bigEndian32 (adler32 data)) [] space) := by
  refine ⟨8 * (storedBlocks data ++ bigEndian32 (adler32 data)).length + 0 + 1, inflateBlocks_writes _ _ _ ?_, ?_⟩
  · rw [List.length_append]
    omega
  · unfold inflateAll stored
    rw [List.append_assoc]
    exact bind_of_ok (readHeader_stored _ [] space)

/-- With enough space the data is written, and the checksum is right. -/
theorem inflate_stored {data : Bytes} {space : Nat} (h : data.length ≤ space) :
    inflate (stored data) space = ⟨none, data⟩ := by
  obtain ⟨bits, hwrites, heq⟩ := inflateAll_stored data space
  have hblocks := hwrites.of_le (by rwa [List.length_nil, Nat.zero_add])
  rw [List.nil_append] at hblocks
  have hsum := readChecksum_bytes (adler32_lt data) [] data space
  rw [List.append_nil] at hsum
  rw [bind_of_ok hblocks, bind_of_ok (align_fresh _ data space), bind_of_ok hsum] at heq
  have hend : inflateAll (.fresh (stored data) [] space) = .ok () (.fresh [] data space) := by
    refine heq.trans (Eq.trans (bind_of_ok (a := Reader.fresh [] data space) (t := .fresh [] data space) rfl) ?_)
    rw [if_neg (by simp [Reader.fresh])]
    rfl
  have hinput : inflateAll { input := stored data, space } = .ok () (.fresh [] data space) := hend
  unfold inflate
  rw [hinput]
  simp [Reader.fresh]

/-- With too little space, what fits is written. -/
theorem inflate_stored_of_lt {data : Bytes} {space : Nat} (h : space < data.length) :
    inflate (stored data) space = ⟨some .stalled, data.take space⟩ := by
  obtain ⟨bits, hwrites, heq⟩ := inflateAll_stored data space
  obtain ⟨r, hblocks, hout⟩ := hwrites.of_gt (Nat.zero_le _) (by rwa [List.length_nil, Nat.zero_add])
  rw [bind_of_error hblocks] at heq
  have hinput : inflateAll { input := stored data, space } = .error .stalled r := heq
  unfold inflate
  rw [hinput]
  simp [hout]

/-! ### Lengths -/

theorem storedBlocks_length_le (data : Bytes) :
    (storedBlocks data).length ≤ data.length + 5 * (data.length / 65535) + 5 := by
  induction data using storedBlocks.induct with
  | case1 data h =>
    rw [storedBlocks_last h, storedBlock_length]
    omega
  | case2 data b data' h ih =>
    have hlen := congrArg List.length h
    rw [List.length_drop, List.length_cons] at hlen
    rw [storedBlocks_more h, List.length_append, storedBlock_length, List.length_take]
    rw [List.length_cons] at ih
    unfold maxStored at hlen ⊢
    omega

theorem stored_length_le (data : Bytes) : (stored data).length ≤ Library.storing.bound data.length := by
  have hblocks := storedBlocks_length_le data
  show _ ≤ data.length + data.length / 4096 + data.length / 16384 + data.length / 33554432 + 13
  simp only [stored, bigEndian32, List.length_append, List.length_cons, List.length_nil]
  omega

end ScreenWatch.Zlib
