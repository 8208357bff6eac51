import ScreenWatch.Proofs.Emulator.Sound
import ScreenWatch.Proofs.Screen.Text

/-!
# What is read off a text

The text of an emulator is well-formed UTF-8.  Its lines are the rows of the screen, since no code point on the screen
is a newline (`Screen.lines_text`), and its hash goes through the code points that are read off it
(`Screen.hash_eq_foldl`), since none of them had to be replaced (`Emulator.Reached.text_is_wellFormed`).
-/

namespace ScreenWatch

open Utf8 (IsScalar IsPrintable IsWellFormed encode encodeAll Decoder)

/-! ### Lines -/

namespace Utf8

/-- Only the newline itself is written with its byte. -/
private theorem newline_not_mem_encodeScalar {n : Nat} (hn : n ≠ 0x0A) (hmax : n ≤ 0x10FFFF) :
    Text.newline ∉ encodeScalar n := by
  unfold encodeScalar continuation Text.newline
  repeat' split
  all_goals
    simp only [List.mem_cons, List.not_mem_nil, or_false, not_or, ← UInt8.toNat_inj, UInt8.reduceToNat,
      Nat.toUInt8_eq, UInt8.toNat_ofNat', Nat.div_one]
    omega

theorem newline_not_mem_encode {c : Int} (hc : IsPrintable c) : Text.newline ∉ encode c := by
  obtain ⟨hscalar, hprintable⟩ := hc
  have hmax : c ≤ 0x10FFFF := by
    rcases hscalar with h | h <;> omega
  rw [encode, if_pos hscalar]
  exact newline_not_mem_encodeScalar (by omega) (by omega)

end Utf8

namespace Screen

variable {s : Screen}

/-- The lines of a text are the rows of its screen. -/
theorem lines_text (hh : 0 < s.height) (hs : ∀ y x, IsPrintable (s.cellAt y x).code) :
    Text.lines s.text = s.codeRows.map encodeAll := by
  rw [text_eq_joined]
  refine List.splitOn_intercalate Text.newline ?_ ?_
  · intro line hline hnewline
    obtain ⟨row, hrow, rfl⟩ := List.mem_map.1 hline
    obtain ⟨y, -, rfl⟩ := List.mem_map.1 hrow
    obtain ⟨c, hc, hnewline⟩ := List.mem_flatMap.1 hnewline
    obtain ⟨x, -, rfl⟩ := List.mem_map.1 hc
    exact Utf8.newline_not_mem_encode (hs y x) hnewline
  · intro hempty
    have hlen := congrArg List.length hempty
    simp only [codeRows, List.length_map, List.length_range, List.length_nil] at hlen
    omega

/-! ### Hashes -/

private theorem flatten_intersperse_cons {α : Type} (sep row : List α) (rows : List (List α)) :
    ((row :: rows).intersperse sep).flatten = row ++ rows.flatMap (sep ++ ·) := by
  induction rows generalizing row with
  | nil => simp
  | cons second rows ih =>
    rw [List.intersperse_cons_cons, List.flatten_cons, List.flatten_cons, ih, List.flatMap_cons, List.append_assoc]

/-- The hash goes through the code points of the text, newlines included. -/
theorem hash_eq_foldl (s : Screen) : s.hash = (s.codeRows.intersperse [0x0A]).flatten.foldl hashStep 0 := by
  have hrow (y : Nat) (h : UInt32) : (List.range s.width).foldl (fun h x => hashStep h (s.cellAt y x).code) h =
      ((List.range s.width).map fun x => (s.cellAt y x).code).foldl hashStep h := by
    rw [List.foldl_map]
  unfold hash codeRows
  cases s.height with
  | zero => rfl
  | succ n =>
    rw [List.range_succ_eq_map, List.map_cons, flatten_intersperse_cons, List.foldl_append, List.foldl_cons, if_pos rfl,
      hrow, List.map_map, List.flatMap_map, List.foldl_flatMap, List.foldl_map]
    congr 1
    funext h y
    rw [if_neg (Nat.succ_ne_zero y), hrow]
    rfl

private theorem toNat_hashStep (h : UInt32) {c : Int} (hc : 0 ≤ c) :
    (hashStep h c).toNat = (31 * h.toNat + c.toNat) % UInt32.size := by
  unfold hashStep UInt32.ofInt
  rw [UInt32.toNat_add, UInt32.toNat_mul, UInt32.toNat_ofNat']
  simp only [UInt32.reduceToNat, UInt32.size]
  omega

theorem toNat_foldl_hashStep (h : UInt32) {codes : List Int} (hcodes : ∀ c ∈ codes, 0 ≤ c) :
    (codes.foldl hashStep h).toNat = codes.foldl (fun h c => (31 * h + c.toNat) % UInt32.size) h.toNat := by
  induction codes generalizing h with
  | nil => rfl
  | cons c codes ih =>
    rw [List.foldl_cons, List.foldl_cons, ih _ fun d hd => hcodes d (by simp [hd]),
      toNat_hashStep h (hcodes c (by simp))]

end Screen

/-! ### Texts of emulators -/

/-- The cells of an emulator that comes out of a run, also those of the screen behind, hold printable scalar values.
Its text, which can be asked for as long as its characters can be counted, is well-formed UTF-8.  The text has one line
for each row, and what is read off the line of a row are the code points of its cells, with nothing pending.  The hash
is the fold of all code points that are read off the text. -/
theorem Emulator.Reached.text_is_wellFormed {e : Emulator} (he : e.Reached) :
    e.screen.Holds IsPrintable ∧
      ((e.screen.width + 1) * e.screen.height ≤ 2147483647 →
        Screen.readText e.screen = .ok e.screen.text e.screen) ∧
      (2147483647 < (e.screen.width + 1) * e.screen.height →
        Screen.readText e.screen = .error .textTooLong e.screen) ∧
      (∃ sequences : List Bytes, (∀ u ∈ sequences, IsWellFormed u) ∧ e.screen.text = sequences.flatten) ∧
      (Text.lines e.screen.text).length = e.screen.height ∧
      (∀ y < e.screen.height, ∃ line, (Text.lines e.screen.text)[y]? = some line ∧
        Decoder.start.run line = ((List.range e.screen.width).map fun x => (e.screen.cellAt y x).code, .start)) ∧
      e.screen.hash.toNat =
        (Decoder.start.run e.screen.text).1.foldl (fun h c => (31 * h + c.toNat) % UInt32.size) 0 := by
  have hsound := he.sound
  have hcode := hsound.holds.code_cellAt Utf8.isPrintable_space
  have hlines := Screen.lines_text hsound.fits.height_pos hcode
  have hscalar := Screen.isScalar_codes fun y x => (hcode y x).1
  -- All of it rests on the cells: none of their code points is a newline or has to be replaced.
  refine ⟨hsound.holds, Screen.readText_of_hasTextRoom,
    fun hno => Screen.readText_of_not_hasTextRoom (Nat.not_le_of_lt hno), ?_, ?_, ?_, ?_⟩
  · refine ⟨(e.screen.codeRows.intersperse [0x0A]).flatten.map encode, ?_, ?_⟩
    · intro u hu
      obtain ⟨c, hc, rfl⟩ := List.mem_map.1 hu
      exact (Utf8.isWellFormed_encode (hscalar c hc)).1
    · rw [Screen.text_eq_encodeAll, encodeAll, List.flatMap_def]
  · rw [hlines, Screen.codeRows, List.length_map, List.length_map, List.length_range]
  · intro y hy
    refine ⟨encodeAll ((List.range e.screen.width).map fun x => (e.screen.cellAt y x).code), ?_, ?_⟩
    · rw [hlines, Screen.codeRows, List.map_map, List.getElem?_map, List.getElem?_range hy]
      rfl
    · refine Utf8.run_encodeAll fun c hc => ?_
      obtain ⟨x, -, rfl⟩ := List.mem_map.1 hc
      exact (hcode y x).1
  · have hnonneg : ∀ c ∈ (e.screen.codeRows.intersperse [0x0A]).flatten, 0 ≤ c := by
      intro c hc
      rcases hscalar c hc with h | h <;> omega
    rw [Screen.hash_eq_foldl, Screen.toNat_foldl_hashStep 0 hnonneg, Screen.text_eq_encodeAll,
      Utf8.run_encodeAll hscalar]
    rfl

/-- A letter of two bytes, and another one in the row below. -/
theorem Emulator.text_is_wellFormed_two_rows : ∃ e : Emulator, e.Reached ∧
    Screen.readText e.screen = .ok e.screen.text e.screen ∧ e.screen.text = [0xC3, 0xA9, 0x20, 0x0A, 0x62, 0x20] ∧
    (∀ y < 2, ∃ line, (Text.lines e.screen.text)[y]? = some line ∧
      Decoder.start.run line = ((List.range 2).map fun x => (e.screen.cellAt y x).code, .start)) ∧
    e.screen.hash.toNat = [0xE9, 0x20, 0x0A, 0x62, 0x20].foldl (fun h c => (31 * h + c) % UInt32.size) 0 := by
  have hcreate : Emulator.Reached { screen := .empty 2 2 } := @Emulator.Reached.create _ 2 2 rfl
  have he := hcreate.take [0xC3, 0xA9, 0x0A, 0x62]
  obtain ⟨-, hread, -, -, -, hlines, hhash⟩ := Emulator.Reached.text_is_wellFormed he
  have hroom : ((left (Emulator.take [0xC3, 0xA9, 0x0A, 0x62]) { screen := .empty 2 2 }).screen.width + 1) *
      (left (Emulator.take [0xC3, 0xA9, 0x0A, 0x62]) { screen := .empty 2 2 }).screen.height ≤ 2147483647 := by
    decide +kernel
  have htext : (left (Emulator.take [0xC3, 0xA9, 0x0A, 0x62]) { screen := .empty 2 2 }).screen.text =
      [0xC3, 0xA9, 0x20, 0x0A, 0x62, 0x20] := by decide +kernel
  refine ⟨_, he, hread hroom, htext, hlines, hhash.trans ?_⟩
  rw [htext]
  rfl

/-- The text of a new emulator of that size cannot be asked for. -/
theorem Emulator.text_fails_at_65535x32768 : ∃ e, Emulator.create 65535 32768 = .ok e ∧
    Screen.readText e.screen = .error .textTooLong e.screen := by
  have hcreate : create 65535 32768 = .ok { screen := .empty 65535 32768 } :=
    @create_of_hasCellRoom 65535 32768 (by decide) (by decide) (by decide)
  have hno : ¬ Screen.HasTextRoom 65535 32768 := by decide
  exact ⟨_, hcreate, Screen.readText_of_not_hasTextRoom hno⟩

end ScreenWatch
