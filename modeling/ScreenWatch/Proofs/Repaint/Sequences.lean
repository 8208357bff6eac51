import ScreenWatch.Proofs.Emulator.Feeding
import ScreenWatch.Repaint.Brush

/-!
# The sequences of strokes

What the bytes that strokes are made of do to the screen of an emulator: they select a pen (`turns_sgr`), move the
cursor (`turns_absoluteMove`, `turns_lineFeed`, `turns_carriageReturn`), hide and show it, erase the end of a line
(`turns_eraseLine`) and clear the screen (`turns_clearAll`).
-/

namespace ScreenWatch

open Emulator (Turns turns_csi turns_control)
open Control (Sequence Function)

variable {s t u : Screen}

open Control.Function

/-! ### Pens -/

namespace Pen

def codes (p : Pen) : List Nat :=
  (if p.bold then [1] else []) ++ (if p.underlined then [4] else []) ++ (if p.inverse then [7] else [])
    ++ (if p.foreground = .white then [] else [30 + p.foreground.index])
    ++ (if p.background = .black then [] else [40 + p.background.index])

private theorem codeOf_eq (c : Color) :
    codeOf 0x33 c = 0x3B :: Text.decimal (30 + c.index) ∧ codeOf 0x34 c = 0x3B :: Text.decimal (40 + c.index) := by
  cases c <;> decide

theorem sgr_eq (p : Pen) :
    p.sgr = [0x1B, 0x5B] ++ (Text.decimal 0 ++ p.codes.flatMap fun n => 0x3B :: Text.decimal n) ++ [0x6D] := by
  have h0 : Text.decimal 0 = [0x30] := by decide
  have h1 : Text.decimal 1 = [0x31] := by decide
  have h4 : Text.decimal 4 = [0x34] := by decide
  have h7 : Text.decimal 7 = [0x37] := by decide
  have hflat (b : Prop) [Decidable b] (n : Nat) : ((if b then [n] else []).flatMap fun n => 0x3B :: Text.decimal n) =
      if b then 0x3B :: Text.decimal n else [] := by
    split <;> simp
  have hflat' (b : Prop) [Decidable b] (n : Nat) : ((if b then [] else [n]).flatMap fun n => 0x3B :: Text.decimal n) =
      if b then [] else 0x3B :: Text.decimal n := by
    split <;> simp
  simp only [sgr, codes, List.flatMap_append, hflat, hflat', codeOf_eq, h0, h1, h4, h7, List.append_assoc,
    List.cons_append, List.nil_append]

private theorem codes_le (p : Pen) : ∀ n ∈ p.codes, n ≤ Sequence.maxParam := by
  have hindex (c : Color) : c.index ≤ 7 := by cases c <;> decide
  have hf := hindex p.foreground
  have hb := hindex p.background
  intro n hn
  simp only [codes, List.mem_append] at hn
  unfold Sequence.maxParam
  rcases hn with (((hn | hn) | hn) | hn) | hn <;> split at hn <;>
    simp only [List.mem_singleton, List.not_mem_nil] at hn <;> omega

private theorem length_codes (p : Pen) : p.codes.length < Sequence.maxParams := by
  have hle (b : Prop) [Decidable b] (n : Nat) : (if b then [n] else []).length ≤ 1 := by split <;> simp
  have hle' (b : Prop) [Decidable b] (n : Nat) : (if b then [] else [n]).length ≤ 1 := by split <;> simp
  have h1 := hle p.bold 1
  have h2 := hle p.underlined 4
  have h3 := hle p.inverse 7
  have h4 := hle' (p.foreground = .white) (30 + p.foreground.index)
  have h5 := hle' (p.background = .black) (40 + p.background.index)
  simp only [codes, List.length_append]
  unfold Sequence.maxParams
  omega

/-- The codes of a pen select it whatever was selected before. -/
theorem foldl_codes (p q : Pen) : (0 :: p.codes).foldl (fun q (n : Nat) => q.apply n) q = p := by
  obtain ⟨foreground, background, bold, underlined, inverse⟩ := p
  have hf : ∀ q : Pen, q.foreground = .white → (if foreground = .white then [] else [30 + foreground.index]).foldl
      (fun q (n : Nat) => q.apply n) q = { q with foreground } := by
    rintro q h
    cases foreground <;> first | rfl | (cases q; cases h; rfl)
  have hb : ∀ q : Pen, q.background = .black → (if background = .black then [] else [40 + background.index]).foldl
      (fun q (n : Nat) => q.apply n) q = { q with background } := by
    rintro q h
    cases background <;> first | rfl | (cases q; cases h; rfl)
  have h0 : q.apply 0 = plain := rfl
  rw [List.foldl_cons, Int.natCast_zero, h0]
  unfold codes
  dsimp only
  rw [List.foldl_append, List.foldl_append, hf, hb] <;>
    cases bold <;> cases underlined <;> cases inverse <;> rfl

end Pen

theorem turns_sgr (p : Pen) (s : Screen) : Turns p.sgr s { s with pen := p } := by
  have hbody : Sequence.ofBody (Text.decimal 0 ++ p.codes.flatMap fun n => 0x3B :: Text.decimal n) =
      ⟨0 :: p.codes, [], []⟩ := by
    refine Sequence.ofBody_params p.length_codes fun n hn => ?_
    rcases List.mem_cons.1 hn with rfl | hn
    · decide
    · exact p.codes_le n hn
  rw [Pen.sgr_eq]
  refine turns_csi (f := .selectRendition) (Sequence.bodyCodes_numbers 0 p.codes) (by decide) (by decide) ?_
  rw [hbody]
  refine perform_eq rfl ((runAll_renditions (0 :: p.codes) s).trans ?_)
  rw [Pen.foldl_codes]

/-! ### Moves -/

/-- The absolute move, within a grid of at most 65535 rows and columns. -/
theorem turns_absoluteMove {row col : Nat} (hr : row < s.height) (hc : col < s.width) (hr' : row < 65535)
    (hc' : col < 65535) : Turns (Repaint.Stroke.absoluteMove row col) s { s with cursor := ⟨col, row⟩ } := by
  have hbytes : Repaint.Stroke.absoluteMove row col = [0x1B, 0x5B] ++
      (Text.decimal (row + 1) ++ [col + 1].flatMap fun m => 0x3B :: Text.decimal m) ++ [0x48] := by
    have hdec (n : Nat) : Text.decimalInt (n + 1) = Text.decimal (n + 1) := rfl
    simp only [Repaint.Stroke.absoluteMove, hdec, List.flatMap_singleton, List.append_assoc, List.cons_append,
      List.nil_append]
  have hbody : Sequence.ofBody (Text.decimal (row + 1) ++ [col + 1].flatMap fun m => 0x3B :: Text.decimal m) =
      ⟨[row + 1, col + 1], [], []⟩ := by
    refine Sequence.ofBody_params (show 1 < Sequence.maxParams by decide) fun n hn => ?_
    simp only [List.mem_cons, List.not_mem_nil, or_false] at hn
    unfold Sequence.maxParam
    omega
  rw [hbytes]
  refine turns_csi (f := .cursorPosition) (Sequence.bodyCodes_numbers _ _) (by decide) (by decide) ?_
  rw [hbody]
  refine perform_eq rfl ((runAll_cons rfl (runAll_singleton rfl)).trans ?_)
  show EStateM.Result.ok () { s with cursor := ⟨Screen.clamp (((col + 1 : Nat) : Int) - 1) (s.width - 1),
    Screen.clamp (((row + 1 : Nat) : Int) - 1) (s.height - 1)⟩ } = _
  have hpred (n : Nat) : ((n + 1 : Nat) : Int) - 1 = n := by omega
  rw [hpred, hpred, Screen.clamp_of_le (by omega), Screen.clamp_of_le (by omega)]

/-- A line feed above the last row goes to the start of the next one. -/
theorem turns_lineFeed (hr : s.cursor.row + 1 < s.height) :
    Turns [0x0A] s { s with cursor := ⟨0, s.cursor.row + 1⟩ } :=
  Emulator.turns_newline (Screen.lineFeed_of_lt hr)

theorem turns_carriageReturn (s : Screen) : Turns [0x0D] s { s with cursor.col := 0 } := by
  refine turns_control (f := .carriageReturn) (by decide) (by decide) fun q => perform_eq rfl (runAll_singleton ?_)
  show EStateM.Result.ok () { s with cursor.col := Screen.clamp (0 : Nat) (s.width - 1) } = _
  rw [Screen.clamp_of_le (Nat.zero_le _)]

/-! ### Modes and erasures -/

theorem turns_setVisible (on : Bool) (s : Screen) :
    Turns (if on then Repaint.Stroke.showCursor else Repaint.Stroke.hideCursor) s { s with visible := on } := by
  have hbody : Sequence.ofBody [0x3F, 0x32, 0x35] = ⟨[25], [], [0x3F]⟩ := by decide
  cases on
  · show Turns ([0x1B, 0x5B] ++ [0x3F, 0x32, 0x35] ++ [0x6C]) s _
    refine turns_csi (f := .resetMode) (Escape.forall_isBody rfl) (by decide) (by decide) ?_
    rw [hbody]
    exact perform_eq rfl (runAll_singleton rfl)
  · show Turns ([0x1B, 0x5B] ++ [0x3F, 0x32, 0x35] ++ [0x68]) s _
    refine turns_csi (f := .setMode) (Escape.forall_isBody rfl) (by decide) (by decide) ?_
    rw [hbody]
    exact perform_eq rfl (runAll_singleton rfl)

/-- The cells of the cursor's row become blanks of the pen, from the cursor on. -/
theorem turns_eraseLine (hs : s.IsGrid) (hr : s.cursor.row < s.height) : ∃ t, Turns Repaint.Stroke.eraseLine s t ∧
    Screen.RedrawsAs s (fun y x => if y = s.cursor.row ∧ s.cursor.col ≤ x then .blank s.pen else s.cellAt y x) t := by
  obtain ⟨_, t, ht, hcells⟩ := Screen.resetCells_spec hs hr s.cursor.col (s.width - 1)
  have hbody : Sequence.ofBody [] = ⟨[], [], []⟩ := by decide
  refine ⟨t, ?_, hcells.congr fun y _ x hx => ?_⟩
  · show Turns ([0x1B, 0x5B] ++ [] ++ [0x4B]) s t
    refine turns_csi (f := .eraseInLine) (Escape.forall_isBody rfl) (by decide) (by decide) ?_
    rw [hbody]
    exact perform_eq rfl (runAll_singleton ht)
  · by_cases h : y = s.cursor.row ∧ s.cursor.col ≤ x
    · rw [if_pos h, if_pos (by omega)]
    · rw [if_neg h, if_neg (by omega)]

/-- Plain blanks everywhere, the plain pen and the cursor at home. -/
theorem turns_clearAll (s : Screen) : Turns Repaint.Stroke.clearAll s
    { s with cells := Array.replicate s.cells.size (.blank .plain), pen := .plain, cursor := ⟨0, 0⟩ } := by
  have home (t : Screen) : Turns ([0x1B, 0x5B] ++ [] ++ [0x48]) t { t with cursor := ⟨0, 0⟩ } := by
    refine turns_csi (f := .cursorPosition) (Escape.forall_isBody rfl) (by decide) (by decide) ?_
    refine perform_eq rfl ((runAll_cons rfl (runAll_singleton rfl)).trans ?_)
    show EStateM.Result.ok () { t with cursor := ⟨Screen.clamp (0 : Nat) (t.width - 1),
      Screen.clamp (0 : Nat) (t.height - 1)⟩ } = _
    rw [Screen.clamp_of_le (Nat.zero_le _), Screen.clamp_of_le (Nat.zero_le _)]
  have clear (t : Screen) : Turns ([0x1B, 0x5B] ++ [0x32] ++ [0x4A]) t
      { t with cells := Array.replicate t.cells.size (.blank t.pen), cursor := ⟨0, 0⟩ } := by
    have hbody : Sequence.ofBody [0x32] = ⟨[2], [], []⟩ := by decide
    refine turns_csi (f := .eraseInDisplay) (Escape.forall_isBody rfl) (by decide) (by decide) ?_
    rw [hbody]
    refine perform_eq rfl ((runAll_singleton rfl).trans ?_)
    show EStateM.Result.ok () { t with
      cells := Array.replicate t.cells.size (.blank t.pen),
      cursor := ⟨Screen.clamp (0 : Nat) t.width, Screen.clamp (0 : Nat) (t.height - 1)⟩ } = _
    rw [Screen.clamp_of_le (Nat.zero_le _), Screen.clamp_of_le (Nat.zero_le _)]
  exact ((turns_sgr .plain s).append (home _)).append (clear _)

end ScreenWatch
