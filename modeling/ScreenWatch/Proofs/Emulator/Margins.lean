import ScreenWatch.Proofs.Emulator.Sound
import ScreenWatch.Proofs.Screen.Shifts

/-!
# Lines between the cursor and the bottom margin

Inserting and deleting lines is meant for the rows from the cursor to the bottom margin.  While there are such rows
nothing else changes (`Reached.line_edits_stay_above_bottom`).  Below the bottom margin there are none, but still one
step is made, and it erases a row: an insertion erases the row of the cursor, a deletion the bottom row of the margins.
-/

namespace ScreenWatch.Screen

variable {s t : Screen}

/-- `t` redraws `s`, and the rows above `first` and below `last` are as they were. -/
structure RedrawsRows (s : Screen) (first last : Nat) (t : Screen) : Prop extends Redraws s t where
  cellAt_eq : ∀ y < s.height, y < first ∨ last < y → ∀ x < s.width, t.cellAt y x = s.cellAt y x

private theorem RedrawsAs.redrawsRows {g : Nat → Nat → Cell} (h : RedrawsAs s g t) {first last : Nat}
    (hg : ∀ y < s.height, y < first ∨ last < y → ∀ x < s.width, g y x = s.cellAt y x) : RedrawsRows s first last t :=
  ⟨h.toRedraws, fun y hy hout x hx => (h.cellAt_eq y hy x hx).trans (hg y hy hout x hx)⟩

/-- No step at all is made for a count that is not positive. -/
private theorem Shifts.redrawsRows_of_nonpos {edit : Int → ScreenM Unit} {span : Nat} {g : Nat → Nat → Nat → Cell}
    (h : Shifts s edit span g) {n : Int} (hn : n ≤ 0) (first last : Nat) :
    Succeeds (edit n) s fun _ => RedrawsRows s first last :=
  (h.edit_spec (n := n) (k := 0) (by omega)).mono fun _ _ ht =>
    ht.redrawsRows fun y hy _ x hx => (h.start y hy x hx).symm

/-! ### Within the margins -/

theorem Fits.insertLine_redrawsRows (hs : s.Fits) (n : Int) (h : s.cursor.row ≤ s.margins.bottom ∨ n ≤ 0) :
    Succeeds (insertLine n) s fun _ => RedrawsRows s s.cursor.row s.margins.bottom := by
  rcases h with hrow | hn
  · refine (hs.shifts_insertLine.edit_spec (n := n) rfl).mono fun _ t ht => ht.redrawsRows fun y _ hout x _ => ?_
    exact lowered_of_outside (by omega) _ x
  · exact hs.shifts_insertLine.redrawsRows_of_nonpos hn _ _

theorem Fits.deleteLine_redrawsRows (hs : s.Fits) (n : Int) (h : s.cursor.row ≤ s.margins.bottom ∨ n ≤ 0) :
    Succeeds (deleteLine n) s fun _ => RedrawsRows s s.cursor.row s.margins.bottom := by
  rcases h with hrow | hn
  · refine (hs.shifts_deleteLine.edit_spec (n := n) rfl).mono fun _ t ht => ht.redrawsRows fun y _ hout x _ => ?_
    exact raised_of_outside (by omega) _ x
  · exact hs.shifts_deleteLine.redrawsRows_of_nonpos hn _ _

/-! ### Below the bottom margin -/

/-- A row is blanked in the present pen, and nothing else changes. -/
def ErasesRow (s : Screen) (row : Nat) (t : Screen) : Prop :=
  RedrawsAs s (fun y x => if y = row then ⟨0x20, s.pen⟩ else s.cellAt y x) t

theorem Fits.insertLine_erasesRow (hs : s.Fits) {n : Int} (hn : 0 < n) (h : s.margins.bottom < s.cursor.row) :
    Succeeds (insertLine n) s fun _ => ErasesRow s s.cursor.row := by
  refine (hs.shifts_insertLine.edit_spec (n := n) (k := 1) (by omega)).mono fun _ t ht => ht.congr fun y _ x _ => ?_
  by_cases hy : y = s.cursor.row
  · rw [if_pos hy, lowered_of_inside (by omega), if_neg (by omega)]
  · rw [if_neg hy, lowered_of_outside (by omega)]

theorem Fits.deleteLine_erasesRow (hs : s.Fits) {n : Int} (hn : 0 < n) (h : s.margins.bottom < s.cursor.row) :
    Succeeds (deleteLine n) s fun _ => ErasesRow s s.margins.bottom := by
  refine (hs.shifts_deleteLine.edit_spec (n := n) (k := 1) (by omega)).mono fun _ t ht => ht.congr fun y _ x _ => ?_
  by_cases hy : y = s.margins.bottom
  · rw [if_pos hy, raised_of_inside (by omega), if_neg (by omega)]
  · rw [if_neg hy, raised_of_outside (by omega)]

/-- On the screen of an emulator that comes out of a run, lines that are inserted or deleted change no row above the
cursor or below the bottom margin, whatever the count is, unless the cursor stands below the bottom margin.  There a
positive count erases one row and changes nothing else: an insertion erases the row of the cursor, a deletion the
bottom row of the margins. -/
theorem Reached.line_edits_stay_above_bottom (hs : s.Reached) (n : Int) :
    (s.cursor.row ≤ s.margins.bottom ∨ n ≤ 0 →
      (Succeeds (insertLine n) s fun _ => RedrawsRows s s.cursor.row s.margins.bottom) ∧
        Succeeds (deleteLine n) s fun _ => RedrawsRows s s.cursor.row s.margins.bottom) ∧
    (s.margins.bottom < s.cursor.row → 0 < n →
      (Succeeds (insertLine n) s fun _ => ErasesRow s s.cursor.row) ∧
        Succeeds (deleteLine n) s fun _ => ErasesRow s s.margins.bottom) := by
  obtain ⟨e, he, rfl⟩ := hs
  have hfits := he.sound.fits
  constructor
  · intro h
    exact ⟨hfits.insertLine_redrawsRows n h, hfits.deleteLine_redrawsRows n h⟩
  · intro h hn
    exact ⟨hfits.insertLine_erasesRow hn h, hfits.deleteLine_erasesRow hn h⟩

/-- Four rows with a letter each and margins around the second and the third one, where the cursor stands. -/
theorem line_edits_stay_between_letters : ∃ s : Screen, s.Reached ∧ s.cursor.row = 1 ∧ s.margins = ⟨1, 2⟩ ∧
    (Succeeds (deleteLine 9) s fun _ t => t.cellAt 0 0 = ⟨0x61, .plain⟩ ∧ t.cellAt 3 0 = ⟨0x64, .plain⟩) ∧
    Succeeds (insertLine 1) s fun _ t => t.cellAt 0 0 = ⟨0x61, .plain⟩ ∧ t.cellAt 3 0 = ⟨0x64, .plain⟩ := by
  have hcreate : Emulator.Reached { screen := .empty 1 4 } := @Emulator.Reached.create _ 1 4 rfl
  have he := hcreate.take [0x61, 0x0A, 0x62, 0x0A, 0x63, 0x0A, 0x64, 0x1B, 0x5B, 0x32, 0x3B, 0x33, 0x72]
  obtain ⟨s, hs, hcursor, hmargins, hw, hh, ha, hd⟩ : ∃ s : Screen, s.Reached ∧ s.cursor.row = 1 ∧
      s.margins = ⟨1, 2⟩ ∧ s.width = 1 ∧ s.height = 4 ∧ s.cellAt 0 0 = ⟨0x61, .plain⟩ ∧
      s.cellAt 3 0 = ⟨0x64, .plain⟩ :=
    ⟨_, ⟨_, he, rfl⟩, by decide +kernel, by decide +kernel, by decide +kernel, by decide +kernel, by decide +kernel,
      by decide +kernel⟩
  have hrow : s.cursor.row ≤ s.margins.bottom := by
    rw [hcursor, hmargins]
    decide
  have kept (t : Screen) (ht : RedrawsRows s s.cursor.row s.margins.bottom t) :
      t.cellAt 0 0 = ⟨0x61, .plain⟩ ∧ t.cellAt 3 0 = ⟨0x64, .plain⟩ := by
    rw [hcursor, hmargins] at ht
    constructor
    · exact (ht.cellAt_eq 0 (by omega) (.inl (by decide)) 0 (by omega)).trans ha
    · exact (ht.cellAt_eq 3 (by omega) (.inr (by decide)) 0 (by omega)).trans hd
  refine ⟨s, hs, hcursor, hmargins, ?_, ?_⟩
  · exact ((Reached.line_edits_stay_above_bottom hs 9).1 (.inl hrow)).2.mono fun _ => kept
  · exact ((Reached.line_edits_stay_above_bottom hs 1).1 (.inl hrow)).1.mono fun _ => kept

/-- Two rows with a letter each, the margins around the first one and the cursor in the second: there is no row from
the cursor to the bottom margin, and yet each of the two edits erases a letter. -/
theorem line_edits_erase_below_bottom : ∃ s : Screen, s.Reached ∧ s.margins.bottom < s.cursor.row ∧
    s.cellAt 0 0 = ⟨0x61, .plain⟩ ∧ s.cellAt 1 0 = ⟨0x62, .plain⟩ ∧
    (Succeeds (insertLine 1) s fun _ t => t.cellAt 1 0 = ⟨0x20, .plain⟩) ∧
    Succeeds (deleteLine 1) s fun _ t => t.cellAt 0 0 = ⟨0x20, .plain⟩ := by
  have hcreate : Emulator.Reached { screen := .empty 1 2 } := @Emulator.Reached.create _ 1 2 rfl
  have he := hcreate.take
    [0x61, 0x0A, 0x62, 0x1B, 0x5B, 0x31, 0x3B, 0x31, 0x72, 0x1B, 0x5B, 0x32, 0x3B, 0x31, 0x48]
  exact ⟨_, ⟨_, he, rfl⟩, by decide +kernel, by decide +kernel, by decide +kernel, by decide +kernel,
    by decide +kernel⟩

end ScreenWatch.Screen
