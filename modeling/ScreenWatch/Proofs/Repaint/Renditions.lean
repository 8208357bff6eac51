import ScreenWatch.Proofs.Repaint.Replay

/-!
# Replayed renditions

The rows that a frame leaves alone were painted by an earlier one, so after each frame an emulator shows, cell by
cell, what painting all rows of the screen gives (`Emulator.Copies`).  Without `bce` that is every cell of the screen
with its pen, apart from the corner (`Display.replay_copies`).  With `bce` the spaces at the end of a row are erased
with the pen of its last cell, so those of them that have another pen lose it (`Display.replay_pens`).
-/

namespace ScreenWatch

open Repaint

/-- The emulator mirrors the screen, and each of its cells is as painting the screen leaves it. -/
structure Emulator.Copies (bce : Bool) (e : Emulator) (f : Screen) : Prop extends e.Mirrors f where
  cellAt_eq : ∀ y < f.height, ∀ x < f.width, e.screen.cellAt y x = paintedCell bce f y x

/-- From the column on, the row holds nothing but spaces, of whatever pens. -/
def Screen.EndsBlank (f : Screen) (y x : Nat) : Prop := ∀ x', x ≤ x' → x' < f.width → (f.cellAt y x').code = 0x20

namespace Repaint

variable {bce : Bool} {f last : Screen} {e : Emulator} {x y : Nat}

/-! ### Painted cells -/

private theorem paintedCell_of_not_rowDiffers (bce : Bool) (hw : f.width = last.width) (hh : f.height = last.height)
    (h : rowDiffers last f y = false) (hx : x < f.width) : paintedCell bce last y x = paintedCell bce f y x := by
  have hcells : rowCells last y = rowCells f y := by simpa [rowDiffers] using h
  have hdrawn : drawnLength bce last y = drawnLength bce f y := by
    unfold drawnLength
    rw [hcells, hw, hh]
  have hcell := cellAt_eq_of_not_rowDiffers hw h
  have hend : last.cellAt y (last.width - 1) = f.cellAt y (f.width - 1) := by
    rw [← hw]
    exact hcell (f.width - 1) (by omega)
  unfold paintedCell
  rw [hdrawn, hcell x hx, hend]

/-- Without `bce`, painting a row shows its very cells, and leaves a plain blank in the corner. -/
theorem paintedCell_false (hx : x < f.width) : paintedCell false f y x =
    if y + 1 = f.height ∧ x + 1 = f.width then .blank .plain else f.cellAt y x := by
  unfold paintedCell
  by_cases hcorner : y + 1 = f.height ∧ x + 1 = f.width
  · have hlt := drawnLength_lt (f := f) false (by omega) hcorner.1
    rw [if_pos hcorner, if_neg (by omega), if_neg (by decide)]
  · rw [if_neg hcorner]
    split
    · rfl
    · rename_i h
      have he := (drawnLength_le_iff hx hcorner).1 (Nat.le_of_not_lt h) x (Nat.le_refl x) hx
      simp only [isErasable, Bool.false_or, Bool.and_eq_true, beq_iff_eq] at he
      rw [if_neg (by decide), Cell.blank, ← he.1, ← he.2]

/-- With `bce`, the spaces at the end of a row get the pen of its last cell, and all other cells keep theirs. -/
theorem pen_paintedCell_true (hx : x < f.width) (hcorner : ¬ (y + 1 = f.height ∧ x + 1 = f.width)) :
    (¬ f.EndsBlank y x → (paintedCell true f y x).pen = (f.cellAt y x).pen) ∧
      (f.EndsBlank y x → (paintedCell true f y x).pen = (f.cellAt y (f.width - 1)).pen) := by
  have hdrawn : drawnLength true f y ≤ x ↔ f.EndsBlank y x := by
    rw [drawnLength_le_iff hx hcorner]
    simp [isErasable, Screen.EndsBlank]
  unfold paintedCell
  constructor
  · intro h
    rw [if_pos (Nat.lt_of_not_le fun hle => h (hdrawn.1 hle))]
  · intro h
    rw [if_neg (Nat.not_lt_of_le (hdrawn.2 h)), if_pos rfl]
    rfl

/-! ### Frames -/

theorem first_frame_copies (bce : Bool) (last : Screen) (he : e.stream = .start) (hs : e.screen.IsGrid)
    (hv : e.screen.visible = true) (hf : f.Reached) (hw : f.width = e.screen.width)
    (hh : f.height = e.screen.height) (hw' : f.width ≤ 65535) (hh' : f.height ≤ 65535) :
    Succeeds (Emulator.take (frame bce false last f)) e fun _ e' => e'.Copies bce f :=
  (first_frame_shows bce last he hs hv hf hw hh hw' hh').mono fun _ _ ⟨hmirrors, hcell⟩ => ⟨hmirrors, hcell⟩

theorem next_frame_copies (he : e.Copies bce last) (hf : f.Reached) (hw : f.width = last.width)
    (hh : f.height = last.height) (hw' : f.width ≤ 65535) (hh' : f.height ≤ 65535) :
    Succeeds (Emulator.take (frame bce true last f)) e fun _ e' => e'.Copies bce f := by
  refine (next_frame_shows bce he.toMirrors hf hw hh hw' hh').mono ?_
  rintro _ e' ⟨hmirrors, hcell⟩
  refine ⟨hmirrors, fun y hy x hx => ?_⟩
  rw [hcell y hy x hx, shownCell]
  by_cases h : isPainted true last f y = true
  · rw [if_pos h]
  · -- The row was painted when it came to look like this.
    have hsame : rowDiffers last f y = false := by simpa [isPainted] using h
    rw [if_neg h, ground, if_pos rfl, he.cellAt_eq y (hh ▸ hy) x (hw ▸ hx),
      paintedCell_of_not_rowDiffers bce hw hh hsame hx]

private theorem replay_painted (d : Display) {width height : Nat} (hw : width ≤ 65535) (hh : height ≤ 65535)
    (he : e.stream = .start) (hs : e.screen.IsGrid) (hsize : e.screen.width = width ∧ e.screen.height = height)
    (hv : e.screen.visible = true) (last : Screen) (frames : List Screen) (f : Screen)
    (hf : ∀ g ∈ frames ++ [f], g.Reached ∧ g.width = width ∧ g.height = height) :
    Succeeds (d.replay false last (frames ++ [f])) e fun _ e' =>
      e'.Copies d.bce f ∧ f.width = width ∧ f.height = height := by
  refine d.replay_holds (P := fun e g => e.Copies d.bce g ∧ g.width = width ∧ g.height = height) ?_ ?_
  · intro g hg
    obtain ⟨hreached, hw', hh'⟩ := hf g hg
    have hfirst := first_frame_copies d.bce last he hs hv hreached (hw'.trans hsize.1.symm) (hh'.trans hsize.2.symm)
      (hw' ▸ hw) (hh' ▸ hh)
    exact hfirst.mono fun _ _ h => ⟨h, hw', hh'⟩
  · rintro e last ⟨he, hlast⟩ g hg
    obtain ⟨hreached, hw', hh'⟩ := hf g hg
    have hnext := next_frame_copies he hreached (hw'.trans hlast.1.symm) (hh'.trans hlast.2.symm) (hw' ▸ hw) (hh' ▸ hh)
    exact hnext.mono fun _ _ h => ⟨h, hw', hh'⟩

/-! ### Replays -/

/-- What a terminal of three columns shows after a space on red: the rest of the row are spaces on black. -/
def spaceOnRed : Screen :=
  (left (Emulator.take [0x1B, 0x5B, 0x34, 0x31, 0x6D, 0x20]) { screen := .empty 3 1 }).screen

private theorem isGrid_empty : (Screen.empty 3 1).IsGrid := Array.size_replicate

private theorem spaceOnRed_frames :
    ∀ g ∈ [.empty 3 1] ++ [spaceOnRed], g.Reached ∧ g.width = 3 ∧ g.height = 1 := by
  have hcreate : Emulator.Reached { screen := .empty 3 1 } := @Emulator.Reached.create _ 3 1 rfl
  intro g hg
  rcases List.mem_cons.1 hg with rfl | hg
  · exact ⟨⟨_, hcreate, rfl⟩, rfl, rfl⟩
  · obtain rfl := List.mem_singleton.1 hg
    exact ⟨⟨_, hcreate.take _, rfl⟩, by decide +kernel⟩

/-- On a display without `bce` a replay reproduces the last screen cell by cell, with all pens.  Only the corner is a
plain blank. -/
theorem Display.replay_copies (d : Display) (hd : d.bce = false) {width height : Nat}
    (hw : 1 ≤ width ∧ width ≤ 65535) (hh : 1 ≤ height ∧ height ≤ 65535) (he : e.stream = .start)
    (hs : e.screen.IsGrid) (hsize : e.screen.width = width ∧ e.screen.height = height)
    (hv : e.screen.visible = true) (last : Screen) (frames : List Screen) (f : Screen)
    (hf : ∀ g ∈ frames ++ [f], g.Reached ∧ g.width = width ∧ g.height = height) :
    Succeeds (d.replay false last (frames ++ [f])) e fun _ e' => ∀ y < height, ∀ x < width,
      e'.screen.cellAt y x = if y + 1 = height ∧ x + 1 = width then ⟨0x20, .plain⟩ else f.cellAt y x := by
  refine (replay_painted d hw.2 hh.2 he hs hsize hv last frames f hf).mono ?_
  rintro _ e' ⟨hcopies, rfl, rfl⟩ y hy x hx
  rw [hcopies.cellAt_eq y hy x hx, hd, paintedCell_false hx, Cell.blank]

/-- The space on red comes after an empty screen, and keeps its colour. -/
theorem Display.replay_copies_space_on_red : (spaceOnRed.cellAt 0 0).pen.background = .red ∧
    Succeeds (Display.replay { bce := false } false (.empty 1 1) [.empty 3 1, spaceOnRed]) { screen := .empty 3 1 }
      fun _ e => ∀ y < 1, ∀ x < 3,
        e.screen.cellAt y x = if y + 1 = 1 ∧ x + 1 = 3 then ⟨0x20, .plain⟩ else spaceOnRed.cellAt y x :=
  ⟨by decide +kernel, Display.replay_copies { bce := false } rfl (by decide) (by decide) rfl isGrid_empty
    ⟨rfl, rfl⟩ rfl (.empty 1 1) [.empty 3 1] spaceOnRed spaceOnRed_frames⟩

/-- On a display with `bce` a replay reproduces the pen of each cell but those at the blank ends of the rows, which
all get the pen of the last cell of their row. -/
theorem Display.replay_pens (d : Display) (hd : d.bce = true) {width height : Nat}
    (hw : 1 ≤ width ∧ width ≤ 65535) (hh : 1 ≤ height ∧ height ≤ 65535) (he : e.stream = .start)
    (hs : e.screen.IsGrid) (hsize : e.screen.width = width ∧ e.screen.height = height)
    (hv : e.screen.visible = true) (last : Screen) (frames : List Screen) (f : Screen)
    (hf : ∀ g ∈ frames ++ [f], g.Reached ∧ g.width = width ∧ g.height = height) :
    Succeeds (d.replay false last (frames ++ [f])) e fun _ e' =>
      ∀ y < height, ∀ x < width, ¬ (y + 1 = height ∧ x + 1 = width) →
        (¬ f.EndsBlank y x → (e'.screen.cellAt y x).pen = (f.cellAt y x).pen) ∧
          (f.EndsBlank y x → (e'.screen.cellAt y x).pen = (f.cellAt y (width - 1)).pen) := by
  refine (replay_painted d hw.2 hh.2 he hs hsize hv last frames f hf).mono ?_
  rintro _ e' ⟨hcopies, rfl, rfl⟩ y hy x hx hcorner
  rw [hcopies.cellAt_eq y hy x hx, hd]
  exact pen_paintedCell_true hx hcorner

/-- The space on red comes after an empty screen, and gets the pen of the blanks behind it. -/
theorem Display.replay_pens_space_on_red :
    Succeeds (Display.standard.replay false (.empty 1 1) [.empty 3 1, spaceOnRed]) { screen := .empty 3 1 }
      fun _ e => ∀ y < 1, ∀ x < 3, ¬ (y + 1 = 1 ∧ x + 1 = 3) →
        (¬ spaceOnRed.EndsBlank y x → (e.screen.cellAt y x).pen = (spaceOnRed.cellAt y x).pen) ∧
          (spaceOnRed.EndsBlank y x → (e.screen.cellAt y x).pen = (spaceOnRed.cellAt y (3 - 1)).pen) :=
  Display.replay_pens .standard rfl (by decide) (by decide) rfl isGrid_empty ⟨rfl, rfl⟩ rfl
    (.empty 1 1) [.empty 3 1] spaceOnRed spaceOnRed_frames

/-- With `bce`, one frame is enough for the space to lose its red. -/
theorem Display.replay_loses_space_on_red : spaceOnRed.Reached ∧ Display.standard.bce = true ∧
    Succeeds (Display.standard.replay false (.empty 3 1) [spaceOnRed]) { screen := .empty 3 1 } fun _ e =>
      (e.screen.cellAt 0 0).pen.background = .black ∧ (spaceOnRed.cellAt 0 0).pen.background = .red :=
  ⟨(spaceOnRed_frames spaceOnRed (by simp)).1, rfl, by decide +kernel⟩

end Repaint

end ScreenWatch
