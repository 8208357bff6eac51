import ScreenWatch.Proofs.Repaint.Replay

/-!
# Hidden cursors

A frame of another size clears the screen and takes the cursor for visible, whether it shows or not.  The second row is
behind a hidden cursor in any case, so the mistake lasts to the end of the frame only if there is no second row
(`believedVisible_cleared`).  Then a cursor that is hidden and should show is not shown again
(`Display.frame_visible_iff`).
-/

namespace ScreenWatch.Repaint

variable {b : Brush} {f last : Screen} {bce initialized : Bool} {e : Emulator}

/-! ### Beliefs about rows and visibility -/

namespace Stroke

/-- After the stroke the cursor is believed to be in the same row as before, and to show if it did before. -/
def KeepsRow (k : Stroke) : Prop := ∀ b, (k b).2.row = b.row ∧ (k b).2.visible = b.visible

theorem keepsRow_nothing : nothing.KeepsRow := fun _ => ⟨rfl, rfl⟩

theorem keepsRow_put (bytes : Bytes) : (put bytes).KeepsRow := fun _ => ⟨rfl, rfl⟩

theorem keepsRow_usePen (pen : Pen) (force : Bool) : (usePen pen force).KeepsRow := by
  intro b
  unfold usePen
  split <;> exact ⟨rfl, rfl⟩

theorem KeepsRow.andThen {k k' : Stroke} (h : k.KeepsRow) (h' : k'.KeepsRow) : (k.andThen k').KeepsRow := by
  intro b
  obtain ⟨hrow, hvisible⟩ := h b
  obtain ⟨hrow', hvisible'⟩ := h' (k b).2
  exact ⟨hrow'.trans hrow, hvisible'.trans hvisible⟩

theorem keepsRow_all {strokes : List Stroke} (h : ∀ k ∈ strokes, k.KeepsRow) : (all strokes).KeepsRow := by
  induction strokes with
  | nil => exact keepsRow_nothing
  | cons k rest ih => exact (h k (by simp)).andThen (ih fun k hk => h k (by simp [hk]))

theorem all_append_snd (first rest : List Stroke) (b : Brush) :
    (all (first ++ rest) b).2 = (all rest (all first b).2).2 := by
  induction first generalizing b with
  | nil => rfl
  | cons k first ih => exact ih (k b).2

/-- A silent move leaves a visible cursor only where it does not move at all. -/
theorem silentMove_believes (row col : Int) (b : Brush) :
    (silentMove row col b).2.row = row ∧
      (silentMove row col b).2.visible = (b.visible && decide (b.col = col ∧ b.row = row)) := by
  unfold silentMove
  by_cases h : b.col = col ∧ b.row = row
  · rw [if_pos h, decide_eq_true h, Bool.and_true]
    exact ⟨h.2, rfl⟩
  · rw [if_neg h, decide_eq_false h, Bool.and_false]
    cases hv : b.visible with
    | false => exact ⟨rfl, hv⟩
    | true => exact ⟨rfl, rfl⟩

end Stroke

open Stroke (KeepsRow keepsRow_all keepsRow_nothing keepsRow_put keepsRow_usePen silentMove_believes)

private theorem keepsRow_paintCell (c : Cell) : (paintCell c).KeepsRow := by
  refine keepsRow_all ?_
  simp only [List.forall_mem_cons]
  exact ⟨keepsRow_usePen _ _, keepsRow_put _, fun _ => ⟨rfl, rfl⟩, nofun⟩

private theorem keepsRow_paintErasure (bce : Bool) (s : Screen) (row : Nat) : (paintErasure bce s row).KeepsRow :=
  (keepsRow_usePen _ _).andThen (keepsRow_put _)

/-- After a row the cursor is believed to be in it, or anywhere, and to show only if the row began where it was. -/
theorem paintRow_believes (bce : Bool) (f : Screen) (y : Nat) (b : Brush) :
    ((paintRow bce f y b).2.row = y ∨ (paintRow bce f y b).2.row = -1) ∧
      (paintRow bce f y b).2.visible = (b.visible && decide (b.col = 0 ∧ b.row = y)) := by
  let start := (Stroke.silentMove y 0 b).2
  obtain ⟨hrow, hvisible⟩ : start.row = y ∧ start.visible = (b.visible && decide (b.col = 0 ∧ b.row = y)) :=
    silentMove_believes y 0 b
  let cells : Stroke := .all (((rowCells f y).take (drawnLength bce f y)).map paintCell)
  let rest : Stroke := if drawnLength bce f y < f.width then paintErasure bce f y else .nothing
  have hcells : cells.KeepsRow := keepsRow_all (List.forall_mem_map.2 fun c _ => keepsRow_paintCell c)
  have hrest : rest.KeepsRow := by
    by_cases h : drawnLength bce f y < f.width
    · simp only [rest, if_pos h]
      exact keepsRow_paintErasure bce f y
    · simp only [rest, if_neg h]
      exact keepsRow_nothing
  obtain ⟨hrow', hvisible'⟩ := (hcells.andThen hrest) start
  let done := ((cells.andThen rest) start).2
  have hpaint : (paintRow bce f y b).2 = (forgetAtEdge f.width done).2 := rfl
  rw [hpaint]
  simp only [forgetAtEdge, Stroke.believe]
  by_cases hedge : done.col ≥ f.width
  · rw [if_pos hedge]
    exact ⟨.inr rfl, hvisible'.trans hvisible⟩
  · rw [if_neg hedge]
    exact ⟨.inl (hrow'.trans hrow), hvisible'.trans hvisible⟩

/-- On a cleared screen the first row begins where the cursor is, and no other one does. -/
private theorem clearedRows_believe (bce : Bool) (f : Screen) (n : Nat) :
    ∃ b, (Stroke.all ((List.range n).map (paintRow bce f)) { }).2 = b ∧
      b.visible = decide (n ≤ 1) ∧ (n = 0 ∧ b = { } ∨ 0 < n ∧ b.row < n) := by
  induction n with
  | zero => exact ⟨{ }, rfl, rfl, .inl ⟨rfl, rfl⟩⟩
  | succ n ih =>
    obtain ⟨b, hall, hvisible, hrow⟩ := ih
    obtain ⟨hrow', hvisible'⟩ := paintRow_believes bce f n b
    refine ⟨(paintRow bce f n b).2, ?_, ?_, ?_⟩
    · rw [List.range_succ, List.map_append, Stroke.all_append_snd, hall]
      rfl
    · rw [hvisible']
      rcases hrow with ⟨rfl, rfl⟩ | ⟨hn, hrow⟩
      · rfl
      · have hmoved : ¬ (b.col = 0 ∧ b.row = n) := by omega
        have hn : ¬ n + 1 ≤ 1 := by omega
        rw [decide_eq_false hmoved, decide_eq_false hn, Bool.and_false]
    · right
      constructor <;> omega

theorem believedVisible_cleared (bce : Bool) (last f : Screen) :
    believedVisible bce false last f = decide (f.height ≤ 1) := by
  obtain ⟨b, hall, hvisible, -⟩ := clearedRows_believe bce f f.height
  rw [← hvisible, ← hall]
  rfl

/-! ### Frames -/

/-- An emulator at rest, whose cursor shows exactly if that of the last screen does, takes a frame for a screen of its
size.  Then its cursor shows exactly if that of the screen does, unless all of this comes together: the last screen was
of another size, there is one row only, the cursor was hidden, and it should show.  Then it stays hidden. -/
theorem Display.frame_visible_iff (d : Display) (he : e.stream = .start) (hs : e.screen.IsGrid)
    (hv : e.screen.visible = last.visible) (hf : f.Reached) (hw : f.width = e.screen.width)
    (hh : f.height = e.screen.height) (hw' : f.width ≤ 65535) (hh' : f.height ≤ 65535) :
    Succeeds (Emulator.take (d.frame true last f)) e fun _ e' => e'.screen.visible = f.visible ↔
      ¬ ((f.width ≠ last.width ∨ f.height ≠ last.height) ∧ f.height = 1 ∧ last.visible = false ∧ f.visible = true) := by
  obtain ⟨hpos, hr, hok⟩ := paintable_of_reached hf
  have hframe (shows : Bool)
      (hshows : e.screen.visible = ((if canUpdate true last f then last.visible else true) && shows)) :=
    frameStroke_yields d.bce true last hs hw hh (hw ▸ hw') (hh ▸ hh') (hw ▸ hpos) (hh ▸ hr) hok hshows
  by_cases hsame : f.width = last.width ∧ f.height = last.height
  · -- What is believed at the start is true.
    have hupdate : canUpdate true last f = true := by simp [canUpdate, hsame]
    obtain ⟨t, ht, -, -, hvis, -⟩ := hframe true (by rw [hupdate, if_pos rfl, Bool.and_true, hv])
    refine (ht.take he rfl).mono ?_
    rintro _ e' ⟨-, rfl⟩
    have hright : e'.screen.visible = f.visible := hvis.trans (Bool.and_true _)
    have hno : ¬ ((f.width ≠ last.width ∨ f.height ≠ last.height) ∧ f.height = 1 ∧ last.visible = false ∧
        f.visible = true) := fun h => h.1.elim (· hsame.1) (· hsame.2)
    exact iff_of_true hright hno
  · -- The cursor is believed to show until the second row.
    have hupdate : canUpdate true last f = false := by
      simp only [canUpdate, Bool.true_and, Bool.and_eq_false_iff, beq_eq_false_iff_ne]
      omega
    obtain ⟨t, ht, -, -, hvis, -⟩ := hframe last.visible (by rw [hupdate, if_neg (by decide), Bool.true_and, hv])
    refine (ht.take he rfl).mono ?_
    rintro _ e' ⟨-, rfl⟩
    have hone : f.height ≤ 1 ↔ f.height = 1 := by omega
    have hother : f.width ≠ last.width ∨ f.height ≠ last.height := by omega
    rw [hvis, hupdate, believedVisible_cleared]
    simp only [hone, hother, true_and]
    cases f.visible <;> cases last.visible <;> simp

/-- A hidden cursor is shown again on two rows, where one row was shown before. -/
theorem Display.frame_visible_second_row : ∃ (last : Screen) (e : Emulator), last.height = 1 ∧ last.visible = false ∧
    e.screen.visible = false ∧
    Succeeds (Emulator.take (Display.standard.frame true last (.empty 1 2))) e fun _ e' =>
      e'.screen.visible = true := by
  have hcreate : Emulator.Reached { screen := .empty 1 2 } := @Emulator.Reached.create _ 1 2 rfl
  obtain ⟨last, hheight, hlast⟩ : ∃ last : Screen, last.height = 1 ∧ last.visible = false :=
    ⟨{ Screen.empty 1 1 with visible := false }, rfl, rfl⟩
  obtain ⟨e, he, hstream, hsize, hhidden⟩ : ∃ e : Emulator, e.Reached ∧ e.stream = .start ∧
      (e.screen.width = 1 ∧ e.screen.height = 2) ∧ e.screen.visible = false :=
    ⟨_, hcreate.take Stroke.hideCursor, by decide +kernel⟩
  have hframe := Display.frame_visible_iff .standard hstream he.sound.fits.isGrid (hhidden.trans hlast.symm)
    ⟨_, hcreate, rfl⟩ hsize.1.symm hsize.2.symm (by decide) (by decide)
  refine ⟨last, e, hheight, hlast, hhidden, hframe.mono ?_⟩
  intro _ e' h
  exact h.2 fun hone => absurd hone.2.1 (by decide)

/-- One row of two columns with a hidden cursor was shown, and one row of one column with a visible one comes next: an
emulator of this size that hides its cursor, as the last screen does, is not told to show it. -/
theorem Display.frame_leaves_cursor_hidden : ∃ (last f : Screen) (e : Emulator), last.Reached ∧ f.Reached ∧ e.Reached ∧
    e.stream = .start ∧ (f.width = e.screen.width ∧ f.height = e.screen.height) ∧
    e.screen.visible = last.visible ∧ f.visible = true ∧
    Succeeds (Emulator.take (Display.standard.frame true last f)) e fun _ e' => e'.screen.visible = false := by
  have hwide : Emulator.Reached { screen := .empty 2 1 } := @Emulator.Reached.create _ 2 1 rfl
  have hnarrow : Emulator.Reached { screen := .empty 1 1 } := @Emulator.Reached.create _ 1 1 rfl
  exact ⟨_, .empty 1 1, _, ⟨_, hwide.take Stroke.hideCursor, rfl⟩, ⟨_, hnarrow, rfl⟩,
    hnarrow.take Stroke.hideCursor, by decide +kernel, by decide +kernel, by decide +kernel, rfl, by decide +kernel⟩

end ScreenWatch.Repaint
