import ScreenWatch.Proofs.Screen.Fits

/-!
# Shifts

Scrolling and the edits of lines and characters move rows or cells by a count, one step at a time.  What a screen
holds after any number of steps has a closed form (`raised`, `lowered`, `pulled`), and once there have been as many
steps as there are rows or cells to move, further ones change nothing (`Shifts`).  So an edit with a count leaves the
closed form (`Fits.edits_in_closed_form`), and that counts are cut does not show (`Fits.edits_repeat_step`).
-/

namespace ScreenWatch.Screen

variable {s t u : Screen}

/-- Two screens that redraw the same one as the same cells are equal. -/
theorem RedrawsAs.unique {g : Nat → Nat → Cell} (hs : s.IsGrid) (h : RedrawsAs s g t) (h' : RedrawsAs s g u) :
    t = u := by
  have hcells : t.cells = u.cells := by
    refine Array.ext (h.size_cells.trans h'.size_cells.symm) ?_
    intro i hi hi'
    have hi₀ : i < s.width * s.height := by
      rw [← hs, ← h.size_cells]
      exact hi
    have hw : 0 < s.width := Nat.pos_of_mul_pos_right (Nat.lt_of_le_of_lt (Nat.zero_le i) hi₀)
    have hcell := (h.cellAt_eq (i / s.width) (Nat.div_lt_of_lt_mul hi₀) (i % s.width) (Nat.mod_lt _ hw)).trans
      (h'.cellAt_eq (i / s.width) (Nat.div_lt_of_lt_mul hi₀) (i % s.width) (Nat.mod_lt _ hw)).symm
    rw [cellAt, cellAt, h.width_eq, h'.width_eq, Nat.div_add_mod'] at hcell
    simpa [Array.getD_eq_getD_getElem?, hi, hi'] using hcell
  rw [h.frame, h'.frame, hcells]

/-! ### Closed forms -/

/-- The rows from `top` to `bottom` have moved up by `k`, and blanks have come in at the bottom. -/
def raised (s : Screen) (top bottom k y x : Nat) : Cell :=
  if y < top ∨ bottom < y then s.cellAt y x
  else if y + k ≤ bottom then s.cellAt (y + k) x
  else ⟨0x20, s.pen⟩

/-- The rows from `top` to `bottom` have moved down by `k`, and blanks have come in at the top. -/
def lowered (s : Screen) (top bottom k y x : Nat) : Cell :=
  if y < top ∨ bottom < y then s.cellAt y x
  else if top + k ≤ y then s.cellAt (y - k) x
  else ⟨0x20, s.pen⟩

/-- The cells of a row from column `col` on have moved left by `k`, and blanks have come in at the end. -/
def pulled (s : Screen) (row col k y x : Nat) : Cell :=
  if y ≠ row ∨ x < col then s.cellAt y x
  else if x + k < s.width then s.cellAt y (x + k)
  else ⟨0x20, s.pen⟩

theorem raised_of_outside {top bottom y : Nat} (h : y < top ∨ bottom < y) (k x : Nat) :
    s.raised top bottom k y x = s.cellAt y x := if_pos h

theorem raised_of_inside {top bottom y : Nat} (h : top ≤ y ∧ y ≤ bottom) (k x : Nat) :
    s.raised top bottom k y x = if y + k ≤ bottom then s.cellAt (y + k) x else ⟨0x20, s.pen⟩ := if_neg (by omega)

theorem lowered_of_outside {top bottom y : Nat} (h : y < top ∨ bottom < y) (k x : Nat) :
    s.lowered top bottom k y x = s.cellAt y x := if_pos h

theorem lowered_of_inside {top bottom y : Nat} (h : top ≤ y ∧ y ≤ bottom) (k x : Nat) :
    s.lowered top bottom k y x = if top + k ≤ y then s.cellAt (y - k) x else ⟨0x20, s.pen⟩ := if_neg (by omega)

theorem pulled_of_outside {row col y x : Nat} (h : y ≠ row ∨ x < col) (k : Nat) :
    s.pulled row col k y x = s.cellAt y x := if_pos h

theorem pulled_of_inside {row col y x : Nat} (h : y = row ∧ col ≤ x) (k : Nat) :
    s.pulled row col k y x = if x + k < s.width then s.cellAt y (x + k) else ⟨0x20, s.pen⟩ := if_neg (by omega)

/-! ### One more step -/

/-- Where the top lies below the bottom, the bottom row alone is blanked, as if it were the top. -/
private theorem shiftUp_raised (hs : s.IsGrid) {top bottom k : Nat} (hb : bottom < s.height)
    (ht : RedrawsAs s (s.raised (min top bottom) bottom k) t) :
    Succeeds (shiftUp top bottom) t fun _ => RedrawsAs s (s.raised (min top bottom) bottom (k + 1)) := by
  refine (shiftUp_spec (ht.isGrid hs) (ht.height_eq ▸ hb)).mono fun _ u hu => (ht.trans hu).congr ?_
  intro y hy x hx
  by_cases hlast : y = bottom
  · rw [if_pos hlast, ht.pen_eq, raised_of_inside (by omega), if_neg (by omega), Cell.blank]
  · rw [if_neg hlast]
    by_cases hin : top ≤ y ∧ y < bottom
    · rw [if_pos hin, ht.cellAt_eq (y + 1) (by omega) x hx, raised_of_inside (by omega), raised_of_inside (by omega),
        Nat.add_assoc, Nat.add_comm 1 k]
    · rw [if_neg hin, ht.cellAt_eq y hy x hx, raised_of_outside (by omega), raised_of_outside (by omega)]

/-- Where the top lies below the bottom, the top row alone is blanked, as if it were the bottom. -/
private theorem shiftDown_lowered (hs : s.IsGrid) {top bottom k : Nat} (htop : top < s.height) (hb : bottom < s.height)
    (ht : RedrawsAs s (s.lowered top (max top bottom) k) t) :
    Succeeds (shiftDown top bottom) t fun _ => RedrawsAs s (s.lowered top (max top bottom) (k + 1)) := by
  refine (shiftDown_spec (ht.isGrid hs) (ht.height_eq ▸ htop) (ht.height_eq ▸ hb)).mono
    fun _ u hu => (ht.trans hu).congr ?_
  intro y hy x hx
  by_cases hfirst : y = top
  · rw [if_pos hfirst, ht.pen_eq, lowered_of_inside (by omega), if_neg (by omega), Cell.blank]
  · rw [if_neg hfirst]
    by_cases hin : top < y ∧ y ≤ bottom
    · have hcount : top + k ≤ y - 1 ↔ top + (k + 1) ≤ y := by omega
      have hrow : y - 1 - k = y - (k + 1) := by omega
      rw [if_pos hin, ht.cellAt_eq (y - 1) (by omega) x hx, lowered_of_inside (by omega),
        lowered_of_inside (by omega), hrow]
      simp only [hcount]
    · rw [if_neg hin, ht.cellAt_eq y hy x hx, lowered_of_outside (by omega), lowered_of_outside (by omega)]

/-- A column past the last one counts as the last one. -/
private theorem shiftLeft_pulled (hs : s.IsGrid) {row k : Nat} (hr : row < s.height) (hw : 0 < s.width) (col : Nat)
    (ht : RedrawsAs s (s.pulled row (min col (s.width - 1)) k) t) :
    Succeeds (shiftLeft row col) t fun _ => RedrawsAs s (s.pulled row (min col (s.width - 1)) (k + 1)) := by
  refine (shiftLeft_spec (ht.isGrid hs) (ht.height_eq ▸ hr) (ht.width_eq ▸ hw) col).mono
    fun _ u hu => (ht.trans hu).congr ?_
  intro y hy x hx
  rw [ht.width_eq]
  by_cases hlast : y = row ∧ x = s.width - 1
  · rw [if_pos hlast, ht.pen_eq, pulled_of_inside (by omega), if_neg (by omega), Cell.blank]
  · rw [if_neg hlast]
    by_cases hin : y = row ∧ col ≤ x
    · rw [if_pos hin, ht.cellAt_eq y hy (x + 1) (by omega), pulled_of_inside (by omega), pulled_of_inside (by omega),
        Nat.add_assoc, Nat.add_comm 1 k]
    · rw [if_neg hin, ht.cellAt_eq y hy x hx, pulled_of_outside (by omega), pulled_of_outside (by omega)]

/-! ### Edits with a count -/

/-- An edit with a count shifts `s` step by step: `g k` is what the screen holds after `k` steps, from `span` steps on
it is the same, and a count asks for as many steps as it says, but never for more than `span`. -/
structure Shifts (s : Screen) (edit : Int → ScreenM Unit) (span : Nat) (g : Nat → Nat → Nat → Cell) : Prop where
  span_pos : 0 < span
  start : ∀ y < s.height, ∀ x < s.width, s.cellAt y x = g 0 y x
  settled : ∀ k, span ≤ k → g k = g span
  spec : ∀ k t, RedrawsAs s (g k) t → ∀ n : Int, Succeeds (edit n) t fun _ => RedrawsAs s (g (k + min n.toNat span))

private theorem repeated_spec {step : ScreenM Unit} {g : Nat → Nat → Nat → Cell}
    (hstep : ∀ k t, RedrawsAs s (g k) t → Succeeds step t fun _ => RedrawsAs s (g (k + 1))) {k : Nat}
    (ht : RedrawsAs s (g k) t) (n : Nat) : Succeeds (repeated n step) t fun _ => RedrawsAs s (g (k + n)) := by
  induction n generalizing k t with
  | zero => exact .pure ht
  | succ n ih =>
    refine (hstep k t ht).bind fun _ u hu => ?_
    have hn : k + (n + 1) = k + 1 + n := by omega
    rw [hn]
    exact ih hu

/-- An edit whose steps are those of `shiftUp`, at least one of them for a positive count. -/
private theorem shifts_up (hs : s.IsGrid) {top bottom : Nat} (hb : bottom < s.height) {edit : Int → ScreenM Unit}
    (h : ∀ t, Redraws s t → ∀ n, edit n t = repeated (stepsOf n (bottom - top + 1)) (shiftUp top bottom) t) :
    Shifts s edit (bottom + 1 - min top bottom) (s.raised (min top bottom) bottom) where
  span_pos := by omega
  start y _ x _ := by
    unfold raised
    split
    · rfl
    · rw [if_pos (by omega), Nat.add_zero]
  settled k hk := by
    funext y x
    unfold raised
    split
    · rfl
    · rw [if_neg (by omega), if_neg (by omega)]
  spec k t ht n := by
    have hcount : stepsOf n (bottom - top + 1) = min n.toNat (bottom + 1 - min top bottom) := by
      unfold stepsOf
      split <;> omega
    rw [← hcount]
    exact (repeated_spec (fun _ _ hu => shiftUp_raised hs hb hu) ht _).of_eq (h t ht.toRedraws n)

/-- An edit whose steps are those of `shiftDown`, at least one of them for a positive count. -/
private theorem shifts_down (hs : s.IsGrid) {top bottom : Nat} (htop : top < s.height) (hb : bottom < s.height)
    {edit : Int → ScreenM Unit}
    (h : ∀ t, Redraws s t → ∀ n, edit n t = repeated (stepsOf n (bottom - top + 1)) (shiftDown top bottom) t) :
    Shifts s edit (max top bottom + 1 - top) (s.lowered top (max top bottom)) where
  span_pos := by omega
  start y _ x _ := by
    unfold lowered
    split
    · rfl
    · rw [if_pos (by omega), Nat.sub_zero]
  settled k hk := by
    funext y x
    unfold lowered
    split
    · rfl
    · rw [if_neg (by omega), if_neg (by omega)]
  spec k t ht n := by
    have hcount : stepsOf n (bottom - top + 1) = min n.toNat (max top bottom + 1 - top) := by
      unfold stepsOf
      split <;> omega
    rw [← hcount]
    exact (repeated_spec (fun _ _ hu => shiftDown_lowered hs htop hb hu) ht _).of_eq (h t ht.toRedraws n)

namespace Fits

theorem shifts_scrollUp (hs : s.Fits) : Shifts s scrollUp (s.margins.bottom + 1 - min s.margins.top s.margins.bottom)
    (s.raised (min s.margins.top s.margins.bottom) s.margins.bottom) :=
  shifts_up hs.isGrid hs.bottom_lt fun t ht n => by rw [ht.frame]; rfl

theorem shifts_scrollDown (hs : s.Fits) :
    Shifts s scrollDown (max s.margins.top s.margins.bottom + 1 - s.margins.top)
      (s.lowered s.margins.top (max s.margins.top s.margins.bottom)) :=
  shifts_down hs.isGrid hs.top_lt hs.bottom_lt fun t ht n => by rw [ht.frame]; rfl

theorem shifts_insertLine (hs : s.Fits) :
    Shifts s insertLine (max s.cursor.row s.margins.bottom + 1 - s.cursor.row)
      (s.lowered s.cursor.row (max s.cursor.row s.margins.bottom)) :=
  shifts_down hs.isGrid hs.cursor.2 hs.bottom_lt fun t ht n => by rw [ht.frame]; rfl

theorem shifts_deleteLine (hs : s.Fits) :
    Shifts s deleteLine (s.margins.bottom + 1 - min s.cursor.row s.margins.bottom)
      (s.raised (min s.cursor.row s.margins.bottom) s.margins.bottom) :=
  shifts_up hs.isGrid hs.bottom_lt fun t ht n => by rw [ht.frame]; rfl

theorem shifts_deleteCell (hs : s.Fits) :
    Shifts s deleteCell (s.width - min s.cursor.col (s.width - 1))
      (s.pulled s.cursor.row (min s.cursor.col (s.width - 1))) where
  span_pos := by have := hs.width_pos; omega
  start y _ x hx := by
    unfold pulled
    split
    · rfl
    · rw [Nat.add_zero, if_pos hx]
  settled k hk := by
    funext y x
    unfold pulled
    split
    · rfl
    · rw [if_neg (by omega), if_neg (by omega)]
  spec k t ht n := by
    have hw := hs.width_pos
    have hcount : stepsOf n (s.width - s.cursor.col) = min n.toNat (s.width - min s.cursor.col (s.width - 1)) := by
      unfold stepsOf
      split <;> omega
    have hedit : deleteCell n t =
        repeated (stepsOf n (s.width - s.cursor.col)) (shiftLeft s.cursor.row s.cursor.col) t := by
      rw [ht.frame]
      rfl
    rw [← hcount]
    exact (repeated_spec (fun _ _ hu => shiftLeft_pulled hs.isGrid hs.cursor.2 hw _ hu) ht _).of_eq hedit

end Fits

/-- What the edit leaves when it is asked for with a count. -/
theorem Shifts.edit_spec {edit : Int → ScreenM Unit} {span : Nat} {g : Nat → Nat → Nat → Cell}
    (h : Shifts s edit span g) {n : Int} {k : Nat} (hk : min n.toNat span = k) :
    Succeeds (edit n) s fun _ => RedrawsAs s (g k) := by
  have hspec := h.spec 0 s ((RedrawsAs.refl s).congr h.start) n
  rwa [Nat.zero_add, hk] at hspec

/-! ### Closed forms of the edits -/

/-- Scrolling between margins in order moves the rows between them, inserting and deleting lines moves those from the
cursor to the bottom margin, and deleting characters moves the cells of the cursor's row from the cursor on, where a
pending wrap counts as the last column.  They move as far as the count says, or out of sight; what is vacated becomes
blank in the present pen, and nothing else changes. -/
theorem Fits.edits_in_closed_form (hs : s.Fits) (n : Int) :
    (s.margins.top ≤ s.margins.bottom →
      let k := (min (max n 0) (s.margins.bottom - s.margins.top + 1)).toNat
      (Succeeds (scrollUp n) s fun _ => RedrawsAs s (s.raised s.margins.top s.margins.bottom k)) ∧
        Succeeds (scrollDown n) s fun _ => RedrawsAs s (s.lowered s.margins.top s.margins.bottom k)) ∧
    (s.cursor.row ≤ s.margins.bottom →
      let k := (min (max n 0) (s.margins.bottom - s.cursor.row + 1)).toNat
      (Succeeds (insertLine n) s fun _ => RedrawsAs s (s.lowered s.cursor.row s.margins.bottom k)) ∧
        Succeeds (deleteLine n) s fun _ => RedrawsAs s (s.raised s.cursor.row s.margins.bottom k)) ∧
    (let col := min s.cursor.col (s.width - 1)
      let k := (min (max n 0) (s.width - col)).toNat
      Succeeds (deleteCell n) s fun _ => RedrawsAs s (s.pulled s.cursor.row col k)) := by
  have hw := hs.width_pos
  refine ⟨fun hmargins => ⟨?_, ?_⟩, fun hrow => ⟨?_, ?_⟩, ?_⟩
  · have h := hs.shifts_scrollUp
    rw [Nat.min_eq_left hmargins] at h
    exact h.edit_spec (by omega)
  · have h := hs.shifts_scrollDown
    rw [Nat.max_eq_right hmargins] at h
    exact h.edit_spec (by omega)
  · have h := hs.shifts_insertLine
    rw [Nat.max_eq_right hrow] at h
    exact h.edit_spec (by omega)
  · have h := hs.shifts_deleteLine
    rw [Nat.min_eq_left hrow] at h
    exact h.edit_spec (by omega)
  · exact hs.shifts_deleteCell.edit_spec (by omega)

/-- A screen of the letters from a to i with margins around its last two rows, a red background in force, and a wrap
pending in the second row: more lines are deleted than there are, and more characters. -/
theorem closed_form_of_letters :
    let red : Pen := { Pen.plain with background := .red }
    let s : Screen := {
      width := 3, height := 3, cells := Array.ofFn fun i : Fin 9 => ⟨0x61 + i.val, .plain⟩
      cursor := ⟨3, 1⟩, margins := ⟨1, 2⟩, pen := red }
    (s.Fits ∧ s.margins.top ≤ s.margins.bottom ∧ s.cursor.row ≤ s.margins.bottom) ∧
      (Succeeds (scrollDown 1) s fun _ t => t.cellAt 2 0 = ⟨0x64, .plain⟩ ∧ t.cellAt 1 0 = ⟨0x20, red⟩) ∧
      (Succeeds (deleteLine 5) s fun _ t => t.cellAt 0 2 = ⟨0x63, .plain⟩ ∧ t.cellAt 2 1 = ⟨0x20, red⟩) ∧
      Succeeds (deleteCell 2) s fun _ t => t.cellAt 1 1 = ⟨0x65, .plain⟩ ∧ t.cellAt 1 2 = ⟨0x20, red⟩ ∧
        t.cursor = ⟨3, 1⟩ := by
  intro red s
  have hs : s.Fits :=
    ⟨by decide, rfl, ⟨by decide, by decide⟩, by decide, by decide, ⟨by decide, by decide⟩, nofun⟩
  obtain ⟨hscroll, -, -⟩ := Fits.edits_in_closed_form hs 1
  obtain ⟨-, hlines, -⟩ := Fits.edits_in_closed_form hs 5
  obtain ⟨-, -, hcells⟩ := Fits.edits_in_closed_form hs 2
  refine ⟨⟨hs, by decide, by decide⟩, ?_, ?_, ?_⟩
  · refine (hscroll (by decide)).2.mono fun _ t ht => ⟨?_, ?_⟩
    · exact (ht.cellAt_eq 2 (by decide) 0 (by decide)).trans (by decide)
    · exact (ht.cellAt_eq 1 (by decide) 0 (by decide)).trans (by decide)
  · refine (hlines (by decide)).2.mono fun _ t ht => ⟨?_, ?_⟩
    · exact (ht.cellAt_eq 0 (by decide) 2 (by decide)).trans (by decide)
    · exact (ht.cellAt_eq 2 (by decide) 1 (by decide)).trans (by decide)
  · refine hcells.mono fun _ t ht => ⟨?_, ?_, ht.cursor_eq⟩
    · exact (ht.cellAt_eq 1 (by decide) 1 (by decide)).trans (by decide)
    · exact (ht.cellAt_eq 1 (by decide) 2 (by decide)).trans (by decide)

/-! ### Counts -/

/-- The edit with a count leaves what the same edit with the count one leaves when it is made as often, and with a
negative count it leaves the screen alone. -/
def RepeatsStep (edit : Int → ScreenM Unit) (s : Screen) : Prop :=
  (∀ n : Nat, ∃ t, edit n s = .ok () t ∧ repeated n (edit 1) s = .ok () t) ∧ ∀ n < 0, edit n s = .ok () s

theorem Shifts.repeatsStep {edit : Int → ScreenM Unit} {span : Nat} {g : Nat → Nat → Nat → Cell}
    (h : Shifts s edit span g) (hs : s.IsGrid) : RepeatsStep edit s := by
  have hstart : RedrawsAs s (g 0) s := (RedrawsAs.refl s).congr h.start
  constructor
  · intro n
    have hone : min (1 : Int).toNat span = 1 := Nat.min_eq_left h.span_pos
    obtain ⟨_, t, ht, hcells⟩ := h.edit_spec (n := n) rfl
    obtain ⟨_, u, hu, hcells'⟩ := repeated_spec (fun k t ht => hone ▸ h.spec k t ht 1) hstart n
    -- Past the span all steps lead to the same cells.
    have hsame : g (min (n : Int).toNat span) = g (0 + n) := by
      rw [Nat.zero_add, Int.toNat_natCast]
      by_cases hn : n ≤ span
      · rw [Nat.min_eq_left hn]
      · rw [Nat.min_eq_right (by omega), h.settled n (by omega)]
    obtain rfl : t = u := hcells.unique hs (hsame ▸ hcells')
    exact ⟨t, ht, hu⟩
  · intro n hn
    obtain ⟨_, t, ht, hcells⟩ := h.edit_spec (n := n) (k := 0) (by omega)
    rw [ht, hcells.unique hs hstart]

/-- That counts are cut does not show: also where no row can move, because the margins are inverted or the cursor is
below them, and where a wrap is pending, a count does what its steps do. -/
theorem Fits.edits_repeat_step (hs : s.Fits) :
    RepeatsStep scrollUp s ∧ RepeatsStep scrollDown s ∧ RepeatsStep insertLine s ∧ RepeatsStep deleteLine s ∧
      RepeatsStep deleteCell s :=
  ⟨hs.shifts_scrollUp.repeatsStep hs.isGrid, hs.shifts_scrollDown.repeatsStep hs.isGrid,
    hs.shifts_insertLine.repeatsStep hs.isGrid, hs.shifts_deleteLine.repeatsStep hs.isGrid,
    hs.shifts_deleteCell.repeatsStep hs.isGrid⟩

/-- The margins are inverted, and the cursor stands below both with a wrap pending: no row can move, and yet the first
step of scrolling down or deleting a character blanks something. -/
theorem steps_repeat_below_margins :
    let s : Screen := {
      width := 2, height := 3, cells := Array.replicate 6 ⟨0x61, .plain⟩
      cursor := ⟨2, 2⟩, margins := ⟨1, 0⟩ }
    s.Fits ∧ (∃ t, scrollDown 7 s = .ok () t ∧ repeated 7 (scrollDown 1) s = .ok () t ∧ t ≠ s) ∧
      (∃ t, deleteCell 7 s = .ok () t ∧ repeated 7 (deleteCell 1) s = .ok () t ∧ t ≠ s) ∧
      insertLine (-1) s = .ok () s := by
  intro s
  have hs : s.Fits :=
    ⟨by decide, rfl, ⟨by decide, by decide⟩, by decide, by decide, ⟨by decide, by decide⟩, nofun⟩
  obtain ⟨-, hscroll, hinsert, -, hcells⟩ := Fits.edits_repeat_step hs
  obtain ⟨t, ht, ht'⟩ := hscroll.1 7
  obtain ⟨u, hu, hu'⟩ := hcells.1 7
  refine ⟨hs, ⟨t, ht, ht', ?_⟩, ⟨u, hu, hu', ?_⟩, hinsert.2 (-1) (by decide)⟩
  · rw [← left_of_ok ht]
    decide +kernel
  · rw [← left_of_ok hu]
    decide +kernel

end ScreenWatch.Screen
