import ScreenWatch.Proofs.Screen.Cells
import ScreenWatch.Screen.Command

/-!
# Screens that fit together

On a screen that fits together (`Fits`) the array has one cell for each place, the cursor, the margins and the
saved cursor lie on the grid, and the screen behind, if there is one, is of the same size.  The cursor, the saved
one and the one behind may stand past the last column; the margins may be inverted.

Every command with a row of the grid and no raw movement ends well on such a screen and leaves one
(`Command.run_continues`).  Along with that goes what the cells hold: a code point on the screen has been printed
or is a space, so any property of code points that a space has and that all printed ones have is kept (`Holds`).
-/

namespace ScreenWatch

/-- A position on a grid; the column may be the one past the last. -/
def Position.On (p : Position) (width height : Nat) : Prop := p.col ≤ width ∧ p.row < height

namespace Screen

structure Fits (s : Screen) : Prop where
  width_pos : 0 < s.width
  isGrid : s.IsGrid
  cursor : s.cursor.On s.width s.height
  top_lt : s.margins.top < s.height
  bottom_lt : s.margins.bottom < s.height
  saved : s.saved.On s.width s.height
  behind : ∀ main, s.behind = some main →
    main.cells.size = s.width * s.height ∧ main.cursor.On s.width s.height

/-- What the edits of rows need: the cells are there, on the screen and on the one behind it, and the cursor and the
margins are in rows of it.  They may be in any column. -/
structure HasRows (s : Screen) : Prop where
  width_pos : 0 < s.width
  isGrid : s.IsGrid
  row_lt : s.cursor.row < s.height
  top_lt : s.margins.top < s.height
  bottom_lt : s.margins.bottom < s.height
  behind : ∀ main, s.behind = some main → main.cells.size = s.width * s.height

/-- All code points on the screen, and on the one behind it, have a property. -/
structure Holds (ok : Int → Prop) (s : Screen) : Prop where
  cells : ∀ c ∈ s.cells, ok c.code
  behind : ∀ main, s.behind = some main → ∀ c ∈ main.cells, ok c.code

/-- `t` fits together like `s` before it, in the same size, and holds what `s` holds. -/
structure Continues (ok : Int → Prop) (s t : Screen) : Prop where
  fits : t.Fits
  width_eq : t.width = s.width
  height_eq : t.height = s.height
  holds : s.Holds ok → t.Holds ok

variable {ok : Int → Prop} {s t u : Screen}

theorem Fits.height_pos (hs : s.Fits) : 0 < s.height := Nat.lt_of_le_of_lt (Nat.zero_le _) hs.cursor.2

theorem Fits.hasRows (hs : s.Fits) : s.HasRows where
  width_pos := hs.width_pos
  isGrid := hs.isGrid
  row_lt := hs.cursor.2
  top_lt := hs.top_lt
  bottom_lt := hs.bottom_lt
  behind main hm := (hs.behind main hm).1

theorem Holds.code_cellAt (h : s.Holds ok) (hsp : ok 0x20) (y x : Nat) : ok (s.cellAt y x).code := by
  rw [Screen.cellAt, Array.getD_eq_getD_getElem?]
  cases hc : s.cells[y * s.width + x]? with
  | none => exact hsp
  | some c => exact h.cells c (Array.mem_of_getElem? hc)

theorem Continues.refl (hs : s.Fits) : Continues ok s s := ⟨hs, rfl, rfl, id⟩

theorem Continues.trans (h : Continues ok s t) (h' : Continues ok t u) : Continues ok s u :=
  ⟨h'.fits, h'.width_eq.trans h.width_eq, h'.height_eq.trans h.height_eq, fun hs => h'.holds (h.holds hs)⟩

/-! ### What leaves the cells alone -/

theorem clamp_le (n : Int) (limit : Nat) : clamp n limit ≤ limit := Nat.min_le_right _ _

theorem clamp_lt (n : Int) {limit : Nat} (h : 0 < limit) : clamp n (limit - 1) < limit := by
  have := clamp_le n (limit - 1)
  omega

theorem clamp_of_le {n limit : Nat} (h : n ≤ limit) : clamp n limit = n := by
  unfold clamp
  omega

/-- Everything but the cells may change, as long as it lies on the grid. -/
theorem Fits.continues_frame (hs : s.Fits) {p q : Position} {m : Margins} (hp : p.On s.width s.height)
    (hq : q.On s.width s.height) (ht : m.top < s.height) (hb : m.bottom < s.height) (pen : Pen) (visible : Bool) :
    Continues ok s { s with cursor := p, saved := q, margins := m, pen := pen, visible := visible } :=
  ⟨⟨hs.width_pos, hs.isGrid, hp, ht, hb, hq, hs.behind⟩, rfl, rfl, fun h => ⟨h.cells, h.behind⟩⟩

theorem Fits.continues_cursor (hs : s.Fits) {p : Position} (hp : p.On s.width s.height) :
    Continues ok s { s with cursor := p } :=
  hs.continues_frame hp hs.saved hs.top_lt hs.bottom_lt s.pen s.visible

theorem Fits.continues_moveToRow (hs : s.Fits) (row : Int) : Continues ok s (s.moveToRow row) := by
  have hrow := clamp_lt row hs.height_pos
  exact hs.continues_cursor ⟨hs.cursor.1, hrow⟩

theorem Fits.continues_moveToCol (hs : s.Fits) (col : Int) : Continues ok s (s.moveToCol col) := by
  have hcol := clamp_lt col hs.width_pos
  exact hs.continues_cursor ⟨Nat.le_of_lt hcol, hs.cursor.2⟩

theorem Fits.continues_setCursor (hs : s.Fits) (col row : Int) : Continues ok s (s.setCursor col row) :=
  hs.continues_cursor ⟨clamp_le col s.width, clamp_lt row hs.height_pos⟩

theorem Fits.continues_setMargins (hs : s.Fits) (top bottom : Int) : Continues ok s (s.setMargins top bottom) := by
  have htop := clamp_lt top hs.height_pos
  have hbottom := clamp_lt bottom hs.height_pos
  exact hs.continues_frame ⟨Nat.zero_le _, htop⟩ hs.saved htop hbottom s.pen s.visible

theorem Fits.continues_saveCursor (hs : s.Fits) : Continues ok s s.saveCursor :=
  hs.continues_frame hs.cursor hs.cursor hs.top_lt hs.bottom_lt s.pen s.visible

theorem Fits.continues_pen (hs : s.Fits) (pen : Pen) : Continues ok s { s with pen := pen } :=
  hs.continues_frame hs.cursor hs.saved hs.top_lt hs.bottom_lt pen s.visible

theorem Fits.continues_setVisible (hs : s.Fits) (on : Bool) : Continues ok s (s.setVisible on) :=
  hs.continues_frame hs.cursor hs.saved hs.top_lt hs.bottom_lt s.pen on

/-! ### What redraws cells -/

theorem Redraws.continues (hsp : ok 0x20) (hs : s.Fits) (h : Redraws s t) : Continues ok s t := by
  have hf := h.frame
  have hsize := h.size_cells
  have hg := h.isGrid hs.isGrid
  have hfits : t.Fits := by
    rw [hf]
    exact ⟨hs.width_pos, hsize.trans hs.isGrid, hs.cursor, hs.top_lt, hs.bottom_lt, hs.saved, hs.behind⟩
  refine ⟨hfits, h.width_eq, h.height_eq, ?_⟩
  intro hk
  constructor
  · intro c hc
    obtain ⟨y, hy, x, hx, rfl⟩ := exists_cellAt hg hc
    rcases h.origin y (h.height_eq ▸ hy) x (h.width_eq ▸ hx) with e | ⟨y', hy', x', hx', e⟩
    · rw [e]
      exact hsp
    · rw [e]
      exact hk.cells _ (cellAt_mem hs.isGrid hy' hx')
  · intro main hm
    rw [hf] at hm
    exact hk.behind main hm

theorem repeated_redraws {edit : ScreenM Unit} (h : ∀ t, Redraws s t → Succeeds edit t fun _ => Redraws t)
    (n : Nat) : Succeeds (repeated n edit) s fun _ => Redraws s := by
  suffices ∀ t, Redraws s t → Succeeds (repeated n edit) t fun _ => Redraws s from this s (.refl s)
  induction n with
  | zero =>
    intro t ht
    exact .pure ht
  | succ n ih =>
    intro t ht
    exact (h t ht).bind fun _ u hu => ih u (ht.trans hu)

theorem scrollUp_redraws (hs : s.HasRows) (count : Int) : Succeeds (scrollUp count) s fun _ => Redraws s := by
  unfold scrollUp
  refine .get_bind (repeated_redraws ?_ _)
  intro t ht
  have hb : s.margins.bottom < t.height := ht.height_eq ▸ hs.bottom_lt
  exact (shiftUp_spec (ht.isGrid hs.isGrid) hb).mono fun _ _ hu => hu.toRedraws

theorem scrollDown_redraws (hs : s.HasRows) (count : Int) : Succeeds (scrollDown count) s fun _ => Redraws s := by
  unfold scrollDown
  refine .get_bind (repeated_redraws ?_ _)
  intro t ht
  have htop : s.margins.top < t.height := ht.height_eq ▸ hs.top_lt
  have hb : s.margins.bottom < t.height := ht.height_eq ▸ hs.bottom_lt
  exact (shiftDown_spec (ht.isGrid hs.isGrid) htop hb).mono fun _ _ hu => hu.toRedraws

theorem insertLine_redraws (hs : s.HasRows) (count : Int) : Succeeds (insertLine count) s fun _ => Redraws s := by
  unfold insertLine
  refine .get_bind (repeated_redraws ?_ _)
  intro t ht
  have hrow : s.cursor.row < t.height := ht.height_eq ▸ hs.row_lt
  have hb : s.margins.bottom < t.height := ht.height_eq ▸ hs.bottom_lt
  exact (shiftDown_spec (ht.isGrid hs.isGrid) hrow hb).mono fun _ _ hu => hu.toRedraws

theorem deleteLine_redraws (hs : s.HasRows) (count : Int) : Succeeds (deleteLine count) s fun _ => Redraws s := by
  unfold deleteLine
  refine .get_bind (repeated_redraws ?_ _)
  intro t ht
  have hb : s.margins.bottom < t.height := ht.height_eq ▸ hs.bottom_lt
  exact (shiftUp_spec (ht.isGrid hs.isGrid) hb).mono fun _ _ hu => hu.toRedraws

theorem deleteCell_redraws (hs : s.HasRows) (count : Int) : Succeeds (deleteCell count) s fun _ => Redraws s := by
  unfold deleteCell
  refine .get_bind (repeated_redraws ?_ _)
  intro t ht
  have hrow : s.cursor.row < t.height := ht.height_eq ▸ hs.row_lt
  have hw : 0 < t.width := ht.width_eq ▸ hs.width_pos
  exact (shiftLeft_spec (ht.isGrid hs.isGrid) hrow hw _).mono fun _ _ hu => hu.toRedraws

/-- Above the last row a line feed moves the cursor. -/
theorem lineFeed_of_lt (hr : s.cursor.row + 1 < s.height) :
    lineFeed s = .ok () { s with cursor := ⟨0, s.cursor.row + 1⟩ } := by
  have hfirst : (modify (·.moveToCol 0) : ScreenM Unit) s = .ok () (s.moveToCol 0) := rfl
  have habove : ¬ (s.moveToCol 0).cursor.row ≥ (s.moveToCol 0).height - 1 := by
    show ¬ s.cursor.row ≥ s.height - 1
    omega
  unfold lineFeed
  rw [bind_of_ok hfirst, get_bind, if_neg habove]
  show EStateM.Result.ok () { s with cursor := ⟨clamp (0 : Nat) (s.width - 1),
    clamp (s.cursor.row + 1 : Nat) (s.height - 1)⟩ } = _
  rw [clamp_of_le (by omega), clamp_of_le (by omega)]

/-- In the last row a line feed scrolls, and the cursor goes to the first column. -/
theorem lineFeed_of_ge (hr : s.height ≤ s.cursor.row + 1) :
    lineFeed s = scrollUp 1 { s with cursor := ⟨0, s.cursor.row⟩ } := by
  have hfirst : (modify (·.moveToCol 0) : ScreenM Unit) s = .ok () { s with cursor := ⟨0, s.cursor.row⟩ } := by
    show EStateM.Result.ok () { s with cursor.col := clamp (0 : Nat) (s.width - 1) } = _
    rw [clamp_of_le (by omega)]
  have hlast : s.cursor.row ≥ s.height - 1 := by omega
  unfold lineFeed
  rw [bind_of_ok hfirst, get_bind, if_pos hlast]

/-- A line feed leaves the cursor on a cell. -/
theorem Fits.lineFeed_spec (hsp : ok 0x20) (hs : s.Fits) :
    Succeeds lineFeed s fun _ t => Continues ok s t ∧ t.cursor.col < t.width := by
  have h0 : Continues ok s (s.moveToCol 0) := hs.continues_moveToCol 0
  have hcol : (s.moveToCol 0).cursor.col < (s.moveToCol 0).width := clamp_lt 0 hs.width_pos
  unfold lineFeed
  refine Succeeds.bind (Q := fun _ t => t = s.moveToCol 0) (.modify rfl) ?_
  rintro _ _ rfl
  refine .get_bind ?_
  -- In the last row the screen scrolls, and the cursor stays; above it the cursor moves.
  split
  · refine (scrollUp_redraws h0.fits.hasRows 1).mono fun _ u hu => ⟨h0.trans (hu.continues hsp h0.fits), ?_⟩
    rw [hu.cursor_eq, hu.width_eq]
    exact hcol
  · exact ⟨(), _, rfl, h0.trans (h0.fits.continues_moveToRow _), hcol⟩

theorem Fits.continues_reverseIndex (hsp : ok 0x20) (hs : s.Fits) :
    Succeeds reverseIndex s fun _ => Continues ok s := by
  unfold reverseIndex
  refine .get_bind ?_
  split
  · exact (scrollDown_redraws hs.hasRows 1).mono fun _ u hu => hu.continues hsp hs
  · exact ⟨(), _, rfl, hs.continues_moveToRow _⟩

private theorem drawAtCursor_eq (hs : s.IsGrid) (hr : s.cursor.row < s.height) (hc : s.cursor.col < s.width)
    (code : Int) :
    (do setCell (-1) (-1) ⟨code, (← get).pen⟩; modify advance : ScreenM Unit) s =
      .ok () (s.put s.cursor.row s.cursor.col ⟨code, s.pen⟩).advance := by
  show (setCell (-1) (-1) ⟨code, s.pen⟩ >>= fun _ => modify advance) s = _
  rw [bind_of_ok (setCell_eq (index?_cursor hs hr hc) _)]
  rfl

theorem print_of_lt (hs : s.IsGrid) (hr : s.cursor.row < s.height) (hc : s.cursor.col < s.width) (code : Int) :
    print code s = .ok () (s.put s.cursor.row s.cursor.col ⟨code, s.pen⟩).advance := by
  rw [← drawAtCursor_eq hs hr hc]
  unfold print
  rw [get_bind]
  dsimp only
  rw [if_neg (by omega)]

theorem print_of_ge (hc : s.width ≤ s.cursor.col) (h : lineFeed s = .ok () t) (ht : t.IsGrid)
    (hr : t.cursor.row < t.height) (hc' : t.cursor.col < t.width) (code : Int) :
    print code s = .ok () (t.put t.cursor.row t.cursor.col ⟨code, t.pen⟩).advance := by
  rw [← drawAtCursor_eq ht hr hc']
  unfold print
  rw [get_bind]
  dsimp only
  rw [if_pos hc, bind_of_ok h]

private theorem Fits.continues_draw (hs : s.Fits) (hc : s.cursor.col < s.width) {c : Cell} (hok : ok c.code) :
    Continues ok s (s.put s.cursor.row s.cursor.col c).advance := by
  have hg := isGrid_put hs.isGrid s.cursor.row s.cursor.col c
  refine ⟨⟨hs.width_pos, hg, ⟨hc, hs.cursor.2⟩, hs.top_lt, hs.bottom_lt, hs.saved, hs.behind⟩, rfl, rfl, ?_⟩
  intro h
  refine ⟨?_, h.behind⟩
  intro c' hc'
  rcases Array.mem_or_eq_of_mem_setIfInBounds hc' with hmem | rfl
  · exact h.cells c' hmem
  · exact hok

theorem Fits.continues_print (hsp : ok 0x20) (hs : s.Fits) {code : Int} (hok : ok code) :
    Succeeds (print code) s fun _ => Continues ok s := by
  by_cases hc : s.cursor.col < s.width
  · exact ⟨(), _, print_of_lt hs.isGrid hs.cursor.2 hc code, hs.continues_draw hc hok⟩
  · -- A pending wrap: the code point goes to the cell that the line feed leads to.
    obtain ⟨_, t, ht, hcont, hcol⟩ := hs.lineFeed_spec hsp
    have hprint := print_of_ge (by omega) ht hcont.fits.isGrid hcont.fits.cursor.2 hcol code
    exact ⟨(), _, hprint, hcont.trans (hcont.fits.continues_draw hcol hok)⟩

/-! ### What replaces the whole grid -/

theorem Fits.continues_clear (hsp : ok 0x20) (hs : s.Fits) : Succeeds clear s fun _ => Continues ok s := by
  refine .modify ?_
  have hp : Position.On ⟨clamp 0 s.width, clamp 0 (s.height - 1)⟩ s.width s.height :=
    ⟨clamp_le 0 s.width, clamp_lt 0 hs.height_pos⟩
  have hg : (Array.replicate s.cells.size (Cell.blank s.pen)).size = s.width * s.height :=
    Array.size_replicate.trans hs.isGrid
  refine ⟨⟨hs.width_pos, hg, hp, hs.top_lt, hs.bottom_lt, hs.saved, hs.behind⟩, rfl, rfl, ?_⟩
  intro h
  refine ⟨?_, h.behind⟩
  intro c hc
  rw [(Array.mem_replicate.1 hc).2]
  exact hsp

theorem fits_empty {width height : Nat} (hw : 0 < width) (hh : 0 < height) : (empty width height).Fits where
  width_pos := hw
  isGrid := Array.size_replicate
  cursor := ⟨Nat.zero_le _, hh⟩
  top_lt := hh
  bottom_lt := Nat.sub_lt hh Nat.one_pos
  saved := ⟨Nat.zero_le _, hh⟩
  behind := nofun

theorem sizeFault?_eq_none {width height : Int} : sizeFault? width height = none ↔
    0 < width.toNat ∧ 0 < height.toNat ∧ HasCellRoom width.toNat height.toNat := by
  unfold sizeFault?
  split
  · simp only [reduceCtorEq, false_iff]
    omega
  · split
    · next hroom => exact iff_of_true rfl ⟨by omega, by omega, hroom⟩
    · next hroom => exact iff_of_false nofun fun h => hroom h.2.2

theorem sizeFault?_of_not_pos {width height : Int} (h : width ≤ 0 ∨ height ≤ 0) :
    sizeFault? width height = some .badSize := if_pos h

theorem sizeFault?_of_not_hasCellRoom {width height : Int} (hw : 0 < width) (hh : 0 < height)
    (hroom : ¬ HasCellRoom width.toNat height.toNat) : sizeFault? width height = some .tooManyCells := by
  unfold sizeFault?
  rw [if_neg (by omega), if_neg hroom]

/-- A screen is created in a size with nothing wrong about it. -/
theorem create_eq {width height : Int} : create width height =
    (sizeFault? width height).elim (.ok (empty width.toNat height.toNat)) .error := by
  unfold create
  cases sizeFault? width height <;> rfl

theorem eq_empty_of_create {width height : Int} (h : create width height = .ok s) :
    0 < width.toNat ∧ 0 < height.toNat ∧ HasCellRoom width.toNat height.toNat ∧
      s = empty width.toNat height.toNat := by
  rw [create_eq] at h
  cases hfault : sizeFault? width height with
  | some fault =>
    rw [hfault] at h
    cases h
  | none =>
    rw [hfault] at h
    obtain ⟨hw, hh, hroom⟩ := sizeFault?_eq_none.1 hfault
    exact ⟨hw, hh, hroom, (Except.ok.inj h).symm⟩

theorem readText_of_hasTextRoom (h : HasTextRoom s.width s.height) : readText s = .ok s.text s := if_pos h

theorem readText_of_not_hasTextRoom (h : ¬ HasTextRoom s.width s.height) : readText s = .error .textTooLong s :=
  if_neg h

theorem holds_empty (hsp : ok 0x20) (width height : Nat) : (empty width height).Holds ok where
  cells c hc := by
    rw [(Array.mem_replicate.1 hc).2]
    exact hsp
  behind := nofun

theorem Fits.continues_showAlternate (hsp : ok 0x20) (hs : s.Fits) :
    Succeeds showAlternate s fun _ => Continues ok s := by
  unfold showAlternate
  refine .get_bind ?_
  split
  · exact .pure (.refl hs)
  · have h : Continues ok s { s with behind := some ⟨s.cells, s.cursor⟩ } := by
      refine ⟨⟨hs.width_pos, hs.isGrid, hs.cursor, hs.top_lt, hs.bottom_lt, hs.saved, ?_⟩, rfl, rfl,
        fun h => ⟨h.cells, ?_⟩⟩
      · rintro main ⟨⟩
        exact ⟨hs.isGrid, hs.cursor⟩
      · rintro main ⟨⟩
        exact h.cells
    exact (h.fits.continues_clear hsp).mono fun _ _ ht => h.trans ht

theorem Fits.continues_showMain (hs : s.Fits) : Succeeds showMain s fun _ => Continues ok s := by
  refine .modify ?_
  cases hb : s.behind with
  | none => exact .refl hs
  | some main =>
    have h : Continues ok s { s with cells := main.cells, behind := none } :=
      ⟨⟨hs.width_pos, (hs.behind main hb).1, hs.cursor, hs.top_lt, hs.bottom_lt, hs.saved, nofun⟩, rfl, rfl,
        fun h => ⟨h.behind main hb, nofun⟩⟩
    exact h.trans (h.fits.continues_setCursor main.cursor.col main.cursor.row)

theorem Fits.continues_reset (hsp : ok 0x20) (hs : s.Fits) : Succeeds reset s fun _ => Continues ok s := by
  have hfits := fits_empty hs.width_pos hs.height_pos
  exact .modify ⟨hfits, rfl, rfl, fun _ => holds_empty hsp _ _⟩

end Screen

end ScreenWatch
