import Mathlib.Data.List.GetD
import ScreenWatch.Proofs.Screen.Shifts

/-!
# Wrapped text

A text takes up rows: its lines, cut into pieces of the width (`rowsOf`).  A screen on which nothing but text was
written shows the last of its rows, with the cursor at the end (`ShowsRows`).  A line feed begins a new row
(`ShowsRows.after_lineFeed`), and a character goes to the end of the last row, or begins a new one if that is full
(`ShowsRows.after_print`,
`ShowsRows.after_print_of_full`).
-/

namespace ScreenWatch.Screen

/-! ### Rows of a text -/

/-- A line cut into pieces of the width; the last one may be shorter, and an empty line is one empty piece. -/
def pieces (width : Nat) (line : List Int) : List (List Int) :=
  (List.range ((line.length - 1) / width + 1)).map fun i => (line.drop (i * width)).take width

/-- The rows that a text takes up: its lines, each cut into pieces. -/
def rowsOf (width : Nat) (text : List Int) : List (List Int) := (text.splitOn 0x0A).flatMap (pieces width)

variable {width : Nat} {piece rest : List Int}

theorem pieces_of_length_le (hw : 0 < width) (h : piece.length ≤ width) : pieces width piece = [piece] := by
  have hcount : (piece.length - 1) / width = 0 := Nat.div_eq_of_lt (by omega)
  rw [pieces, hcount, Nat.zero_add, List.range_one, List.map_singleton, Nat.zero_mul, List.drop_zero,
    List.take_of_length_le h]

/-- A full piece at the start of a longer line. -/
theorem pieces_append (hw : 0 < width) (hp : piece.length = width) (hr : rest ≠ []) :
    pieces width (piece ++ rest) = piece :: pieces width rest := by
  have hpos : 0 < rest.length := List.length_pos_iff.2 hr
  have hcount : ((piece ++ rest).length - 1) / width = (rest.length - 1) / width + 1 := by
    rw [List.length_append, hp, ← Nat.add_div_right _ hw]
    congr 1
    omega
  have hfirst : ((piece ++ rest).drop (0 * width)).take width = piece := by
    rw [Nat.zero_mul, List.drop_zero, List.take_left' hp]
  have hnext (i : Nat) : ((piece ++ rest).drop ((i + 1) * width)).take width = (rest.drop (i * width)).take width := by
    rw [Nat.succ_mul, Nat.add_comm, ← hp, List.drop_length_add_append]
  rw [pieces, hcount, List.range_succ_eq_map, List.map_cons, hfirst, List.map_map]
  simp only [Function.comp_def, Nat.succ_eq_add_one, hnext, pieces]

theorem rowsOf_of_length_le (hw : 0 < width) (hp : 0x0A ∉ piece) (h : piece.length ≤ width) :
    rowsOf width piece = [piece] := by
  rw [rowsOf, List.splitOn_eq_singleton hp, List.flatMap_singleton, pieces_of_length_le hw h]

/-- A newline ends a piece, which may be full. -/
theorem rowsOf_newline (hw : 0 < width) (hp : 0x0A ∉ piece) (h : piece.length ≤ width) (text : List Int) :
    rowsOf width (piece ++ 0x0A :: text) = piece :: rowsOf width text := by
  rw [rowsOf, List.splitOn_append_cons_self_of_not_mem hp, List.flatMap_cons, pieces_of_length_le hw h]
  rfl

/-- A character after a full piece begins a new one. -/
theorem rowsOf_wrap (hw : 0 < width) (hp : 0x0A ∉ piece) (h : piece.length = width) {c : Int} (hc : c ≠ 0x0A)
    (text : List Int) : rowsOf width (piece ++ c :: text) = piece :: rowsOf width (c :: text) := by
  -- The line that the character belongs to ends at the next newline, or with the text.
  by_cases hmem : 0x0A ∈ text
  · obtain ⟨line, more, rfl, hline⟩ := List.eq_append_cons_of_mem hmem
    have hlong : 0x0A ∉ piece ++ c :: line := by simp [hp, hline, Ne.symm hc]
    have hshort : 0x0A ∉ c :: line := by simp [hline, Ne.symm hc]
    have hsplit := List.splitOn_append_cons_self_of_not_mem hlong more
    have hsplit' := List.splitOn_append_cons_self_of_not_mem hshort more
    rw [List.append_assoc, List.cons_append] at hsplit
    rw [List.cons_append] at hsplit'
    rw [rowsOf, rowsOf, hsplit, hsplit', List.flatMap_cons, List.flatMap_cons,
      pieces_append hw h (List.cons_ne_nil c line)]
    rfl
  · have hlong : 0x0A ∉ piece ++ c :: text := by simp [hp, hmem, Ne.symm hc]
    have hshort : 0x0A ∉ c :: text := by simp [hmem, Ne.symm hc]
    rw [rowsOf, rowsOf, List.splitOn_eq_singleton hlong, List.splitOn_eq_singleton hshort, List.flatMap_singleton,
      List.flatMap_singleton, pieces_append hw h (List.cons_ne_nil c text)]

/-- An empty line takes up a row, and a full line only one. -/
example : rowsOf 2 [0x61, 0x62, 0x0A, 0x0A, 0x63, 0x64, 0x65] = [[0x61, 0x62], [], [0x63, 0x64], [0x65]] := by decide

/-! ### Screens that show rows -/

/-- What a row of a screen shows of some rows, of which the last ones are on the screen. -/
def shownRow (rows : List (List Int)) (height y : Nat) : List Int := (rows.drop (rows.length - height)).getD y []

/-- A screen of a size on which nothing but some rows was written: it shows the last ones that fit, from the top down,
each followed by blanks, and blank rows below them.  The cursor stands behind the last row, and all else is as on an
empty screen. -/
structure ShowsRows (width height : Nat) (rows : List (List Int)) (s : Screen) : Prop where
  frame : s = { empty width height with cells := s.cells, cursor := s.cursor }
  isGrid : s.IsGrid
  cellAt_eq : ∀ y < height, ∀ x < width, s.cellAt y x = ⟨(shownRow rows height y).getD x 0x20, .plain⟩
  row_eq : s.cursor.row = min rows.length height - 1
  col_eq : rows.getLast?.map List.length = some s.cursor.col

theorem shownRow_eq (rows : List (List Int)) (height y : Nat) :
    shownRow rows height y = rows.getD (rows.length - height + y) [] := by
  simp only [shownRow, List.getD_eq_getElem?_getD, List.getElem?_drop]

private theorem getD_concat {α : Type} (xs : List α) (a d : α) (i : Nat) :
    (xs ++ [a]).getD i d = if i = xs.length then a else xs.getD i d := by
  rcases Nat.lt_trichotomy i xs.length with hi | rfl | hi
  · rw [List.getD_append _ _ _ _ hi, if_neg (by omega)]
  · rw [List.getD_append_right _ _ _ _ (Nat.le_refl _), Nat.sub_self, if_pos rfl]
    rfl
  · rw [List.getD_eq_default _ _ (by simp; omega), List.getD_eq_default _ _ (by omega), if_neg (by omega)]

/-- The last row stands in the row of the cursor. -/
theorem shownRow_concat (rows : List (List Int)) (last : List Int) {height : Nat} (hh : 0 < height) (y : Nat) :
    shownRow (rows ++ [last]) height y =
      if y = min (rows.length + 1) height - 1 then last else rows.getD (rows.length + 1 - height + y) [] := by
  have hplace : rows.length + 1 - height + y = rows.length ↔ y = min (rows.length + 1) height - 1 := by omega
  rw [shownRow_eq, List.length_append, List.length_singleton, getD_concat]
  simp only [hplace]

/-- An empty row at the end is not seen itself, it only moves the others. -/
private theorem shownRow_concat_nil (rows : List (List Int)) (height y : Nat) :
    shownRow (rows ++ [[]]) height y = rows.getD (rows.length + 1 - height + y) [] := by
  rw [shownRow_eq, List.length_append, List.length_singleton, getD_concat]
  split
  case isTrue hi => rw [hi, List.getD_eq_default _ _ (Nat.le_refl _)]
  case isFalse => rfl

theorem shownRow_concat_nil_of_lt {rows : List (List Int)} {height : Nat} (h : rows.length < height) (y : Nat) :
    shownRow (rows ++ [[]]) height y = shownRow rows height y := by
  rw [shownRow_concat_nil, shownRow_eq, Nat.sub_eq_zero_of_le h, Nat.sub_eq_zero_of_le (Nat.le_of_lt h)]

theorem shownRow_concat_nil_of_le {rows : List (List Int)} {height : Nat} (h : height ≤ rows.length) (y : Nat) :
    shownRow (rows ++ [[]]) height y = shownRow rows height (y + 1) := by
  rw [shownRow_concat_nil, shownRow_eq, Nat.succ_sub h, Nat.succ_add, Nat.add_succ]

theorem shownRow_of_le (rows : List (List Int)) {height y : Nat} (h : height ≤ y) : shownRow rows height y = [] := by
  rw [shownRow_eq]
  exact List.getD_eq_default _ _ (by omega)

theorem showsRows_empty {width height : Nat} (hh : 0 < height) : ShowsRows width height [[]] (empty width height) where
  frame := rfl
  isGrid := Array.size_replicate
  cellAt_eq y hy x hx := by
    have hempty : shownRow [[]] height y = [] := shownRow_concat_nil [] height y
    have hblank : (empty width height).cellAt y x = .blank .plain := by
      have hi : y * width + x < width * height := index_lt hy hx
      simp only [cellAt, empty, Array.getD_eq_getD_getElem?, Array.getElem?_replicate, if_pos hi, Option.getD_some]
    rw [hempty, hblank]
    rfl
  row_eq := by
    show 0 = min 1 height - 1
    omega
  col_eq := rfl

namespace ShowsRows

variable {height : Nat} {rows : List (List Int)} {last : List Int} {s t : Screen}

theorem width_eq (h : ShowsRows width height rows s) : s.width = width := by
  rw [h.frame]
  rfl

theorem height_eq (h : ShowsRows width height rows s) : s.height = height := by
  rw [h.frame]
  rfl

theorem pen_eq (h : ShowsRows width height rows s) : s.pen = .plain := by
  rw [h.frame]
  rfl

theorem margins_eq (h : ShowsRows width height rows s) : s.margins = ⟨0, height - 1⟩ := by
  rw [h.frame]
  rfl

theorem length_pos (h : ShowsRows width height rows s) : 0 < rows.length := by
  have hcol := h.col_eq
  cases rows with
  | nil => cases hcol
  | cons => exact Nat.succ_pos _

theorem row_lt (h : ShowsRows width height rows s) (hh : 0 < height) : s.cursor.row < height := by
  rw [h.row_eq]
  omega

theorem col_eq_length (h : ShowsRows width height (rows ++ [last]) s) : s.cursor.col = last.length := by
  have hcol := h.col_eq
  rw [List.getLast?_concat] at hcol
  exact (Option.some.inj hcol).symm

/-! ### A line feed -/

/-- Wherever the cursor goes on the grid, the screen fits together. -/
private theorem fits_at (h : ShowsRows width height rows s) (hw : 0 < width) {p : Position} (hp : p.On width height) :
    Fits { s with cursor := p } := by
  have he := fits_empty hw (Nat.lt_of_le_of_lt (Nat.zero_le _) hp.2)
  have hg := h.isGrid
  rw [IsGrid, h.width_eq, h.height_eq] at hg
  rw [h.frame]
  exact ⟨hw, hg, hp, he.top_lt, he.bottom_lt, he.saved, he.behind⟩

/-- Where there is room for one more row, the cursor goes there. -/
private theorem below (h : ShowsRows width height rows s) (hroom : rows.length < height) :
    ShowsRows width height (rows ++ [[]]) { s with cursor := ⟨0, s.cursor.row + 1⟩ } := by
  have hrows := h.length_pos
  refine ⟨by rw [h.frame], h.isGrid, ?_, ?_, by rw [List.getLast?_concat]; rfl⟩
  · intro y hy x hx
    rw [shownRow_concat_nil_of_lt hroom]
    exact h.cellAt_eq y hy x hx
  · show s.cursor.row + 1 = min (rows ++ [[]]).length height - 1
    rw [h.row_eq, List.length_append, List.length_singleton]
    omega

/-- Where there is none, all rows move up, and the top one is lost. -/
private theorem scrolled (h : ShowsRows width height rows s) (hfull : height ≤ rows.length)
    (ht : RedrawsAs { s with cursor := ⟨0, s.cursor.row⟩ }
      (s.raised (min s.margins.top s.margins.bottom) s.margins.bottom 1) t) :
    ShowsRows width height (rows ++ [[]]) t := by
  have hcursor : t.cursor = ⟨0, s.cursor.row⟩ := ht.cursor_eq
  refine ⟨?_, ht.isGrid h.isGrid, ?_, ?_, by rw [List.getLast?_concat, hcursor]; rfl⟩
  · rw [ht.frame, h.frame]
  · intro y hy x hx
    -- The margins are the edges of the grid.
    have hin : min s.margins.top s.margins.bottom ≤ y ∧ y ≤ s.margins.bottom := by
      rw [h.margins_eq]
      exact ⟨Nat.zero_le y, Nat.le_sub_one_of_lt hy⟩
    rw [ht.cellAt_eq y (h.height_eq.symm ▸ hy) x (h.width_eq.symm ▸ hx), raised_of_inside hin, h.margins_eq,
      shownRow_concat_nil_of_le hfull]
    by_cases hlast : y + 1 < height
    · rw [if_pos (Nat.le_sub_one_of_lt hlast), h.cellAt_eq (y + 1) hlast x hx]
    · rw [if_neg (by dsimp only; omega), shownRow_of_le rows (Nat.le_of_not_lt hlast), h.pen_eq]
      rfl
  · rw [hcursor, List.length_append, List.length_singleton]
    have hrow := h.row_eq
    dsimp only
    omega

/-- A line feed begins a new row. -/
theorem after_lineFeed (h : ShowsRows width height rows s) (hw : 0 < width) (hh : 0 < height) :
    Succeeds lineFeed s fun _ => ShowsRows width height (rows ++ [[]]) := by
  have hrow := h.row_eq
  have hrows := h.length_pos
  by_cases hroom : rows.length < height
  · exact ⟨(), _, lineFeed_of_lt (by rw [h.height_eq]; omega), h.below hroom⟩
  · have hfits : Fits { s with cursor := ⟨0, s.cursor.row⟩ } := h.fits_at hw ⟨Nat.zero_le _, h.row_lt hh⟩
    have hshifts := hfits.shifts_scrollUp
    have hscroll := hshifts.edit_spec (n := 1) (Nat.min_eq_left hshifts.span_pos)
    refine Succeeds.of_eq (hscroll.mono fun _ _ ht => ?_) (lineFeed_of_ge (by rw [h.height_eq]; omega))
    exact h.scrolled (by omega) ht

/-! ### A character -/

/-- What is drawn at the cursor goes to the end of the last row. -/
private theorem drawn (h : ShowsRows width height (rows ++ [last]) s) (hh : 0 < height) (hroom : last.length < width)
    (c : Int) : ShowsRows width height (rows ++ [last ++ [c]])
      (s.put s.cursor.row s.cursor.col ⟨c, s.pen⟩).advance := by
  have hrow := h.row_eq
  have hcol := h.col_eq_length
  rw [List.length_append, List.length_singleton] at hrow
  refine ⟨?_, isGrid_put h.isGrid _ _ _, ?_, ?_, ?_⟩
  · rw [h.frame]
    rfl
  · intro y hy x hx
    have hrow' : s.cursor.row < s.height := h.height_eq.symm ▸ h.row_lt hh
    have hcol' : s.cursor.col < s.width := by rw [hcol, h.width_eq]; exact hroom
    refine (cellAt_put h.isGrid hrow' hcol' _ (h.width_eq.symm ▸ hx)).trans ?_
    rw [h.cellAt_eq y hy x hx, shownRow_concat _ _ hh, shownRow_concat _ _ hh, ← hrow, hcol, h.pen_eq]
    by_cases hy' : y = s.cursor.row
    · rw [if_pos hy', if_pos hy', getD_concat]
      by_cases hx' : x = last.length
      · rw [if_pos ⟨hy', hx'⟩, if_pos hx']
      · rw [if_neg (fun e => hx' e.2), if_neg hx']
    · rw [if_neg hy', if_neg hy', if_neg (fun e => hy' e.1)]
  · rw [List.length_append, List.length_singleton]
    exact hrow
  · rw [List.getLast?_concat]
    show some (last ++ [c]).length = some (s.cursor.col + 1)
    rw [List.length_append, List.length_singleton, hcol]

/-- A character goes to the end of a row that has room for it. -/
theorem after_print (h : ShowsRows width height (rows ++ [last]) s) (hh : 0 < height) (hroom : last.length < width)
    (c : Int) : Succeeds (print c) s fun _ => ShowsRows width height (rows ++ [last ++ [c]]) := by
  have hcol : s.cursor.col < s.width := by rw [h.col_eq_length, h.width_eq]; exact hroom
  exact ⟨(), _, print_of_lt h.isGrid (h.height_eq.symm ▸ h.row_lt hh) hcol c, h.drawn hh hroom c⟩

/-- After a full row a character begins a new one. -/
theorem after_print_of_full (h : ShowsRows width height (rows ++ [last]) s) (hw : 0 < width) (hh : 0 < height)
    (hfull : last.length = width) (c : Int) :
    Succeeds (print c) s fun _ => ShowsRows width height (rows ++ [last] ++ [[c]]) := by
  obtain ⟨_, t, hfeed, ht⟩ := h.after_lineFeed hw hh
  have hcol : s.width ≤ s.cursor.col := by
    rw [h.col_eq_length, h.width_eq]
    exact Nat.le_of_eq hfull.symm
  have hcol' : t.cursor.col < t.width := by rw [ht.col_eq_length, ht.width_eq]; exact hw
  exact ⟨(), _, print_of_ge hcol hfeed ht.isGrid (ht.height_eq.symm ▸ ht.row_lt hh) hcol' c, ht.drawn hh hw c⟩

end ShowsRows

end ScreenWatch.Screen
