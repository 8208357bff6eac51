import ScreenWatch.Proofs.Outcome
import ScreenWatch.Screen.Edits

/-!
# Cells of a grid

What the edits of cells do, described cell by cell through `cellAt`.  On a screen whose array has one cell for each
place of the grid (`IsGrid`) every edit between the edges ends well and touches nothing but the array; each cell
that it leaves is a cell that it found or a blank of the pen (`Redraws`).
-/

namespace ScreenWatch.Screen

/-- The array holds one cell for each place of the grid. -/
def IsGrid (s : Screen) : Prop := s.cells.size = s.width * s.height

/-! ### Places -/

theorem index_lt {w h row col : Nat} (hr : row < h) (hc : col < w) : row * w + col < w * h := by
  have := Nat.mul_le_mul_right w (show row + 1 ≤ h from hr)
  rw [Nat.succ_mul, Nat.mul_comm h] at this
  omega

theorem index_inj {w y x y' x' : Nat} (hx : x < w) (hx' : x' < w) :
    y * w + x = y' * w + x' ↔ y = y' ∧ x = x' := by
  constructor
  · intro h
    rcases Nat.lt_trichotomy y y' with hy | rfl | hy
    · have := Nat.mul_le_mul_right w (show y + 1 ≤ y' from hy)
      rw [Nat.succ_mul] at this
      omega
    · exact ⟨rfl, by omega⟩
    · have := Nat.mul_le_mul_right w (show y' + 1 ≤ y from hy)
      rw [Nat.succ_mul] at this
      omega
  · rintro ⟨rfl, rfl⟩
    rfl

/-- Which places lie on a stretch of a row. -/
private theorem index_mem_iff {w row first n y x : Nat} (hx : x < w) (hn : first + n ≤ w) :
    (row * w + first ≤ y * w + x ∧ y * w + x < row * w + first + n) ↔ y = row ∧ first ≤ x ∧ x < first + n := by
  constructor
  · rintro ⟨h1, h2⟩
    have hcol : y * w + x - row * w < w := by omega
    have hsplit : y * w + x = row * w + (y * w + x - row * w) := by omega
    obtain ⟨rfl, hx'⟩ := (index_inj hx hcol).1 hsplit
    exact ⟨rfl, by omega, by omega⟩
  · rintro ⟨rfl, h1, h2⟩
    constructor <;> omega

theorem cellAt_mem {s : Screen} (hs : s.IsGrid) {y x : Nat} (hy : y < s.height) (hx : x < s.width) :
    s.cellAt y x ∈ s.cells := by
  have hi : y * s.width + x < s.cells.size := hs ▸ index_lt hy hx
  rw [cellAt, Array.getD_eq_getD_getElem?, Array.getElem?_eq_getElem hi]
  exact Array.getElem_mem hi

theorem exists_cellAt {s : Screen} (hs : s.IsGrid) {c : Cell} (hc : c ∈ s.cells) :
    ∃ y < s.height, ∃ x < s.width, s.cellAt y x = c := by
  obtain ⟨i, hi, rfl⟩ := Array.getElem_of_mem hc
  have hi' : i < s.width * s.height := hs ▸ hi
  have hw : 0 < s.width := Nat.pos_of_mul_pos_right (Nat.lt_of_le_of_lt (Nat.zero_le i) hi')
  refine ⟨i / s.width, Nat.div_lt_of_lt_mul hi', i % s.width, Nat.mod_lt _ hw, ?_⟩
  rw [cellAt, Nat.div_add_mod', Array.getD_eq_getD_getElem?, Array.getElem?_eq_getElem hi]
  rfl

/-! ### Redrawing -/

/-- `t` is `s` with other cells, each of them a cell of `s` or a blank of its pen. -/
structure Redraws (s t : Screen) : Prop where
  frame : t = { s with cells := t.cells }
  size_cells : t.cells.size = s.cells.size
  origin : ∀ y < s.height, ∀ x < s.width,
    t.cellAt y x = .blank s.pen ∨ ∃ y' < s.height, ∃ x' < s.width, t.cellAt y x = s.cellAt y' x'

namespace Redraws

theorem refl (s : Screen) : Redraws s s :=
  ⟨rfl, rfl, fun y hy x hx => .inr ⟨y, hy, x, hx, rfl⟩⟩

theorem trans {s t u : Screen} (h : Redraws s t) (h' : Redraws t u) : Redraws s u := by
  have hf := h.frame
  refine ⟨?_, h'.size_cells.trans h.size_cells, fun y hy x hx => ?_⟩
  · rw [h'.frame, hf]
  · rcases h'.origin y (by rw [hf]; exact hy) x (by rw [hf]; exact hx) with e | ⟨y', hy', x', hx', e⟩
    · exact .inl (by rw [e, hf])
    · rw [e]
      exact h.origin y' (by rw [hf] at hy'; exact hy') x' (by rw [hf] at hx'; exact hx')

variable {s t : Screen}

theorem width_eq (h : Redraws s t) : t.width = s.width := by rw [h.frame]

theorem height_eq (h : Redraws s t) : t.height = s.height := by rw [h.frame]

theorem cursor_eq (h : Redraws s t) : t.cursor = s.cursor := by rw [h.frame]

theorem pen_eq (h : Redraws s t) : t.pen = s.pen := by rw [h.frame]

theorem isGrid (h : Redraws s t) (hs : s.IsGrid) : t.IsGrid := by
  rw [IsGrid, h.size_cells, h.width_eq, h.height_eq]
  exact hs

end Redraws

/-! ### One cell -/

/-- The screen with another cell at a place. -/
def put (s : Screen) (row col : Nat) (c : Cell) : Screen :=
  { s with cells := s.cells.setIfInBounds (row * s.width + col) c }

theorem isGrid_put {s : Screen} (hs : s.IsGrid) (row col : Nat) (c : Cell) : (s.put row col c).IsGrid := by
  rw [IsGrid, put, Array.size_setIfInBounds]
  exact hs

theorem cellAt_put {s : Screen} (hs : s.IsGrid) {row col : Nat} (hr : row < s.height) (hc : col < s.width)
    (c : Cell) {y x : Nat} (hx : x < s.width) :
    (s.put row col c).cellAt y x = if y = row ∧ x = col then c else s.cellAt y x := by
  have hi : row * s.width + col < s.cells.size := hs ▸ index_lt hr hc
  simp only [cellAt, put, Array.getD_eq_getD_getElem?]
  by_cases h : y = row ∧ x = col
  · obtain ⟨rfl, rfl⟩ := h
    rw [Array.getElem?_setIfInBounds_self_of_lt hi, if_pos ⟨rfl, rfl⟩]
    rfl
  · have hne : row * s.width + col ≠ y * s.width + x := fun e =>
      h ⟨((index_inj hc hx).1 e).1.symm, ((index_inj hc hx).1 e).2.symm⟩
    rw [Array.getElem?_setIfInBounds_ne hne, if_neg h]

theorem index?_of_lt {s : Screen} (hs : s.IsGrid) {row col : Nat} (hr : row < s.height) (hc : col < s.width) :
    s.index? row col = some (row * s.width + col) := by
  have hi : row * s.width + col < s.cells.size := hs ▸ index_lt hr hc
  have hr' : (row : Int) ≠ -1 := by omega
  have hc' : (col : Int) ≠ -1 := by omega
  have hz : (row : Int) * s.width + col = ((row * s.width + col : Nat) : Int) := by push_cast; rfl
  simp only [index?, hr', hc', ite_false, hz]
  rw [if_pos ⟨by omega, by omega⟩, Int.toNat_natCast]

/-- A row and a column of -1 are those of the cursor. -/
theorem index?_cursor {s : Screen} (hs : s.IsGrid) (hr : s.cursor.row < s.height) (hc : s.cursor.col < s.width) :
    s.index? (-1) (-1) = some (s.cursor.row * s.width + s.cursor.col) := by
  rw [← index?_of_lt hs hr hc]
  have hr' : (s.cursor.row : Int) ≠ -1 := by omega
  have hc' : (s.cursor.col : Int) ≠ -1 := by omega
  simp only [index?, hr', hc', ite_true, ite_false]

theorem setCell_eq {s : Screen} {row col : Int} {y x : Nat} (h : s.index? row col = some (y * s.width + x))
    (c : Cell) : setCell row col c s = .ok () (s.put y x c) := by
  have hi : indexOf row col s = .ok (y * s.width + x) s := by
    unfold indexOf
    rw [h]
  unfold setCell
  rw [bind_of_ok hi]
  rfl

theorem resetCell_eq {s : Screen} (hs : s.IsGrid) {row col : Nat} (hr : row < s.height) (hc : col < s.width) :
    resetCell row col s = .ok () (s.put row col (.blank s.pen)) :=
  setCell_eq (index?_of_lt hs hr hc) _

theorem redraws_put {s : Screen} (hs : s.IsGrid) {row col : Nat} (hr : row < s.height) (hc : col < s.width)
    {c : Cell} (h : c = .blank s.pen ∨ ∃ y < s.height, ∃ x < s.width, c = s.cellAt y x) :
    Redraws s (s.put row col c) := by
  refine ⟨rfl, by simp [put], fun y hy x hx => ?_⟩
  rw [cellAt_put hs hr hc c hx]
  split
  · exact h
  · exact .inr ⟨y, hy, x, hx, rfl⟩

/-! ### Many cells -/

/-- `t` redraws `s`, and has the cell `g y x` at each place. -/
structure RedrawsAs (s : Screen) (g : Nat → Nat → Cell) (t : Screen) : Prop extends Redraws s t where
  cellAt_eq : ∀ y < s.height, ∀ x < s.width, t.cellAt y x = g y x

namespace RedrawsAs

variable {s t u : Screen} {g g' : Nat → Nat → Cell}

theorem refl (s : Screen) : RedrawsAs s s.cellAt s := ⟨.refl s, fun _ _ _ _ => rfl⟩

theorem congr (h : RedrawsAs s g t) (hg : ∀ y < s.height, ∀ x < s.width, g y x = g' y x) : RedrawsAs s g' t :=
  ⟨h.toRedraws, fun y hy x hx => (h.cellAt_eq y hy x hx).trans (hg y hy x hx)⟩

theorem trans (h : RedrawsAs s g t) (h' : RedrawsAs t g' u) : RedrawsAs s g' u := by
  refine ⟨h.toRedraws.trans h'.toRedraws, fun y hy x hx => ?_⟩
  exact h'.cellAt_eq y (h.height_eq ▸ hy) x (h.width_eq ▸ hx)

end RedrawsAs

theorem redrawsAs_put {s : Screen} (hs : s.IsGrid) {row col : Nat} (hr : row < s.height) (hc : col < s.width)
    {c : Cell} (h : c = .blank s.pen ∨ ∃ y < s.height, ∃ x < s.width, c = s.cellAt y x) :
    RedrawsAs s (fun y x => if y = row ∧ x = col then c else s.cellAt y x) (s.put row col c) :=
  ⟨redraws_put hs hr hc h, fun _ _ _ hx => cellAt_put hs hr hc c hx⟩

/-- Erasing between two columns, both inclusive and cut to the grid. -/
theorem resetCells_spec {s : Screen} (hs : s.IsGrid) {row : Nat} (hr : row < s.height) (first last : Int) :
    Succeeds (resetCells row first last) s fun _ =>
      RedrawsAs s fun y x => if y = row ∧ first ≤ x ∧ x ≤ last then .blank s.pen else s.cellAt y x := by
  unfold resetCells
  refine .get_bind ?_
  have hloop := Succeeds.forM_range (s := s) (ε := Fault)
    (n := (min last (s.width - 1) + 1 - max first 0).toNat) (f := fun i => resetCell row (max first 0 + i))
    (fun k => RedrawsAs s fun y x =>
      if y = row ∧ max first 0 ≤ x ∧ (x : Int) < max first 0 + k then .blank s.pen else s.cellAt y x)
    ((RedrawsAs.refl s).congr fun y _ x _ => by rw [if_neg (by omega)]) ?_
  · refine hloop.mono fun _ t ht => ht.congr fun y _ x hx => ?_
    by_cases h : y = row ∧ first ≤ x ∧ x ≤ last
    · rw [if_pos h, if_pos (by omega)]
    · rw [if_neg h, if_neg (by omega)]
  · intro i hi t ht
    have hcol : ((max first 0).toNat + i) < t.width := by rw [ht.width_eq]; omega
    have hrow : row < t.height := by rw [ht.height_eq]; exact hr
    have hc : max first 0 + (i : Int) = (((max first 0).toNat + i : Nat) : Int) := by omega
    rw [hc]
    refine ⟨(), _, resetCell_eq (ht.isGrid hs) hrow hcol, ht.trans ?_⟩
    refine (redrawsAs_put (ht.isGrid hs) hrow hcol (.inl rfl)).congr fun y hy x hx => ?_
    rw [ht.height_eq] at hy
    rw [ht.width_eq] at hx
    rw [ht.cellAt_eq y hy x hx, ht.pen_eq]
    by_cases h : y = row ∧ x = (max first 0).toNat + i
    · rw [if_pos h, if_pos (by omega)]
    · rw [if_neg h]
      by_cases h' : y = row ∧ max first 0 ≤ x ∧ (x : Int) < max first 0 + i
      · rw [if_pos h', if_pos (by omega)]
      · rw [if_neg h', if_neg (by omega)]

theorem resetRow_spec {s : Screen} (hs : s.IsGrid) {row : Nat} (hr : row < s.height) :
    Succeeds (resetRow row) s fun _ =>
      RedrawsAs s fun y x => if y = row then .blank s.pen else s.cellAt y x := by
  unfold resetRow
  refine .get_bind ((resetCells_spec hs hr 0 _).mono fun _ t ht => ht.congr fun y _ x hx => ?_)
  by_cases h : y = row
  · rw [if_pos h, if_pos (by omega)]
  · rw [if_neg h, if_neg (by omega)]

/-! ### Copies -/

private theorem size_copyCells (dst src count : Nat) (cells : Array Cell) :
    (copyCells dst src count cells).size = cells.size := by
  induction count generalizing dst src cells with
  | zero => rfl
  | succ count ih => rw [copyCells, ih, Array.size_setIfInBounds]

/-- A copy to the left, or to places behind its source, reads no cell that it has written. -/
private theorem getElem?_copyCells {dst src count : Nat} {cells : Array Cell} (h : dst ≤ src ∨ src + count ≤ dst)
    (hsrc : src + count ≤ cells.size) (hdst : dst + count ≤ cells.size) (i : Nat) :
    (copyCells dst src count cells)[i]? =
      if dst ≤ i ∧ i < dst + count then cells[src + (i - dst)]? else cells[i]? := by
  induction count generalizing dst src cells with
  | zero => rw [if_neg (by omega)]; rfl
  | succ count ih =>
    have hd : cells.getD src default = cells[src] := by
      rw [Array.getD_eq_getD_getElem?, Array.getElem?_eq_getElem (by omega)]
      rfl
    rw [copyCells, ih (by omega) (by rw [Array.size_setIfInBounds]; omega)
      (by rw [Array.size_setIfInBounds]; omega), hd]
    by_cases h1 : i = dst
    · subst h1
      rw [if_neg (by omega), if_pos (by omega), Array.getElem?_setIfInBounds_self_of_lt (by omega),
        Nat.sub_self, Nat.add_zero, Array.getElem?_eq_getElem]
    · by_cases h2 : dst + 1 ≤ i ∧ i < dst + 1 + count
      · rw [if_pos h2, if_pos (by omega), Array.getElem?_setIfInBounds_ne (by omega)]
        congr 1
        omega
      · rw [if_neg h2, if_neg (by omega), Array.getElem?_setIfInBounds_ne (Ne.symm h1)]

/-- `moveCells` from a stretch of a row to another one, not behind it in the same row. -/
private theorem moveCells_spec {s : Screen} (hs : s.IsGrid) {dst src dstCol srcCol count : Nat} (hd : dst < s.height)
    (hr : src < s.height) (hdc : dstCol + count ≤ s.width) (hsc : srcCol + count ≤ s.width)
    (h : dst ≠ src ∨ dstCol ≤ srcCol) :
    Succeeds (moveCells (dst * s.width + dstCol) (src * s.width + srcCol) count) s fun _ =>
      RedrawsAs s fun y x =>
        if y = dst ∧ dstCol ≤ x ∧ x < dstCol + count then s.cellAt src (srcCol + (x - dstCol)) else s.cellAt y x := by
  have hend {row : Nat} (hrow : row < s.height) : row * s.width + s.width ≤ s.cells.size := by
    rw [hs, Nat.mul_comm s.width, ← Nat.succ_mul]
    exact Nat.mul_le_mul_right _ hrow
  have hsrc : src * s.width + srcCol + count ≤ s.cells.size := by
    have := hend hr
    omega
  have hdst : dst * s.width + dstCol + count ≤ s.cells.size := by
    have := hend hd
    omega
  -- Cells are copied from left to right, so none is overwritten before it has been copied itself.
  have hor : dst * s.width + dstCol ≤ src * s.width + srcCol ∨
      src * s.width + srcCol + count ≤ dst * s.width + dstCol := by
    rcases Nat.lt_trichotomy dst src with hlt | rfl | hlt
    · have := Nat.mul_le_mul_right s.width (show dst + 1 ≤ src from hlt)
      rw [Nat.succ_mul] at this
      omega
    · omega
    · have := Nat.mul_le_mul_right s.width (show src + 1 ≤ dst from hlt)
      rw [Nat.succ_mul] at this
      omega
  let t : Screen := { s with cells := copyCells (dst * s.width + dstCol) (src * s.width + srcCol) count s.cells }
  have hmove : moveCells (dst * s.width + dstCol) (src * s.width + srcCol) count s = .ok () t := by
    unfold moveCells
    rw [if_pos (.inr ⟨hsrc, hdst⟩)]
  have hcell : ∀ y < s.height, ∀ x < s.width, t.cellAt y x =
      if y = dst ∧ dstCol ≤ x ∧ x < dstCol + count then s.cellAt src (srcCol + (x - dstCol)) else s.cellAt y x := by
    intro y _ x hx
    simp only [t, cellAt, Array.getD_eq_getD_getElem?, getElem?_copyCells hor hsrc hdst]
    by_cases hin : y = dst ∧ dstCol ≤ x ∧ x < dstCol + count
    · have hi : src * s.width + srcCol + (y * s.width + x - (dst * s.width + dstCol)) =
          src * s.width + (srcCol + (x - dstCol)) := by
        rw [hin.1]
        omega
      rw [if_pos ((index_mem_iff hx hdc).2 hin), if_pos hin, hi]
    · rw [if_neg fun hi => hin ((index_mem_iff hx hdc).1 hi), if_neg hin]
  refine ⟨(), t, hmove, ⟨rfl, size_copyCells .., ?_⟩, hcell⟩
  intro y hy x hx
  right
  rw [hcell y hy x hx]
  split
  · exact ⟨src, hr, srcCol + (x - dstCol), by omega, rfl⟩
  · exact ⟨y, hy, x, hx, rfl⟩

theorem copyRow_spec {s : Screen} (hs : s.IsGrid) {dst src : Nat} (hd : dst < s.height) (hr : src < s.height) :
    Succeeds (copyRow dst src) s fun _ =>
      RedrawsAs s fun y x => if y = dst then s.cellAt src x else s.cellAt y x := by
  unfold copyRow
  refine .get_bind ?_
  have hmove := @moveCells_spec s hs dst src 0 0 s.width hd hr (by omega) (by omega) (.inr (Nat.le_refl 0))
  refine hmove.mono fun _ t ht => ht.congr fun y _ x hx => ?_
  by_cases h : y = dst
  · rw [if_pos h, if_pos ⟨h, by omega, by omega⟩, Nat.sub_zero, Nat.zero_add]
  · rw [if_neg h, if_neg fun h' => h h'.1]

/-! ### Scrolling by one -/

theorem shiftUp_spec {s : Screen} (hs : s.IsGrid) {top bottom : Nat} (hb : bottom < s.height) :
    Succeeds (shiftUp top bottom) s fun _ =>
      RedrawsAs s fun y x => if y = bottom then .blank s.pen
        else if top ≤ y ∧ y < bottom then s.cellAt (y + 1) x else s.cellAt y x := by
  unfold shiftUp
  have hloop := Succeeds.forM_range (s := s) (ε := Fault) (n := bottom - top)
    (f := fun i => copyRow (top + i) (top + i + 1))
    (fun k => RedrawsAs s fun y x => if top ≤ y ∧ y < top + k then s.cellAt (y + 1) x else s.cellAt y x)
    ((RedrawsAs.refl s).congr fun y _ x _ => by rw [if_neg (by omega)]) ?_
  · refine hloop.bind fun _ t ht => ?_
    refine (resetRow_spec (ht.isGrid hs) (ht.height_eq ▸ hb)).mono fun _ u hu => ?_
    refine (ht.trans hu).congr fun y hy x hx => ?_
    rw [ht.pen_eq, ht.cellAt_eq y hy x hx]
    by_cases h : y = bottom
    · rw [if_pos h, if_pos h]
    · rw [if_neg h, if_neg h]
      by_cases h' : top ≤ y ∧ y < bottom
      · rw [if_pos h', if_pos (by omega)]
      · rw [if_neg h', if_neg (by omega)]
  · intro i hi t ht
    refine (copyRow_spec (ht.isGrid hs) (by rw [ht.height_eq]; omega) (by rw [ht.height_eq]; omega)).mono
      fun _ u hu => (ht.trans hu).congr fun y hy x hx => ?_
    by_cases h : y = top + i
    · subst h
      rw [if_pos rfl, if_pos (by omega), ht.cellAt_eq _ (by omega) x hx, if_neg (by omega)]
    · rw [if_neg h, ht.cellAt_eq y hy x hx]
      by_cases h' : top ≤ y ∧ y < top + i
      · rw [if_pos h', if_pos (by omega)]
      · rw [if_neg h', if_neg (by omega)]

theorem shiftDown_spec {s : Screen} (hs : s.IsGrid) {top bottom : Nat} (ht : top < s.height)
    (hb : bottom < s.height) :
    Succeeds (shiftDown top bottom) s fun _ =>
      RedrawsAs s fun y x => if y = top then .blank s.pen
        else if top < y ∧ y ≤ bottom then s.cellAt (y - 1) x else s.cellAt y x := by
  unfold shiftDown
  have hloop := Succeeds.forM_range (s := s) (ε := Fault) (n := bottom - top)
    (f := fun i => copyRow (bottom - i) (bottom - i - 1))
    (fun k => RedrawsAs s fun y x => if bottom < y + k ∧ y ≤ bottom then s.cellAt (y - 1) x else s.cellAt y x)
    ((RedrawsAs.refl s).congr fun y _ x _ => by rw [if_neg (by omega)]) ?_
  · refine hloop.bind fun _ t ht' => ?_
    refine (resetRow_spec (ht'.isGrid hs) (ht'.height_eq ▸ ht)).mono fun _ u hu => ?_
    refine (ht'.trans hu).congr fun y hy x hx => ?_
    rw [ht'.pen_eq, ht'.cellAt_eq y hy x hx]
    by_cases h : y = top
    · rw [if_pos h, if_pos h]
    · rw [if_neg h, if_neg h]
      by_cases h' : top < y ∧ y ≤ bottom
      · rw [if_pos h', if_pos (by omega)]
      · rw [if_neg h', if_neg (by omega)]
  · intro i hi t ht'
    refine (copyRow_spec (ht'.isGrid hs) (by rw [ht'.height_eq]; omega) (by rw [ht'.height_eq]; omega)).mono
      fun _ u hu => (ht'.trans hu).congr fun y hy x hx => ?_
    by_cases h : y = bottom - i
    · subst h
      rw [if_pos rfl, if_pos (by omega), ht'.cellAt_eq _ (by omega) x hx, if_neg (by omega)]
    · rw [if_neg h, ht'.cellAt_eq y hy x hx]
      by_cases h' : bottom < y + i ∧ y ≤ bottom
      · rw [if_pos h', if_pos (by omega)]
      · rw [if_neg h', if_neg (by omega)]

/-- The cells of a row from column `col` on, the last one excepted, are replaced by their neighbours. -/
theorem moveCells_left_spec {s : Screen} (hs : s.IsGrid) {row : Nat} (hr : row < s.height) (hw : 0 < s.width)
    (col : Nat) :
    Succeeds (moveCells (row * s.width + col) (row * s.width + col + 1) (s.width - 1 - col)) s fun _ =>
      RedrawsAs s fun y x => if y = row ∧ col ≤ x ∧ x < s.width - 1 then s.cellAt y (x + 1) else s.cellAt y x := by
  by_cases hcol : s.width - 1 ≤ col
  · refine ⟨(), s, ?_, (RedrawsAs.refl s).congr fun y _ x _ => by rw [if_neg (by omega)]⟩
    unfold moveCells
    rw [if_pos (.inl (by omega)), Nat.sub_eq_zero_of_le hcol]
    rfl
  · have hmove := @moveCells_spec s hs row row col (col + 1) (s.width - 1 - col) hr hr (by omega) (by omega)
      (.inr (Nat.le_succ col))
    refine hmove.mono fun _ t ht => ht.congr fun y _ x _ => ?_
    by_cases h : y = row ∧ col ≤ x ∧ x < s.width - 1
    · have hx : col + 1 + (x - col) = x + 1 := by omega
      rw [if_pos h, if_pos (by omega), hx, h.1]
    · rw [if_neg h, if_neg (by omega)]

theorem shiftLeft_spec {s : Screen} (hs : s.IsGrid) {row : Nat} (hr : row < s.height) (hw : 0 < s.width)
    (col : Nat) :
    Succeeds (shiftLeft row col) s fun _ =>
      RedrawsAs s fun y x => if y = row ∧ x = s.width - 1 then .blank s.pen
        else if y = row ∧ col ≤ x then s.cellAt y (x + 1) else s.cellAt y x := by
  unfold shiftLeft
  refine .get_bind ((moveCells_left_spec hs hr hw col).bind fun _ t ht => ?_)
  have hcol : ((s.width : Int) - 1) = ((s.width - 1 : Nat) : Int) := by omega
  have hr' : row < t.height := ht.height_eq ▸ hr
  have hc' : s.width - 1 < t.width := by rw [ht.width_eq]; omega
  rw [hcol]
  refine ⟨(), _, resetCell_eq (ht.isGrid hs) hr' hc', ?_⟩
  refine (ht.trans (redrawsAs_put (ht.isGrid hs) hr' hc' (.inl rfl))).congr fun y hy x hx => ?_
  rw [ht.pen_eq, ht.cellAt_eq y hy x hx]
  by_cases h : y = row ∧ x = s.width - 1
  · rw [if_pos h, if_pos h]
  · rw [if_neg h, if_neg h]
    by_cases h' : y = row ∧ col ≤ x
    · rw [if_pos h', if_pos (by omega)]
    · rw [if_neg h', if_neg (by omega)]

end ScreenWatch.Screen
