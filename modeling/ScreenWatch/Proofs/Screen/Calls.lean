import ScreenWatch.Proofs.Screen.Commands

/-!
# Calls that fail

Commands, lookups of single cells and readings of the text, in any order and with any numbers, come to screens on which
the rows of the cursor and the margins exist (`HasRows`); the column of the cursor may be any.  On such a screen only a
call that names a cell or a row outside the grid fails, or one that asks for a size that is not positive, and it has
done nothing before (`Call.runExactly_endsAs`).  All of this is said of numbers that are as large as they need to be;
where cells and characters have to be counted, a call does the same as long as they can be, and nothing where they
cannot (`Call.run_eq`).
-/

namespace ScreenWatch.Screen

variable {s t : Screen}

/-! ### Calls -/

/-- The text of a grid, where each cell is looked up. -/
def readLayout (write : Cell → Bytes) : ScreenM Bytes := do
  let s ← get
  let rows ← (List.range s.height).mapM fun (y : Nat) => do
    let cells ← (List.range s.width).mapM fun (x : Nat) => getCell y x
    return cells.flatMap write
  return Text.joined [Text.newline] rows

inductive Call
  | command (c : Command)
  | getCell (row col : Int)
  | setCell (row col : Int) (cell : Cell)
  | text
  | markedText
  deriving DecidableEq

def Call.run : Call → ScreenM Unit
  | command c => c.run
  | getCell row col => discard (Screen.getCell row col)
  | setCell row col cell => Screen.setCell row col cell
  | text => do
    discard readText
    discard (readLayout fun c => Utf8.encode c.code)
  | markedText => discard (readLayout fun c => Utf8.encode c.code ++ if c.pen.bold then [0x2A] else [])

/-- A new size, whether its cells can be counted or not. -/
def resizeExactly (width height : Int) : ScreenM Unit :=
  if width ≤ 0 ∨ height ≤ 0 then throw .badSize else modify (·.resized width.toNat height.toNat)

/-- The call where all numbers are as large as they need to be: neither cells nor characters are counted. -/
def Call.runExactly : Call → ScreenM Unit
  | command (.resize width height) => Screen.resizeExactly width height
  | text => discard (readLayout fun c => Utf8.encode c.code)
  | c => c.run

/-- The screen after calls, some of which may have failed. -/
def calledBy (run : Call → ScreenM Unit) (s : Screen) (calls : List Call) : Screen :=
  calls.foldl (fun s c => left (run c) s) s

def called (s : Screen) (calls : List Call) : Screen := s.calledBy Call.run calls

def calledExactly (s : Screen) (calls : List Call) : Screen := s.calledBy Call.runExactly calls

/-- The index that a row and a column stand for; -1 is the row or the column of the cursor. -/
def flatIndex (s : Screen) (row col : Int) : Int :=
  (if row = -1 then (s.cursor.row : Int) else row) * s.width + if col = -1 then (s.cursor.col : Int) else col

/-- Whether there is a cell at the index that a row and a column stand for. -/
def HasCell (s : Screen) (row col : Int) : Prop :=
  0 ≤ s.flatIndex row col ∧ s.flatIndex row col ≤ s.width * s.height - 1

instance (s : Screen) (row col : Int) : Decidable (s.HasCell row col) := inferInstanceAs (Decidable (_ ∧ _))

/-- The fault of a call for which cells or characters cannot be counted. -/
def Call.overflow? (s : Screen) : Call → Option Fault
  | command (.resize width height) => if width.toNat * height.toNat ≤ 2147483647 then none else some .tooManyCells
  | text => if (s.width + 1) * s.height ≤ 2147483647 then none else some .textTooLong
  | _ => none

/-- The fault that a call is to end in, if it is to fail. -/
def Call.fault? (s : Screen) : Call → Option Fault
  | getCell row col | setCell row col _ => if s.HasCell row col then none else some .noCell
  | command (.resetRow row) => if -1 ≤ row ∧ row ≤ s.height - 1 then none else some .noCell
  | command (.resetCells row first last) =>
    if (-1 ≤ row ∧ row ≤ s.height - 1) ∨ min last (s.width - 1) < max first 0 then none else some .noCell
  | command (.resize width height) => if 0 < width ∧ 0 < height then none else some .badSize
  | _ => none

/-- The action ends in the fault, and the screen is as it was; or if there is none, it ends well. -/
def FailsAs (act : ScreenM Unit) (s : Screen) : Option Fault → Prop
  | none => ∃ t, act s = .ok () t
  | some fault => act s = .error fault s

/-- `FailsAs`, and an action that ends well leaves the rows. -/
def EndsAs (act : ScreenM Unit) (s : Screen) : Option Fault → Prop
  | none => Succeeds act s fun _ t => t.HasRows
  | some fault => act s = .error fault s

namespace EndsAs

variable {act act' : ScreenM Unit} {fault? : Option Fault}

theorem of_eq (h : EndsAs act s fault?) (heq : act' s = act s) : EndsAs act' s fault? := by
  cases fault? with
  | none => exact Succeeds.of_eq h heq
  | some fault => exact heq.trans h

theorem failsAs (h : EndsAs act s fault?) : FailsAs act s fault? := by
  cases fault? with
  | none =>
    obtain ⟨_, t, ht, -⟩ := h
    exact ⟨t, ht⟩
  | some fault => exact h

theorem hasRows (h : EndsAs act s fault?) (hs : s.HasRows) : (left act s).HasRows := by
  cases fault? with
  | none => exact Succeeds.leaves h
  | some fault =>
    rw [left_of_error h]
    exact hs

end EndsAs

/-! ### What keeps the rows -/

theorem HasRows.height_pos (hs : s.HasRows) : 0 < s.height := Nat.zero_lt_of_lt hs.row_lt

theorem HasRows.with_frame (hs : s.HasRows) {p : Position} (hp : p.row < s.height) {m : Margins}
    (ht : m.top < s.height) (hb : m.bottom < s.height) (q : Position) (pen : Pen) (visible : Bool) :
    HasRows { s with cursor := p, saved := q, margins := m, pen := pen, visible := visible } :=
  ⟨hs.width_pos, hs.isGrid, hp, ht, hb, hs.behind⟩

theorem HasRows.with_cursor (hs : s.HasRows) {p : Position} (hp : p.row < s.height) : HasRows { s with cursor := p } :=
  hs.with_frame hp hs.top_lt hs.bottom_lt s.saved s.pen s.visible

theorem HasRows.moveToRow (hs : s.HasRows) (row : Int) : (s.moveToRow row).HasRows :=
  hs.with_cursor (clamp_lt row hs.height_pos)

theorem HasRows.moveToCol (hs : s.HasRows) (col : Int) : (s.moveToCol col).HasRows := hs.with_cursor hs.row_lt

theorem HasRows.setCursor (hs : s.HasRows) (col row : Int) : (s.setCursor col row).HasRows :=
  hs.with_cursor (clamp_lt row hs.height_pos)

theorem HasRows.setMargins (hs : s.HasRows) (top bottom : Int) : (s.setMargins top bottom).HasRows := by
  have htop := clamp_lt top hs.height_pos
  have hbottom := clamp_lt bottom hs.height_pos
  exact hs.with_frame htop htop hbottom s.saved s.pen s.visible

theorem HasRows.with_cells (hs : s.HasRows) {cells : Array Cell} (hc : cells.size = s.cells.size) :
    HasRows { s with cells := cells } :=
  ⟨hs.width_pos, hc.trans hs.isGrid, hs.row_lt, hs.top_lt, hs.bottom_lt, hs.behind⟩

theorem HasRows.redraws (hs : s.HasRows) (h : Redraws s t) : t.HasRows := by
  rw [h.frame]
  exact hs.with_cells h.size_cells

/-! ### Single cells -/

private theorem index?_eq (hs : s.IsGrid) (row col : Int) :
    s.index? row col = if s.HasCell row col then some (s.flatIndex row col).toNat else none := by
  have hsize : (s.cells.size : Int) = s.width * s.height := by rw [hs, Int.natCast_mul]
  have hlt : 0 ≤ s.flatIndex row col ∧ s.flatIndex row col < s.cells.size ↔ s.HasCell row col := by
    unfold HasCell
    omega
  show (if 0 ≤ s.flatIndex row col ∧ s.flatIndex row col < s.cells.size then _ else _) = _
  simp only [hlt]
  rfl

private theorem indexOf_of_hasCell (hs : s.IsGrid) {row col : Int} (h : s.HasCell row col) :
    indexOf row col s = .ok (s.flatIndex row col).toNat s := by
  unfold indexOf
  rw [index?_eq hs, if_pos h]

private theorem indexOf_of_not_hasCell (hs : s.IsGrid) {row col : Int} (h : ¬ s.HasCell row col) :
    indexOf row col s = .error .noCell s := by
  unfold indexOf
  rw [index?_eq hs, if_neg h]

/-- The row of the cursor is meant by its number, too. -/
private theorem index?_of_cursor_row (s : Screen) (col : Int) : s.index? (-1) col = s.index? s.cursor.row col := by
  have hrow : (s.cursor.row : Int) ≠ -1 := by omega
  unfold index?
  rw [if_pos rfl, if_neg hrow]

/-! ### Rows of cells -/

private theorem resetCells_redraws (hs : s.HasRows) {row : Int} (hrow : -1 ≤ row ∧ row ≤ s.height - 1)
    (first last : Int) : Succeeds (resetCells row first last) s fun _ => Redraws s := by
  obtain ⟨y, hy, hname⟩ : ∃ y < s.height, row = y ∨ row = -1 ∧ s.cursor.row = y := by
    by_cases h : row = -1
    · exact ⟨s.cursor.row, hs.row_lt, .inr ⟨h, rfl⟩⟩
    · exact ⟨row.toNat, by omega, .inl (by omega)⟩
  unfold resetCells
  refine .get_bind (Succeeds.forM _ (.refl s) ?_)
  intro i hi t ht
  have hg := ht.isGrid hs.isGrid
  have hlt := List.mem_range.1 hi
  obtain ⟨x, hx⟩ : ∃ x : Nat, max first 0 + (i : Int) = x := ⟨(max first 0 + i).toNat, by omega⟩
  have hyt : y < t.height := by rw [ht.height_eq]; exact hy
  have hxt : x < t.width := by rw [ht.width_eq]; omega
  have hindex : t.index? row x = some (y * t.width + x) := by
    rw [← index?_of_lt hg hyt hxt]
    rcases hname with rfl | ⟨rfl, hcursor⟩
    · rfl
    · rw [index?_of_cursor_row, ht.cursor_eq, hcursor]
  rw [hx]
  exact ⟨(), _, setCell_eq hindex _, ht.trans (redraws_put hg hyt hxt (.inl rfl))⟩

/-- In no other row is there any cell of the range, so the first one is not found. -/
private theorem resetCells_of_outside (hs : s.HasRows) {row : Int} (hrow : ¬ (-1 ≤ row ∧ row ≤ s.height - 1))
    {first last : Int} (hcols : max first 0 ≤ min last (s.width - 1)) :
    resetCells row first last s = .error .noCell s := by
  have hcell : ¬ s.HasCell row (max first 0 + (0 : Nat)) := by
    unfold HasCell flatIndex
    rw [if_neg (by omega), if_neg (by omega)]
    have hw : (0 : Int) ≤ s.width := by omega
    by_cases hlow : row ≤ -2
    · have hmul := Int.mul_le_mul_of_nonneg_right hlow hw
      omega
    · have hmul := Int.mul_le_mul_of_nonneg_right (show (s.height : Int) ≤ row by omega) hw
      rw [Int.mul_comm] at hmul
      omega
  obtain ⟨n, hn⟩ : ∃ n, (min last (s.width - 1) + 1 - max first 0).toNat = n + 1 :=
    ⟨(min last (s.width - 1) - max first 0).toNat, by omega⟩
  have hfirst : resetCell row (max first 0 + (0 : Nat)) s = .error .noCell s := by
    unfold resetCell
    rw [get_bind]
    exact bind_of_error (indexOf_of_not_hasCell hs.isGrid hcell)
  show (List.range (min last (s.width - 1) + 1 - max first 0).toNat).forM
    (fun i => resetCell row (max first 0 + i)) s = _
  rw [hn, List.range_succ_eq_map]
  exact bind_of_error hfirst

/-- An empty range of columns names no cell, so the row does not matter. -/
private theorem resetCells_of_no_columns (row : Int) {first last : Int}
    (hcols : min last (s.width - 1) < max first 0) : resetCells row first last s = .ok () s := by
  have hn : (min last (s.width - 1) + 1 - max first 0).toNat = 0 := by omega
  show (List.range (min last (s.width - 1) + 1 - max first 0).toNat).forM
    (fun i => resetCell row (max first 0 + i)) s = _
  rw [hn]
  rfl

private theorem resetCells_endsAs (hs : s.HasRows) (row first last : Int) :
    EndsAs (resetCells row first last) s (Call.fault? s (.command (.resetCells row first last))) := by
  simp only [Call.fault?]
  by_cases hrow : -1 ≤ row ∧ row ≤ s.height - 1
  · rw [if_pos (.inl hrow)]
    exact (resetCells_redraws hs hrow first last).mono fun _ _ ht => hs.redraws ht
  · by_cases hcols : min last (s.width - 1) < max first 0
    · rw [if_pos (.inr hcols)]
      exact ⟨(), s, resetCells_of_no_columns row hcols, hs⟩
    · rw [if_neg fun h => h.elim hrow hcols]
      exact resetCells_of_outside hs hrow (by omega)

/-- All columns of a row are a range that is not empty. -/
private theorem resetRow_endsAs (hs : s.HasRows) (row : Int) :
    EndsAs (resetRow row) s (Call.fault? s (.command (.resetRow row))) := by
  have hcells := resetCells_endsAs hs row 0 (s.width - 1)
  have hrow : Call.fault? s (.command (.resetCells row 0 (s.width - 1))) =
      Call.fault? s (.command (.resetRow row)) := by
    have hw := hs.width_pos
    have hcols : ¬ min ((s.width : Int) - 1) (s.width - 1) < max 0 0 := by omega
    simp only [Call.fault?, hcols, or_false]
  rw [hrow] at hcells
  exact hcells

/-! ### Texts -/

private theorem getCell_of_lt (hs : s.IsGrid) {y x : Nat} (hy : y < s.height) (hx : x < s.width) :
    getCell y x s = .ok (s.cellAt y x) s := by
  have hi : y * s.width + x < s.cells.size := hs ▸ index_lt hy hx
  have hindex : indexOf y x s = .ok (y * s.width + x) s := by
    unfold indexOf
    rw [index?_of_lt hs hy hx]
  have hcell : s.cells.getD (y * s.width + x) default = s.cellAt y x := by
    simp only [cellAt, Array.getD_eq_getD_getElem?, Array.getElem?_eq_getElem hi, Option.getD_some]
  unfold getCell
  rw [bind_of_ok hindex, ← hcell]
  rfl

/-- Looking up every cell of the grid gives its text. -/
theorem readLayout_eq (hs : s.IsGrid) (write : Cell → Bytes) :
    readLayout write s = .ok (layout s.cells s.width s.height write) s := by
  have hrow : ∀ y ∈ List.range s.height,
      (do let cells ← (List.range s.width).mapM fun (x : Nat) => getCell y x
          return cells.flatMap write : ScreenM Bytes) s =
        .ok ((List.range s.width).flatMap fun x => write (s.cellAt y x)) s := by
    intro y hy
    have hcells : (List.range s.width).mapM (fun (x : Nat) => getCell y x) s =
        .ok ((List.range s.width).map (s.cellAt y)) s :=
      mapM_of_ok fun x hx => getCell_of_lt hs (List.mem_range.1 hy) (List.mem_range.1 hx)
    rw [bind_of_ok hcells]
    show EStateM.Result.ok (((List.range s.width).map (s.cellAt y)).flatMap write) s = _
    rw [List.flatMap_map]
  unfold readLayout
  rw [get_bind, bind_of_ok (mapM_of_ok hrow)]
  rfl

/-! ### Commands that end well -/

private theorem lineFeed_hasRows (hs : s.HasRows) :
    Succeeds lineFeed s fun _ t => t.HasRows ∧ t.cursor.col < t.width := by
  have hw := hs.width_pos
  by_cases hr : s.cursor.row + 1 < s.height
  · have hmoved : HasRows { s with cursor := ⟨0, s.cursor.row + 1⟩ } := hs.with_cursor hr
    exact ⟨(), _, lineFeed_of_lt hr, hmoved, hw⟩
  · have hfirst : HasRows { s with cursor := ⟨0, s.cursor.row⟩ } := hs.with_cursor hs.row_lt
    refine Succeeds.of_eq ((scrollUp_redraws hfirst 1).mono ?_) (lineFeed_of_ge (by omega))
    intro _ t ht
    refine ⟨hfirst.redraws ht, ?_⟩
    rw [ht.cursor_eq, ht.width_eq]
    exact hw

private theorem print_hasRows (hs : s.HasRows) (code : Int) : Succeeds (print code) s fun _ t => t.HasRows := by
  have drawn {t : Screen} (ht : t.HasRows) (c : Cell) : (t.put t.cursor.row t.cursor.col c).advance.HasRows := by
    have hput : (t.put t.cursor.row t.cursor.col c).HasRows := ht.with_cells Array.size_setIfInBounds
    exact hput.with_cursor ht.row_lt
  by_cases hc : s.cursor.col < s.width
  · exact ⟨(), _, print_of_lt hs.isGrid hs.row_lt hc code, drawn hs _⟩
  · -- However far past the last column the cursor stands, the line feed leads back to the first one.
    obtain ⟨_, t, hfeed, ht, hcol⟩ := lineFeed_hasRows hs
    exact ⟨(), _, print_of_ge (by omega) hfeed ht.isGrid ht.row_lt hcol code, drawn ht _⟩

private theorem reverseIndex_hasRows (hs : s.HasRows) : Succeeds reverseIndex s fun _ t => t.HasRows := by
  unfold reverseIndex
  refine .get_bind ?_
  split
  · exact (scrollDown_redraws hs 1).mono fun _ _ ht => hs.redraws ht
  · exact ⟨(), _, rfl, hs.moveToRow _⟩

private theorem clear_hasRows (hs : s.HasRows) : Succeeds clear s fun _ t => t.HasRows := by
  have hblank : HasRows { s with cells := Array.replicate s.cells.size (.blank s.pen) } :=
    hs.with_cells Array.size_replicate
  exact .modify (hblank.setCursor 0 0)

private theorem showAlternate_hasRows (hs : s.HasRows) : Succeeds showAlternate s fun _ t => t.HasRows := by
  unfold showAlternate
  refine .get_bind ?_
  split
  · exact .pure hs
  · have hfront : HasRows { s with behind := some ⟨s.cells, s.cursor⟩ } := by
      refine ⟨hs.width_pos, hs.isGrid, hs.row_lt, hs.top_lt, hs.bottom_lt, ?_⟩
      rintro main ⟨⟩
      exact hs.isGrid
    exact (clear_hasRows hfront).of_eq rfl

private theorem showMain_hasRows (hs : s.HasRows) : Succeeds showMain s fun _ t => t.HasRows := by
  refine .modify ?_
  cases hb : s.behind with
  | none => exact hs
  | some main =>
    have hmain : HasRows { s with cells := main.cells, behind := none } :=
      ⟨hs.width_pos, hs.behind main hb, hs.row_lt, hs.top_lt, hs.bottom_lt, nofun⟩
    exact hmain.setCursor main.cursor.col main.cursor.row

/-! ### All calls -/

private theorem resizeExactly_endsAs (s : Screen) (width height : Int) :
    EndsAs (resizeExactly width height) s (Call.fault? s (.command (.resize width height))) := by
  simp only [Call.fault?]
  unfold resizeExactly
  by_cases hgood : 0 < width ∧ 0 < height
  · rw [if_pos hgood, if_neg (show ¬ (width ≤ 0 ∨ height ≤ 0) by omega)]
    exact ⟨(), _, rfl, (fits_resized s (by omega) (by omega)).hasRows⟩
  · rw [if_neg hgood, if_pos (show width ≤ 0 ∨ height ≤ 0 by omega)]
    rfl

private theorem Command.runExactly_endsAs (hs : s.HasRows) (c : Command) :
    EndsAs (Call.runExactly (.command c)) s (Call.fault? s (.command c)) := by
  -- Only the edits that take a row or a size from the caller have an ending of their own.
  have redraws {edit : ScreenM Unit} (h : Succeeds edit s fun _ => Redraws s) :
      Succeeds edit s fun _ t => t.HasRows := h.mono fun _ _ ht => hs.redraws ht
  have framed (p : Pen) (visible : Bool) (q : Position) :
      HasRows { s with pen := p, visible := visible, saved := q } :=
    hs.with_frame hs.row_lt hs.top_lt hs.bottom_lt q p visible
  cases c with
  | print code => exact print_hasRows hs code
  | lineFeed => exact (lineFeed_hasRows hs).mono fun _ _ ht => ht.1
  | reverseIndex => exact reverseIndex_hasRows hs
  | tab => exact .modify (hs.moveToCol _)
  | scrollUp n => exact redraws (scrollUp_redraws hs n)
  | scrollDown n => exact redraws (scrollDown_redraws hs n)
  | insertLine n => exact redraws (insertLine_redraws hs n)
  | deleteLine n => exact redraws (deleteLine_redraws hs n)
  | deleteCell n => exact redraws (deleteCell_redraws hs n)
  | resetRow row => exact resetRow_endsAs hs row
  | resetCells row first last => exact resetCells_endsAs hs row first last
  | clear => exact clear_hasRows hs
  | showAlternate => exact showAlternate_hasRows hs
  | showMain => exact showMain_hasRows hs
  | reset => exact .modify (fits_empty hs.width_pos hs.height_pos).hasRows
  | resize width height => exact resizeExactly_endsAs s width height
  | moveToRow row => exact .modify (hs.moveToRow row)
  | moveByRows n => exact .modify (hs.moveToRow _)
  | moveToCol col => exact .modify (hs.moveToCol col)
  | moveByCols n => exact .modify (hs.moveToCol _)
  | advance => exact .modify (hs.with_cursor hs.row_lt)
  | setCursor col row => exact .modify (hs.setCursor col row)
  | setMargins top bottom => exact .modify (hs.setMargins top bottom)
  | applyRendition n => exact .modify (framed _ _ _)
  | setForeground c => exact .modify (framed _ _ _)
  | setBackground c => exact .modify (framed _ _ _)
  | saveCursor => exact .modify (framed _ _ _)
  | restoreCursor => exact .modify (hs.setCursor _ _)
  | setVisible on => exact .modify (framed _ _ _)

theorem Call.runExactly_endsAs (hs : s.HasRows) (c : Call) : EndsAs c.runExactly s (c.fault? s) := by
  cases c with
  | command c => exact Command.runExactly_endsAs hs c
  | getCell row col =>
    simp only [Call.fault?]
    by_cases h : s.HasCell row col
    · rw [if_pos h]
      have hget : Screen.getCell row col s = .ok (s.cells.getD (s.flatIndex row col).toNat default) s := by
        unfold Screen.getCell
        rw [bind_of_ok (indexOf_of_hasCell hs.isGrid h)]
        rfl
      exact ⟨(), s, bind_of_ok hget, hs⟩
    · rw [if_neg h]
      have hget : Screen.getCell row col s = .error .noCell s :=
        bind_of_error (indexOf_of_not_hasCell hs.isGrid h)
      exact bind_of_error hget
  | setCell row col cell =>
    simp only [Call.fault?]
    by_cases h : s.HasCell row col
    · rw [if_pos h]
      have hset := @HasRows.with_cells s hs (s.cells.setIfInBounds (s.flatIndex row col).toNat cell)
        Array.size_setIfInBounds
      exact ⟨(), _, bind_of_ok (indexOf_of_hasCell hs.isGrid h), hset⟩
    · rw [if_neg h]
      exact bind_of_error (indexOf_of_not_hasCell hs.isGrid h)
  | text | markedText => exact ⟨(), s, bind_of_ok (readLayout_eq hs.isGrid _), hs⟩

/-! ### Cells and characters that have to be counted -/

/-- A call that has to count does what it does exactly, or it fails at once. -/
theorem Call.run_eq (s : Screen) (c : Call) :
    c.run s = (c.overflow? s).elim (c.runExactly s) fun fault => .error fault s := by
  cases c with
  | text =>
    simp only [Call.overflow?]
    by_cases hroom : (s.width + 1) * s.height ≤ 2147483647
    · rw [if_pos hroom]
      exact bind_of_ok (bind_of_ok (readText_of_hasTextRoom hroom))
    · rw [if_neg hroom]
      exact bind_of_error (bind_of_error (readText_of_not_hasTextRoom hroom))
  | command c =>
    cases c with
    | resize width height =>
      simp only [Call.overflow?]
      by_cases hroom : width.toNat * height.toNat ≤ 2147483647
      · rw [if_pos hroom]
        show Screen.resize width height s = resizeExactly width height s
        unfold Screen.resize resizeExactly sizeFault?
        by_cases hbad : width ≤ 0 ∨ height ≤ 0
        · rw [if_pos hbad, if_pos hbad]
          rfl
        · rw [if_neg hbad, if_neg hbad, if_pos (show HasCellRoom width.toNat height.toNat from hroom)]
      · rw [if_neg hroom]
        have hw : 0 < width.toNat := Nat.pos_of_ne_zero fun h => hroom (by simp [h])
        have hh : 0 < height.toNat := Nat.pos_of_ne_zero fun h => hroom (by simp [h])
        exact resize_of_fault (sizeFault?_of_not_hasCellRoom (by omega) (by omega) hroom) s
    | _ => rfl
  | _ => rfl

theorem Call.run_endsAs (hs : s.HasRows) (c : Call) : EndsAs c.run s ((c.overflow? s).or (c.fault? s)) := by
  have hrun := c.run_eq s
  cases ho : c.overflow? s with
  | none =>
    rw [ho] at hrun
    exact (Call.runExactly_endsAs hs c).of_eq hrun
  | some fault =>
    rw [ho] at hrun
    exact hrun

/-! ### Calls after calls -/

theorem HasRows.calledBy {run : Call → ScreenM Unit} (hrun : ∀ c s, s.HasRows → (left (run c) s).HasRows)
    (hs : s.HasRows) (calls : List Call) : (s.calledBy run calls).HasRows := by
  induction calls generalizing s with
  | nil => exact hs
  | cons c rest ih => exact ih (hrun c s hs)

/-- Whatever calls were made of a new screen, with any numbers and some of them perhaps in vain, the next one fails
only as it is to: where a cell is looked up that has no index, where the cells of no row are to become blank, and where
a size is not positive.  Then the screen is as it was before.  So it is where all numbers are as large as they need to
be.  Where cells and characters have to be counted, a call does the same as long as they can be; where they cannot, it
fails, too, and the screen is as it was before. -/
theorem calls_fail_as_announced {width height : Nat} (hw : 0 < width) (hh : 0 < height) (calls : List Call) (c : Call) :
    (∀ s, (empty width height).calledExactly calls = s → FailsAs c.runExactly s (c.fault? s)) ∧
    (∀ s, (empty width height).called calls = s → FailsAs c.run s ((c.overflow? s).or (c.fault? s))) ∧
    ∀ s, c.run s = (c.overflow? s).elim (c.runExactly s) fun fault => .error fault s := by
  have hempty : (empty width height).HasRows := (fits_empty hw hh).hasRows
  refine ⟨?_, ?_, fun s => c.run_eq s⟩
  · rintro s rfl
    have hs := hempty.calledBy (fun c s hs => (Call.runExactly_endsAs hs c).hasRows hs) calls
    exact (Call.runExactly_endsAs hs c).failsAs
  · rintro s rfl
    have hs := hempty.calledBy (fun c s hs => (Call.run_endsAs hs c).hasRows hs) calls
    exact (Call.run_endsAs hs c).failsAs

/-- The cursor stands past the last column of a screen of one row, at no cell, after a call that has failed.  A
character can be printed nevertheless.  A second row cannot become blank, unless no columns of it are meant.  And a
large size is refused where its cells have to be counted, and only there. -/
theorem calls_fail_past_last_column :
    let calls : List Call := [.command (.print 0x61), .command .advance, .command .advance, .command (.resetRow 1)]
    let t := (empty 2 1).called calls
    t.cursor = ⟨3, 0⟩ ∧ Call.run (.getCell (-1) (-1)) t = .error .noCell t ∧
      (∃ u, Call.run (.command (.print 0x62)) t = .ok () u) ∧
      Call.run (.command (.resetCells 1 0 0)) t = .error .noCell t ∧
      (∃ u, Call.run (.command (.resetCells 1 1 0)) t = .ok () u) ∧
      Call.run (.command (.resize 65535 65535)) t = .error .tooManyCells t ∧
      ∃ u, Call.runExactly (.command (.resize 65535 65535)) ((empty 2 1).calledExactly calls) = .ok () u := by
  intro calls t
  have hcall (c : Call) := calls_fail_as_announced (show 0 < 2 by decide) (show 0 < 1 by decide) calls c
  have hrun (c : Call) : FailsAs c.run t ((c.overflow? t).or (c.fault? t)) := (hcall c).2.1 t rfl
  refine ⟨by decide +kernel, ?_, ?_, ?_, ?_, ?_, ?_⟩
  · have hfault : Call.fault? t (.getCell (-1) (-1)) = some .noCell := by decide +kernel
    have hget := hrun (.getCell (-1) (-1))
    rwa [hfault] at hget
  · exact hrun (.command (.print 0x62))
  · have hfault : Call.fault? t (.command (.resetCells 1 0 0)) = some .noCell := by decide +kernel
    have hreset := hrun (.command (.resetCells 1 0 0))
    rwa [hfault] at hreset
  · have hfault : Call.fault? t (.command (.resetCells 1 1 0)) = none := by decide +kernel
    have hreset := hrun (.command (.resetCells 1 1 0))
    rwa [hfault] at hreset
  · exact hrun (.command (.resize 65535 65535))
  · exact (hcall (.command (.resize 65535 65535))).1 _ rfl

end ScreenWatch.Screen
