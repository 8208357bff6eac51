import ScreenWatch.Bounded.Arithmetic
import ScreenWatch.Proofs.Screen.Commands

/-!
# Values in small sizes

In a size whose rows, columns and cells can be counted (`IsSmall`), a command that names rows of the screen and small
numbers evaluates only ints (`areInts_ofCommand`): on a screen that fits together no value gets larger than the number
of cells, or than a row or column and the number that it is moved by.
-/

namespace ScreenWatch.Bounded

open Screen (Command)

/-- Rows, columns and cells can be counted. -/
structure IsSmall (width height : Nat) : Prop where
  width_le : width ≤ 65535
  height_le : height ≤ 65535
  cells_le : width * height ≤ 2147483647

/-- All numbers that the command is given are small. -/
def IsModest (c : Command) : Prop := ∀ n ∈ numbers c, -65536 ≤ n ∧ n ≤ 65536

def AreInts (values : List Int) : Prop := ∀ n ∈ values, IsInt n

/-! ### Ints -/

theorem isInt_natCast {n : Nat} (h : n ≤ 2147483647) : IsInt n := by
  unfold IsInt
  omega

theorem not_isInt_natCast {n : Nat} (h : 2147483647 < n) : ¬ IsInt n := by
  unfold IsInt
  omega

/-- A row or column, or how many of them there are, moved by a small number. -/
theorem isInt_of_modest {n : Int} (h : -131072 ≤ n) (h' : n ≤ 131072) : IsInt n := by
  unfold IsInt
  omega

theorem IsModest.areInts {c : Command} (h : IsModest c) : AreInts (numbers c) :=
  fun n hn => isInt_of_modest (by have := h n hn; omega) (by have := h n hn; omega)

namespace AreInts

variable {n first last : Int} {values more : List Int} {body : Int → List Int}

theorem nil : AreInts [] := nofun

theorem cons (h : IsInt n) (h' : AreInts values) : AreInts (n :: values) := by
  intro m hm
  rcases List.mem_cons.1 hm with rfl | hm
  · exact h
  · exact h' m hm

theorem singleton (h : IsInt n) : AreInts [n] := .cons h .nil

theorem append (h : AreInts values) (h' : AreInts more) : AreInts (values ++ more) := by
  intro m hm
  rcases List.mem_append.1 hm with hm | hm
  · exact h m hm
  · exact h' m hm

theorem ite {p : Prop} [Decidable p] (h : p → AreInts values) (h' : ¬ p → AreInts more) :
    AreInts (if p then values else more) := by
  split
  · exact h ‹_›
  · exact h' ‹_›

theorem countUp (h : ∀ n, first ≤ n → n < last → AreInts (body n) ∧ IsInt (n + 1)) :
    AreInts (Values.countUp first last body) := by
  intro m hm
  obtain ⟨i, hi, hm⟩ := List.mem_flatMap.1 hm
  have hi := List.mem_range.1 hi
  obtain ⟨hbody, hnext⟩ := h (first + i) (by omega) (by omega)
  exact hbody.append (.singleton hnext) m hm

theorem countDown (h : ∀ n, last < n → n ≤ first → AreInts (body n) ∧ IsInt (n - 1)) :
    AreInts (Values.countDown first last body) := by
  intro m hm
  obtain ⟨i, hi, hm⟩ := List.mem_flatMap.1 hm
  have hi := List.mem_range.1 hi
  obtain ⟨hbody, hnext⟩ := h (first - i) (by omega) (by omega)
  exact hbody.append (.singleton hnext) m hm

end AreInts

namespace IsSmall

variable {width height : Nat} {row col n : Int} (h : IsSmall width height)

include h

theorem isInt_cells : IsInt (width * height) := by exact_mod_cast isInt_natCast h.cells_le

theorem isInt_row (hr : 0 ≤ row) (hr' : row ≤ height) : IsInt (row * width) := by
  obtain ⟨y, rfl⟩ := Int.eq_ofNat_of_zero_le hr
  have hle : y * width ≤ width * height := by
    rw [Nat.mul_comm]
    exact Nat.mul_le_mul_left _ (by omega)
  exact_mod_cast isInt_natCast (Nat.le_trans hle h.cells_le)

theorem isInt_cell (hr : 0 ≤ row) (hr' : row < height) (hc : 0 ≤ col) (hc' : col ≤ width) :
    IsInt (row * width + col) := by
  obtain ⟨y, rfl⟩ := Int.eq_ofNat_of_zero_le hr
  obtain ⟨x, rfl⟩ := Int.eq_ofNat_of_zero_le hc
  have hle : (y + 1) * width ≤ width * height := by
    rw [Nat.mul_comm]
    exact Nat.mul_le_mul_left _ (by omega)
  rw [Nat.add_mul, Nat.one_mul] at hle
  have hcells := h.cells_le
  exact_mod_cast isInt_natCast (n := y * width + x) (by omega)

/-- A row or column, or the number of them, or one more or less. -/
theorem isInt_of_le (hn : -1 ≤ n) (hle : n ≤ max width height + 1) : IsInt n := by
  have hw := h.width_le
  have hh := h.height_le
  exact isInt_of_modest (by omega) (by omega)

theorem isInt_lastCol : IsInt (width - 1) := h.isInt_of_le (by omega) (by omega)

theorem isInt_lastRow : IsInt (height - 1) := h.isInt_of_le (by omega) (by omega)

omit h in
theorem continues {s t : Screen} {ok : Int → Prop} (h : IsSmall s.width s.height) (ht : Screen.Continues ok s t) :
    IsSmall t.width t.height := by
  rw [ht.width_eq, ht.height_eq]
  exact h

end IsSmall

namespace Values

variable {s : Screen}

/-! ### The cursor and the margins -/

theorem areInts_stop {size : Nat} (h : size ≤ 65535) (n : Int) : AreInts (stop n size) :=
  .ite (fun _ => .singleton (isInt_of_modest (by omega) (by omega))) fun _ => .nil

theorem areInts_rendition (n : Int) : AreInts (rendition n) := by
  refine .ite (fun hn => ?_) fun _ => .ite (fun hn => ?_) fun _ => .nil
  · exact .singleton (isInt_of_modest (by omega) (by omega))
  · exact .singleton (isInt_of_modest (by omega) (by omega))

section Small

variable (hsmall : IsSmall s.width s.height)

include hsmall

theorem areInts_moveToRow (row : Int) : AreInts (moveToRow s row) := areInts_stop hsmall.height_le row

theorem areInts_moveToCol (col : Int) : AreInts (moveToCol s col) := areInts_stop hsmall.width_le col

theorem areInts_lastRow : AreInts (lastRow s) := .singleton hsmall.isInt_lastRow

/-! ### Cells -/

variable {row col top bottom : Int}

theorem areInts_cell (hr : 0 ≤ row) (hr' : row < s.height) (hc : 0 ≤ col) (hc' : col ≤ s.width) :
    AreInts (cell s row col) := by
  unfold cell
  dsimp only
  rw [if_neg (by omega), if_neg (by omega)]
  exact .cons (hsmall.isInt_row hr (by omega)) (.singleton (hsmall.isInt_cell hr hr' hc hc'))

theorem areInts_copyRow {dst src : Int} (hd : 0 ≤ dst) (hd' : dst < s.height) (hr : 0 ≤ src) (hr' : src < s.height) :
    AreInts (copyRow s dst src) := by
  have hnext : IsInt (src + 1) := hsmall.isInt_of_le (by omega) (by omega)
  exact .cons (hsmall.isInt_row hr (by omega)) (.cons hnext (.cons (hsmall.isInt_row (by omega) (by omega))
    (.singleton (hsmall.isInt_row hd (by omega)))))

theorem areInts_resetCells (hr : 0 ≤ row) (hr' : row < s.height) (first last : Int) :
    AreInts (resetCells s row first last) := by
  refine .append (.singleton hsmall.isInt_lastCol) (.countUp fun col hfirst hlast => ?_)
  exact ⟨areInts_cell hsmall hr hr' (by omega) (by omega), hsmall.isInt_of_le (by omega) (by omega)⟩

theorem areInts_resetRow (hr : 0 ≤ row) (hr' : row < s.height) : AreInts (resetRow s row) :=
  .append (.singleton hsmall.isInt_lastCol) (areInts_resetCells hsmall hr hr' _ _)

/-! ### Scrolling and editing -/

theorem areInts_shiftUp (ht : 0 ≤ top) (hb : 0 ≤ bottom) (hb' : bottom < s.height) :
    AreInts (shiftUp s top bottom) := by
  refine .append (.countUp fun y hy hy' => ?_) (areInts_resetRow hsmall hb hb')
  have hnext : IsInt (y + 1) := hsmall.isInt_of_le (by omega) (by omega)
  exact ⟨.append (.singleton hnext) (areInts_copyRow hsmall (by omega) (by omega) (by omega) (by omega)), hnext⟩

theorem areInts_shiftDown (ht : 0 ≤ top) (ht' : top < s.height) (hb' : bottom < s.height) :
    AreInts (shiftDown s top bottom) := by
  refine .append (.countDown fun y hy hy' => ?_) (areInts_resetRow hsmall ht ht')
  have hprevious : IsInt (y - 1) := hsmall.isInt_of_le (by omega) (by omega)
  exact ⟨.append (.singleton hprevious) (areInts_copyRow hsmall (by omega) (by omega) (by omega) (by omega)), hprevious⟩

theorem areInts_shiftLeft (hw : 0 < s.width) (hr : 0 ≤ row) (hr' : row < s.height) (hc : 0 ≤ col) :
    AreInts (shiftLeft s row col) := by
  refine .append (.append (.singleton hsmall.isInt_lastCol) (.countUp fun x hx hx' => ?_))
    (areInts_cell hsmall hr hr' (by omega) (by omega))
  have hnext : IsInt (x + 1) := hsmall.isInt_of_le (by omega) (by omega)
  exact ⟨.append (.append (.singleton hnext) (areInts_cell hsmall hr hr' (by omega) (by omega)))
    (areInts_cell hsmall hr hr' (by omega) (by omega)), hnext⟩

omit hsmall in
/-- A count is cut to what can move. -/
theorem areInts_repeated {span : Int} (hspan : span ≤ 65536) {step : List Int} (h : AreInts step) (count : Int) :
    AreInts (repeated count span step) := by
  have hsteps : Screen.stepsOf count span ≤ 65536 := by
    unfold Screen.stepsOf
    split <;> omega
  exact .countUp fun n hn hn' => ⟨h, isInt_of_modest (by omega) (by omega)⟩

theorem areInts_rows (ht : 0 ≤ top) (ht' : top < s.height) (hb : 0 ≤ bottom) (hb' : bottom < s.height) :
    AreInts (rows top bottom) := by
  have hh := hsmall.height_le
  exact .cons (isInt_of_modest (by omega) (by omega)) (.singleton (isInt_of_modest (by omega) (by omega)))

/-- A loop over steps that move rows up. -/
private theorem areInts_up (ht : 0 ≤ top) (ht' : top < s.height) (hb : 0 ≤ bottom) (hb' : bottom < s.height)
    (count : Int) : AreInts (rows top bottom ++ repeated count (bottom - top + 1) (shiftUp s top bottom)) := by
  have hh := hsmall.height_le
  exact .append (areInts_rows hsmall ht ht' hb hb')
    (areInts_repeated (by omega) (areInts_shiftUp hsmall ht hb hb') count)

private theorem areInts_down (ht : 0 ≤ top) (ht' : top < s.height) (hb : 0 ≤ bottom) (hb' : bottom < s.height)
    (count : Int) : AreInts (rows top bottom ++ repeated count (bottom - top + 1) (shiftDown s top bottom)) := by
  have hh := hsmall.height_le
  exact .append (areInts_rows hsmall ht ht' hb hb')
    (areInts_repeated (by omega) (areInts_shiftDown hsmall ht ht' hb') count)

end Small

section Fits

variable (hs : s.Fits) (hsmall : IsSmall s.width s.height)

include hs hsmall

theorem areInts_moveByRows {n : Int} (hn : -65536 ≤ n ∧ n ≤ 65536) : AreInts (moveByRows s n) := by
  have hrow := hs.cursor.2
  have hh := hsmall.height_le
  exact .append (.singleton (isInt_of_modest (by omega) (by omega))) (areInts_moveToRow hsmall _)

theorem areInts_moveByCols {n : Int} (hn : -65536 ≤ n ∧ n ≤ 65536) : AreInts (moveByCols s n) := by
  have hcol := hs.cursor.1
  have hw := hsmall.width_le
  exact .append (.singleton (isInt_of_modest (by omega) (by omega))) (areInts_moveToCol hsmall _)

theorem areInts_advance : AreInts (advance s) := by
  have hcol := hs.cursor.1
  have hw := hsmall.width_le
  exact .singleton (isInt_of_modest (by omega) (by omega))

theorem areInts_tab : AreInts (tab s) := by
  have hcol := hs.cursor.1
  have hw := hsmall.width_le
  exact .append (.cons (isInt_of_modest (by omega) (by omega)) (.singleton (isInt_of_modest (by omega) (by omega))))
    (areInts_moveToCol hsmall _)

theorem areInts_scrollUp (count : Int) : AreInts (scrollUp s count) := by
  have ht := hs.top_lt
  have hb := hs.bottom_lt
  exact areInts_up hsmall (by omega) (by omega) (by omega) (by omega) count

theorem areInts_scrollDown (count : Int) : AreInts (scrollDown s count) := by
  have ht := hs.top_lt
  have hb := hs.bottom_lt
  exact areInts_down hsmall (by omega) (by omega) (by omega) (by omega) count

theorem areInts_insertLine (count : Int) : AreInts (insertLine s count) := by
  have hrow := hs.cursor.2
  have hb := hs.bottom_lt
  exact areInts_down hsmall (by omega) (by omega) (by omega) (by omega) count

theorem areInts_deleteLine (count : Int) : AreInts (deleteLine s count) := by
  have hrow := hs.cursor.2
  have hb := hs.bottom_lt
  exact areInts_up hsmall (by omega) (by omega) (by omega) (by omega) count

theorem areInts_deleteCell (count : Int) : AreInts (deleteCell s count) := by
  have hrow := hs.cursor.2
  have hcol := hs.cursor.1
  have hw := hsmall.width_le
  have hstep : AreInts (shiftLeft s s.cursor.row s.cursor.col) :=
    areInts_shiftLeft hsmall hs.width_pos (by omega) (by omega) (by omega)
  exact .append (.singleton (isInt_of_modest (by omega) (by omega))) (areInts_repeated (by omega) hstep count)

theorem areInts_lineFeed : AreInts (lineFeed s) := by
  refine .append (.append (areInts_moveToCol hsmall 0) (areInts_lastRow hsmall)) ?_
  exact .ite (fun _ => areInts_scrollUp hs hsmall 1) fun _ => areInts_moveByRows hs hsmall (by decide)

theorem areInts_reverseIndex : AreInts (reverseIndex s) :=
  .ite (fun _ => areInts_scrollDown hs hsmall 1) fun _ => areInts_moveByRows hs hsmall (by decide)

theorem areInts_draw : AreInts (draw s) := by
  have hrow := hs.cursor.2
  have hcol := hs.cursor.1
  have hcursor : cell s (-1) (-1) = cell s s.cursor.row s.cursor.col := by
    unfold cell
    dsimp only
    rw [if_pos rfl, if_pos rfl, if_neg (by omega), if_neg (by omega)]
  refine .append ?_ (areInts_advance hs hsmall)
  rw [hcursor]
  exact areInts_cell hsmall (by omega) (by omega) (by omega) (by omega)

end Fits

/-- After a line feed the character goes to a cell of the same grid. -/
theorem areInts_print {ok : Int → Prop} (hsp : ok 0x20) (hs : s.Fits) (hsmall : IsSmall s.width s.height) :
    AreInts (print s) := by
  obtain ⟨_, t, hfeed, hcont, -⟩ := hs.lineFeed_spec hsp
  refine .ite (fun _ => .append (areInts_lineFeed hs hsmall) ?_) fun _ => areInts_draw hs hsmall
  rw [hfeed]
  exact areInts_draw hcont.fits (hsmall.continues hcont)

/-! ### Grids -/

section Grids

variable {width height : Nat}

theorem areInts_empty (hsmall : IsSmall width height) : AreInts (empty width height) :=
  .cons hsmall.isInt_lastRow (.singleton hsmall.isInt_cells)

theorem areInts_refit {oldWidth oldHeight : Nat} (hold : IsSmall oldWidth oldHeight) (hsmall : IsSmall width height) :
    AreInts (refit oldWidth oldHeight width height) := by
  refine .append (.singleton hsmall.isInt_cells) (.countUp fun y hy hy' => ⟨?_, ?_⟩)
  · exact .cons (hold.isInt_row hy (by omega)) (.cons (hold.isInt_cell hy (by omega) (by omega) (by omega))
      (.singleton (hsmall.isInt_row hy (by omega))))
  · exact hsmall.isInt_of_le (by omega) (by omega)

theorem areInts_resize (hold : IsSmall s.width s.height) (hsmall : IsSmall width height) :
    AreInts (resize s width height) := by
  have hrefit := areInts_refit hold hsmall
  have hcorner : AreInts [(width : Int) - 1, (height : Int) - 1] :=
    .cons hsmall.isInt_lastCol (.singleton hsmall.isInt_lastRow)
  refine .ite (fun _ => .nil) fun _ => .append (.append hrefit ?_) hcorner
  exact .ite (fun _ => .append hrefit hcorner) fun _ => .nil

end Grids

theorem areInts_text (hsmall : IsSmall s.width s.height) (h : Screen.HasTextRoom s.width s.height) :
    AreInts (text s) := by
  have hrow : IsInt ((s.width : Int) + 1) := hsmall.isInt_of_le (by omega) (by omega)
  have hall : IsInt (((s.width : Int) + 1) * s.height) := by exact_mod_cast isInt_natCast h
  refine .append (.cons hrow (.singleton hall)) (.countUp fun y hy hy' => ⟨.countUp fun x hx hx' => ⟨?_, ?_⟩, ?_⟩)
  · exact areInts_cell hsmall hy hy' hx (by omega)
  · exact hsmall.isInt_of_le (by omega) (by omega)
  · exact hsmall.isInt_of_le (by omega) (by omega)

/-! ### Commands -/

theorem areInts_ofCommand {ok : Int → Prop} (hsp : ok 0x20) (hs : s.Fits) (hsmall : IsSmall s.width s.height)
    {c : Command} (hc : c.IsSafe ok s.height) (hmodest : IsModest c) : AreInts (ofCommand s c) := by
  have hlast := areInts_lastRow hsmall
  cases c with
  | print code => exact areInts_print hsp hs hsmall
  | lineFeed => exact areInts_lineFeed hs hsmall
  | reverseIndex => exact areInts_reverseIndex hs hsmall
  | tab => exact areInts_tab hs hsmall
  | scrollUp n => exact areInts_scrollUp hs hsmall n
  | scrollDown n => exact areInts_scrollDown hs hsmall n
  | insertLine n => exact areInts_insertLine hs hsmall n
  | deleteLine n => exact areInts_deleteLine hs hsmall n
  | deleteCell n => exact areInts_deleteCell hs hsmall n
  | resetRow row => exact areInts_resetRow hsmall hc.1 hc.2
  | resetCells row first last => exact areInts_resetCells hsmall hc.1 hc.2 first last
  | showAlternate => exact .ite (fun _ => .nil) fun _ => hlast
  | showMain => exact .ite (fun _ => hlast) fun _ => .nil
  | reset => exact areInts_empty hsmall
  | resize width height => exact hc.elim
  | moveToRow row => exact areInts_moveToRow hsmall row
  | moveByRows n => exact areInts_moveByRows hs hsmall (hmodest n (by simp [numbers]))
  | moveToCol col => exact areInts_moveToCol hsmall col
  | moveByCols n => exact areInts_moveByCols hs hsmall (hmodest n (by simp [numbers]))
  | advance => exact areInts_advance hs hsmall
  | clear | setCursor _ _ | setMargins _ _ | restoreCursor => exact hlast
  | applyRendition n => exact areInts_rendition n
  | setForeground _ | setBackground _ | saveCursor | setVisible _ => exact .nil

end Values

end ScreenWatch.Bounded
