import ScreenWatch.Proofs.Screen.Commands

/-!
# Many sizes, one after another

A new size keeps the upper left corner that fits (`LaysOut.refit`), so what many of them keep is what fits into the
least width and the least height among them: cells beyond these were lost on the way, even if the screen has grown
again.  The same goes for the screen behind and for all positions (`Refits`, `Fits.resizes_in_closed_form`).
-/

namespace ScreenWatch

theorem Position.within_within (p : Position) (w h w' h' : Nat) :
    (p.within w h).within w' h' = p.within (min w w') (min h h') := by
  simp only [Position.within, Position.mk.injEq]
  omega

namespace Screen

variable {s t : Screen} {cells : Array Cell} {width height : Nat} {g : Nat → Nat → Cell}

/-! ### Grids in arrays -/

/-- The array holds, row by row, the cells `g y x` of a grid. -/
structure LaysOut (cells : Array Cell) (width height : Nat) (g : Nat → Nat → Cell) : Prop where
  size_eq : cells.size = width * height
  getD_eq : ∀ y < height, ∀ x < width, cells.getD (y * width + x) (.blank .plain) = g y x

/-- The part of a grid in its upper left corner, with a filling around it. -/
def cropped (g : Nat → Nat → Cell) (width height : Nat) (fill : Cell) (y x : Nat) : Cell :=
  if y < height ∧ x < width then g y x else fill

namespace LaysOut

theorem congr {g' : Nat → Nat → Cell} (h : LaysOut cells width height g)
    (hg : ∀ y < height, ∀ x < width, g y x = g' y x) : LaysOut cells width height g' := by
  refine ⟨h.size_eq, ?_⟩
  intro y hy x hx
  rw [h.getD_eq y hy x hx, hg y hy x hx]

theorem replicate (width height : Nat) (fill : Cell) :
    LaysOut (Array.replicate (width * height) fill) width height fun _ _ => fill := by
  refine ⟨Array.size_replicate, ?_⟩
  intro y hy x hx
  have hi : y * width + x < width * height := index_lt hy hx
  simp [Array.getD_eq_getD_getElem?, hi]

theorem set (h : LaysOut cells width height g) {row col : Nat} (hr : row < height) (hc : col < width) (c : Cell) :
    LaysOut (cells.setIfInBounds (row * width + col) c) width height
      fun y x => if y = row ∧ x = col then c else g y x := by
  refine ⟨by rw [Array.size_setIfInBounds, h.size_eq], ?_⟩
  intro y hy x hx
  have hput := cellAt_put (s := { empty width height with cells := cells }) h.size_eq hr hc c (y := y) hx
  have hcell : cells.getD (y * width + x) (.blank .plain) = g y x := h.getD_eq y hy x hx
  simp only [cellAt, put, empty] at hput
  rw [hput, hcell]

/-- A loop over the columns of a row that sets the first `n` cells. -/
private theorem foldl_cols (h : LaysOut cells width height g) {row : Nat} (hr : row < height) (f : Nat → Cell) {n : Nat}
    (hn : n ≤ width) :
    LaysOut ((List.range n).foldl (fun a x => a.setIfInBounds (row * width + x) (f x)) cells) width height
      fun y x => if y = row ∧ x < n then f x else g y x := by
  induction n with
  | zero => exact h.congr fun y _ x _ => by rw [if_neg (by omega)]
  | succ n ih =>
    rw [List.range_succ, List.foldl_append]
    refine ((ih (by omega)).set hr (show n < width by omega) (f n)).congr ?_
    intro y _ x _
    by_cases hlast : y = row ∧ x = n
    · rw [if_pos hlast, if_pos (by omega), hlast.2]
    · rw [if_neg hlast]
      by_cases hset : y = row ∧ x < n
      · rw [if_pos hset, if_pos (by omega)]
      · rw [if_neg hset, if_neg (by omega)]

/-- A loop over the first `m` rows that sets the first `n` cells of each. -/
private theorem foldl_rows (h : LaysOut cells width height g) (f : Nat → Nat → Cell) {m n : Nat} (hm : m ≤ height)
    (hn : n ≤ width) :
    LaysOut ((List.range m).foldl (fun a y =>
        (List.range n).foldl (fun a x => a.setIfInBounds (y * width + x) (f y x)) a) cells) width height
      fun y x => if y < m ∧ x < n then f y x else g y x := by
  induction m with
  | zero => exact h.congr fun y _ x _ => by rw [if_neg (by omega)]
  | succ m ih =>
    rw [List.range_succ, List.foldl_append]
    refine (foldl_cols (ih (by omega)) (show m < height by omega) (f m) hn).congr ?_
    intro y _ x _
    by_cases hlast : y = m ∧ x < n
    · rw [if_pos hlast, if_pos (by omega), hlast.1]
    · rw [if_neg hlast]
      by_cases hset : y < m ∧ x < n
      · rw [if_pos hset, if_pos (by omega)]
      · rw [if_neg hset, if_neg (by omega)]

/-- In a new size a grid keeps its upper left corner. -/
theorem refit (h : LaysOut cells width height g) (width' height' : Nat) (fill : Cell) :
    LaysOut (refit cells width height width' height' fill) width' height' (cropped g width height fill) := by
  have hfill := LaysOut.replicate width' height' fill
  have hloop := hfill.foldl_rows (fun y x => cells.getD (y * width + x) fill) (Nat.min_le_right height height')
    (Nat.min_le_right width width')
  refine LaysOut.congr hloop ?_
  intro y hy x hx
  by_cases hin : y < height ∧ x < width
  · have hi : y * width + x < cells.size := h.size_eq ▸ index_lt hin.1 hin.2
    have hcell := h.getD_eq y hin.1 x hin.2
    simp only [Array.getD_eq_getD_getElem?, Array.getElem?_eq_getElem hi, Option.getD_some] at hcell ⊢
    rw [if_pos (by omega), cropped, if_pos hin, hcell]
  · rw [if_neg (by omega), cropped, if_neg hin]

end LaysOut

/-! ### New sizes -/

/-- What lies behind a screen, as a grid of its size. -/
def behindAt (s : Screen) (main : Snapshot) (y x : Nat) : Cell := main.cells.getD (y * s.width + x) (.blank .plain)

/-- `t` is `s` after new sizes of which `width` is the least width and `height` the least height. -/
structure Refits (s : Screen) (width height : Nat) (t : Screen) : Prop where
  cells : LaysOut t.cells t.width t.height
    (cropped s.cellAt (min s.width width) (min s.height height) ⟨0x20, s.pen⟩)
  cursor_eq : t.cursor = s.cursor.within width height
  saved_eq : t.saved = s.saved.within width height
  bottom_eq : t.margins.bottom = min s.margins.bottom (height - 1)
  top_eq : t.margins.top = min s.margins.top t.margins.bottom
  pen_eq : t.pen = s.pen
  visible_eq : t.visible = s.visible
  behind_none : s.behind = none → t.behind = none
  behind_some : ∀ main, s.behind = some main → ∃ main', t.behind = some main' ∧
    main'.cursor = main.cursor.within width height ∧
    LaysOut main'.cells t.width t.height
      (cropped (s.behindAt main) (min s.width width) (min s.height height) ⟨0x20, s.pen⟩)

/-- What is cropped to some numbers, and then by a size no less than some of them, is cropped to the least ones. -/
private theorem cropped_cropped {w h a b width' height' : Nat} (hw : a ≤ w) (hh : b ≤ h) (fill : Cell) :
    ∀ y < height', ∀ x < width', cropped (cropped g (min width a) (min height b) fill) w h fill y x =
      cropped g (min width (min a width')) (min height (min b height')) fill y x := by
  intro y hy x hx
  unfold cropped
  by_cases hin : y < min height (min b height') ∧ x < min width (min a width')
  · rw [if_pos (by omega), if_pos (by omega), if_pos hin]
  · rw [if_neg hin]
    split
    · rw [if_neg (by omega)]
    · rfl

/-- One new size. -/
theorem Fits.refits_resized (hs : s.Fits) (width height : Nat) : Refits s width height (s.resized width height) := by
  have crop (g : Nat → Nat → Cell) : ∀ y < height, ∀ x < width, cropped g s.width s.height (.blank s.pen) y x =
      cropped g (min s.width width) (min s.height height) (.blank s.pen) y x := by
    intro y hy x hx
    have hin : y < s.height ∧ x < s.width ↔ y < min s.height height ∧ x < min s.width width := by omega
    simp only [cropped, hin]
  have hcells : LaysOut s.cells s.width s.height s.cellAt := ⟨hs.isGrid, fun _ _ _ _ => rfl⟩
  refine ⟨(hcells.refit width height _).congr (crop _), rfl, rfl, rfl, rfl, rfl, rfl, ?_, ?_⟩
  · intro hb
    simp only [resized, hb, Option.map_none]
  · intro main hb
    have hmain : LaysOut main.cells s.width s.height (s.behindAt main) :=
      ⟨(hs.behind main hb).1, fun _ _ _ _ => rfl⟩
    refine ⟨⟨refit main.cells s.width s.height width height (.blank s.pen), main.cursor.within width height⟩, ?_, rfl,
      (hmain.refit width height _).congr (crop _)⟩
    simp only [resized, hb, Option.map_some]

/-- One more size. -/
theorem Refits.resized {w h : Nat} (ht : Refits s w h t) (hw : w ≤ t.width) (hh : h ≤ t.height) (width height : Nat) :
    Refits s (min w width) (min h height) (t.resized width height) := by
  have crop (g : Nat → Nat → Cell) := @cropped_cropped s.width s.height g _ _ _ _ width height hw hh (.blank s.pen)
  have hfill : Cell.blank t.pen = .blank s.pen := by rw [ht.pen_eq]
  refine ⟨?_, ?_, ?_, ?_, ?_, ht.pen_eq, ht.visible_eq, ?_, ?_⟩
  · have hcells := ht.cells.refit width height (.blank s.pen)
    show LaysOut (refit t.cells t.width t.height width height (.blank t.pen)) width height _
    rw [hfill]
    exact hcells.congr (crop _)
  · show t.cursor.within width height = _
    rw [ht.cursor_eq, Position.within_within]
  · show t.saved.within width height = _
    rw [ht.saved_eq, Position.within_within]
  · have hbottom := ht.bottom_eq
    simp only [Screen.resized]
    omega
  · have htop := ht.top_eq
    simp only [Screen.resized]
    omega
  · intro hb
    simp only [Screen.resized, ht.behind_none hb, Option.map_none]
  · intro main hb
    obtain ⟨main', hb', hcursor, hcells⟩ := ht.behind_some main hb
    refine ⟨⟨refit main'.cells t.width t.height width height (.blank t.pen), main'.cursor.within width height⟩, ?_, ?_,
      ?_⟩
    · simp only [Screen.resized, hb', Option.map_some]
    · show main'.cursor.within width height = _
      rw [hcursor, Position.within_within]
    · rw [hfill]
      exact (hcells.refit width height (.blank s.pen)).congr (crop _)

/-! ### Many sizes -/

def resizeAll (sizes : List (Nat × Nat)) : ScreenM Unit := sizes.forM fun size => resize size.1 size.2

private theorem resize_of_room {size : Nat × Nat} (hpos : 0 < size.1 ∧ 0 < size.2)
    (hroom : size.1 * size.2 ≤ 2147483647) (s : Screen) :
    resize size.1 size.2 s = .ok () (s.resized size.1 size.2) := by
  have hsize : sizeFault? size.1 size.2 = none :=
    sizeFault?_eq_none.2 ⟨Int.toNat_natCast _ ▸ hpos.1, Int.toNat_natCast _ ▸ hpos.2, hroom⟩
  exact resize_of_none hsize s

private theorem Refits.resizeAll {w h : Nat} (ht : Refits s w h t) (hw : w ≤ t.width) (hh : h ≤ t.height)
    {sizes : List (Nat × Nat)} (hpos : ∀ size ∈ sizes, 0 < size.1 ∧ 0 < size.2)
    (hroom : ∀ size ∈ sizes, size.1 * size.2 ≤ 2147483647) :
    Succeeds (resizeAll sizes) t fun _ u =>
      Refits s ((sizes.map (·.1)).foldl min w) ((sizes.map (·.2)).foldl min h) u ∧
        (u.width, u.height) = (sizes.getLast?).getD (t.width, t.height) := by
  induction sizes generalizing w h t with
  | nil => exact .pure ⟨ht, rfl⟩
  | cons size rest ih =>
    have hone := resize_of_room (hpos size List.mem_cons_self) (hroom size List.mem_cons_self) t
    have hmore := ih (ht.resized hw hh size.1 size.2) (Nat.min_le_right _ _) (Nat.min_le_right _ _)
      (fun p hp => hpos p (List.mem_cons_of_mem _ hp)) fun p hp => hroom p (List.mem_cons_of_mem _ hp)
    refine Succeeds.of_eq (hmore.mono ?_) (bind_of_ok hone)
    rintro _ u ⟨hu, hlast⟩
    refine ⟨hu, hlast.trans ?_⟩
    rw [List.getLast?_cons]
    rfl

end Screen

end ScreenWatch
