import Mathlib.Data.List.Induction
import ScreenWatch.Proofs.Repaint.Strokes
import ScreenWatch.Repaint.Frame

/-!
# Painted rows

A row that is painted shows its cells up to the last one that cannot be left to an erasure, and then blanks of one
pen (`paintedCell`, `paintRow_yields`).  What is left to the erasure is blank, except in the bottom right corner
(`drawnLength_le_iff`), so the painted row shows the right code points everywhere else.  All the way what is believed
of the emulator is true, except perhaps that its cursor shows (`Brush.Tracks`).
-/

namespace ScreenWatch

/-! ### Painting -/

namespace Screen

/-- `t` has the cell `g y x` at each place of `s`; of the rest only the cursor, the pen and the visibility of the
cursor may be others. -/
structure PaintsAs (s : Screen) (g : Nat → Nat → Cell) (t : Screen) : Prop where
  frame : t = { s with cells := t.cells, cursor := t.cursor, pen := t.pen, visible := t.visible }
  size_cells : t.cells.size = s.cells.size
  cellAt_eq : ∀ y < s.height, ∀ x < s.width, t.cellAt y x = g y x

namespace PaintsAs

variable {s t u : Screen} {g g' : Nat → Nat → Cell}

theorem width_eq (h : PaintsAs s g t) : t.width = s.width := by rw [h.frame]

theorem height_eq (h : PaintsAs s g t) : t.height = s.height := by rw [h.frame]

theorem isGrid (h : PaintsAs s g t) (hs : s.IsGrid) : t.IsGrid := by
  rw [IsGrid, h.size_cells, h.width_eq, h.height_eq]
  exact hs

/-- The cursor, the pen and the visibility do not matter. -/
theorem of_cells (cursor : Position) (pen : Pen) (visible : Bool) :
    PaintsAs s s.cellAt { s with cursor, pen, visible } :=
  ⟨rfl, rfl, fun _ _ _ _ => rfl⟩

theorem congr (h : PaintsAs s g t) (hg : ∀ y < s.height, ∀ x < s.width, g y x = g' y x) : PaintsAs s g' t :=
  ⟨h.frame, h.size_cells, fun y hy x hx => (h.cellAt_eq y hy x hx).trans (hg y hy x hx)⟩

theorem trans (h : PaintsAs s g t) (h' : PaintsAs t g' u) : PaintsAs s g' u := by
  refine ⟨?_, h'.size_cells.trans h.size_cells, fun y hy x hx => ?_⟩
  · rw [h'.frame, h.frame]
  · exact h'.cellAt_eq y (h.height_eq ▸ hy) x (h.width_eq ▸ hx)

/-- A cell put where the cursor is, with any pen, and the cursor one further. -/
theorem put (hs : s.IsGrid) (hr : s.cursor.row < s.height) (hc : s.cursor.col < s.width) (pen : Pen) (c : Cell) :
    PaintsAs s (fun y x => if y = s.cursor.row ∧ x = s.cursor.col then c else s.cellAt y x)
      ({ s with pen := pen }.put s.cursor.row s.cursor.col c).advance :=
  ⟨rfl, Array.size_setIfInBounds, fun _ _ _ hx => cellAt_put (s := { s with pen := pen }) hs hr hc c hx⟩

end PaintsAs

theorem RedrawsAs.paintsAs {s t : Screen} {g : Nat → Nat → Cell} (h : RedrawsAs s g t) : PaintsAs s g t :=
  ⟨by rw [h.frame], h.size_cells, h.cellAt_eq⟩

end Screen

namespace Repaint

open Emulator (Turns turns_print)
open Screen (PaintsAs)
open Stroke (Yields usePen_yields silentMove_yields)

variable {b : Brush} {s t f : Screen} {bce shows : Bool}

/-- What is believed of an emulator that shows `s` is true.  If not `shows`, its cursor is hidden although it may be
believed to show. -/
structure Brush.Tracks (b : Brush) (shows : Bool) (s : Screen) : Prop where
  isAt : b.IsAt s
  pen_eq : s.pen = b.pen
  visible_eq : s.visible = (b.visible && shows)

/-! ### Cells -/

theorem paintCell_yields (hs : s.IsGrid) (hr : s.cursor.row < s.height) (hc : s.cursor.col < s.width)
    (hp : s.pen = b.pen) {c : Cell} (hok : Utf8.IsPrintable c.code) :
    (paintCell c).Yields b s fun b' t => b' = { b with col := b.col + 1, pen := c.pen } ∧
      t = ({ s with pen := c.pen }.put s.cursor.row s.cursor.col c).advance := by
  have hprint := Screen.print_of_lt (s := { s with pen := c.pen }) hs hr hc c.code
  refine .all_cons (usePen_yields (.inr hp) c.pen) ?_
  rintro _ _ ⟨rfl, rfl⟩
  refine .all_cons (Q := fun b' t => b' = { b with pen := c.pen } ∧
    t = ({ s with pen := c.pen }.put s.cursor.row s.cursor.col c).advance)
    (.put (turns_print hok hprint) ⟨rfl, rfl⟩) ?_
  rintro _ _ ⟨rfl, rfl⟩
  exact .all_singleton (.believe ⟨rfl, rfl⟩)

private theorem paintCells_yields (hs : s.IsGrid) (hw : f.width = s.width) {y n : Nat} (hy : y < s.height)
    (hn : n ≤ s.width) (hok : ∀ x, Utf8.IsPrintable (f.cellAt y x).code) (hcur : s.cursor = ⟨0, y⟩)
    (hb : b.col = 0 ∧ b.row = y) (ht : b.Tracks shows s) :
    Yields (.all (((rowCells f y).take n).map paintCell)) b s fun b' t =>
      PaintsAs s (fun y' x => if y' = y ∧ x < n then f.cellAt y x else s.cellAt y' x) t ∧
        t.cursor = ⟨n, y⟩ ∧ b'.col = n ∧ b'.row = y ∧ b'.Tracks shows t := by
  have hcells : ((rowCells f y).take n).map paintCell = (List.range n).map fun x => paintCell (f.cellAt y x) := by
    rw [rowCells, ← List.map_take, List.take_range, hw, Nat.min_eq_left hn, List.map_map]
    rfl
  rw [hcells]
  -- By induction on the number of cells that have been painted.
  refine Yields.all_range (fun k b' t =>
    PaintsAs s (fun y' x => if y' = y ∧ x < k then f.cellAt y x else s.cellAt y' x) t ∧
      t.cursor = ⟨k, y⟩ ∧ b'.col = k ∧ b'.row = y ∧ b'.Tracks shows t) ⟨?_, hcur, hb.1, hb.2, ht⟩ ?_
  · exact (PaintsAs.of_cells s.cursor s.pen s.visible).congr fun y' _ x _ => by rw [if_neg (by omega)]
  rintro k hk b t ⟨hp, hcur, hcol, hrow, ht⟩
  have hg := hp.isGrid hs
  have hr : t.cursor.row < t.height := by
    rw [hcur, hp.height_eq]
    exact hy
  have hc : t.cursor.col < t.width := by
    rw [hcur, hp.width_eq]
    exact Nat.lt_of_lt_of_le hk hn
  refine (paintCell_yields hg hr hc ht.pen_eq (hok k)).mono ?_
  rintro b' u ⟨rfl, rfl⟩
  have hput := hp.trans (.put hg hr hc (f.cellAt y k).pen (f.cellAt y k))
  refine ⟨hput.congr ?_, ?_, ?_, hrow, ?_, rfl, ht.visible_eq⟩
  · intro y' hy' x hx
    rw [hcur, hp.cellAt_eq y' hy' x hx]
    by_cases h : y' = y ∧ x = k
    · rw [if_pos h, if_pos (by omega), h.2]
    · rw [if_neg h]
      by_cases h' : y' = y ∧ x < k
      · rw [if_pos h', if_pos (by omega)]
      · rw [if_neg h', if_neg (by omega)]
  · show Position.mk (t.cursor.col + 1) t.cursor.row = _
    rw [hcur]
  · show b.col + 1 = _
    omega
  · refine .inr (.inr ⟨?_, ?_⟩)
    · show b.col + 1 = (t.cursor.col + 1 : Nat)
      rw [hcol, hcur, Int.natCast_succ]
    · show b.row = t.cursor.row
      rw [hrow, hcur]

/-! ### Erased ends -/

/-- What a row shows after it was painted. -/
def paintedCell (bce : Bool) (f : Screen) (y x : Nat) : Cell :=
  if x < drawnLength bce f y then f.cellAt y x
  else .blank (if bce then (f.cellAt y (f.width - 1)).pen else .plain)

private theorem length_dropWhile_le (bce : Bool) (f : Screen) (y : Nat) :
    ((rowCells f y).reverse.dropWhile (isErasable bce)).length ≤ f.width := by
  have h := (List.dropWhile_suffix (isErasable bce) (l := (rowCells f y).reverse)).length_le
  rwa [List.length_reverse, rowCells, List.length_map, List.length_range] at h

theorem drawnLength_le (bce : Bool) (f : Screen) (y : Nat) : drawnLength bce f y ≤ f.width := by
  have h := length_dropWhile_le bce f y
  unfold drawnLength
  dsimp only
  split <;> omega

/-- The corner is never drawn. -/
theorem drawnLength_lt (bce : Bool) (hw : 0 < f.width) {y : Nat} (hy : y + 1 = f.height) :
    drawnLength bce f y < f.width := by
  have h := length_dropWhile_le bce f y
  unfold drawnLength
  dsimp only
  split <;> omega

private theorem length_dropWhile_reverse_le_iff {α : Type} {p : α → Bool} {l : List α} {i : Nat} :
    (l.reverse.dropWhile p).length ≤ i ↔ ∀ j (hj : j < l.length), i ≤ j → p l[j] = true := by
  induction l using List.reverseRecOn with
  | nil => simp
  | append_singleton l a ih =>
    rw [List.reverse_concat, List.dropWhile_cons]
    split
    · rename_i ha
      rw [ih]
      constructor
      · intro h j hj hij
        rw [List.getElem_append]
        split
        · exact h j _ hij
        · simpa using ha
      · intro h j hj hij
        have hlast := h j (by simp; omega) hij
        rwa [List.getElem_append_left hj] at hlast
    · rename_i ha
      simp only [List.length_cons, List.length_reverse]
      constructor
      · intro h j hj hij
        simp only [List.length_append, List.length_singleton] at hj
        omega
      · intro h
        refine Nat.lt_of_not_le fun hi => ha ?_
        have hlast := h l.length (by simp) hi
        simpa using hlast

/-- Apart from the corner, what is not drawn is what may be left to the erasure up to the end of the row. -/
theorem drawnLength_le_iff {y x : Nat} (hx : x < f.width) (hcorner : ¬ (y + 1 = f.height ∧ x + 1 = f.width)) :
    drawnLength bce f y ≤ x ↔ ∀ x', x ≤ x' → x' < f.width → isErasable bce (f.cellAt y x') = true := by
  have hlength : drawnLength bce f y ≤ x ↔ ((rowCells f y).reverse.dropWhile (isErasable bce)).length ≤ x := by
    have h := length_dropWhile_le bce f y
    unfold drawnLength
    dsimp only
    split <;> omega
  rw [hlength, length_dropWhile_reverse_le_iff]
  constructor
  · intro h x' hle hlt
    have hcell := h x' (by simpa [rowCells] using hlt) hle
    simpa [rowCells] using hcell
  · intro h j hj hle
    have hcell := h j hle (by simpa [rowCells] using hj)
    simpa [rowCells] using hcell

/-- A painted row shows the right code points, and a space in the corner. -/
theorem code_paintedCell (bce : Bool) (hw : 0 < f.width) {y x : Nat} (hx : x < f.width) :
    (paintedCell bce f y x).code = if y + 1 = f.height ∧ x + 1 = f.width then 0x20 else (f.cellAt y x).code := by
  unfold paintedCell
  by_cases hcorner : y + 1 = f.height ∧ x + 1 = f.width
  · have := drawnLength_lt bce hw hcorner.1
    rw [if_pos hcorner, if_neg (by omega)]
    rfl
  · rw [if_neg hcorner]
    split
    · rfl
    · rename_i h
      have he := (drawnLength_le_iff hx hcorner).1 (Nat.le_of_not_lt h) x (Nat.le_refl x) hx
      simp only [isErasable, Bool.and_eq_true, beq_iff_eq] at he
      exact he.1.symm

private theorem paintErasure_yields (hs : s.IsGrid) (hr : s.cursor.row < s.height) (ht : b.Tracks shows s) (y : Nat) :
    (paintErasure bce f y).Yields b s fun b' t =>
      PaintsAs s (fun y' x => if y' = s.cursor.row ∧ s.cursor.col ≤ x then
          .blank (if bce then (f.cellAt y (f.width - 1)).pen else .plain) else s.cellAt y' x) t ∧
        b'.Tracks shows t := by
  refine (usePen_yields (.inr ht.pen_eq) _).andThen ?_
  rintro _ _ ⟨rfl, rfl⟩
  obtain ⟨u, hu, hcells⟩ :=
    turns_eraseLine (s := { s with pen := if bce then (f.cellAt y (f.width - 1)).pen else .plain }) hs hr
  refine .put hu ⟨(PaintsAs.of_cells s.cursor _ s.visible).trans hcells.paintsAs, ?_, hcells.pen_eq, ?_⟩
  · rw [Brush.IsAt, hcells.cursor_eq]
    exact ht.isAt
  · rw [hcells.frame]
    exact ht.visible_eq

/-! ### Rows -/

private theorem Brush.Tracks.forgetAtEdge {b : Brush} (ht : b.Tracks shows s) (width : Nat) :
    (forgetAtEdge width).Yields b s fun b' t => t = s ∧ b'.Tracks shows t := by
  refine .believe ⟨rfl, ?_⟩
  by_cases h : b.col ≥ width
  · rw [if_pos h]
    exact ⟨.inl rfl, ht.pen_eq, ht.visible_eq⟩
  · rw [if_neg h]
    exact ht

/-- The start of a row is visited behind a hidden cursor. -/
private theorem Brush.Tracks.rowStart {b : Brush} (ht : b.Tracks shows s) (hw : s.width ≤ 65535) (hh : s.height ≤ 65535)
    (hpos : 0 < s.width) {y : Nat} (hy : y < s.height) :
    (Stroke.silentMove y 0).Yields b s fun b' t =>
      PaintsAs s s.cellAt t ∧ t.cursor = ⟨0, y⟩ ∧ (b'.col = 0 ∧ b'.row = y) ∧ b'.Tracks shows t := by
  refine (silentMove_yields ht.isAt hw hh hy hpos).mono ?_
  rintro _ _ ⟨rfl, rfl⟩
  refine ⟨.of_cells _ s.pen _, rfl, ⟨rfl, rfl⟩, .inr (.inr ⟨rfl, rfl⟩), ht.pen_eq, ?_⟩
  dsimp only
  rw [ht.visible_eq]
  cases b.visible with
  | false => simp
  | true => by_cases h : b.col = ((0 : Nat) : Int) ∧ b.row = y <;> simp [h]

/-- A row that is painted, and no other one, shows what it should. -/
theorem paintRow_yields (hs : s.IsGrid) (hw : f.width = s.width) (hw' : s.width ≤ 65535) (hh : s.height ≤ 65535)
    (hpos : 0 < s.width) {y : Nat} (hy : y < s.height) (hok : ∀ x, Utf8.IsPrintable (f.cellAt y x).code)
    (ht : b.Tracks shows s) :
    (paintRow bce f y).Yields b s fun b' t =>
      PaintsAs s (fun y' x => if y' = y then paintedCell bce f y x else s.cellAt y' x) t ∧ b'.Tracks shows t := by
  have hdrawn := hw ▸ drawnLength_le bce f y
  -- In turn: to the start of the row, the cells, the erasure, and what is forgotten at the edge.
  refine .all_cons (ht.rowStart hw' hh hpos hy) ?_
  rintro b1 s1 ⟨hp1, hcur1, hb1, ht1⟩
  refine .all_cons (paintCells_yields (hp1.isGrid hs) (hw.trans hp1.width_eq.symm) (hp1.height_eq ▸ hy)
    (hp1.width_eq ▸ hdrawn) hok hcur1 hb1 ht1) ?_
  rintro b2 s2 ⟨hp2, hcur2, hcol2, hrow2, ht2⟩
  refine .all_cons (Q := fun b' t =>
    PaintsAs s (fun y' x => if y' = y then paintedCell bce f y x else s.cellAt y' x) t ∧ b'.Tracks shows t) ?_ ?_
  · have hp := hp1.trans hp2
    split
    · have hr2 : s2.cursor.row < s2.height := by
        rw [hcur2, hp.height_eq]
        exact hy
      refine (paintErasure_yields (hp.isGrid hs) hr2 ht2 y).mono ?_
      rintro b3 s3 ⟨hp3, ht3⟩
      refine ⟨(hp.trans hp3).congr ?_, ht3⟩
      intro y' hy' x hx
      rw [hcur2, hp.cellAt_eq y' hy' x hx]
      by_cases hrow : y' = y
      · unfold paintedCell
        by_cases hx' : x < drawnLength bce f y
        · rw [if_neg (fun h => Nat.not_le_of_lt hx' h.2), if_pos ⟨hrow, hx'⟩, if_pos hrow, if_pos hx']
        · rw [if_pos ⟨hrow, Nat.le_of_not_lt hx'⟩, if_pos hrow, if_neg hx']
      · rw [if_neg (fun h => hrow h.1), if_neg (fun h => hrow h.1), if_neg hrow]
        exact hp1.cellAt_eq y' hy' x hx
    · -- The whole row was drawn, so nothing is left to erase.
      refine .nothing ⟨hp.congr ?_, ht2⟩
      intro y' hy' x hx
      by_cases hrow : y' = y
      · have hx' : x < drawnLength bce f y := by omega
        rw [if_pos ⟨hrow, hx'⟩, if_pos hrow, paintedCell, if_pos hx']
      · rw [if_neg (fun h => hrow h.1), if_neg hrow]
        exact hp1.cellAt_eq y' hy' x hx
  · rintro b3 s3 ⟨hp3, ht3⟩
    refine .all_singleton ((ht3.forgetAtEdge _).mono ?_)
    rintro b4 _ ⟨rfl, ht4⟩
    exact ⟨hp3, ht4⟩

end Repaint

end ScreenWatch
