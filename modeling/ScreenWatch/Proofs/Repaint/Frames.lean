import ScreenWatch.Proofs.Repaint.Rows

/-!
# Painted frames

A frame shows every row that differs, leaves the others as they were, and ends with the cursor, its visibility and
the pen of the screen: its strokes do that to every emulator that is what they take it for (`frameStroke_yields`).
-/

namespace ScreenWatch.Repaint

open Emulator (Turns)
open Screen (PaintsAs)
open Stroke (Yields usePen_yields move_yields)

variable {b : Brush} {s t f last : Screen} {bce update initialized shows : Bool}

/-! ### One frame -/

def isPainted (update : Bool) (last f : Screen) (y : Nat) : Bool := !(update && !rowDiffers last f y)

/-- At its start a frame builds on the cells that show, or on plain blanks. -/
def ground (update : Bool) (s : Screen) (y x : Nat) : Cell := if update then s.cellAt y x else .blank .plain

/-- The rows of a frame. -/
def paintRows (bce update : Bool) (last f : Screen) : Stroke :=
  .all <| (List.range f.height).map fun row =>
    if update && !rowDiffers last f row then .nothing else paintRow bce f row

/-- Whether the cursor is believed to show when all rows are painted. -/
def believedVisible (bce update : Bool) (last f : Screen) : Bool :=
  (paintRows bce update last f (opening update last { }).2).2.visible

/-- What shows at a place after a frame, if `s` showed before. -/
def shownCell (bce update : Bool) (last f s : Screen) (y x : Nat) : Cell :=
  if isPainted update last f y then paintedCell bce f y x else ground update s y x

private theorem opening_yields (hv : s.visible = ((if update then last.visible else true) && shows)) :
    (opening update last).Yields { } s fun b' t => PaintsAs s (ground update s) t ∧ b'.Tracks shows t := by
  cases update with
  | true =>
    rw [opening, if_pos rfl]
    refine Yields.andThen (usePen_yields (.inl rfl) .plain) ?_
    rintro _ _ ⟨rfl, rfl⟩
    exact .believe ⟨(PaintsAs.of_cells s.cursor .plain s.visible).congr fun _ _ _ _ => rfl, .inl rfl, rfl, hv⟩
  | false =>
    refine ⟨_, turns_clearAll s, ⟨rfl, Array.size_replicate, fun y _ x _ => ?_⟩, .inr (.inr ⟨rfl, rfl⟩), rfl, hv⟩
    rw [Screen.cellAt, Array.getD_eq_getD_getElem?, Array.getElem?_replicate]
    split <;> rfl

private theorem rows_yields (bce update : Bool) (last : Screen) (hs : s.IsGrid) (hw : f.width = s.width)
    (hw' : s.width ≤ 65535) (hh : s.height ≤ 65535)
    (hpos : 0 < s.width) (hok : ∀ y x, Utf8.IsPrintable (f.cellAt y x).code) (ht : b.Tracks shows s) :
    Yields (.all ((List.range s.height).map fun row =>
      if update && !rowDiffers last f row then .nothing else paintRow bce f row)) b s fun b' t =>
        PaintsAs s (fun y x => if isPainted update last f y then paintedCell bce f y x else s.cellAt y x) t ∧
          b'.Tracks shows t := by
  have hrows := Yields.all_range (n := s.height) (s := s) (b := b)
    (f := fun row => if update && !rowDiffers last f row then .nothing else paintRow bce f row)
    (fun k b' t => PaintsAs s (fun y x => if y < k ∧ isPainted update last f y then paintedCell bce f y x
      else s.cellAt y x) t ∧ b'.Tracks shows t)
    ⟨(PaintsAs.of_cells s.cursor s.pen s.visible).congr fun y _ x _ => by rw [if_neg (by omega)], ht⟩ ?_
  · refine hrows.mono ?_
    rintro b' t ⟨hp, ht⟩
    refine ⟨hp.congr ?_, ht⟩
    intro y hy x _
    by_cases h : isPainted update last f y = true
    · rw [if_pos ⟨hy, h⟩, if_pos h]
    · rw [if_neg fun h' => h h'.2, if_neg h]
  rintro k hk b t ⟨hp, ht⟩
  -- The rows above are done in both cases, so only row `k` has to be looked at.
  have step (g : Nat → Nat → Cell)
      (hg : ∀ x < s.width, g k x = if isPainted update last f k then paintedCell bce f k x else s.cellAt k x)
      (hother : ∀ y < s.height, y ≠ k → ∀ x < s.width, g y x =
        if y < k ∧ isPainted update last f y then paintedCell bce f y x else s.cellAt y x) :
      ∀ y < s.height, ∀ x < s.width, g y x =
        if y < k + 1 ∧ isPainted update last f y then paintedCell bce f y x else s.cellAt y x := by
    intro y hy x hx
    by_cases hk : y = k
    · subst hk
      rw [hg x hx]
      simp
    · have hlt : y < k ↔ y < k + 1 := by omega
      rw [hother y hy hk x hx]
      simp only [hlt]
  by_cases hskip : (update && !rowDiffers last f k) = true
  · have hk' : ¬ isPainted update last f k = true := by simp [isPainted, hskip]
    rw [if_pos hskip]
    refine .nothing ⟨hp.congr (step _ ?_ fun _ _ _ _ _ => rfl), ht⟩
    intro x _
    rw [if_neg fun h => hk' h.2, if_neg hk']
  · have hk' : isPainted update last f k = true := by
      rw [isPainted, Bool.not_eq_true']
      exact eq_false_of_ne_true hskip
    rw [if_neg hskip]
    have hrow : (paintRow bce f k).Yields b t fun b' u =>
        PaintsAs t (fun y x => if y = k then paintedCell bce f k x else t.cellAt y x) u ∧ b'.Tracks shows u :=
      paintRow_yields (hp.isGrid hs) (hw.trans hp.width_eq.symm) (hp.width_eq ▸ hw') (hp.height_eq ▸ hh)
        (hp.width_eq ▸ hpos) (hp.height_eq ▸ hk) (hok k) ht
    refine hrow.mono ?_
    rintro b' u ⟨hu, hb'⟩
    refine ⟨(hp.trans hu).congr (step _ ?_ ?_), hb'⟩
    · intro x _
      rw [if_pos rfl, if_pos hk']
    · intro y hy hne x hx
      rw [if_neg hne, hp.cellAt_eq y hy x hx]

/-- The cursor shows in its own column, a pending wrap in the last one. -/
theorem shownCol_eq (f : Screen) : shownCol f = min f.cursor.col (f.width - 1) := by
  unfold shownCol
  split <;> omega

private theorem paintCursor_yields (ht : b.Tracks shows s) (hw : f.width = s.width) (hw' : s.width ≤ 65535)
    (hh : s.height ≤ 65535) (hpos : 0 < s.width) (hr : f.cursor.row < s.height) :
    (paintCursor f).Yields b s fun _ t =>
      t = { s with
        cursor := ⟨min f.cursor.col (f.width - 1), f.cursor.row⟩
        visible := f.visible && (shows || !b.visible)
        pen := f.pen } := by
  rw [← shownCol_eq]
  have hcol : shownCol f < s.width := by
    rw [shownCol_eq]
    omega
  refine .all_cons (move_yields ht.isAt hw' hh hr hcol) ?_
  rintro _ _ ⟨rfl, rfl⟩
  refine .all_cons (Q := fun b' t => b'.pen = b.pen ∧
    t = { s with cursor := ⟨shownCol f, f.cursor.row⟩, visible := f.visible && (shows || !b.visible) }) ?_ ?_
  · -- Where the belief is what should show, nothing is sent, whether it is true or not.
    by_cases h : b.visible ≠ f.visible
    · have hv : (f.visible && (shows || !b.visible)) = f.visible := by
        rw [Bool.eq_not_of_ne h, Bool.not_not]
        cases f.visible <;> simp
      exact .of_eq (if_pos h) (turns_setVisible f.visible _) ⟨rfl, by rw [hv]⟩
    · have hv : s.visible = (f.visible && (shows || !b.visible)) := by
        rw [ht.visible_eq, Decidable.not_not.1 h]
        cases f.visible <;> simp
      exact .of_eq (if_neg h) (.nil _) ⟨rfl, by rw [← hv]⟩
  · rintro b' _ ⟨hb, rfl⟩
    have hpen : s.pen = b'.pen := ht.pen_eq.trans hb.symm
    have huse := @usePen_yields b' { s with
      cursor := ⟨shownCol f, f.cursor.row⟩, visible := f.visible && (shows || !b.visible) } false (.inr hpen) f.pen
    refine .all_singleton (huse.mono ?_)
    rintro _ _ ⟨-, rfl⟩
    rfl

/-- Every frame begins with the plain pen, or with the cleared screen. -/
theorem frame_ne_nil (bce initialized : Bool) (last s : Screen) : frame bce initialized last s ≠ [] := by
  have hopening : (opening (canUpdate initialized last s) last { }).1 ≠ [] := by
    cases canUpdate initialized last s with
    | true =>
      rw [opening, if_pos rfl]
      exact List.append_ne_nil_of_left_ne_nil (s := Pen.plain.sgr) (by decide) []
    | false => exact (by decide : Stroke.clearAll ≠ [])
  exact List.append_ne_nil_of_left_ne_nil hopening _

/-- What a frame does to a grid of at most 65535 rows and columns.  Where the cursor was hidden and is believed to show
until the end, it stays hidden. -/
theorem frameStroke_yields (bce initialized : Bool) (last : Screen) (hs : s.IsGrid) (hw : f.width = s.width)
    (hh : f.height = s.height) (hw' : s.width ≤ 65535) (hh' : s.height ≤ 65535) (hpos : 0 < s.width)
    (hr : f.cursor.row < s.height) (hok : ∀ y x, Utf8.IsPrintable (f.cellAt y x).code)
    (hv : s.visible = ((if canUpdate initialized last f then last.visible else true) && shows)) :
    (frameStroke bce initialized last f).Yields { } s fun _ t =>
      PaintsAs s (shownCell bce (canUpdate initialized last f) last f s) t ∧
        t.cursor = ⟨min f.cursor.col (f.width - 1), f.cursor.row⟩ ∧
        t.visible = (f.visible && (shows || !believedVisible bce (canUpdate initialized last f) last f)) ∧
        t.pen = f.pen := by
  unfold frameStroke
  refine .all_cons (opening_yields hv).exactly ?_
  rintro b1 s1 ⟨hb1, hp1, ht1⟩
  have hrows := rows_yields bce (canUpdate initialized last f) last (hp1.isGrid hs)
    (hw.trans hp1.width_eq.symm) (hp1.width_eq ▸ hw') (hp1.height_eq ▸ hh') (hp1.width_eq ▸ hpos) hok ht1
  rw [hp1.height_eq, ← hh] at hrows
  refine .all_cons hrows.exactly ?_
  rintro b2 s2 ⟨hb2, hp2, ht2⟩
  have hp := hp1.trans hp2
  have hcursor := paintCursor_yields ht2 (hw.trans hp.width_eq.symm) (hp.width_eq ▸ hw') (hp.height_eq ▸ hh')
    (hp.width_eq ▸ hpos) (hp.height_eq ▸ hr)
  refine .all_singleton (hcursor.mono ?_)
  rintro b3 _ rfl
  have hbelieved : b2.visible = believedVisible bce (canUpdate initialized last f) last f := by
    rw [hb2, hb1]
    rfl
  refine ⟨(hp.trans (.of_cells _ _ _)).congr ?_, rfl, by rw [hbelieved], rfl⟩
  intro y hy x hx
  rw [hp2.cellAt_eq y (hp1.height_eq ▸ hy) x (hp1.width_eq ▸ hx), hp1.cellAt_eq y hy x hx]
  rfl

end ScreenWatch.Repaint
