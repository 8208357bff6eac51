import ScreenWatch.Proofs.Screen.Commands

/-!
# Screens that differ in their pens

Pens are chosen, laid down with characters and blanks, and kept with the cells, but no edit asks for one.  So screens
that are the same once all pens are wiped off stay so whatever is done to both of them (`Command.run_ignoresPens`,
`perform_ignoresPens`), and have the same text and the same hash.
-/

namespace ScreenWatch

/-- The cell with the plain pen. -/
def Cell.wiped (c : Cell) : Cell := { c with pen := .plain }

def Snapshot.wiped (main : Snapshot) : Snapshot := { main with cells := main.cells.map Cell.wiped }

namespace Screen

/-- The screen with the plain pen, in its cells, in those behind it and in use. -/
def wiped (s : Screen) : Screen :=
  { s with
    cells := s.cells.map Cell.wiped
    pen := .plain
    behind := s.behind.map Snapshot.wiped }

/-- The screens are the same, except for the pens of their cells, of the cells behind them and in use. -/
def SameButPens (s t : Screen) : Prop := s.wiped = t.wiped

instance (s t : Screen) : Decidable (SameButPens s t) := inferInstanceAs (Decidable (_ = _))

variable {s t : Screen} {cells cells' : Array Cell} {c c' : Cell}

/-! ### What is the same -/

namespace SameButPens

theorem wiped_eq (h : SameButPens s t) : s.wiped = t.wiped := h

theorem width_eq (h : SameButPens s t) : s.width = t.width := (congrArg Screen.width h.wiped_eq :)

theorem height_eq (h : SameButPens s t) : s.height = t.height := (congrArg Screen.height h.wiped_eq :)

theorem cells_eq (h : SameButPens s t) : s.cells.map Cell.wiped = t.cells.map Cell.wiped :=
  (congrArg Screen.cells h.wiped_eq :)

theorem cursor_eq (h : SameButPens s t) : s.cursor = t.cursor := (congrArg Screen.cursor h.wiped_eq :)

theorem margins_eq (h : SameButPens s t) : s.margins = t.margins := (congrArg Screen.margins h.wiped_eq :)

theorem behind_eq (h : SameButPens s t) : s.behind.map Snapshot.wiped = t.behind.map Snapshot.wiped :=
  (congrArg Screen.behind h.wiped_eq :)

theorem size_eq (h : SameButPens s t) : s.cells.size = t.cells.size := by
  have hsize := congrArg Array.size h.cells_eq
  rwa [Array.size_map, Array.size_map] at hsize

/-- The screens with other cells. -/
theorem of_cells (h : SameButPens s t) (hcells : cells.map Cell.wiped = cells'.map Cell.wiped) :
    SameButPens { s with cells := cells } { t with cells := cells' } := by
  have hrest := congrArg (fun u : Screen => { u with cells := cells.map Cell.wiped }) h.wiped_eq
  refine hrest.trans ?_
  rw [hcells]
  rfl

end SameButPens

/-! ### Cells -/

private theorem wiped_getD (h : cells.map Cell.wiped = cells'.map Cell.wiped) (hc : c.wiped = c'.wiped) (i : Nat) :
    (cells.getD i c).wiped = (cells'.getD i c').wiped := by
  have hi : (cells.map Cell.wiped)[i]? = (cells'.map Cell.wiped)[i]? := by rw [h]
  rw [Array.getElem?_map, Array.getElem?_map] at hi
  rw [Array.getD_eq_getD_getElem?, Array.getD_eq_getD_getElem?, ← Option.getD_map Cell.wiped, hi, hc, Option.getD_map]

private theorem wiped_setIfInBounds (h : cells.map Cell.wiped = cells'.map Cell.wiped) (hc : c.wiped = c'.wiped)
    (i : Nat) : (cells.setIfInBounds i c).map Cell.wiped = (cells'.setIfInBounds i c').map Cell.wiped := by
  rw [Array.map_setIfInBounds, Array.map_setIfInBounds, h, hc]

private theorem wiped_copyCells (h : cells.map Cell.wiped = cells'.map Cell.wiped) (dst src count : Nat) :
    (copyCells dst src count cells).map Cell.wiped = (copyCells dst src count cells').map Cell.wiped := by
  induction count generalizing dst src cells cells' with
  | zero => exact h
  | succ count ih => exact ih (wiped_setIfInBounds h (wiped_getD h rfl src) dst) _ _

private theorem map_wiped_refit (cells : Array Cell) (oldWidth oldHeight width height : Nat) (fill : Cell) :
    (refit cells oldWidth oldHeight width height fill).map Cell.wiped =
      refit (cells.map Cell.wiped) oldWidth oldHeight width height fill.wiped := by
  unfold refit
  rw [← Array.map_replicate]
  refine (List.foldl_hom (Array.map Cell.wiped) ?_).symm
  intro fitted y
  refine List.foldl_hom (Array.map Cell.wiped) ?_
  intro fitted x
  rw [Array.map_setIfInBounds, Array.getD_eq_getD_getElem?, Array.getD_eq_getD_getElem?, Array.getElem?_map,
    Option.getD_map]

/-! ### What is told of a screen -/

theorem SameButPens.code_cellAt (h : SameButPens s t) (y x : Nat) : (s.cellAt y x).code = (t.cellAt y x).code := by
  have hcell := wiped_getD h.cells_eq (rfl : (Cell.blank .plain).wiped = (Cell.blank .plain).wiped) (y * s.width + x)
  unfold cellAt
  rw [← h.width_eq]
  exact (congrArg Cell.code hcell :)

theorem SameButPens.text_eq (h : SameButPens s t) : s.text = t.text := by
  have hcode (y x : Nat) := h.code_cellAt y x
  unfold cellAt at hcode
  unfold text layout
  simp only [hcode]
  rw [h.width_eq, h.height_eq]

theorem SameButPens.hash_eq (h : SameButPens s t) : s.hash = t.hash := by
  unfold hash
  simp only [h.code_cellAt, h.width_eq, h.height_eq]

/-! ### Edits -/

/-- Done to screens that are the same but for their pens, the edit ends in the same way and leaves such screens. -/
def IgnoresPens (edit : ScreenM Unit) : Prop := ∀ s t, SameButPens s t → EndAlike edit edit s t SameButPens

namespace IgnoresPens

theorem pure : IgnoresPens (Pure.pure ()) := fun _ _ h => h

/-- It makes no difference to the edit whether the pens are wiped off before it or after it. -/
theorem edit {f : Screen → Screen} (hf : ∀ s, (f s).wiped = f s.wiped) : IgnoresPens (modify f) := by
  intro s t h
  show (f s).wiped = (f t).wiped
  rw [hf, hf, h.wiped_eq]

theorem bind {x y : ScreenM Unit} (hx : IgnoresPens x) (hy : IgnoresPens y) : IgnoresPens (do x; y) := by
  intro s t h
  exact (hx s t h).bind (fun _ _ h => h) fun _ _ s t h => hy s t h

theorem forM {α : Type} {l : List α} {f : α → ScreenM Unit} (h : ∀ a, IgnoresPens (f a)) : IgnoresPens (l.forM f) :=
  fun _ _ hs => EndAlike.forM hs fun a _ s t hst => h a s t hst

theorem repeated {edit : ScreenM Unit} (h : IgnoresPens edit) (n : Nat) : IgnoresPens (repeated n edit) := by
  induction n with
  | zero => exact pure
  | succ n ih => exact h.bind ih

/-- An edit that looks at the screen first. -/
theorem get_bind {f : Screen → ScreenM Unit} (h : ∀ s t, SameButPens s t → EndAlike (f s) (f t) s t SameButPens) :
    IgnoresPens (get >>= f) :=
  fun s t hst => EndAlike.get_bind (h s t hst)

end IgnoresPens

theorem SameButPens.index?_eq (h : SameButPens s t) (row col : Int) : s.index? row col = t.index? row col := by
  unfold index?
  rw [h.width_eq, h.cursor_eq, h.size_eq]

private theorem setCell_alike (h : SameButPens s t) (hc : c.wiped = c'.wiped) (row col : Int) :
    EndAlike (setCell row col c) (setCell row col c') s t SameButPens := by
  unfold setCell
  cases hi : s.index? row col with
  | none =>
    have hs : indexOf row col s = .error .noCell s := by simp only [indexOf, hi]
    have ht : indexOf row col t = .error .noCell t := by simp only [indexOf, ← h.index?_eq, hi]
    exact .of_error (bind_of_error hs) (bind_of_error ht) h
  | some i =>
    have hs : indexOf row col s = .ok i s := by simp only [indexOf, hi]
    have ht : indexOf row col t = .ok i t := by simp only [indexOf, ← h.index?_eq, hi]
    refine .of_ok ((bind_of_ok hs).trans rfl) ((bind_of_ok ht).trans rfl) ?_
    exact h.of_cells (wiped_setIfInBounds h.cells_eq hc i)

private theorem ignoresPens_resetCell (row col : Int) : IgnoresPens (resetCell row col) :=
  .get_bind fun s t h => @setCell_alike s t (.blank s.pen) (.blank t.pen) h rfl row col

private theorem ignoresPens_moveCells (dst src count : Nat) : IgnoresPens (moveCells dst src count) := by
  intro s t h
  by_cases hin : count = 0 ∨ (src + count ≤ s.cells.size ∧ dst + count ≤ s.cells.size)
  · have hin' := h.size_eq ▸ hin
    exact .of_ok (if_pos hin) (if_pos hin') (h.of_cells (wiped_copyCells h.cells_eq dst src count))
  · have hin' := h.size_eq ▸ hin
    exact .of_error (if_neg hin) (if_neg hin') h

private theorem ignoresPens_copyRow (dst src : Nat) : IgnoresPens (copyRow dst src) := by
  refine .get_bind fun s t h => ?_
  dsimp only
  rw [h.width_eq]
  exact ignoresPens_moveCells _ _ _ s t h

private theorem ignoresPens_resetCells (row first last : Int) : IgnoresPens (resetCells row first last) := by
  refine .get_bind fun s t h => ?_
  dsimp only
  rw [h.width_eq]
  exact IgnoresPens.forM (fun i => ignoresPens_resetCell row _) s t h

private theorem ignoresPens_resetRow (row : Int) : IgnoresPens (resetRow row) := by
  refine .get_bind fun s t h => ?_
  rw [h.width_eq]
  exact ignoresPens_resetCells row 0 _ s t h

private theorem ignoresPens_shiftUp (top bottom : Nat) : IgnoresPens (shiftUp top bottom) :=
  (IgnoresPens.forM fun _ => ignoresPens_copyRow _ _).bind (ignoresPens_resetRow _)

private theorem ignoresPens_shiftDown (top bottom : Nat) : IgnoresPens (shiftDown top bottom) :=
  (IgnoresPens.forM fun _ => ignoresPens_copyRow _ _).bind (ignoresPens_resetRow _)

private theorem ignoresPens_shiftLeft (row col : Nat) : IgnoresPens (shiftLeft row col) := by
  refine .get_bind fun s t h => ?_
  dsimp only
  rw [h.width_eq]
  exact ((ignoresPens_moveCells _ _ _).bind (ignoresPens_resetCell _ _)) s t h

private theorem ignoresPens_scrollUp (count : Int) : IgnoresPens (scrollUp count) := by
  refine .get_bind fun s t h => ?_
  rw [h.margins_eq]
  exact (ignoresPens_shiftUp _ _).repeated _ s t h

private theorem ignoresPens_scrollDown (count : Int) : IgnoresPens (scrollDown count) := by
  refine .get_bind fun s t h => ?_
  rw [h.margins_eq]
  exact (ignoresPens_shiftDown _ _).repeated _ s t h

private theorem ignoresPens_insertLine (count : Int) : IgnoresPens (insertLine count) := by
  refine .get_bind fun s t h => ?_
  dsimp only
  rw [h.margins_eq, h.cursor_eq]
  exact (ignoresPens_shiftDown _ _).repeated _ s t h

private theorem ignoresPens_deleteLine (count : Int) : IgnoresPens (deleteLine count) := by
  refine .get_bind fun s t h => ?_
  dsimp only
  rw [h.margins_eq, h.cursor_eq]
  exact (ignoresPens_shiftUp _ _).repeated _ s t h

private theorem ignoresPens_deleteCell (count : Int) : IgnoresPens (deleteCell count) := by
  refine .get_bind fun s t h => ?_
  rw [h.width_eq, h.cursor_eq]
  exact (ignoresPens_shiftLeft _ _).repeated _ s t h

private theorem ignoresPens_lineFeed : IgnoresPens lineFeed := by
  have hcol : IgnoresPens (modify (·.moveToCol 0)) := .edit fun _ => rfl
  refine hcol.bind (.get_bind fun s t h => ?_)
  rw [h.cursor_eq, h.height_eq]
  split
  · exact ignoresPens_scrollUp 1 s t h
  · exact congrArg (moveByRows · 1) h.wiped_eq

private theorem ignoresPens_reverseIndex : IgnoresPens reverseIndex := by
  refine .get_bind fun s t h => ?_
  rw [h.cursor_eq, h.margins_eq]
  split
  · exact ignoresPens_scrollDown 1 s t h
  · exact congrArg (moveByRows · (-1)) h.wiped_eq

private theorem ignoresPens_print (code : Int) : IgnoresPens (print code) := by
  have hdraw : IgnoresPens (do setCell (-1) (-1) ⟨code, (← get).pen⟩; modify advance) := by
    refine .get_bind fun s t h => ?_
    have hset := @setCell_alike s t ⟨code, s.pen⟩ ⟨code, t.pen⟩ h rfl (-1) (-1)
    have hadvance : IgnoresPens (modify advance) := .edit fun _ => rfl
    exact hset.bind (fun _ _ h => h) fun _ _ s t h => hadvance s t h
  refine .get_bind fun s t h => ?_
  dsimp only
  rw [h.cursor_eq, h.width_eq]
  split
  · exact (ignoresPens_lineFeed.bind hdraw) s t h
  · exact hdraw s t h

private theorem ignoresPens_clear : IgnoresPens clear := by
  refine .edit fun s => ?_
  show ({ s with cells := Array.replicate s.cells.size (.blank s.pen) } : Screen).wiped.home = _
  unfold wiped
  dsimp only
  rw [Array.map_replicate, Array.size_map]
  rfl

private theorem ignoresPens_showAlternate : IgnoresPens showAlternate := by
  refine .get_bind fun s t h => ?_
  have hshown : s.isAlternate = t.isAlternate := by
    have hsome := congrArg Option.isSome h.behind_eq
    rwa [Option.isSome_map, Option.isSome_map] at hsome
  rw [hshown]
  split
  · exact h
  · have hbehind := congrArg (fun u : Screen => { u with behind := some ⟨u.cells, u.cursor⟩ }) h.wiped_eq
    exact ignoresPens_clear { s with behind := some ⟨s.cells, s.cursor⟩ }
      { t with behind := some ⟨t.cells, t.cursor⟩ } hbehind

private theorem ignoresPens_showMain : IgnoresPens showMain := by
  refine .edit fun s => ?_
  obtain ⟨width, height, cells, cursor, margins, pen, saved, visible, behind⟩ := s
  cases behind <;> rfl

private theorem ignoresPens_reset : IgnoresPens reset := by
  refine .edit fun s => ?_
  show (empty s.width s.height).wiped = empty s.width s.height
  unfold wiped empty
  dsimp only
  rw [Array.map_replicate]
  rfl

private theorem wiped_resized (s : Screen) (width height : Nat) :
    (s.resized width height).wiped = s.wiped.resized width height := by
  unfold resized wiped
  dsimp only
  rw [map_wiped_refit, Option.map_map, Option.map_map]
  congr 2
  funext main
  exact congrArg (Snapshot.mk · _) (map_wiped_refit ..)

theorem ignoresPens_resize (width height : Int) : IgnoresPens (resize width height) := by
  intro s t h
  cases hfault : sizeFault? width height with
  | some fault => exact .of_error (resize_of_fault hfault s) (resize_of_fault hfault t) h
  | none =>
    refine .of_ok (resize_of_none hfault s) (resize_of_none hfault t) ?_
    unfold SameButPens at *
    rw [wiped_resized, wiped_resized, h]

theorem Command.run_ignoresPens (c : Command) : IgnoresPens c.run := by
  cases c with
  | print code => exact ignoresPens_print code
  | lineFeed => exact ignoresPens_lineFeed
  | reverseIndex => exact ignoresPens_reverseIndex
  | scrollUp n => exact ignoresPens_scrollUp n
  | scrollDown n => exact ignoresPens_scrollDown n
  | insertLine n => exact ignoresPens_insertLine n
  | deleteLine n => exact ignoresPens_deleteLine n
  | deleteCell n => exact ignoresPens_deleteCell n
  | resetRow row => exact ignoresPens_resetRow row
  | resetCells row first last => exact ignoresPens_resetCells row first last
  | clear => exact ignoresPens_clear
  | showAlternate => exact ignoresPens_showAlternate
  | showMain => exact ignoresPens_showMain
  | reset => exact ignoresPens_reset
  | resize width height => exact ignoresPens_resize width height
  -- The commands about the pen change nothing else, and the others are not about cells.
  | applyRendition | setForeground | setBackground => exact fun _ _ h => h
  | tab | moveToRow | moveByRows | moveToCol | moveByCols | advance | setCursor | setMargins | saveCursor
  | restoreCursor | setVisible => exact .edit fun _ => rfl

end Screen

/-! ### Control functions -/

namespace Control.Function

/-- What a function does depends on the size of the screen and on the cursor. -/
private theorem commands_wiped (f : Function) (q : Sequence) (s : Screen) : f.commands q s.wiped = f.commands q s := by
  cases f <;> rfl

theorem perform_ignoresPens (f : Function) (q : Sequence) : Screen.IgnoresPens (f.perform q) := by
  refine .get_bind fun s t h => ?_
  have hcommands : f.commands q s = f.commands q t := by rw [← commands_wiped, h.wiped_eq, commands_wiped]
  rw [hcommands]
  exact Screen.IgnoresPens.forM Screen.Command.run_ignoresPens s t h

end Control.Function

end ScreenWatch
