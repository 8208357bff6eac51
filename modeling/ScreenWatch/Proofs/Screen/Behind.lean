import ScreenWatch.Proofs.Screen.Commands

/-!
# The main screen behind the alternate one

While the alternate screen is shown, a command that is not about the whole screen leaves what lies behind it alone,
also when it fails (`Command.run_stays`), and a new size treats both screens alike (`IsBehind.next`).  So the main
screen comes back as the new sizes alone would have left it (`showMain_gives_back`).
-/

namespace ScreenWatch.Screen

variable {s t u : Screen} {α β : Type}

/-! ### Staying on the screen that is shown -/

/-- `t` has the size of `s` and the same screen behind it, and its cursor is on a row of the screen if that of `s`
is. -/
structure Stays (s t : Screen) : Prop where
  width_eq : t.width = s.width
  height_eq : t.height = s.height
  behind_eq : t.behind = s.behind
  row_lt : s.cursor.row < s.height → t.cursor.row < t.height

theorem Stays.refl (s : Screen) : Stays s s := ⟨rfl, rfl, rfl, id⟩

theorem Stays.trans (h : Stays s t) (h' : Stays t u) : Stays s u :=
  ⟨h'.width_eq.trans h.width_eq, h'.height_eq.trans h.height_eq, h'.behind_eq.trans h.behind_eq,
    fun hr => h'.row_lt (h.row_lt hr)⟩

theorem stays_moveToRow (s : Screen) (row : Int) : Stays s (s.moveToRow row) :=
  ⟨rfl, rfl, rfl, fun hr => clamp_lt row (Nat.zero_lt_of_lt hr)⟩

theorem stays_setCursor (s : Screen) (col row : Int) : Stays s (s.setCursor col row) :=
  ⟨rfl, rfl, rfl, fun hr => clamp_lt row (Nat.zero_lt_of_lt hr)⟩

theorem stays_setMargins (s : Screen) (top bottom : Int) : Stays s (s.setMargins top bottom) :=
  ⟨rfl, rfl, rfl, fun hr => clamp_lt top (Nat.zero_lt_of_lt hr)⟩

/-- Whether the edit ends well or fails, it stays on the screen that is shown. -/
def IsLocal (edit : ScreenM α) : Prop := ∀ s, Leaves edit s (Stays s)

namespace IsLocal

theorem pure (a : α) : IsLocal (Pure.pure a : ScreenM α) := fun s => Stays.refl s

theorem get : IsLocal (get : ScreenM Screen) := fun s => Stays.refl s

theorem modify {f : Screen → Screen} (h : ∀ s, Stays s (f s)) : IsLocal (modify f : ScreenM Unit) := h

theorem bind {x : ScreenM α} {f : α → ScreenM β} (hx : IsLocal x) (hf : ∀ a, IsLocal (f a)) :
    IsLocal (x >>= f) := by
  intro s
  refine (hx s).bind ?_
  intro a t ht
  cases h : f a t with
  | ok b u =>
    have hu : Stays t u := left_of_ok h ▸ hf a t
    exact .of_ok h (ht.trans hu)
  | error e u =>
    have hu : Stays t u := left_of_error h ▸ hf a t
    exact .of_error h (ht.trans hu)

theorem forM {l : List α} {f : α → ScreenM Unit} (h : ∀ a, IsLocal (f a)) : IsLocal (l.forM f) := by
  induction l with
  | nil => exact pure ()
  | cons a l ih => exact bind (h a) fun _ => ih

theorem repeated {edit : ScreenM Unit} (h : IsLocal edit) (n : Nat) : IsLocal (repeated n edit) := by
  induction n with
  | zero => exact pure ()
  | succ n ih => exact bind h fun _ => ih

end IsLocal

/-! ### Edits of cells -/

private theorem isLocal_indexOf (row col : Int) : IsLocal (indexOf row col) := by
  intro s
  cases h : s.index? row col with
  | some i =>
    have hok : indexOf row col s = .ok i s := by simp only [indexOf, h]
    exact .of_ok hok (.refl s)
  | none =>
    have herror : indexOf row col s = .error .noCell s := by simp only [indexOf, h]
    exact .of_error herror (.refl s)

private theorem isLocal_setCell (row col : Int) (c : Cell) : IsLocal (setCell row col c) :=
  (isLocal_indexOf row col).bind fun _ => .modify fun _ => ⟨rfl, rfl, rfl, id⟩

private theorem isLocal_resetCell (row col : Int) : IsLocal (resetCell row col) :=
  IsLocal.get.bind fun _ => isLocal_setCell row col _

private theorem isLocal_moveCells (dst src count : Nat) : IsLocal (moveCells dst src count) := by
  intro s
  by_cases h : count = 0 ∨ (src + count ≤ s.cells.size ∧ dst + count ≤ s.cells.size)
  · exact .of_ok (if_pos h) ⟨rfl, rfl, rfl, id⟩
  · exact .of_error (if_neg h) (.refl s)

private theorem isLocal_copyRow (dst src : Nat) : IsLocal (copyRow dst src) :=
  IsLocal.get.bind fun _ => isLocal_moveCells _ _ _

private theorem isLocal_resetCells (row first last : Int) : IsLocal (resetCells row first last) :=
  IsLocal.get.bind fun _ => .forM fun _ => isLocal_resetCell _ _

private theorem isLocal_resetRow (row : Int) : IsLocal (resetRow row) :=
  IsLocal.get.bind fun _ => isLocal_resetCells _ _ _

private theorem isLocal_shiftUp (top bottom : Nat) : IsLocal (shiftUp top bottom) :=
  (IsLocal.forM fun _ => isLocal_copyRow _ _).bind fun _ => isLocal_resetRow _

private theorem isLocal_shiftDown (top bottom : Nat) : IsLocal (shiftDown top bottom) :=
  (IsLocal.forM fun _ => isLocal_copyRow _ _).bind fun _ => isLocal_resetRow _

private theorem isLocal_shiftLeft (row col : Nat) : IsLocal (shiftLeft row col) :=
  IsLocal.get.bind fun _ => (isLocal_moveCells _ _ _).bind fun _ => isLocal_resetCell _ _

private theorem isLocal_scrollUp (count : Int) : IsLocal (scrollUp count) :=
  IsLocal.get.bind fun _ => (isLocal_shiftUp _ _).repeated _

private theorem isLocal_scrollDown (count : Int) : IsLocal (scrollDown count) :=
  IsLocal.get.bind fun _ => (isLocal_shiftDown _ _).repeated _

private theorem isLocal_lineFeed : IsLocal lineFeed := by
  have hcol : IsLocal (modify (·.moveToCol 0) : ScreenM Unit) := .modify fun _ => ⟨rfl, rfl, rfl, id⟩
  refine hcol.bind ?_
  intro _ s
  refine .get_bind ?_
  split
  · exact isLocal_scrollUp 1 s
  · exact stays_moveToRow s _

private theorem isLocal_reverseIndex : IsLocal reverseIndex := by
  intro s
  refine .get_bind ?_
  split
  · exact isLocal_scrollDown 1 s
  · exact stays_moveToRow s _

private theorem isLocal_print (code : Int) : IsLocal (print code) := by
  have hdraw : IsLocal (do setCell (-1) (-1) ⟨code, (← get).pen⟩; modify advance : ScreenM Unit) :=
    IsLocal.get.bind fun _ => (isLocal_setCell _ _ _).bind fun _ => .modify fun _ => ⟨rfl, rfl, rfl, id⟩
  unfold print
  refine IsLocal.get.bind fun s => ?_
  dsimp only
  split
  · exact isLocal_lineFeed.bind fun _ => hdraw
  · exact hdraw

private theorem isLocal_clear : IsLocal clear := by
  refine .modify fun s => ?_
  exact Stays.trans (t := { s with cells := Array.replicate s.cells.size (.blank s.pen) }) ⟨rfl, rfl, rfl, id⟩
    (stays_setCursor _ 0 0)

/-! ### Commands -/

/-- The command is not about the whole screen. -/
def Command.IsWithin : Command → Prop
  | .showAlternate | .showMain | .reset | .resize _ _ => False
  | _ => True

theorem Command.run_stays {c : Command} (hc : c.IsWithin) : IsLocal c.run := by
  cases c with
  | print code => exact isLocal_print code
  | lineFeed => exact isLocal_lineFeed
  | reverseIndex => exact isLocal_reverseIndex
  | tab => exact .modify fun _ => ⟨rfl, rfl, rfl, id⟩
  | scrollUp n => exact isLocal_scrollUp n
  | scrollDown n => exact isLocal_scrollDown n
  | insertLine n => exact IsLocal.get.bind fun _ => (isLocal_shiftDown _ _).repeated _
  | deleteLine n => exact IsLocal.get.bind fun _ => (isLocal_shiftUp _ _).repeated _
  | deleteCell n => exact IsLocal.get.bind fun _ => (isLocal_shiftLeft _ _).repeated _
  | resetRow row => exact isLocal_resetRow row
  | resetCells row first last => exact isLocal_resetCells row first last
  | clear => exact isLocal_clear
  | showAlternate => exact hc.elim
  | showMain => exact hc.elim
  | reset => exact hc.elim
  | resize width height => exact hc.elim
  | moveToRow row => exact .modify fun s => stays_moveToRow s row
  | moveByRows n => exact .modify fun s => stays_moveToRow s _
  | moveToCol col => exact .modify fun _ => ⟨rfl, rfl, rfl, id⟩
  | moveByCols n => exact .modify fun _ => ⟨rfl, rfl, rfl, id⟩
  | advance => exact .modify fun _ => ⟨rfl, rfl, rfl, id⟩
  | setCursor col row => exact .modify fun s => stays_setCursor s col row
  | setMargins top bottom => exact .modify fun s => stays_setMargins s top bottom
  | applyRendition n => exact .modify fun _ => ⟨rfl, rfl, rfl, id⟩
  | setForeground c => exact .modify fun _ => ⟨rfl, rfl, rfl, id⟩
  | setBackground c => exact .modify fun _ => ⟨rfl, rfl, rfl, id⟩
  | saveCursor => exact .modify fun _ => ⟨rfl, rfl, rfl, id⟩
  | restoreCursor => exact .modify fun s => stays_setCursor s _ _
  | setVisible on => exact .modify fun _ => ⟨rfl, rfl, rfl, id⟩

/-- The screen after a command; one that fails leaves what it has done. -/
def next (s : Screen) (c : Command) : Screen := left c.run s

def after (s : Screen) (commands : List Command) : Screen := commands.foldl next s

theorem next_of_fault {width height : Int} {fault : Fault} (h : sizeFault? width height = some fault) :
    s.next (.resize width height) = s :=
  left_of_error (resize_of_fault h s)

theorem next_of_none {width height : Int} (h : sizeFault? width height = none) :
    s.next (.resize width height) = s.resized width.toNat height.toNat :=
  left_of_ok (resize_of_none h s)

theorem next_showAlternate (h : s.behind = none) :
    s.next .showAlternate = { s with
      behind := some ⟨s.cells, s.cursor⟩, cells := Array.replicate s.cells.size (.blank s.pen) }.home := by
  have halt : s.isAlternate = false := by rw [isAlternate, h]; rfl
  have hok : showAlternate s = .ok () { s with
      behind := some ⟨s.cells, s.cursor⟩, cells := Array.replicate s.cells.size (.blank s.pen) }.home := by
    unfold showAlternate
    rw [get_bind, halt]
    rfl
  exact left_of_ok hok

theorem next_showAlternate_again (h : s.behind ≠ none) : s.next .showAlternate = s := by
  have halt : s.isAlternate = true := Option.isSome_iff_ne_none.2 h
  have hok : showAlternate s = .ok () s := by
    unfold showAlternate
    rw [get_bind, halt]
    rfl
  exact left_of_ok hok

theorem showMain_of_none (h : s.behind = none) : showMain s = .ok () s := by
  cases s
  cases h
  rfl

theorem showMain_of_some {main : Snapshot} (h : s.behind = some main) :
    showMain s =
      .ok () ({ s with cells := main.cells, behind := none }.setCursor main.cursor.col main.cursor.row) := by
  cases s
  cases h
  rfl

/-! ### Screens that come out of commands -/

/-- A screen that was created and has gone through commands of any kind, some of which may have failed. -/
inductive Drawn : Screen → Prop
  | create {s : Screen} {width height : Int} (h : create width height = .ok s) : Drawn s
  | next {s : Screen} (h : Drawn s) (c : Command) : Drawn (s.next c)

private theorem row_lt_next (h : s.cursor.row < s.height) (c : Command) :
    (s.next c).cursor.row < (s.next c).height := by
  by_cases hc : c.IsWithin
  · exact (Command.run_stays hc s).row_lt h
  · cases c with
    | showAlternate =>
      by_cases hb : s.behind = none
      · rw [next_showAlternate hb]
        exact clamp_lt 0 (Nat.zero_lt_of_lt h)
      · rw [next_showAlternate_again hb]
        exact h
    | showMain =>
      cases hb : s.behind with
      | none =>
        have hnext : s.next .showMain = s := left_of_ok (showMain_of_none hb)
        rwa [hnext]
      | some main =>
        have hnext : s.next .showMain = _ := left_of_ok (showMain_of_some hb)
        rw [hnext]
        exact clamp_lt _ (Nat.zero_lt_of_lt h)
    | reset => exact Nat.zero_lt_of_lt h
    | resize width height =>
      cases hfault : sizeFault? width height with
      | some fault =>
        rw [next_of_fault hfault]
        exact h
      | none =>
        obtain ⟨hw, hh, -⟩ := sizeFault?_eq_none.1 hfault
        rw [next_of_none hfault]
        exact (fits_resized s hw hh).cursor.2
    | _ => exact absurd trivial hc

theorem Drawn.row_lt (h : s.Drawn) : s.cursor.row < s.height := by
  induction h with
  | create h =>
    obtain ⟨-, hh, -, rfl⟩ := eq_empty_of_create h
    exact hh
  | next _ c ih => exact row_lt_next ih c

/-! ### The screen behind -/

/-- `main` lies behind `s`, in the same size. -/
structure IsBehind (main s : Screen) : Prop where
  behind_eq : s.behind = some ⟨main.cells, main.cursor⟩
  width_eq : s.width = main.width
  height_eq : s.height = main.height
  cursor : main.cursor.On main.width main.height

/-- The screen in the size that a command asks for, with new cells of a pen; all other commands leave it alone. -/
def resizedBy (main : Screen) (pen : Pen) : Command → Screen
  | .resize width height => { main with pen := pen }.next (.resize width height)
  | _ => main

/-- What the new sizes among commands make of a screen `main`, where the commands are carried out on `s` and each
new size fills with the pen that `s` then has. -/
def resizedAlong (s main : Screen) : List Command → Screen
  | [] => main
  | c :: rest => resizedAlong (s.next c) (main.resizedBy s.pen c) rest

theorem resizedAlong_of_no_resize {main : Screen} {commands : List Command}
    (h : ∀ width height, Command.resize width height ∉ commands) : resizedAlong s main commands = main := by
  induction commands generalizing s with
  | nil => rfl
  | cons c rest ih =>
    have hc : main.resizedBy s.pen c = main := by
      cases c with
      | resize width height => exact absurd List.mem_cons_self (h width height)
      | _ => rfl
    have hrest : ∀ width height, Command.resize width height ∉ rest := fun w k hm => h w k (List.mem_cons_of_mem _ hm)
    rw [resizedAlong, hc]
    exact ih hrest

theorem isBehind_showAlternate (h : s.behind = none) (hcol : s.cursor.col ≤ s.width) (hrow : s.cursor.row < s.height) :
    IsBehind s (s.next .showAlternate) := by
  rw [next_showAlternate h]
  exact ⟨rfl, rfl, rfl, hcol, hrow⟩

private theorem IsBehind.resize {main : Screen} (h : IsBehind main s) (width height : Int) :
    IsBehind (main.resizedBy s.pen (.resize width height)) (s.next (.resize width height)) := by
  obtain ⟨hb, hw, hh, hcur⟩ := h
  show IsBehind ({ main with pen := s.pen }.next (.resize width height)) _
  cases hfault : sizeFault? width height with
  | some fault =>
    rw [next_of_fault hfault, next_of_fault hfault]
    exact ⟨hb, hw, hh, hcur⟩
  | none =>
    obtain ⟨hw', hh', -⟩ := sizeFault?_eq_none.1 hfault
    have hfits := fits_resized { main with pen := s.pen } hw' hh'
    rw [next_of_none hfault, next_of_none hfault]
    refine ⟨?_, rfl, rfl, hfits.cursor⟩
    simp only [resized, hb, hw, hh, Option.map_some]

/-- One command in front of the main screen: what lies behind afterwards is the main screen in the new size, if the
command was about that. -/
theorem IsBehind.next {main : Screen} (h : IsBehind main s) {c : Command} (hmain : c ≠ .showMain)
    (hreset : c ≠ .reset) : IsBehind (main.resizedBy s.pen c) (s.next c) := by
  by_cases hc : c.IsWithin
  · have hstays := Command.run_stays hc s
    have hsame : main.resizedBy s.pen c = main := by
      cases c with
      | resize width height => exact hc.elim
      | _ => rfl
    rw [hsame]
    exact ⟨hstays.behind_eq.trans h.behind_eq, hstays.width_eq.trans h.width_eq,
      hstays.height_eq.trans h.height_eq, h.cursor⟩
  · cases c with
    | showAlternate =>
      have hb : s.behind ≠ none := by rw [h.behind_eq]; exact Option.some_ne_none _
      rw [next_showAlternate_again hb]
      exact h
    | showMain => exact absurd rfl hmain
    | reset => exact absurd rfl hreset
    | resize width height => exact h.resize width height
    | _ => exact absurd trivial hc

theorem IsBehind.after {main : Screen} (h : IsBehind main s) {commands : List Command}
    (hc : ∀ c ∈ commands, c ≠ .showMain ∧ c ≠ .reset) :
    IsBehind (resizedAlong s main commands) (s.after commands) := by
  induction commands generalizing s main with
  | nil => exact h
  | cons c rest ih =>
    obtain ⟨hmain, hreset⟩ := hc c List.mem_cons_self
    exact ih (h.next hmain hreset) fun d hd => hc d (List.mem_cons_of_mem _ hd)

theorem IsBehind.showMain_eq {main : Screen} (h : IsBehind main s) :
    showMain s = .ok () { s with cells := main.cells, behind := none, cursor := main.cursor } := by
  have hcol : clamp main.cursor.col s.width = main.cursor.col := clamp_of_le (h.width_eq ▸ h.cursor.1)
  have hrow : clamp main.cursor.row (s.height - 1) = main.cursor.row := by
    have hlt := h.cursor.2
    exact clamp_of_le (by rw [h.height_eq]; omega)
  rw [showMain_of_some h.behind_eq]
  simp only [setCursor, hcol, hrow]

/-- Whatever commands are carried out in front of the main screen, unless they bring it back or reset it, it comes
back with the cells and the cursor that it would have if only the new sizes among them had been asked for; without
new sizes, that is with its own, a pending wrap included. -/
theorem showMain_gives_back (hs : s.Drawn) (hmain : s.isAlternate = false) (hcol : s.cursor.col ≤ s.width)
    {commands : List Command} (hc : ∀ c ∈ commands, c ≠ .showMain ∧ c ≠ .reset) :
    let front := s.next .showAlternate
    let main := resizedAlong front s commands
    (∃ t, Command.showMain.run (front.after commands) = .ok () t ∧ t.isAlternate = false ∧
      t.width = main.width ∧ t.height = main.height ∧ t.cells = main.cells ∧ t.cursor = main.cursor) ∧
    ((∀ width height, Command.resize width height ∉ commands) → main = s) := by
  have hb : s.behind = none := by
    rw [← Option.not_isSome_iff_eq_none]
    exact Bool.eq_false_iff.1 hmain
  have h := (isBehind_showAlternate hb hcol hs.row_lt).after hc
  exact ⟨⟨_, h.showMain_eq, rfl, h.width_eq, h.height_eq, rfl, rfl⟩, resizedAlong_of_no_resize⟩

/-- A full row is left with a wrap pending; the alternate screen is drawn on in red and made larger, so the new cells
of the row that comes back are red. -/
theorem gives_back_full_row :
    let s := (empty 2 1).after [.print 0x61, .print 0x62]
    let commands : List Command := [.applyRendition 41, .print 0x78, .resize 3 1, .showAlternate, .deleteLine 9]
    let red : Pen := { Pen.plain with background := .red }
    (s.Drawn ∧ s.isAlternate = false ∧ s.cursor.col ≤ s.width ∧ ∀ c ∈ commands, c ≠ .showMain ∧ c ≠ .reset) ∧
      ∃ t, Command.showMain.run ((s.next .showAlternate).after commands) = .ok () t ∧
        t.cells = #[⟨0x61, .plain⟩, ⟨0x62, .plain⟩, .blank red] ∧ t.cursor = ⟨2, 0⟩ := by
  have hempty : (empty 2 1).Drawn := @Drawn.create _ 2 1 rfl
  have hdrawn : ((empty 2 1).after [.print 0x61, .print 0x62]).Drawn :=
    (hempty.next (.print 0x61)).next (.print 0x62)
  have hcommands : ∀ c ∈ ([.applyRendition 41, .print 0x78, .resize 3 1, .showAlternate, .deleteLine 9] :
      List Command), c ≠ .showMain ∧ c ≠ .reset := by decide
  have hcol : ((empty 2 1).after [.print 0x61, .print 0x62]).cursor.col ≤
      ((empty 2 1).after [.print 0x61, .print 0x62]).width := by decide +kernel
  obtain ⟨⟨t, ht, -, -, -, hcells, hcursor⟩, -⟩ := showMain_gives_back hdrawn (by decide +kernel) hcol hcommands
  refine ⟨⟨hdrawn, by decide +kernel, hcol, hcommands⟩, t, ht, hcells.trans ?_, hcursor.trans ?_⟩
  · decide +kernel
  · decide +kernel

end ScreenWatch.Screen
