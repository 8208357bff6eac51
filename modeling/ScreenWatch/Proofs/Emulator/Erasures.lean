import Mathlib.Data.Prod.Lex
import ScreenWatch.Proofs.Emulator.Feeding
import ScreenWatch.Proofs.Screen.Shifts

/-!
# Erasures

The erasures in the line and in the screen cover what stands, in reading order, from the cursor on, up to the cursor,
or anywhere (`covers`): a row is erased in part, and those below or above it as a whole (`erasureInLine_erases`,
`erasureInDisplay_erases`).  The cell of the cursor is covered in both directions, so the two partial erasures one
after the other are the full one (`Reached.erasures_cover`).
-/

namespace ScreenWatch

open Control (Sequence Function)
open Control.Function (runAll erasureInLine erasureInDisplay)

namespace Screen

variable {s t u : Screen} {p q : Nat → Nat → Bool}

/-! ### Erased cells -/

/-- The cells that `p` holds of have become blanks of the present pen, and nothing else has changed. -/
def Erases (s : Screen) (p : Nat → Nat → Bool) (t : Screen) : Prop :=
  RedrawsAs s (fun y x => if p y x then ⟨0x20, s.pen⟩ else s.cellAt y x) t

namespace Erases

theorem refl (s : Screen) : Erases s (fun _ _ => false) s := (RedrawsAs.refl s).congr fun _ _ _ _ => rfl

theorem congr (h : Erases s p t) (hp : ∀ y < s.height, ∀ x < s.width, p y x = q y x) : Erases s q t :=
  RedrawsAs.congr h fun y hy x hx => by rw [hp y hy x hx]

theorem trans (h : Erases s p t) (h' : Erases t q u) : Erases s (fun y x => p y x || q y x) u := by
  refine RedrawsAs.congr (RedrawsAs.trans h h') ?_
  intro y hy x hx
  dsimp only
  rw [h.pen_eq, h.cellAt_eq y hy x hx]
  by_cases hq : q y x = true
  · simp only [hq, Bool.or_true, ite_true]
  · simp only [Bool.eq_false_iff.2 hq, Bool.or_false, Bool.false_eq_true, ite_false]

theorem unique (hs : s.IsGrid) (h : Erases s p t) (h' : Erases s p u) : t = u := RedrawsAs.unique hs h h'

theorem fits (hs : s.Fits) (h : Erases s p t) : t.Fits :=
  (@Redraws.continues (fun _ => True) s t trivial hs h.toRedraws).fits

end Erases

/-- One erasure after another. -/
theorem erases_bind {act act' : ScreenM Unit} (h : Succeeds act s fun _ => Erases s p)
    (h' : ∀ t, Erases s p t → Succeeds act' t fun _ => Erases t q) :
    Succeeds (do act; act') s fun _ => Erases s fun y x => p y x || q y x :=
  h.bind fun _ t ht => (h' t ht).mono fun _ _ hu => ht.trans hu

theorem runAll_singleton_erases {c : Command} (h : Succeeds c.run s fun _ => Erases s p) :
    Succeeds (runAll [c]) s fun _ => Erases s p := by
  obtain ⟨_, t, ht, herases⟩ := h
  exact ⟨(), t, Control.Function.runAll_singleton ht, herases⟩

theorem resetCells_erases (hs : s.IsGrid) {row : Nat} (hr : row < s.height) (first last : Int) :
    Succeeds (resetCells row first last) s fun _ => Erases s fun y x => y = row ∧ first ≤ x ∧ x ≤ last := by
  refine (resetCells_spec hs hr first last).mono fun _ t ht => ht.congr ?_
  intro y _ x _
  simp only [decide_eq_true_eq, Cell.blank]

theorem resetRow_erases (hs : s.IsGrid) {row : Nat} (hr : row < s.height) :
    Succeeds (resetRow row) s fun _ => Erases s fun y _ => y = row := by
  refine (resetRow_spec hs hr).mono fun _ t ht => ht.congr ?_
  intro y _ x _
  simp only [decide_eq_true_eq, Cell.blank]

/-- Rows that are erased as a whole, one after another. -/
theorem resetRows_erases (hs : s.IsGrid) {first n : Nat} (h : first + n ≤ s.height) :
    Succeeds (runAll ((List.range n).map fun i => .resetRow (first + i : Nat))) s fun _ =>
      Erases s fun y _ => first ≤ y ∧ y < first + n := by
  unfold runAll
  rw [List.forM_eq_forM, List.forM_map]
  refine Succeeds.forM_range (fun k => Erases s fun y _ => first ≤ y ∧ y < first + k) ?_ ?_
  · refine (Erases.refl s).congr ?_
    intro y _ x _
    symm
    rw [decide_eq_false_iff_not]
    omega
  · intro i hi t ht
    have hrow : first + i < t.height := by rw [ht.height_eq]; omega
    refine (resetRow_erases (ht.isGrid hs) hrow).mono fun _ u hu => (ht.trans hu).congr ?_
    intro y _ x _
    rw [← Bool.decide_or, decide_eq_decide]
    omega

/-! ### What an erasure covers -/

/-- Where the cell of a row and column stands in reading order. -/
def place (row col : Nat) : Nat ×ₗ Nat := toLex (row, col)

theorem place_le_place {y x y' x' : Nat} : place y x ≤ place y' x' ↔ y < y' ∨ y = y' ∧ x ≤ x' :=
  Prod.Lex.toLex_le_toLex

/-- Whether an erasure reaches the cell of a row and column: those from the cursor on, those up to it, or all. -/
def covers (extent : Nat) (cursor : Position) (row col : Nat) : Bool :=
  match extent with
  | 0 => place cursor.row cursor.col ≤ place row col
  | 1 => place row col ≤ place cursor.row cursor.col
  | 2 => true
  | _ => false

/-- What is not before the cursor is from it on. -/
theorem covers_zero_or_one (cursor : Position) (row col : Nat) :
    (covers 0 cursor row col || covers 1 cursor row col) = covers 2 cursor row col := by
  simp only [covers, Bool.or_eq_true, decide_eq_true_eq]
  exact le_total _ _

/-- What the erasure reaches in the row of the cursor has become blank. -/
def ErasesInLine (s : Screen) (extent : Nat) (t : Screen) : Prop :=
  Erases s (fun y x => y = s.cursor.row && covers extent s.cursor y x) t

/-- What the erasure reaches on the screen has become blank; if that is all of it, the cursor has gone home. -/
def ErasesInDisplay (s : Screen) (extent : Nat) (t : Screen) : Prop :=
  ∃ u, Erases s (covers extent s.cursor) u ∧ t = if extent = 2 then { u with cursor := ⟨0, 0⟩ } else u

theorem erasureInLine_erases (hs : s.Fits) (extent : Nat) :
    Succeeds (runAll (erasureInLine s extent)) s fun _ => ErasesInLine s extent := by
  have hrow := hs.cursor.2
  match extent with
  | 0 =>
    have hcells := runAll_singleton_erases (c := .resetCells s.cursor.row s.cursor.col (s.width - 1))
      (resetCells_erases hs.isGrid hrow s.cursor.col (s.width - 1))
    refine hcells.mono fun _ t ht => ht.congr ?_
    intro y _ x hx
    simp only [covers, place_le_place, ← Bool.decide_and, decide_eq_decide]
    omega
  | 1 =>
    have hcells := runAll_singleton_erases (c := .resetCells s.cursor.row 0 s.cursor.col)
      (resetCells_erases hs.isGrid hrow 0 s.cursor.col)
    refine hcells.mono fun _ t ht => ht.congr ?_
    intro y _ x _
    simp only [covers, place_le_place, ← Bool.decide_and, decide_eq_decide]
    omega
  | 2 =>
    have hcells := runAll_singleton_erases (c := .resetRow s.cursor.row) (resetRow_erases hs.isGrid hrow)
    refine hcells.mono fun _ t ht => ht.congr ?_
    intro y _ x _
    simp only [covers, Bool.and_true]
  | n + 3 =>
    have hnone : erasureInLine s (n + 3 : Nat) = [] := by
      unfold erasureInLine
      rw [if_neg (by omega), if_neg (by omega), if_neg (by omega)]
    rw [hnone]
    refine ⟨(), s, rfl, (Erases.refl s).congr ?_⟩
    intro y _ x _
    simp only [covers, Bool.and_false]

/-- A screen that is erased as a whole has the cursor at home, too. -/
theorem clear_erases (hs : s.IsGrid) : Succeeds clear s fun _ t =>
    ∃ u, Erases s (fun _ _ => true) u ∧ t = { u with cursor := ⟨0, 0⟩ } := by
  let u : Screen := { s with cells := Array.replicate s.cells.size (.blank s.pen) }
  have hcell : ∀ y < s.height, ∀ x < s.width, u.cellAt y x = .blank s.pen := by
    intro y hy x hx
    have hi : y * s.width + x < s.cells.size := hs ▸ index_lt hy hx
    simp [u, cellAt, Array.getD_eq_getD_getElem?, hi]
  refine .modify ⟨u, ⟨⟨rfl, Array.size_replicate, ?_⟩, hcell⟩, ?_⟩
  · intro y hy x hx
    exact .inl (hcell y hy x hx)
  · show u.setCursor (0 : Nat) (0 : Nat) = _
    rw [setCursor, clamp_of_le (Nat.zero_le _), clamp_of_le (Nat.zero_le _)]

theorem erasureInDisplay_erases (hs : s.Fits) (extent : Nat) :
    Succeeds (runAll (erasureInDisplay s extent)) s fun _ => ErasesInDisplay s extent := by
  have hrow := hs.cursor.2
  -- The part of a row and the whole rows are erased one after the other, in the order of the extent.
  match extent with
  | 0 =>
    have hcells := resetCells_erases hs.isGrid hrow s.cursor.col (s.width - 1)
    have hboth := erases_bind hcells fun t ht =>
      @resetRows_erases t (ht.isGrid hs.isGrid) (s.cursor.row + 1) (s.height - (s.cursor.row + 1))
        (by rw [ht.height_eq]; omega)
    refine hboth.mono fun _ t ht => ⟨t, ht.congr ?_, rfl⟩
    intro y hy x hx
    simp only [covers, place_le_place, ← Bool.decide_or, decide_eq_decide]
    omega
  | 1 =>
    have hrows := @resetRows_erases s hs.isGrid 0 s.cursor.row (by omega)
    have hboth := erases_bind hrows fun t ht =>
      runAll_singleton_erases (c := .resetCells s.cursor.row 0 s.cursor.col)
        (resetCells_erases (ht.isGrid hs.isGrid) (by rw [ht.height_eq]; exact hrow) 0 s.cursor.col)
    simp only [Nat.zero_add] at hboth
    rw [← Control.Function.runAll_append] at hboth
    refine hboth.mono fun _ t ht => ⟨t, ht.congr ?_, rfl⟩
    intro y hy x hx
    simp only [covers, place_le_place, ← Bool.decide_or, decide_eq_decide]
    omega
  | 2 =>
    obtain ⟨_, t, ht, u, hu, rfl⟩ := clear_erases hs.isGrid
    exact ⟨(), _, Control.Function.runAll_singleton ht, u, hu, rfl⟩
  | n + 3 =>
    have hnone : erasureInDisplay s (n + 3 : Nat) = [] := by
      unfold erasureInDisplay
      dsimp only
      rw [if_neg (by omega), if_neg (by omega), if_neg (by omega)]
    have hn : n + 3 ≠ 2 := by omega
    rw [hnone]
    exact ⟨(), s, rfl, s, Erases.refl s, (if_neg hn).symm⟩

end Screen

/-! ### Control sequences that erase -/

/-- The number that tells how far an erasure reaches: the first parameter, or zero if there is none. -/
def Control.Sequence.extent (q : Sequence) : Nat := q.params.headD 0

private theorem param_eq_extent (q : Sequence) : q.param 0 0 = q.extent := by
  unfold Sequence.param Sequence.extent
  cases q.params with
  | nil => rfl
  | cons n rest =>
    show (if 0 < n then (n : Int) else 0) = n
    split <;> omega

namespace Emulator

open Screen (Erases ErasesInLine ErasesInDisplay covers)

variable {e : Emulator}

/-- Carries out the control sequence of a final character, with what has been collected of it. -/
def carryOut (q : Sequence) (final : Int) : EmulatorM (List Notice) := do
  modify fun e => { e with sequence := q }
  dispatch .csi final

/-- The action ends well, and then the emulator shows the screen. -/
def Shows (act : EmulatorM (List Notice)) (e : Emulator) (t : Screen) : Prop :=
  Succeeds act e fun _ e' => e'.screen = t

private theorem carryOut_spec {final : Int} {f : Function} (hf : Function.ofFinal? .csi final = some f) {q : Sequence}
    {P : Screen → Prop} (h : Succeeds (f.perform q) e.screen fun _ => P) :
    Succeeds (carryOut q final) e fun _ e' => P e'.screen := by
  obtain ⟨_, t, ht, hp⟩ := h
  obtain ⟨notices, hn⟩ := dispatch_eq (e := { e with sequence := q }) hf ht
  exact ⟨notices, { e with sequence := q, screen := t }, hn, hp⟩

private theorem lineErasure_erases (hs : e.screen.Fits) (q : Sequence) :
    Succeeds (carryOut q 0x4B) e fun _ e' => ErasesInLine e.screen q.extent e'.screen := by
  have hf : Function.ofFinal? .csi 0x4B = some .eraseInLine := by decide
  refine carryOut_spec hf (.get_bind ?_)
  show Succeeds (runAll (erasureInLine e.screen (q.param 0 0))) e.screen _
  rw [param_eq_extent]
  exact Screen.erasureInLine_erases hs q.extent

private theorem displayErasure_erases (hs : e.screen.Fits) (q : Sequence) :
    Succeeds (carryOut q 0x4A) e fun _ e' => ErasesInDisplay e.screen q.extent e'.screen := by
  have hf : Function.ofFinal? .csi 0x4A = some .eraseInDisplay := by decide
  refine carryOut_spec hf (.get_bind ?_)
  show Succeeds (runAll (erasureInDisplay e.screen (q.param 0 0))) e.screen _
  rw [param_eq_extent]
  exact Screen.erasureInDisplay_erases hs q.extent

/-- Two erasures in the line cover what one of them covers: the cursor has not moved between them. -/
private theorem lineErasures_erase (hs : e.screen.Fits) (q q' : Sequence) :
    Succeeds (do discard (carryOut q 0x4B); carryOut q' 0x4B) e fun _ e' => Erases e.screen
      (fun y x => y = e.screen.cursor.row &&
        (covers q.extent e.screen.cursor y x || covers q'.extent e.screen.cursor y x)) e'.screen := by
  refine (lineErasure_erases hs q).discard.bind fun _ d hd => ?_
  refine (lineErasure_erases (hd.fits hs) q').mono fun _ e' he' => (hd.trans he').congr ?_
  intro y _ x _
  rw [hd.cursor_eq, Bool.and_or_distrib_left]

private theorem displayErasures_erase (hs : e.screen.Fits) {q q' : Sequence} (hq : q.extent ≠ 2) (hq' : q'.extent ≠ 2) :
    Succeeds (do discard (carryOut q 0x4A); carryOut q' 0x4A) e fun _ e' => Erases e.screen
      (fun y x => covers q.extent e.screen.cursor y x || covers q'.extent e.screen.cursor y x) e'.screen := by
  refine (displayErasure_erases hs q).discard.bind fun _ d hd => ?_
  obtain ⟨t, ht, hdt⟩ := hd
  rw [if_neg hq] at hdt
  subst hdt
  refine (displayErasure_erases (ht.fits hs) q').mono fun _ e' he' => ?_
  obtain ⟨u, hu, he'u⟩ := he'
  rw [if_neg hq'] at he'u
  subst he'u
  refine (ht.trans hu).congr ?_
  intro y _ x _
  rw [ht.cursor_eq]

/-- In an emulator that comes out of a run, whatever parameters are given, an erasure in the screen blanks, in the
present pen, what stands from the cursor on, up to the cursor, or everywhere, in reading order, and an erasure in the
line what of that stands in the row of the cursor; other parameters blank nothing.  Nothing else changes, except that
the cursor goes home when the whole screen is erased.  Hence the two partial erasures, one after the other, do what the
full one does, up to where the cursor goes. -/
theorem Reached.erasures_cover (he : e.Reached) :
    (∀ q, Succeeds (carryOut q 0x4A) e fun _ e' => ErasesInDisplay e.screen q.extent e'.screen) ∧
    (∀ q, Succeeds (carryOut q 0x4B) e fun _ e' => ErasesInLine e.screen q.extent e'.screen) ∧
    ∀ q₀ q₁ q₂ : Sequence, q₀.extent = 0 → q₁.extent = 1 → q₂.extent = 2 →
      (∃ t, Shows (do discard (carryOut q₀ 0x4B); carryOut q₁ 0x4B) e t ∧
        Shows (do discard (carryOut q₁ 0x4B); carryOut q₀ 0x4B) e t ∧ Shows (carryOut q₂ 0x4B) e t) ∧
      ∃ t, Shows (do discard (carryOut q₀ 0x4A); carryOut q₁ 0x4A) e t ∧
        Shows (do discard (carryOut q₁ 0x4A); carryOut q₀ 0x4A) e t ∧
        Shows (carryOut q₂ 0x4A) e { t with cursor := ⟨0, 0⟩ } := by
  have hs := he.sound.fits
  have hgrid := hs.isGrid
  refine ⟨displayErasure_erases hs, lineErasure_erases hs, ?_⟩
  intro q₀ q₁ q₂ h₀ h₁ h₂
  have hcovers (y x : Nat) := Screen.covers_zero_or_one e.screen.cursor y x
  constructor
  · obtain ⟨_, d, hd, herases⟩ := lineErasure_erases hs q₂
    refine ⟨d.screen, ?_, ?_, ⟨_, d, hd, rfl⟩⟩
    · refine (lineErasures_erase hs q₀ q₁).mono fun _ e' he' => he'.unique hgrid (herases.congr ?_)
      intro y _ x _
      rw [h₀, h₁, h₂, hcovers]
    · refine (lineErasures_erase hs q₁ q₀).mono fun _ e' he' => he'.unique hgrid (herases.congr ?_)
      intro y _ x _
      rw [h₀, h₁, h₂, Bool.or_comm, hcovers]
  · obtain ⟨_, d, hd, t, ht, hdt⟩ := displayErasure_erases hs q₂
    rw [if_pos h₂] at hdt
    have hne₀ : q₀.extent ≠ 2 := by omega
    have hne₁ : q₁.extent ≠ 2 := by omega
    refine ⟨t, ?_, ?_, ⟨_, d, hd, hdt⟩⟩
    · refine (displayErasures_erase hs hne₀ hne₁).mono fun _ e' he' => he'.unique hgrid (ht.congr ?_)
      intro y _ x _
      rw [h₀, h₁, h₂, hcovers]
    · refine (displayErasures_erase hs hne₁ hne₀).mono fun _ e' he' => he'.unique hgrid (ht.congr ?_)
      intro y _ x _
      rw [h₀, h₁, h₂, Bool.or_comm, hcovers]

/-- Two rows of two letters, and a wrap pending in the first one, where the cursor went back to: from the cursor on
there is the second row only, up to it the first row only. -/
theorem erasures_cover_letters : ∃ e : Emulator, e.Reached ∧ e.screen.cursor = ⟨2, 0⟩ ∧
    (Succeeds (carryOut { } 0x4A) e fun _ e' =>
      e'.screen.cellAt 0 1 = ⟨0x62, .plain⟩ ∧ e'.screen.cellAt 1 0 = ⟨0x20, .plain⟩) ∧
    (Succeeds (carryOut { params := [1, 2] } 0x4A) e fun _ e' =>
      e'.screen.cellAt 0 1 = ⟨0x20, .plain⟩ ∧ e'.screen.cellAt 1 0 = ⟨0x63, .plain⟩) ∧
    Succeeds (carryOut { params := [0] } 0x4B) e fun _ e' => e'.screen = e.screen := by
  have hcreate : Emulator.Reached { screen := .empty 2 2 } := @Emulator.Reached.create _ 2 2 rfl
  have he := hcreate.take [0x61, 0x62, 0x63, 0x64, 0x1B, 0x5B, 0x48, 0x61, 0x62]
  obtain ⟨e, he, hcursor, hw, hh, hpen, hb, hc⟩ : ∃ e : Emulator, e.Reached ∧ e.screen.cursor = ⟨2, 0⟩ ∧
      e.screen.width = 2 ∧ e.screen.height = 2 ∧ e.screen.pen = .plain ∧ e.screen.cellAt 0 1 = ⟨0x62, .plain⟩ ∧
      e.screen.cellAt 1 0 = ⟨0x63, .plain⟩ :=
    ⟨_, he, by decide +kernel, by decide +kernel, by decide +kernel, by decide +kernel, by decide +kernel,
      by decide +kernel⟩
  obtain ⟨hdisplay, hline, -⟩ := Reached.erasures_cover he
  unfold ErasesInDisplay at hdisplay
  unfold ErasesInLine at hline
  rw [hcursor] at hdisplay hline
  refine ⟨e, he, hcursor, ?_, ?_, ?_⟩
  · refine (hdisplay { }).mono fun _ e' ⟨t, ht, he'⟩ => ?_
    have he't : e'.screen = t := he'
    rw [he't]
    constructor
    · exact (ht.cellAt_eq 0 (by omega) 1 (by omega)).trans ((if_neg (by decide)).trans hb)
    · exact (ht.cellAt_eq 1 (by omega) 0 (by omega)).trans ((if_pos (by decide)).trans (by rw [hpen]))
  · refine (hdisplay { params := [1, 2] }).mono fun _ e' ⟨t, ht, he'⟩ => ?_
    have he't : e'.screen = t := he'
    rw [he't]
    constructor
    · exact (ht.cellAt_eq 0 (by omega) 1 (by omega)).trans ((if_pos (by decide)).trans (by rw [hpen]))
    · exact (ht.cellAt_eq 1 (by omega) 0 (by omega)).trans ((if_neg (by decide)).trans hc)
  · refine (hline { params := [0] }).mono fun _ e' he' => ?_
    refine Erases.unique he.sound.fits.isGrid he' ((Erases.refl e.screen).congr ?_)
    intro y hy x hx
    rw [hh] at hy
    rw [hw] at hx
    -- No column of the row stands past its last one.
    decide +revert

end Emulator

end ScreenWatch
