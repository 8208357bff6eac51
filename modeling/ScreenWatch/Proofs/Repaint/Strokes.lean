import ScreenWatch.Proofs.Repaint.Sequences

/-!
# What strokes do

A stroke has two sides: its bytes, which turn the screen of an emulator, and what is believed of that emulator
afterwards.  `Yields` says what both come to.  The moves of the cursor (`move_yields`, `silentMove_yields`) and the
selection of a pen (`usePen_yields`) do what is then believed, if the position that was believed before is unknown
or the right one (`Brush.IsAt`).
-/

namespace ScreenWatch.Repaint

open Emulator (Turns)

variable {b : Brush} {s t : Screen}

/-- The position that is believed is unknown or that of the cursor. -/
def Brush.IsAt (b : Brush) (s : Screen) : Prop :=
  b.col = -1 ∨ b.row = -1 ∨ (b.col = s.cursor.col ∧ b.row = s.cursor.row)

namespace Stroke

/-- The bytes of the stroke turn `s` into a screen such that `Q` holds of what is then believed and of that screen. -/
def Yields (k : Stroke) (b : Brush) (s : Screen) (Q : Brush → Screen → Prop) : Prop :=
  ∃ t, Turns (k b).1 s t ∧ Q (k b).2 t

namespace Yields

variable {k k' : Stroke} {Q R : Brush → Screen → Prop}

theorem mono (h : k.Yields b s Q) (hQ : ∀ b t, Q b t → R b t) : k.Yields b s R := by
  obtain ⟨t, ht, hq⟩ := h
  have hr := hQ (k b).2 t hq
  exact ⟨t, ht, hr⟩

theorem exactly (h : k.Yields b s Q) : k.Yields b s fun b' t => b' = (k b).2 ∧ Q b' t := by
  obtain ⟨t, ht, hq⟩ := h
  exact ⟨t, ht, rfl, hq⟩

theorem of_eq {bytes : Bytes} {b' : Brush} (e : k b = (bytes, b')) (ht : Turns bytes s t) (h : Q b' t) :
    k.Yields b s Q := by
  unfold Yields
  rw [e]
  exact ⟨t, ht, h⟩

theorem congr {b' : Brush} (e : k b = k' b') (h : k'.Yields b' s Q) : k.Yields b s Q := by
  unfold Yields
  rw [e]
  exact h

theorem nothing (h : Q b s) : Stroke.nothing.Yields b s Q := ⟨s, .nil s, h⟩

theorem put {bytes : Bytes} (ht : Turns bytes s t) (h : Q b t) : (Stroke.put bytes).Yields b s Q := ⟨t, ht, h⟩

theorem believe {f : Brush → Brush} (h : Q (f b) s) : (Stroke.believe f).Yields b s Q := ⟨s, .nil s, h⟩

theorem andThen (h : k.Yields b s Q) (h' : ∀ b t, Q b t → k'.Yields b t R) : (k.andThen k').Yields b s R := by
  obtain ⟨t, ht, hq⟩ := h
  obtain ⟨u, hu, hr⟩ := h' _ t hq
  have hboth := ht.append hu
  exact ⟨u, hboth, hr⟩

theorem all_nil (h : Q b s) : (all []).Yields b s Q := nothing h

theorem all_cons {rest : List Stroke} (h : k.Yields b s Q) (h' : ∀ b t, Q b t → (all rest).Yields b t R) :
    (all (k :: rest)).Yields b s R :=
  andThen h h'

theorem all_singleton (h : k.Yields b s Q) : (all [k]).Yields b s Q := all_cons h fun _ _ hq => all_nil hq

/-- Strokes one after another, one for each number below `n`, with a fact for the start of each. -/
theorem all_range {n : Nat} {f : Nat → Stroke} (I : Nat → Brush → Screen → Prop) (h : I 0 b s)
    (hf : ∀ i < n, ∀ b t, I i b t → (f i).Yields b t (I (i + 1))) :
    (all ((List.range n).map f)).Yields b s (I n) := by
  -- The strokes from `k` on, so that the list of the induction is a suffix of the range.
  suffices ∀ m k b t, k + m = n → I k b t → (all ((List.range' k m).map f)).Yields b t (I n) by
    rw [List.range_eq_range']
    exact this n 0 b s (by omega) h
  intro m
  induction m with
  | zero =>
    intro k b t hk ht
    obtain rfl : k = n := by omega
    exact all_nil ht
  | succ m ih =>
    intro k b t hk ht
    rw [List.range'_succ, List.map_cons]
    refine all_cons (hf k (by omega) b t ht) ?_
    intro b' u hu
    exact ih (k + 1) b' u (by omega) hu

end Yields

/-! ### Moves -/

private theorem turns_lineFeeds {n : Nat} (hcol : s.cursor.col = 0) (hr : s.cursor.row + n < s.height) :
    Turns (List.replicate n 0x0A) s { s with cursor := ⟨0, s.cursor.row + n⟩ } := by
  induction n generalizing s with
  | zero =>
    have hs : s = { s with cursor := ⟨0, s.cursor.row⟩ } := by rw [← hcol]
    exact hs ▸ .nil s
  | succ n ih =>
    have hrest := ih (s := { s with cursor := ⟨0, s.cursor.row + 1⟩ }) rfl (by dsimp only; omega)
    dsimp only at hrest
    rw [Nat.add_right_comm, Nat.add_assoc] at hrest
    exact (turns_lineFeed (by omega)).append hrest

private theorem turns_nextLines {n : Nat} (hr : s.cursor.row + n < s.height) :
    Turns ((if (s.cursor.col : Int) ≠ 0 then [0x0D] else []) ++ List.replicate n 0x0A) s
      { s with cursor := ⟨0, s.cursor.row + n⟩ } := by
  by_cases h : (s.cursor.col : Int) ≠ 0
  · rw [if_pos h]
    exact (turns_carriageReturn s).append (turns_lineFeeds rfl hr)
  · rw [if_neg h]
    exact turns_lineFeeds (by omega) hr

/-- A move within a grid of at most 65535 rows and columns really moves the cursor, and nothing else. -/
theorem move_yields (hb : b.IsAt s) (hw : s.width ≤ 65535) (hh : s.height ≤ 65535) {row col : Nat}
    (hr : row < s.height) (hc : col < s.width) :
    (move row col).Yields b s fun b' t => b' = { b with row, col } ∧ t = { s with cursor := ⟨col, row⟩ } := by
  have habs := turns_absoluteMove hr hc (by omega) (by omega)
  suffices h : Turns (moveBytes b row col) s { s with cursor := ⟨col, row⟩ } from ⟨_, h, rfl, rfl⟩
  unfold moveBytes
  split
  · exact habs
  · rename_i hknown
    obtain ⟨hbc, hbr⟩ : b.col = s.cursor.col ∧ b.row = s.cursor.row := by
      rcases hb with h | h | h
      · exact (hknown (.inl h)).elim
      · exact (hknown (.inr h)).elim
      · exact h
    rw [hbc, hbr]
    split
    · rename_i h
      have hs : s = { s with cursor := ⟨col, row⟩ } := by
        rw [Int.natCast_inj.1 h.1, Int.natCast_inj.1 h.2]
      exact hs ▸ .nil s
    · split
      · rename_i h
        obtain ⟨n, rfl⟩ : ∃ n, row = s.cursor.row + n := ⟨row - s.cursor.row, by omega⟩
        obtain rfl : col = 0 := by omega
        have hn : (((s.cursor.row + n : Nat) : Int) - s.cursor.row).toNat = n := by omega
        rw [hn]
        exact turns_nextLines hr
      · exact habs

/-- A silent move hides the cursor unless it is there already. -/
theorem silentMove_yields (hb : b.IsAt s) (hw : s.width ≤ 65535) (hh : s.height ≤ 65535) {row col : Nat}
    (hr : row < s.height) (hc : col < s.width) :
    (silentMove row col).Yields b s fun b' t =>
      b' = { b with row, col, visible := b.visible && decide (b.col = col ∧ b.row = row) } ∧
        t = { s with cursor := ⟨col, row⟩,
                     visible := if b.visible ∧ ¬ (b.col = col ∧ b.row = row) then false else s.visible } := by
  -- Nothing is sent if the cursor is there; otherwise it has to be hidden first if it shows.
  by_cases h : b.col = col ∧ b.row = row
  · have hs : s.cursor = ⟨col, row⟩ := by
      rcases hb with h' | h' | h'
      · omega
      · omega
      · rw [Int.natCast_inj.1 (h.1.symm.trans h'.1), Int.natCast_inj.1 (h.2.symm.trans h'.2)]
    refine .of_eq (if_pos h) (.nil s) ?_
    constructor
    · rw [decide_eq_true h, Bool.and_true, ← h.1, ← h.2]
    · rw [if_neg fun h' => h'.2 h, ← hs]
  · rw [decide_eq_false h, Bool.and_false]
    cases hv : b.visible with
    | false =>
      have e : silentMove row col b = move row col b := by
        unfold silentMove
        rw [if_neg h, hv, if_neg (by decide)]
      refine .congr e ((move_yields hb hw hh hr hc).mono ?_)
      rintro b' t ⟨hb', ht⟩
      constructor
      · rw [hb', hv]
      · rw [ht, if_neg fun h' => Bool.false_ne_true h'.1]
    | true =>
      have e : silentMove row col b = (put hideCursor).andThen (move row col) { b with visible := false } := by
        unfold silentMove
        rw [if_neg h, if_pos hv]
      have hhide : (put hideCursor).Yields { b with visible := false } s fun b' t =>
          b' = { b with visible := false } ∧ t = { s with visible := false } :=
        .put (turns_setVisible false s) ⟨rfl, rfl⟩
      refine .congr e (hhide.andThen ?_)
      rintro _ _ ⟨rfl, rfl⟩
      have hmove := move_yields (b := { b with visible := false }) (s := { s with visible := false }) hb hw hh hr hc
      refine hmove.mono ?_
      rintro b' t ⟨hb', ht⟩
      refine ⟨hb', ?_⟩
      rw [ht, if_pos ⟨rfl, h⟩]

/-! ### Pens and visibility -/

/-- A pen is selected; if that is not forced, the pen that is believed has to be the right one. -/
theorem usePen_yields {force : Bool} (h : force = true ∨ s.pen = b.pen) (p : Pen) :
    (usePen p force).Yields b s fun b' t => b' = { b with pen := p } ∧ t = { s with pen := p } := by
  by_cases hp : force = true ∨ b.pen ≠ p
  · exact .of_eq (if_pos hp) (turns_sgr p s) ⟨rfl, rfl⟩
  · obtain rfl : b.pen = p := Decidable.not_not.1 fun hne => hp (.inr hne)
    have hs : s.pen = b.pen := h.resolve_left fun hf => hp (.inl hf)
    exact .of_eq (if_neg hp) (.nil s) ⟨rfl, by rw [← hs]⟩

end Stroke

end ScreenWatch.Repaint
