import ScreenWatch.Proofs.Repaint.Strokes

/-!
# Moves that arrive

A move is sent in one of three ways, chosen by what is believed of the emulator that receives it: nothing, line feeds
after a carriage return, or an absolute position.  A line feed goes to the first column as well, and scrolls in the last
row; so the right way depends on where the cursor is, on a pending wrap, and on the target.  If the position that is
believed is unknown or the right one, then all of them take the cursor of an emulator at rest to the target, and change
nothing else (`moves_arrive`).
-/

namespace ScreenWatch

/-- Plain text is being read, and no character is incomplete. -/
theorem Escape.Stream.eq_start {s : Stream} (hstate : s.state = .ground) (hpending : s.decoder.isPending = false) :
    s = .start := by
  obtain ⟨decoder, state⟩ := s
  obtain rfl : state = .ground := hstate
  obtain rfl := Utf8.Decoder.eq_start_of_not_pending hpending
  rfl

namespace Repaint

open Stroke (move silentMove move_yields silentMove_yields)

variable {b : Brush} {e : Emulator}

/-- What a stroke does to a screen it does to the emulator at rest that shows it. -/
theorem Stroke.Yields.take {k : Stroke} {Q : Brush → Screen → Prop} (h : k.Yields b e.screen Q)
    (he : e.stream = .start) :
    Succeeds (Emulator.take (k b).1) e fun _ e' => e'.stream = .start ∧ Q (k b).2 e'.screen := by
  obtain ⟨t, ht, hq⟩ := h
  refine (ht.take he rfl).mono ?_
  rintro _ e' ⟨hstream, rfl⟩
  exact ⟨hstream, hq⟩

/-- After a move of at most 65535 rows and columns the cursor of the emulator is at the target, and is believed to be
there; its cells, its pen, its margins, its visibility and what it reads are as before.  A silent move does the same,
but it hides a cursor that is believed to show, unless this is believed to be at the target already. -/
theorem moves_arrive (hstate : e.stream.state = .ground) (hpending : e.stream.decoder.isPending = false)
    (hw : e.screen.width ≤ 65535) (hh : e.screen.height ≤ 65535) (hb : b.IsAt e.screen) {row col : Nat}
    (hr : row < e.screen.height) (hc : col < e.screen.width) :
    ((move row col b).2 = { b with row, col } ∧
      Succeeds (Emulator.take (move row col b).1) e fun _ e' =>
        e'.stream = e.stream ∧ e'.screen = { e.screen with cursor := ⟨col, row⟩ }) ∧
    ((silentMove row col b).2 =
        { b with row, col, visible := b.visible && decide (b.col = col ∧ b.row = row) } ∧
      Succeeds (Emulator.take (silentMove row col b).1) e fun _ e' =>
        e'.stream = e.stream ∧ e'.screen = { e.screen with
          cursor := ⟨col, row⟩
          visible := if b.visible ∧ ¬ (b.col = col ∧ b.row = row) then false else e.screen.visible }) := by
  have hstart : e.stream = .start := Escape.Stream.eq_start hstate hpending
  have hmove := move_yields hb hw hh hr hc
  have hsilent := silentMove_yields hb hw hh hr hc
  have ⟨_, _, hbelieved, _⟩ := hmove
  have ⟨_, _, hbelieved', _⟩ := hsilent
  rw [hstart]
  refine ⟨⟨hbelieved, ?_⟩, hbelieved', ?_⟩
  · exact (hmove.take hstart).mono fun _ _ h => ⟨h.1, h.2.2⟩
  · exact (hsilent.take hstart).mono fun _ _ h => ⟨h.1, h.2.2⟩

/-- From a pending wrap, four lines down to the first column, on a screen with inverted margins: a carriage return and
four line feeds, after the cursor was hidden. -/
theorem moves_arrive_from_wrap :
    let s := { Screen.empty 3 7 with cursor := ⟨3, 1⟩, margins := ⟨5, 2⟩ }
    let b : Brush := { col := 3, row := 1 }
    b.IsAt s ∧ (silentMove 5 0 b).1 = Stroke.hideCursor ++ [0x0D, 0x0A, 0x0A, 0x0A, 0x0A] ∧
      Succeeds (Emulator.take (silentMove 5 0 b).1) { screen := s } fun _ e' =>
        e'.stream = .start ∧ e'.screen = { s with cursor := ⟨0, 5⟩, visible := false } := by
  intro s b
  have hb : b.IsAt s := .inr (.inr ⟨rfl, rfl⟩)
  have harrive := @moves_arrive b { screen := s } rfl rfl (by decide) (by decide) hb 5 0 (by decide) (by decide)
  exact ⟨hb, by decide, harrive.2.2⟩

end Repaint

end ScreenWatch
