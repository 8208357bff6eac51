import ScreenWatch.Proofs.Repaint.Frames
import ScreenWatch.Repaint.Display

/-!
# Replayed frames

An emulator mirrors a screen if it shows the same code points, apart from the bottom right corner, and the same
cursor, and reads no sequence (`Emulator.Mirrors`).  The first frame makes an emulator mirror its screen
(`first_frame_shows`), and an update goes on from the screen that is mirrored to the next one
(`next_frame_shows`).  So replaying the frames of any screens reproduces the last of them
(`Display.replay_mirrors`).
-/

namespace ScreenWatch

open Repaint (frame)

/-- The emulator shows the screen: all code points but the one in the bottom right corner, which is left blank, the
cursor, in the last column where a wrap is pending, its visibility and the pen; and it is at rest. -/
structure Emulator.Mirrors (e : Emulator) (f : Screen) : Prop where
  isGrid : e.screen.IsGrid
  width_eq : e.screen.width = f.width
  height_eq : e.screen.height = f.height
  code_eq : ∀ y < f.height, ∀ x < f.width, (e.screen.cellAt y x).code =
    if y + 1 = f.height ∧ x + 1 = f.width then 0x20 else (f.cellAt y x).code
  cursor_eq : e.screen.cursor = ⟨min f.cursor.col (f.width - 1), f.cursor.row⟩
  visible_eq : e.screen.visible = f.visible
  pen_eq : e.screen.pen = f.pen
  stream_eq : e.stream = .start

namespace Repaint

variable {bce : Bool} {f last : Screen} {e : Emulator}

theorem paintable_of_reached (hf : f.Reached) :
    0 < f.width ∧ f.cursor.row < f.height ∧ ∀ y x, Utf8.IsPrintable (f.cellAt y x).code := by
  obtain ⟨e, he, rfl⟩ := hf
  have hs := he.sound
  exact ⟨hs.fits.width_pos, hs.fits.cursor.2, hs.holds.code_cellAt Utf8.isPrintable_space⟩

/-- An emulator at rest takes a frame that is meant for what it shows: its cells become those that the frame shows, and
it mirrors the screen of the frame if their code points are the right ones. -/
private theorem take_frame {initialized : Bool} (he : e.stream = .start) (hs : e.screen.IsGrid) (hf : f.Reached)
    (hw : f.width = e.screen.width) (hh : f.height = e.screen.height) (hw' : f.width ≤ 65535) (hh' : f.height ≤ 65535)
    (hv : e.screen.visible = if canUpdate initialized last f then last.visible else true)
    (hcode : ∀ y < f.height, ∀ x < f.width,
      (shownCell bce (canUpdate initialized last f) last f e.screen y x).code =
        if y + 1 = f.height ∧ x + 1 = f.width then 0x20 else (f.cellAt y x).code) :
    Succeeds (Emulator.take (frame bce initialized last f)) e fun _ e' => e'.Mirrors f ∧
      ∀ y < f.height, ∀ x < f.width,
        e'.screen.cellAt y x = shownCell bce (canUpdate initialized last f) last f e.screen y x := by
  obtain ⟨hpos, hr, hok⟩ := paintable_of_reached hf
  obtain ⟨t, ht, hp, hcur, hvis, hpen⟩ := frameStroke_yields bce initialized last hs hw hh (hw ▸ hw') (hh ▸ hh')
    (hw ▸ hpos) (hh ▸ hr) hok (hv.trans (Bool.and_true _).symm)
  refine (ht.take he rfl).mono ?_
  rintro _ e' ⟨hstream, rfl⟩
  have hcell : ∀ y < f.height, ∀ x < f.width,
      e'.screen.cellAt y x = shownCell bce (canUpdate initialized last f) last f e.screen y x :=
    fun y hy x hx => hp.cellAt_eq y (hh ▸ hy) x (hw ▸ hx)
  refine ⟨?_, hcell⟩
  exact {
    isGrid := hp.isGrid hs
    width_eq := hp.width_eq.trans hw.symm
    height_eq := hp.height_eq.trans hh.symm
    code_eq := fun y hy x hx => (congrArg Cell.code (hcell y hy x hx)).trans (hcode y hy x hx)
    cursor_eq := hcur
    visible_eq := hvis.trans (Bool.and_true _)
    pen_eq := hpen
    stream_eq := hstream }

/-- The first frame, whatever it takes for the last screen, needs nothing but a visible cursor.  It paints every row. -/
theorem first_frame_shows (bce : Bool) (last : Screen) (he : e.stream = .start) (hs : e.screen.IsGrid)
    (hv : e.screen.visible = true) (hf : f.Reached) (hw : f.width = e.screen.width)
    (hh : f.height = e.screen.height) (hw' : f.width ≤ 65535) (hh' : f.height ≤ 65535) :
    Succeeds (Emulator.take (frame bce false last f)) e fun _ e' => e'.Mirrors f ∧
      ∀ y < f.height, ∀ x < f.width, e'.screen.cellAt y x = paintedCell bce f y x := by
  refine take_frame he hs hf hw hh hw' hh' hv ?_
  intro y hy x hx
  exact code_paintedCell bce (paintable_of_reached hf).1 hx

theorem first_frame_mirrors (bce : Bool) (last : Screen) (he : e.stream = .start) (hs : e.screen.IsGrid)
    (hv : e.screen.visible = true) (hf : f.Reached) (hw : f.width = e.screen.width)
    (hh : f.height = e.screen.height) (hw' : f.width ≤ 65535) (hh' : f.height ≤ 65535) :
    Succeeds (Emulator.take (frame bce false last f)) e fun _ e' => e'.Mirrors f :=
  (first_frame_shows bce last he hs hv hf hw hh hw' hh').mono fun _ _ h => h.1

theorem cellAt_eq_of_not_rowDiffers (hw : f.width = last.width) {y : Nat} (h : rowDiffers last f y = false) :
    ∀ x < f.width, last.cellAt y x = f.cellAt y x := by
  have hcells : rowCells last y = rowCells f y := by simpa [rowDiffers] using h
  unfold rowCells at hcells
  rw [← hw, List.map_inj_left] at hcells
  intro x hx
  exact hcells x (List.mem_range.2 hx)

/-- After an update an emulator mirrors the next screen of the same size.  Rows that do not differ are left alone. -/
theorem next_frame_shows (bce : Bool) (he : e.Mirrors last) (hf : f.Reached) (hw : f.width = last.width)
    (hh : f.height = last.height) (hw' : f.width ≤ 65535) (hh' : f.height ≤ 65535) :
    Succeeds (Emulator.take (frame bce true last f)) e fun _ e' => e'.Mirrors f ∧
      ∀ y < f.height, ∀ x < f.width, e'.screen.cellAt y x = shownCell bce true last f e.screen y x := by
  have hupdate : canUpdate true last f = true := by simp [canUpdate, hw, hh]
  suffices h : Succeeds (Emulator.take (frame bce true last f)) e fun _ e' => e'.Mirrors f ∧
      ∀ y < f.height, ∀ x < f.width,
        e'.screen.cellAt y x = shownCell bce (canUpdate true last f) last f e.screen y x by rwa [hupdate] at h
  refine take_frame he.stream_eq he.isGrid hf (hw.trans he.width_eq.symm) (hh.trans he.height_eq.symm) hw' hh' ?_ ?_
  · rw [hupdate, if_pos rfl]
    exact he.visible_eq
  intro y hy x hx
  rw [hupdate, shownCell]
  by_cases h : isPainted true last f y = true
  · rw [if_pos h]
    exact code_paintedCell bce (paintable_of_reached hf).1 hx
  · -- A row that is left alone looks as it did on the last screen.
    have hsame : rowDiffers last f y = false := by simpa [isPainted] using h
    rw [if_neg h, ground, if_pos rfl, he.code_eq y (hh ▸ hy) x (hw ▸ hx), ← hw, ← hh,
      cellAt_eq_of_not_rowDiffers hw hsame x hx]

theorem next_frame_mirrors (bce : Bool) (he : e.Mirrors last) (hf : f.Reached) (hw : f.width = last.width)
    (hh : f.height = last.height) (hw' : f.width ≤ 65535) (hh' : f.height ≤ 65535) :
    Succeeds (Emulator.take (frame bce true last f)) e fun _ e' => e'.Mirrors f :=
  (next_frame_shows bce he hf hw hh hw' hh').mono fun _ _ h => h.1

/-! ### Many frames -/

/-- The frames of screens that are shown one after another, an update for each but perhaps the first. -/
def Display.replay (d : Display) : Bool → Screen → List Screen → EmulatorM Unit
  | _, _, [] => return
  | initialized, last, f :: rest => do
    discard (Emulator.take (d.frame initialized last f))
    d.replay true f rest

variable {d : Display}

private theorem replay_cons {initialized : Bool} {rest : List Screen} {P Q : Emulator → Prop}
    (h : Succeeds (Emulator.take (d.frame initialized last f)) e fun _ => P)
    (hrest : ∀ e' : Emulator, P e' → Succeeds (d.replay true f rest) e' fun _ => Q) :
    Succeeds (d.replay initialized last (f :: rest)) e fun _ => Q := by
  unfold Display.replay
  refine h.discard.bind ?_
  intro _ e' he'
  exact hrest e' he'

/-- What each update makes of an emulator and the screen it was made for holds at the end. -/
private theorem replay_induction {P : Emulator → Screen → Prop} (he : P e last) {frames : List Screen}
    (hnext : ∀ e last, P e last → ∀ g ∈ frames ++ [f],
      Succeeds (Emulator.take (d.frame true last g)) e fun _ e' => P e' g) :
    Succeeds (d.replay true last (frames ++ [f])) e fun _ e' => P e' f := by
  induction frames generalizing e last with
  | nil => exact replay_cons (hnext e last he f (by simp)) fun _ he' => .pure he'
  | cons g rest ih =>
    refine replay_cons (hnext e last he g (by simp)) ?_
    intro e' he'
    exact ih he' fun e last h k hk => hnext e last h k (List.mem_cons_of_mem g hk)

/-- The same from the first frame on. -/
theorem Display.replay_holds (d : Display) {P : Emulator → Screen → Prop} {frames : List Screen}
    (hfirst : ∀ g ∈ frames ++ [f], Succeeds (Emulator.take (d.frame false last g)) e fun _ e' => P e' g)
    (hnext : ∀ e last, P e last → ∀ g ∈ frames ++ [f],
      Succeeds (Emulator.take (d.frame true last g)) e fun _ e' => P e' g) :
    Succeeds (d.replay false last (frames ++ [f])) e fun _ e' => P e' f := by
  cases frames with
  | nil => exact replay_cons (hfirst f (by simp)) fun _ he' => .pure he'
  | cons g rest =>
    refine replay_cons (hfirst g (by simp)) ?_
    intro e' he'
    exact replay_induction he' fun e last h k hk => hnext e last h k (List.mem_cons_of_mem g hk)

private theorem replay_updates (he : e.Mirrors last) {width height : Nat} (hw : width ≤ 65535) (hh : height ≤ 65535)
    (hlast : last.width = width ∧ last.height = height) {frames : List Screen}
    (hf : ∀ g ∈ frames ++ [f], g.Reached ∧ g.width = width ∧ g.height = height) :
    Succeeds (d.replay true last (frames ++ [f])) e fun _ e' => e'.Mirrors f := by
  have hboth : Succeeds (d.replay true last (frames ++ [f])) e fun _ e' =>
      e'.Mirrors f ∧ f.width = width ∧ f.height = height := by
    refine replay_induction (P := fun e g => e.Mirrors g ∧ g.width = width ∧ g.height = height) ⟨he, hlast⟩ ?_
    rintro e last ⟨he, hlast⟩ g hg
    obtain ⟨hreached, hsize⟩ := hf g hg
    have hnext := next_frame_mirrors d.bce he hreached (hsize.1.trans hlast.1.symm) (hsize.2.trans hlast.2.symm)
      (hsize.1 ▸ hw) (hsize.2 ▸ hh)
    exact hnext.mono fun _ _ h => ⟨h, hsize⟩
  exact hboth.mono fun _ _ h => h.1

/-- Replaying the frames of any screens of one size, of at most 65535 rows and columns, reproduces the last of them on
every emulator of that size that is at rest and shows its cursor, however it erases and whatever the first frame takes
for the screen before. -/
theorem Display.replay_mirrors (d : Display) {width height : Nat} (hw : 1 ≤ width ∧ width ≤ 65535)
    (hh : 1 ≤ height ∧ height ≤ 65535) (he : e.stream = .start) (hs : e.screen.IsGrid)
    (hsize : e.screen.width = width ∧ e.screen.height = height) (hv : e.screen.visible = true) (last : Screen)
    (frames : List Screen) (f : Screen)
    (hf : ∀ g ∈ frames ++ [f], g.Reached ∧ g.width = width ∧ g.height = height) :
    Succeeds (d.replay false last (frames ++ [f])) e fun _ e' => e'.Mirrors f := by
  have hfirst (g : Screen) (hg : g.Reached ∧ g.width = width ∧ g.height = height) :=
    first_frame_mirrors d.bce last he hs hv hg.1 (hg.2.1.trans hsize.1.symm)
      (hg.2.2.trans hsize.2.symm) (hg.2.1 ▸ hw.2) (hg.2.2 ▸ hh.2)
  cases frames with
  | nil => exact replay_cons (hfirst f (hf f (by simp))) fun _ he' => .pure he'
  | cons g rest =>
    have hg := hf g (by simp)
    refine replay_cons (hfirst g hg) ?_
    intro e' he'
    exact replay_updates he' hw.2 hh.2 hg.2 fun k hk => hf k (List.mem_cons_of_mem g hk)

/-- A frame of an empty screen, and an update to one with a line of letters and a pending wrap. -/
theorem Display.replay_mirrors_letters : ∃ f : Screen, f.Reached ∧ f.cursor = ⟨2, 0⟩ ∧
    Succeeds (Display.standard.replay false (.empty 1 1) [.empty 2 1, f]) { screen := .empty 2 1 }
      fun _ e => e.Mirrors f := by
  have hcreate : Emulator.Reached { screen := .empty 2 1 } := @Emulator.Reached.create _ 2 1 rfl
  obtain ⟨f, hf, hcur, hsize⟩ : ∃ f : Screen, f.Reached ∧ f.cursor = ⟨2, 0⟩ ∧ f.width = 2 ∧ f.height = 1 :=
    ⟨_, ⟨_, hcreate.take [0x61, 0x62], rfl⟩, by decide +kernel⟩
  have hframes : ∀ g ∈ [.empty 2 1] ++ [f], g.Reached ∧ g.width = 2 ∧ g.height = 1 := by
    intro g hg
    rcases List.mem_cons.1 hg with rfl | hg
    · exact ⟨⟨_, hcreate, rfl⟩, rfl, rfl⟩
    · obtain rfl := List.mem_singleton.1 hg
      exact ⟨hf, hsize⟩
  have hgrid := hcreate.sound.fits.isGrid
  exact ⟨f, hf, hcur, Display.replay_mirrors .standard (by decide) (by decide) rfl hgrid ⟨rfl, rfl⟩ rfl
    (.empty 1 1) [.empty 2 1] f hframes⟩

end Repaint

end ScreenWatch
