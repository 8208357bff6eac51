import ScreenWatch.Emulator
import ScreenWatch.Proofs.Screen.Commands
import ScreenWatch.Proofs.Utf8.Decoding

/-!
# Sound emulators

An emulator is sound if its screen fits together, shows nothing but printable code points (scalar values that are
no C0 controls), and its decoder holds a part of a well-formed sequence.  A sound emulator takes every chunk
without a fault and is sound afterwards (`take_sound`): the decoder hands on scalar values only, and of those the
grammar prints only printable ones.  So all emulators that come out of runs are sound (`Reached.sound`).
-/

namespace ScreenWatch

/-- A scalar value that is no C0 control. -/
def Utf8.IsPrintable (c : Int) : Prop := IsScalar c ∧ 0x20 ≤ c

theorem Utf8.isPrintable_space : IsPrintable 0x20 := by
  unfold IsPrintable
  decide

/-! ### Printed code points -/

namespace Escape

/-- If the action prints, then what it prints has the property. -/
def Action.Prints (ok : Int → Prop) : Action → Prop
  | .print c => ok c
  | _ => True

/-- Only plain text is printed, and none of it is a C0 control. -/
private theorem step_print {state : State} {c d : Int} (h : Action.print d ∈ (step state c).1) :
    d = c ∧ (c < 0 ∨ 0x20 ≤ c) := by
  cases state <;> simp only [step] at h
  case oscString => cases h
  all_goals
    repeat' split at h
    all_goals simp only [List.mem_singleton, List.not_mem_nil, reduceCtorEq, Action.print.injEq] at h
  exact ⟨h, by omega⟩

private theorem prints_step (state : State) {c : Int} (hc : Utf8.IsScalar c) :
    ∀ a ∈ (step state c).1, a.Prints Utf8.IsPrintable := by
  intro a ha
  cases a with
  | print d =>
    obtain ⟨rfl, h⟩ := step_print ha
    refine ⟨hc, ?_⟩
    rcases hc with ⟨h', -⟩ | ⟨h', -⟩ <;> omega
  | _ => trivial

/-- Scalar values print nothing but printable ones. -/
theorem prints_run (state : State) {codes : List Int} (h : ∀ c ∈ codes, Utf8.IsScalar c) :
    ∀ a ∈ (run state codes).1, a.Prints Utf8.IsPrintable := by
  induction codes generalizing state with
  | nil => simp
  | cons c rest ih =>
    have hc : Utf8.IsScalar c := h c (by simp)
    have hrest : ∀ d ∈ rest, Utf8.IsScalar d := fun d hd => h d (by simp [hd])
    rw [run_cons]
    intro a ha
    rcases List.mem_append.1 ha with ha | ha
    · exact prints_step state hc a ha
    · exact ih _ hrest a ha

end Escape

/-! ### Actions -/

namespace Emulator

open Escape (Action)

variable {ok : Int → Prop} {e : Emulator}

/-- `e'` has gone on from `e` on the same screen, apart from the stream that is read. -/
structure Continues (ok : Int → Prop) (e e' : Emulator) : Prop where
  screen : Screen.Continues ok e.screen e'.screen
  stream_eq : e'.stream = e.stream
  debug_eq : e'.debug = e.debug

theorem Continues.refl (he : e.screen.Fits) : Continues ok e e := ⟨.refl he, rfl, rfl⟩

theorem Continues.trans {e' e'' : Emulator} (h : Continues ok e e') (h' : Continues ok e' e'') :
    Continues ok e e'' :=
  ⟨h.screen.trans h'.screen, h'.stream_eq.trans h.stream_eq, h'.debug_eq.trans h.debug_eq⟩

section Editing

variable {ε α : Type} {edit : EStateM ε Screen α} {t : Screen}

theorem onScreen_of_ok {a : α} (h : edit e.screen = .ok a t) : onScreen edit e = .ok a { e with screen := t } := by
  unfold onScreen
  dsimp only
  rw [h]

theorem onScreen_of_error {fault : ε} (h : edit e.screen = .error fault t) :
    onScreen edit e = .error fault { e with screen := t } := by
  unfold onScreen
  dsimp only
  rw [h]

end Editing

/-- An edit of the screen, seen from the emulator around it. -/
theorem onScreen_succeeds {α : Type} {edit : ScreenM α} {Q : α → Screen → Prop} (h : Succeeds edit e.screen Q) :
    Succeeds (onScreen edit) e fun a e' => Q a e'.screen ∧ e' = { e with screen := e'.screen } := by
  obtain ⟨a, t, ht, hq⟩ := h
  exact ⟨a, { e with screen := t }, onScreen_of_ok ht, hq, rfl⟩

theorem onScreen_leaves {α : Type} {edit : ScreenM α} {P : Emulator → Prop}
    (h : Leaves edit e.screen fun t => P { e with screen := t }) : Leaves (onScreen edit) e P := by
  unfold Leaves left at *
  unfold onScreen
  dsimp only
  cases ht : edit e.screen <;> rw [ht] at h <;> exact h

private theorem onScreen_continues {edit : ScreenM Unit}
    (h : Succeeds edit e.screen fun _ => Screen.Continues ok e.screen) :
    Succeeds (onScreen edit) e fun _ => Continues ok e := by
  refine (onScreen_succeeds h).mono ?_
  rintro _ e' ⟨hc, he⟩
  exact ⟨hc, by rw [he], by rw [he]⟩

private theorem dispatch_continues (hsp : ok 0x20) (he : e.screen.Fits) (kind : Control.Kind) (final : Int) :
    Succeeds (dispatch kind final) e fun _ => Continues ok e := by
  unfold dispatch dispatchBy
  refine .get_bind (.get_bind ?_)
  split
  · exact .pure (.refl he)
  · rename_i f _
    have hperform := onScreen_continues (Control.Function.perform_continues hsp he f e.sequence)
    exact hperform.bind fun _ _ h => .pure h

theorem apply_continues (hsp : ok 0x20) (he : e.screen.Fits) {a : Action} (ha : a.Prints ok) :
    Succeeds (apply a) e fun _ => Continues ok e := by
  -- What is collected of a sequence changes neither the screen nor the stream.
  have collected (q : Control.Sequence) : Continues ok e { e with sequence := q } := ⟨.refl he, rfl, rfl⟩
  cases a with
  | print c =>
    have hprint := onScreen_continues (he.continues_print hsp ha)
    exact hprint.bind fun _ _ h => .pure h
  | execute c => exact dispatch_continues hsp he _ _
  | clear => exact ⟨_, _, rfl, collected _⟩
  | collect c => exact ⟨_, _, rfl, collected _⟩
  | param c => exact ⟨_, _, rfl, collected _⟩
  | escDispatch c => exact dispatch_continues hsp he _ _
  | csiDispatch c =>
    have h := collected e.sequence.flush
    exact (dispatch_continues hsp h.screen.fits .csi c).mono fun _ _ h' => h.trans h'

theorem applyAllFrom_continues (hsp : ok 0x20) (he : e.screen.Fits) {actions : List Action}
    (h : ∀ a ∈ actions, a.Prints ok) (found : List Notice) :
    Succeeds (applyAllFrom found actions) e fun _ => Continues ok e := by
  induction actions generalizing e found with
  | nil => exact .pure (.refl he)
  | cons a rest ih =>
    have hrest : ∀ b ∈ rest, b.Prints ok := fun b hb => h b (by simp [hb])
    refine (apply_continues hsp he (h a (by simp))).bind ?_
    intro notices t ht
    exact (ih ht.screen.fits hrest _).mono fun _ _ hu => ht.trans hu

/-- A chunk of which nothing is printed but what has the property. -/
theorem take_continues (hsp : ok 0x20) (he : e.screen.Fits) {chunk : Bytes}
    (h : ∀ a ∈ (e.stream.take chunk).1, a.Prints ok) :
    Succeeds (take chunk) e fun _ e' =>
      Screen.Continues ok e.screen e'.screen ∧ e'.stream = (e.stream.take chunk).2 ∧ e'.debug = e.debug := by
  have hc := applyAllFrom_continues (e := { e with stream := (e.stream.take chunk).2 }) hsp he h []
  exact hc.mono fun _ _ ht => ⟨ht.screen, ht.stream_eq, ht.debug_eq⟩

/-! ### Soundness -/

structure Sound (e : Emulator) : Prop where
  fits : e.screen.Fits
  holds : e.screen.Holds Utf8.IsPrintable
  decoder : ∃ part, Utf8.Decoder.Holds part e.stream.decoder

theorem Sound.prints (he : e.Sound) (chunk : Bytes) :
    ∀ a ∈ (e.stream.take chunk).1, a.Prints Utf8.IsPrintable := by
  obtain ⟨part, hp⟩ := he.decoder
  obtain ⟨_, hd, -⟩ := Utf8.run_decodes hp chunk
  exact Escape.prints_run e.stream.state hd.isScalar

theorem take_sound (he : e.Sound) (chunk : Bytes) :
    Succeeds (take chunk) e fun _ e' =>
      e'.Sound ∧ e'.screen.width = e.screen.width ∧ e'.screen.height = e.screen.height := by
  obtain ⟨part, hp⟩ := he.decoder
  obtain ⟨part', -, hp'⟩ := Utf8.run_decodes hp chunk
  refine (take_continues Utf8.isPrintable_space he.fits (he.prints chunk)).mono ?_
  rintro _ e' ⟨hc, hs, -⟩
  have hdecoder : Utf8.Decoder.Holds part' e'.stream.decoder := by
    rw [hs]
    exact hp'
  exact ⟨⟨hc.fits, hc.holds he.holds, part', hdecoder⟩, hc.width_eq, hc.height_eq⟩

/-- A new emulator has an empty screen, and everything else is at its start. -/
theorem eq_empty_of_create {width height : Int} (h : create width height = .ok e) :
    0 < width.toNat ∧ 0 < height.toNat ∧ Screen.HasCellRoom width.toNat height.toNat ∧
      e = { screen := .empty width.toNat height.toNat } := by
  unfold create at h
  cases hs : Screen.create width height with
  | error fault =>
    rw [hs] at h
    cases h
  | ok s =>
    rw [hs] at h
    obtain rfl := Except.ok.inj h
    obtain ⟨hw, hh, hroom, rfl⟩ := Screen.eq_empty_of_create hs
    exact ⟨hw, hh, hroom, rfl⟩

theorem create_of_hasCellRoom {width height : Nat} (hw : 0 < width) (hh : 0 < height)
    (hroom : Screen.HasCellRoom width height) : create width height = .ok { screen := .empty width height } := by
  have hsize : Screen.sizeFault? width height = none := Screen.sizeFault?_eq_none.2 ⟨hw, hh, hroom⟩
  unfold create
  rw [Screen.create_eq, hsize]
  rfl

theorem create_of_no_cellRoom {width height : Nat} (hw : 0 < width) (hh : 0 < height)
    (hno : ¬ Screen.HasCellRoom width height) : create width height = .error .tooManyCells := by
  have hsize : Screen.sizeFault? width height = some .tooManyCells :=
    Screen.sizeFault?_of_not_hasCellRoom (mod_cast hw) (mod_cast hh) hno
  unfold create
  rw [Screen.create_eq, hsize]
  rfl

theorem sound_of_create {width height : Int} (h : create width height = .ok e) : e.Sound := by
  obtain ⟨hw, hh, -, rfl⟩ := eq_empty_of_create h
  exact ⟨Screen.fits_empty hw hh, Screen.holds_empty Utf8.isPrintable_space _ _, [], .nothing⟩

theorem Sound.resize (he : e.Sound) (width height : Int) :
    Leaves (onScreen (Screen.resize width height)) e Sound := by
  refine onScreen_leaves ?_
  cases hfault : Screen.sizeFault? width height with
  | some fault =>
    unfold Leaves
    rw [left_of_error (Screen.resize_of_fault hfault e.screen)]
    exact he
  | none =>
    obtain ⟨hw, hh, -⟩ := Screen.sizeFault?_eq_none.1 hfault
    have hfits := Screen.fits_resized e.screen hw hh
    have hholds := Screen.holds_resized Utf8.isPrintable_space he.holds width.toNat height.toNat
    unfold Leaves
    rw [left_of_ok (Screen.resize_of_none hfault e.screen)]
    exact ⟨hfits, hholds, he.decoder⟩

theorem Sound.reset (he : e.Sound) : Leaves (onScreen Screen.reset) e Sound := by
  have hfits := Screen.fits_empty he.fits.width_pos he.fits.height_pos
  refine onScreen_leaves (.modify ?_)
  exact ⟨hfits, Screen.holds_empty Utf8.isPrintable_space _ _, he.decoder⟩

/-! ### Runs -/

/-- The emulators that come out of runs: one is created, takes chunks, gets new sizes, is reset and leaves notices or
not, in any order.  A step that fails leaves what it has done. -/
inductive Reached : Emulator → Prop
  | create {e : Emulator} {width height : Int} (h : create width height = .ok e) : Reached e
  | take {e : Emulator} (h : Reached e) (chunk : Bytes) : Reached (left (take chunk) e)
  | resize {e : Emulator} (h : Reached e) (width height : Int) :
    Reached (left (onScreen (Screen.resize width height)) e)
  | reset {e : Emulator} (h : Reached e) : Reached (left (onScreen Screen.reset) e)
  | setDebug {e : Emulator} (h : Reached e) (on : Bool) : Reached { e with debug := on }

theorem Reached.sound (h : e.Reached) : e.Sound := by
  induction h with
  | create h => exact sound_of_create h
  | take _ chunk ih =>
    have htake := (take_sound ih chunk).mono fun _ _ h => h.1
    exact htake.leaves
  | resize _ width height ih => exact ih.resize width height
  | reset _ ih => exact ih.reset
  | setDebug _ on ih => exact ⟨ih.fits, ih.holds, ih.decoder⟩

end Emulator

/-- A screen that an emulator comes to show in a run. -/
def Screen.Reached (s : Screen) : Prop := ∃ e : Emulator, e.Reached ∧ e.screen = s

end ScreenWatch
