import ScreenWatch.Proofs.Screen.Pens
import ScreenWatch.Proofs.Terminal.TwoRuns

/-!
# Pens and changes

Emulators that are the same but for pens take the same output in the same way and stay so, also when they get another
size or are reset (`feedAll_ignoresPens`).  Since pens are not part of the text either, nobody who listens to a terminal
can tell such emulators from each other: their terminals announce the same changes (`pens_are_not_heard`).
-/

namespace ScreenWatch

namespace Emulator

/-- The emulator with the plain pen everywhere on its screen. -/
def wiped (e : Emulator) : Emulator := { e with screen := e.screen.wiped }

/-- The emulators are the same, except for the pens on their screens and in use. -/
def SameButPens (e e' : Emulator) : Prop := e.wiped = e'.wiped

instance (e e' : Emulator) : Decidable (SameButPens e e') := inferInstanceAs (Decidable (_ = _))

/-- What an emulator is given from outside. -/
inductive Input
  | chunk (bytes : Bytes)
  | resize (width height : Int)
  | reset

/-- Takes an input. -/
def feed : Input → EmulatorM Unit
  | .chunk bytes => discard (take bytes)
  | .resize width height => onScreen (Screen.resize width height)
  | .reset => onScreen Screen.reset

/-- The emulator after inputs; one that fails leaves what it has done. -/
def feedAll (e : Emulator) (inputs : List Input) : Emulator := inputs.foldl (fun e input => left (feed input) e) e

variable {e e' : Emulator}

namespace SameButPens

theorem wiped_eq (h : SameButPens e e') : e.wiped = e'.wiped := h

theorem stream_eq (h : SameButPens e e') : e.stream = e'.stream := (congrArg Emulator.stream h.wiped_eq :)

theorem sequence_eq (h : SameButPens e e') : e.sequence = e'.sequence := (congrArg Emulator.sequence h.wiped_eq :)

theorem screen_same (h : SameButPens e e') : e.screen.SameButPens e'.screen := (congrArg Emulator.screen h.wiped_eq :)

end SameButPens

/-- An edit for which it makes no difference whether the pens are wiped off before it or after it. -/
private theorem edit_ignoresPens (h : SameButPens e e') {f : Emulator → Emulator} (hf : ∀ e, (f e).wiped = f e.wiped) :
    EndAlike (modify f : EmulatorM Unit) (modify f : EmulatorM Unit) e e' SameButPens := by
  refine .modify ?_
  show (f e).wiped = (f e').wiped
  rw [hf, hf, h.wiped_eq]

private theorem onScreen_ignoresPens (h : SameButPens e e') {edit : ScreenM Unit} (hedit : Screen.IgnoresPens edit) :
    EndAlike (onScreen edit) (onScreen edit) e e' SameButPens := by
  have hscreen {s s' : Screen} (hs : s.SameButPens s') :
      SameButPens { e with screen := s } { e' with screen := s' } := by
    have hrest := congrArg (fun u : Emulator => { u with screen := s.wiped }) h.wiped_eq
    refine hrest.trans ?_
    rw [hs.wiped_eq]
    rfl
  rcases (hedit _ _ h.screen_same).cases with ⟨_, _, s, s', hs, hs', hnext⟩ | ⟨fault, s, s', hs, hs', hnext⟩
  · have hleft : onScreen edit e = .ok () { e with screen := s } := by simp only [onScreen, hs]
    have hright : onScreen edit e' = .ok () { e' with screen := s' } := by simp only [onScreen, hs']
    exact .of_ok hleft hright (hscreen hnext)
  · have hleft : onScreen edit e = .error fault { e with screen := s } := by simp only [onScreen, hs]
    have hright : onScreen edit e' = .error fault { e' with screen := s' } := by simp only [onScreen, hs']
    exact .of_error hleft hright (hscreen hnext)

private theorem dispatch_ignoresPens (h : SameButPens e e') (kind : Control.Kind) (final : Int) :
    EndAlike (dispatch kind final) (dispatch kind final) e e' SameButPens := by
  unfold dispatch dispatchBy
  refine .get_bind (.get_bind ?_)
  rw [h.sequence_eq]
  split
  · exact h
  · next f _ =>
    refine (onScreen_ignoresPens h (f.perform_ignoresPens _)).bind (fun _ _ h => h) ?_
    exact fun _ _ _ _ h => h

private theorem apply_ignoresPens (h : SameButPens e e') (a : Escape.Action) :
    EndAlike (apply a) (apply a) e e' SameButPens := by
  cases a with
  | print c =>
    have hprint := onScreen_ignoresPens h (Screen.Command.run_ignoresPens (.print c))
    exact hprint.bind (fun _ _ h => h) fun _ _ _ _ h => h
  | execute c => exact dispatch_ignoresPens h .control c
  | clear | collect c | param c =>
    refine EndAlike.bind (R := SameButPens) ?_ (fun _ _ h => h) fun _ _ _ _ h => h
    exact edit_ignoresPens h fun _ => rfl
  | escDispatch c => exact dispatch_ignoresPens h .escape c
  | csiDispatch c =>
    refine EndAlike.bind (R := SameButPens) ?_ (fun _ _ h => h) fun _ _ _ _ h => dispatch_ignoresPens h .csi c
    exact edit_ignoresPens h fun _ => rfl

private theorem applyAllFrom_ignoresPens (h : SameButPens e e') (found found' : List Notice)
    (actions : List Escape.Action) :
    EndAlike (applyAllFrom found actions) (applyAllFrom found' actions) e e' SameButPens := by
  induction actions generalizing e e' found found' with
  | nil => exact h
  | cons a rest ih => exact (apply_ignoresPens h a).bind (fun _ _ h => h) fun _ _ _ _ h => ih h _ _

private theorem take_ignoresPens (h : SameButPens e e') (chunk : Bytes) :
    EndAlike (take chunk) (take chunk) e e' SameButPens := by
  unfold take takeBy
  refine .get_bind ?_
  rw [h.stream_eq]
  refine EndAlike.bind (R := SameButPens) ?_ (fun _ _ h => h) fun _ _ _ _ h => applyAllFrom_ignoresPens h [] [] _
  exact edit_ignoresPens h fun _ => rfl

/-- Nothing that a terminal asks of its emulator depends on pens. -/
private theorem isView_wiped : IsView wiped where
  take h chunk := take_ignoresPens h chunk
  resize h width height := onScreen_ignoresPens h (Screen.ignoresPens_resize width height)
  reset h := onScreen_ignoresPens h (Screen.Command.run_ignoresPens .reset)
  setDebug h on := edit_ignoresPens h (f := fun e => { e with debug := on }) fun _ => rfl
  sameSize h := ⟨(SameButPens.screen_same h).width_eq.symm, (SameButPens.screen_same h).height_eq.symm⟩
  text_eq h := (SameButPens.screen_same h).text_eq
  cursor_eq h := (SameButPens.screen_same h).cursor_eq
  hash_eq h := (SameButPens.screen_same h).hash_eq

private theorem feed_ignoresPens (h : SameButPens e e') (input : Input) :
    EndAlike (feed input) (feed input) e e' SameButPens := by
  cases input with
  | chunk bytes => exact (take_ignoresPens h bytes).bind (fun _ _ h => h) fun _ _ _ _ h => h
  | resize width height => exact onScreen_ignoresPens h (Screen.ignoresPens_resize width height)
  | reset => exact onScreen_ignoresPens h (Screen.Command.run_ignoresPens .reset)

theorem feedAll_ignoresPens (h : SameButPens e e') (inputs : List Input) :
    SameButPens (e.feedAll inputs) (e'.feedAll inputs) := by
  induction inputs generalizing e e' with
  | nil => exact h
  | cons input rest ih => exact ih (feed_ignoresPens h input).left_alike

/-- Emulators that are the same but for pens stay so through the same inputs, and show the same text and the same
cursor.  In terminals with the same listeners, the same commands make them go through the same moments, the same
changes are told, and the terminals are the same but for pens at each moment. -/
theorem pens_are_not_heard (h : SameButPens e e') :
    (∀ inputs, SameButPens (e.feedAll inputs) (e'.feedAll inputs) ∧
      (e.feedAll inputs).screen.text = (e'.feedAll inputs).screen.text ∧
      (e.feedAll inputs).screen.cursor = (e'.feedAll inputs).screen.cursor ∧
      ∀ input, EndAlike (feed input) (feed input) (e.feedAll inputs) (e'.feedAll inputs) SameButPens) ∧
    ∀ (room : Nat) (commands : List Command) (s s' : Scene) (t : Terminal),
      s.terminal = some { t with emulator := e } → s' = { s with terminal := some { t with emulator := e' } } →
        Scene.untroubled (Scene.history room commands s) = Scene.untroubled (Scene.history room commands s') ∧
        (Scene.carryOut room s commands).heard = (Scene.carryOut room s' commands).heard ∧
        Scene.SeenAlike wiped (Scene.carryOut room s commands) (Scene.carryOut room s' commands) ∧
        ∀ past past', Scene.untroubled past = Scene.untroubled past' →
          Scene.SeenAlike wiped (s.along past) (s'.along past') := by
  refine ⟨fun inputs => ?_, ?_⟩
  · have hnext := feedAll_ignoresPens h inputs
    exact ⟨hnext, hnext.screen_same.text_eq, hnext.screen_same.cursor_eq, feed_ignoresPens hnext⟩
  · intro room commands s s' t ht hs'
    have hstart : Scene.SeenAlike wiped s s' := by
      have hseen : (s.terminal.map (Terminal.seen wiped)) = some ({ t with emulator := e' }.seen wiped) := by
        rw [ht]
        exact congrArg (fun e : Emulator => some { t with emulator := e, failureCount := 0 }) h.wiped_eq
      rw [hs']
      exact congrArg (fun terminal => ({ s with terminal, log := [] } : Scene)) hseen
    have hmoments := Scene.historyWith_alike isView_wiped (Scene.hear_alike isView_wiped room) hstart commands
    rw [← Scene.history_eq, ← Scene.history_eq] at hmoments
    have hlast := Scene.along_alike_of_untroubled isView_wiped hstart hmoments
    rw [(Scene.history_recorded room commands s).along_eq, (Scene.history_recorded room commands s').along_eq] at hlast
    exact ⟨hmoments, hlast.heard_eq, hlast, fun _ _ hpast => Scene.along_alike_of_untroubled isView_wiped hstart hpast⟩

/-- A red letter and a green one: a listener hears the same of what comes next. -/
theorem pens_are_not_heard_red_or_green :
    ∃ e e' : Emulator, e ≠ e' ∧ SameButPens e e' ∧
      (e.feedAll [.chunk [0x62], .resize 3 2]).screen.text = (e'.feedAll [.chunk [0x62], .resize 3 2]).screen.text ∧
      ∃ s s' : Scene, s.emulator? = some e ∧ s'.emulator? = some e' ∧
        (Scene.carryOut 1 s [.write [0x62]]).heard.length = 1 ∧
        (Scene.carryOut 1 s [.write [0x62]]).heard = (Scene.carryOut 1 s' [.write [0x62]]).heard := by
  obtain ⟨e, he⟩ : ∃ e, left (take [0x1B, 0x5B, 0x33, 0x31, 0x6D, 0x61, 0x1B, 0x37]) { screen := .empty 2 1 } = e :=
    ⟨_, rfl⟩
  obtain ⟨e', he'⟩ : ∃ e', left (take [0x1B, 0x5B, 0x33, 0x32, 0x6D, 0x61, 0x1B, 0x37]) { screen := .empty 2 1 } = e' :=
    ⟨_, rfl⟩
  have hne : e ≠ e' := by
    subst he he'
    decide +kernel
  have hsame : SameButPens e e' := by
    subst he he'
    decide +kernel
  obtain ⟨hinputs, hruns⟩ := pens_are_not_heard hsame
  obtain ⟨-, hheard, -⟩ := hruns 1 [.write [0x62]] { terminal := some { emulator := e, registry := ⟨["a"]⟩ } } _
    { emulator := e, registry := ⟨["a"]⟩ } rfl rfl
  refine ⟨e, e', hne, hsame, (hinputs _).2.1, _, _, rfl, rfl, ?_, hheard⟩
  subst he
  decide +kernel

end Emulator

end ScreenWatch
