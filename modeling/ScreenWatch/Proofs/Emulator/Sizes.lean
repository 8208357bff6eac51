import ScreenWatch.Proofs.Emulator.Sound
import ScreenWatch.Proofs.Screen.Behind

/-!
# The size of an emulator

Nothing that is written to an emulator changes the size of its screen, whatever the screen is and also where a control
function fails (`take_keepsSize`): of all commands only `resize` does, and no control function asks for it.
-/

namespace ScreenWatch

namespace Screen

/-- The size of `t` is that of `s`. -/
def SameSize (s t : Screen) : Prop := t.width = s.width ∧ t.height = s.height

theorem SameSize.refl (s : Screen) : SameSize s s := ⟨rfl, rfl⟩

theorem SameSize.trans {s t u : Screen} (h : SameSize s t) (h' : SameSize t u) : SameSize s u :=
  ⟨h'.1.trans h.1, h'.2.trans h.2⟩

theorem SameSize.hasTextRoom {s t : Screen} (h : SameSize s t) :
    HasTextRoom t.width t.height ↔ HasTextRoom s.width s.height := by rw [h.1, h.2]

def Command.IsResize : Command → Prop
  | .resize _ _ => True
  | _ => False

theorem Command.run_keepsSize {c : Command} (hc : ¬ c.IsResize) (s : Screen) : Leaves c.run s (SameSize s) := by
  by_cases hwithin : c.IsWithin
  · have h := Command.run_stays hwithin s
    exact ⟨h.width_eq, h.height_eq⟩
  · cases c with
    | showAlternate =>
      show SameSize s (s.next .showAlternate)
      by_cases hb : s.behind = none
      · rw [next_showAlternate hb]
        exact .refl s
      · rw [next_showAlternate_again hb]
        exact .refl s
    | showMain =>
      cases hb : s.behind with
      | none => exact .of_ok (showMain_of_none hb) (.refl s)
      | some main => exact .of_ok (showMain_of_some hb) ⟨rfl, rfl⟩
    | reset => exact .modify ⟨rfl, rfl⟩
    | resize width height => exact absurd trivial hc
    | _ => exact absurd trivial hwithin

end Screen

namespace Control.Function

private theorem modeChange_not_isResize (on : Bool) (mode : Nat) : ∀ c ∈ modeChange on mode, ¬ c.IsResize := by
  unfold modeChange
  split
  · simp [Screen.Command.IsResize]
  · split
    · cases on <;> simp [Screen.Command.IsResize]
    · simp

private theorem erasure_not_isResize (s : Screen) (extent : Int) :
    (∀ c ∈ erasureInLine s extent, ¬ c.IsResize) ∧ ∀ c ∈ erasureInDisplay s extent, ¬ c.IsResize := by
  constructor
  · unfold erasureInLine
    dsimp only
    repeat' split
    all_goals simp [Screen.Command.IsResize]
  · unfold erasureInDisplay
    dsimp only
    repeat' split
    all_goals simp [Screen.Command.IsResize, or_imp, forall_and]

theorem commands_not_isResize (f : Function) (q : Sequence) (s : Screen) : ∀ c ∈ f.commands q s, ¬ c.IsResize := by
  cases f with
  | eraseInLine => exact (erasure_not_isResize s _).1
  | eraseInDisplay => exact (erasure_not_isResize s _).2
  | setMode | resetMode =>
    intro c hc
    unfold commands at hc
    dsimp only at hc
    split at hc
    · obtain ⟨mode, -, hm⟩ := List.mem_flatMap.1 hc
      exact modeChange_not_isResize _ mode c hm
    · cases hc
  | selectRendition =>
    unfold commands
    dsimp only
    split <;> simp [Screen.Command.IsResize]
  | _ => simp [commands, Screen.Command.IsResize]

theorem perform_keepsSize (f : Function) (q : Sequence) (s : Screen) : Leaves (f.perform q) s s.SameSize := by
  refine Leaves.get_bind (Leaves.forM (.refl s) ?_)
  intro c hc t ht
  have hnone : ¬ c.IsResize := commands_not_isResize f q s c hc
  exact ht.trans (Screen.Command.run_keepsSize hnone t)

end Control.Function

namespace Emulator

open Escape (Action)

private theorem dispatch_keepsSize (kind : Control.Kind) (final : Int) (e : Emulator) :
    Leaves (dispatch kind final) e fun e' => e.screen.SameSize e'.screen := by
  unfold dispatch dispatchBy
  refine .get_bind (.get_bind ?_)
  split
  · exact .pure (.refl _)
  · next f _ =>
    have hperform : Leaves (onScreen (f.perform e.sequence)) e fun e' => e.screen.SameSize e'.screen :=
      onScreen_leaves (f.perform_keepsSize e.sequence e.screen)
    exact hperform.bind fun _ _ h => .pure h

private theorem apply_keepsSize (a : Action) (e : Emulator) :
    Leaves (apply a) e fun e' => e.screen.SameSize e'.screen := by
  cases a with
  | print c =>
    have hprint : Leaves (onScreen (Screen.print c)) e fun e' => e.screen.SameSize e'.screen :=
      onScreen_leaves (Screen.Command.run_keepsSize (c := .print c) id e.screen)
    exact hprint.bind fun _ _ h => .pure h
  | execute c => exact dispatch_keepsSize _ c e
  | clear | collect | param => exact Screen.SameSize.refl e.screen
  | escDispatch c => exact dispatch_keepsSize _ c e
  | csiDispatch c => exact dispatch_keepsSize .csi c { e with sequence := e.sequence.flush }

private theorem applyAllFrom_keepsSize (found : List Notice) (actions : List Action) (e : Emulator) :
    Leaves (applyAllFrom found actions) e fun e' => e.screen.SameSize e'.screen := by
  induction actions generalizing found e with
  | nil => exact .pure (.refl _)
  | cons a rest ih =>
    refine (apply_keepsSize a e).bind ?_
    intro notices t ht
    have hrest := ih (notices.reverse ++ found) t
    unfold Leaves at *
    exact ht.trans hrest

/-- A chunk of output leaves a screen of the same size, also where a control function fails. -/
theorem take_keepsSize (chunk : Bytes) (e : Emulator) :
    Leaves (take chunk) e fun e' => e.screen.SameSize e'.screen :=
  applyAllFrom_keepsSize [] (e.stream.take chunk).1 { e with stream := (e.stream.take chunk).2 }

theorem sameSize_of_take {chunk : Bytes} {notices : List Notice} {e e' : Emulator}
    (h : take chunk e = .ok notices e') : e.screen.SameSize e'.screen := by
  have hsize := take_keepsSize chunk e
  unfold Leaves at hsize
  rwa [left_of_ok h] at hsize

/-- The characters of the text can be counted. -/
def HasTextRoom (e : Emulator) : Prop := Screen.HasTextRoom e.screen.width e.screen.height

instance (e : Emulator) : Decidable e.HasTextRoom := inferInstanceAs (Decidable (Screen.HasTextRoom _ _))

/-- The emulator after a chunk has been written to its terminal, which applies the chunk only if the characters of the
text can be counted. -/
def written (chunk : Bytes) (e : Emulator) : Emulator := if e.HasTextRoom then left (take chunk) e else e

theorem HasTextRoom.take {e e' : Emulator} (h : e.HasTextRoom) {chunk : Bytes} {notices : List Notice}
    (htake : take chunk e = .ok notices e') : e'.HasTextRoom := (sameSize_of_take htake).hasTextRoom.2 h

end Emulator

end ScreenWatch
