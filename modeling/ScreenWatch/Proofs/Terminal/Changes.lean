import ScreenWatch.Proofs.Screen.Text
import ScreenWatch.Proofs.Terminal.Runs

/-!
# Changes

A terminal compares the texts before and after a chunk.  Since nothing but scalar values gets on the screen, that is
comparing the code points place by place, so no change is missed and none is made up
(`Reached.write_counts_exactly_changes`).
-/

namespace ScreenWatch

/-- Some place of `s` shows another code point in `t`. -/
def Screen.Differs (s t : Screen) : Prop :=
  ∃ y < s.height, ∃ x < s.width, (s.cellAt y x).code ≠ (t.cellAt y x).code

instance (s t : Screen) : Decidable (s.Differs t) := inferInstanceAs (Decidable (∃ _ < _, ∃ _ < _, _))

namespace Emulator

private theorem Sound.isScalar_code {e : Emulator} (he : e.Sound) (y x : Nat) :
    Utf8.IsScalar (e.screen.cellAt y x).code :=
  (he.holds.code_cellAt Utf8.isPrintable_space y x).1

/-- A chunk changes the text exactly if it changes the code point of some cell. -/
theorem Sound.text_ne_iff {e e' : Emulator} (he : e.Sound) (he' : e'.Sound) (hw : e'.screen.width = e.screen.width)
    (hh : e'.screen.height = e.screen.height) : e.screen.text ≠ e'.screen.text ↔ e.screen.Differs e'.screen := by
  rw [Ne, Screen.text_eq_iff hw hh he.isScalar_code he'.isScalar_code]
  simp only [Screen.Differs, Classical.not_forall, exists_prop, Ne]

/-- A chunk that is written to a terminal counts a frame, and its change is told to the listeners, exactly if some
cell then holds another code point than before; otherwise nobody is told and nothing is counted.  Nor is anything where
the characters of the text cannot be counted: the chunk is not applied at all. -/
theorem Reached.write_counts_exactly_changes {e : Emulator} (he : e.Reached) (chunk : Bytes) :
    ∃ notices e', Emulator.take chunk e = .ok notices e' ∧ e'.screen.width = e.screen.width ∧
      e'.screen.height = e.screen.height ∧ (e.screen.text ≠ e'.screen.text ↔ e.screen.Differs e'.screen) ∧
      ∀ (hear : ListenerName → Change → SceneM Unit) (s : Scene) (t : Terminal),
        s.terminal = some t → t.emulator = e →
          ((e.screen.width + 1) * e.screen.height ≤ 2147483647 →
            (e.screen.Differs e'.screen → Scene.write hear chunk s =
              (do Scene.notify hear ⟨t.frames + 1, s.now, e.screen.text, e'.screen.text, e'.screen.cursor, chunk⟩
                  Scene.closing e.screen.text e'.screen.text)
                { s with terminal := some { t with emulator := e', frames := t.frames + 1, unread := true },
                         log := s.log ++ t.openingNotices s.now chunk ++ notices }) ∧
            (¬ e.screen.Differs e'.screen → ∃ log, Scene.write hear chunk s =
              .ok () { s with terminal := some { t with emulator := e' }, log := log })) ∧
          (2147483647 < (e.screen.width + 1) * e.screen.height → Scene.write hear chunk s =
            .error (.fault .textTooLong) { s with log := s.log ++ t.openingNotices s.now chunk }) := by
  obtain ⟨notices, e', htake, he', hw, hh⟩ := take_sound he.sound chunk
  have hiff := he.sound.text_ne_iff he' hw hh
  refine ⟨notices, e', htake, hw, hh, hiff, ?_⟩
  rintro hear s t ht rfl
  refine ⟨fun hroom => ?_, fun hno => Scene.write_of_no_room hear ht (Nat.not_le_of_lt hno) chunk⟩
  rw [Scene.write_eq hear ht hroom htake]
  constructor
  · intro hd
    exact if_neg (hiff.2 hd)
  · intro hd
    have hsame : t.text = e'.screen.text := Decidable.not_not.1 fun h => hd (hiff.1 h)
    exact ⟨_, if_pos hsame⟩

/-- A letter on an empty screen is a change, counts as the first frame, and is told to the listener. -/
theorem write_counts_first_letter :
    ∃ notices e', Emulator.take [0x61] { screen := .empty 2 1 } = .ok notices e' ∧
      (Screen.empty 2 1).Differs e'.screen ∧ (2 + 1) * 1 ≤ 2147483647 ∧
      ∃ s', Scene.write (Scene.hear 0) [0x61]
          { now := 5, terminal := some { emulator := { screen := .empty 2 1 }, registry := ⟨["a"]⟩ } } = .ok () s' ∧
        s'.terminal.map Terminal.frames = some 1 ∧
        s'.heard = [("a", ⟨1, 5, [0x20, 0x20], [0x61, 0x20], ⟨1, 0⟩, [0x61]⟩)] := by
  obtain ⟨notices, e', htake, -, -, -, hwrite⟩ :=
    Reached.write_counts_exactly_changes (@Reached.create { screen := .empty 2 1 } 2 1 rfl) [0x61]
  have hd : (Screen.empty 2 1).Differs e'.screen := by
    rw [← left_of_ok htake]
    decide +kernel
  have hroom : (2 + 1) * 1 ≤ 2147483647 := by decide
  have hheard : (⟨1, 5, (Screen.empty 2 1).text, e'.screen.text, e'.screen.cursor, [0x61]⟩ : Change) =
      ⟨1, 5, [0x20, 0x20], [0x61, 0x20], ⟨1, 0⟩, [0x61]⟩ := by
    rw [← left_of_ok htake]
    decide +kernel
  refine ⟨notices, e', htake, hd, hroom, _, (((hwrite (Scene.hear 0) _ _ rfl rfl).1 hroom).1 hd).trans rfl, rfl, ?_⟩
  exact congrArg (fun change => [("a", change)]) hheard

end Emulator

end ScreenWatch
