import ScreenWatch.Proofs.Emulator.Feeding
import ScreenWatch.Proofs.Screen.Wrapping
import ScreenWatch.Proofs.Terminal.Runs

/-!
# Plain text

A text of newlines and characters, written to a new terminal, is laid out in its rows (`write_text_to_new`).  The
induction is on what is still to come: the row in which the cursor stands is a piece of a line that may go on
(`Emulator.turns_text`).
-/

namespace ScreenWatch

open Screen (ShowsRows rowsOf rowsOf_of_length_le rowsOf_newline rowsOf_wrap)
open Utf8 (IsPrintable encode encodeAll)

variable {width height : Nat} {text : List Int}

namespace Emulator

/-- What a text adds to a screen whose last row is a piece of a line. -/
theorem turns_text (hw : 0 < width) (hh : 0 < height) (htext : ∀ c ∈ text, c = 0x0A ∨ IsPrintable c)
    {rows : List (List Int)} {piece : List Int} {s : Screen} (hs : ShowsRows width height (rows ++ [piece]) s)
    (hpiece : 0x0A ∉ piece) (hlen : piece.length ≤ width) :
    ∃ t, Turns (encodeAll text) s t ∧ ShowsRows width height (rows ++ rowsOf width (piece ++ text)) t := by
  induction text generalizing rows piece s with
  | nil =>
    refine ⟨s, .nil s, ?_⟩
    rw [List.append_nil, rowsOf_of_length_le hw hpiece hlen]
    exact hs
  | cons c rest ih =>
    have ih' := @ih fun d hd => htext d (List.mem_cons_of_mem c hd)
    -- A newline begins a row; a character goes on with the piece, or wraps if the piece is full.
    rcases htext c List.mem_cons_self with rfl | hc
    · obtain ⟨_, u, hfeed, hu⟩ := hs.after_lineFeed hw hh
      obtain ⟨t, hturns, ht⟩ := ih' hu List.not_mem_nil (Nat.zero_le width)
      refine ⟨t, (turns_newline hfeed).append hturns, ?_⟩
      rw [rowsOf_newline hw hpiece hlen, List.append_cons]
      exact ht
    · have hne : c ≠ 0x0A := by
        rintro rfl
        exact absurd hc.2 (by decide)
      by_cases hroom : piece.length < width
      · obtain ⟨_, u, hprint, hu⟩ := hs.after_print hh hroom c
        have hmem : 0x0A ∉ piece ++ [c] := by simp [hpiece, hne.symm]
        have hlen' : (piece ++ [c]).length ≤ width := by
          rw [List.length_append]
          exact hroom
        obtain ⟨t, hturns, ht⟩ := ih' hu hmem hlen'
        refine ⟨t, (turns_print hc hprint).append hturns, ?_⟩
        rw [List.append_cons]
        exact ht
      · have hfull : piece.length = width := Nat.le_antisymm hlen (Nat.le_of_not_lt hroom)
        obtain ⟨_, u, hprint, hu⟩ := hs.after_print_of_full hw hh hfull c
        obtain ⟨t, hturns, ht⟩ := ih' hu (by simpa using hne.symm) hw
        refine ⟨t, (turns_print hc hprint).append hturns, ?_⟩
        rw [rowsOf_wrap hw hpiece hfull hne, List.append_cons]
        exact ht

/-- A text of newlines and characters leaves an empty emulator at rest. -/
theorem take_text (hw : 0 < width) (hh : 0 < height) (htext : ∀ c ∈ text, c = 0x0A ∨ IsPrintable c) :
    Succeeds (take (encodeAll text)) { screen := .empty width height } fun _ e =>
      e.stream = .start ∧ ShowsRows width height (rowsOf width text) e.screen := by
  have hempty : ShowsRows width height ([] ++ [[]]) (.empty width height) := Screen.showsRows_empty hh
  obtain ⟨t, hturns, ht⟩ := turns_text hw hh htext hempty List.not_mem_nil (Nat.zero_le width)
  refine (hturns.take rfl rfl).mono fun _ e he => ⟨he.1, ?_⟩
  rw [he.2]
  exact ht

end Emulator

namespace Scene

theorem notify_of_no_members (hear : ListenerName → Change → SceneM Unit) (change : Change) {s : Scene} {t : Terminal}
    (ht : s.terminal = some t) (hnone : t.registry.members = []) : notify hear change s = .ok () s := by
  obtain ⟨now, terminal, generation, listeners, handles, heard, log⟩ := s
  cases ht
  have hmembers : onTerminal [] (return (← get).registry.members)
      ⟨now, some t, generation, listeners, handles, heard, log⟩ =
      .ok [] ⟨now, some t, generation, listeners, handles, heard, log⟩ := by
    rw [← hnone]
    rfl
  unfold notify
  rw [bind_of_ok hmembers]
  rfl

end Scene

namespace Terminal

end Terminal

end ScreenWatch
