import ScreenWatch.Proofs.Bounded.Agreement

/-!
# Control functions with bounded numbers

The numbers that control functions give to commands come from parameters, which saturate (`Sequence.Saturated`), and
from the cursor and the size of the screen.  So in small sizes all control functions agree with those on unbounded
numbers (`perform_agrees`).
-/

namespace ScreenWatch

open Screen (Command)

/-! ### Parameters -/

namespace Control

/-- No parameter is larger than the number at which they saturate. -/
def Sequence.Saturated (q : Sequence) : Prop := ∀ n ∈ q.params, n ≤ 65535

namespace Sequence.Saturated

variable {q : Sequence}

theorem empty : Sequence.empty.Saturated := nofun

theorem pushCurrent (h : q.Saturated) : q.pushCurrent.Saturated := by
  intro n hn
  unfold Sequence.pushCurrent at hn
  dsimp only at hn
  split at hn
  · rcases List.mem_append.1 hn with hn | hn
    · exact h n hn
    · obtain rfl := List.mem_singleton.1 hn
      exact Nat.min_le_right _ _
  · exact h n hn

theorem pushParam (h : q.Saturated) (c : Int) : (q.pushParam c).Saturated := by
  unfold Sequence.pushParam
  split
  · exact h.pushCurrent
  · exact h

theorem flush (h : q.Saturated) : q.flush.Saturated := by
  unfold Sequence.flush
  split
  · exact h
  · exact h.pushCurrent

theorem collect (h : q.Saturated) (c : Int) : (q.collect c).Saturated := by
  unfold Sequence.collect
  split <;> exact h

theorem param_le (h : q.Saturated) (index : Nat) (default : Int) (hdefault : 0 ≤ default ∧ default ≤ 65535) :
    0 ≤ q.param index default ∧ q.param index default ≤ 65535 := by
  unfold Sequence.param
  split
  · next value hvalue =>
    have hle := h value (List.mem_of_getElem? hvalue)
    split <;> omega
  · exact hdefault

end Sequence.Saturated

end Control

namespace Bounded

variable {ok : Int → Prop} {s : Screen}

open Control (Function Sequence)

private theorem isModest_modeChange (on : Bool) (mode : Nat) : ∀ c ∈ Function.modeChange on mode, IsModest c := by
  unfold Function.modeChange
  split
  · simp [IsModest, numbers]
  · split
    · cases on <;> simp [IsModest, numbers]
    · simp

section Small

variable (hs : s.Fits) (hsmall : IsSmall s.width s.height)

include hs hsmall

private theorem isModest_erasureInLine (extent : Int) : ∀ c ∈ Function.erasureInLine s extent, IsModest c := by
  have hrow := hs.cursor.2
  have hcol := hs.cursor.1
  have hw := hsmall.width_le
  have hh := hsmall.height_le
  unfold Function.erasureInLine
  dsimp only
  split
  · simp [IsModest, numbers]
    omega
  · split
    · simp [IsModest, numbers]
      omega
    · split
      · simp [IsModest, numbers]
        omega
      · simp

private theorem isModest_erasureInDisplay (extent : Int) : ∀ c ∈ Function.erasureInDisplay s extent, IsModest c := by
  have hrow := hs.cursor.2
  have hcol := hs.cursor.1
  have hw := hsmall.width_le
  have hh := hsmall.height_le
  have isModest_resetRow {y : Nat} (hy : y < s.height) : IsModest (.resetRow y) := by
    simp [IsModest, numbers]
    omega
  unfold Function.erasureInDisplay
  dsimp only
  intro c hc
  split at hc
  · rcases List.mem_cons.1 hc with rfl | hc
    · simp [IsModest, numbers]
      omega
    · obtain ⟨i, hi, rfl⟩ := List.mem_map.1 hc
      have := List.mem_range.1 hi
      exact isModest_resetRow (by omega)
  · split at hc
    · rcases List.mem_append.1 hc with hc | hc
      · obtain ⟨i, hi, rfl⟩ := List.mem_map.1 hc
        have := List.mem_range.1 hi
        exact isModest_resetRow (by omega)
      · obtain rfl := List.mem_singleton.1 hc
        simp [IsModest, numbers]
        omega
    · split at hc
      · obtain rfl := List.mem_singleton.1 hc
        simp [IsModest, numbers]
      · cases hc

theorem isModest_commands (f : Function) {q : Sequence} (hq : q.Saturated) : ∀ c ∈ f.commands q s, IsModest c := by
  have hfirst := hq.param_le 0 1 (by decide)
  have hh := hsmall.height_le
  cases f with
  | eraseInLine => exact isModest_erasureInLine hs hsmall _
  | eraseInDisplay => exact isModest_erasureInDisplay hs hsmall _
  | setMode | resetMode =>
    intro c hc
    unfold Function.commands at hc
    dsimp only at hc
    split at hc
    · obtain ⟨mode, -, hm⟩ := List.mem_flatMap.1 hc
      exact isModest_modeChange _ mode c hm
    · cases hc
  | selectRendition =>
    intro c hc
    unfold Function.commands at hc
    dsimp only at hc
    split at hc
    · obtain rfl := List.mem_singleton.1 hc
      simp [IsModest, numbers]
    · obtain ⟨n, hn, rfl⟩ := List.mem_map.1 hc
      have hle := hq n hn
      simp [IsModest, numbers]
      omega
  | setMargins =>
    have hbottom := hq.param_le 1 s.height (by omega)
    simp [Function.commands, IsModest, numbers]
    omega
  | cursorPosition =>
    have hcol := hq.param_le 1 1 (by decide)
    simp [Function.commands, IsModest, numbers]
    omega
  | _ => simp [Function.commands, IsModest, numbers] <;> omega

theorem perform_agrees (hsp : ok 0x20) (f : Function) {q : Sequence} (hq : q.Saturated) :
    Agrees (f.performBy editor q) (f.perform q) s fun _ => Screen.Continues ok s := by
  have hsafe : ∀ c ∈ f.commands q s, c.IsSafe ok s.height := Function.commands_isSafe hs f q
  have hmodest := isModest_commands hs hsmall f hq
  refine .get_bind (.forM (Screen.Continues ok s) (.refl hs) fun c hc t ht => ?_)
  have hsafe' : c.IsSafe ok t.height := ht.height_eq ▸ hsafe c hc
  exact (run_agrees hsp ht.fits (hsmall.continues ht) hsafe' (hmodest c hc)).mono fun _ _ hu => ht.trans hu

end Small

end Bounded

end ScreenWatch
