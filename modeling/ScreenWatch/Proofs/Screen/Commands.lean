import ScreenWatch.Control.Function
import ScreenWatch.Proofs.Screen.Fits
import ScreenWatch.Screen.Edits

/-!
# Commands and control functions on screens that fit together

The commands of a control function name rows of the screen and make no raw movement (`commands_isSafe`), so a
control function ends well on every screen that fits together, whatever its parameters are, and leaves one of the
same size (`perform_continues`).  A new size gives a screen that fits together, too (`fits_resized`).
-/

namespace ScreenWatch

open Screen

variable {ok : Int → Prop} {s t u : Screen}

/-! ### Commands -/

/-- A command that stays on a screen of some height, keeps its size, and draws only what has the property. -/
def Screen.Command.IsSafe (ok : Int → Prop) (height : Nat) : Command → Prop
  | .print code => ok code
  | .resetRow row | .resetCells row _ _ => 0 ≤ row ∧ row < height
  | .advance | .resize _ _ => False
  | _ => True

theorem Screen.Command.run_continues (hsp : ok 0x20) (hs : s.Fits) {c : Command} (hc : c.IsSafe ok s.height) :
    Succeeds c.run s fun _ => Continues ok s := by
  have redraws {edit : ScreenM Unit} (h : Succeeds edit s fun _ => Redraws s) :
      Succeeds edit s fun _ => Continues ok s := h.mono fun _ _ ht => ht.continues hsp hs
  cases c with
  | print code => exact hs.continues_print hsp hc
  | lineFeed => exact (hs.lineFeed_spec hsp).mono fun _ _ ht => ht.1
  | reverseIndex => exact hs.continues_reverseIndex hsp
  | tab => exact .modify (hs.continues_moveToCol _)
  | scrollUp n => exact redraws (scrollUp_redraws hs.hasRows n)
  | scrollDown n => exact redraws (scrollDown_redraws hs.hasRows n)
  | insertLine n => exact redraws (insertLine_redraws hs.hasRows n)
  | deleteLine n => exact redraws (deleteLine_redraws hs.hasRows n)
  | deleteCell n => exact redraws (deleteCell_redraws hs.hasRows n)
  | resetRow row =>
    obtain ⟨y, rfl⟩ := Int.eq_ofNat_of_zero_le hc.1
    exact redraws ((resetRow_spec hs.isGrid (by have := hc.2; omega)).mono fun _ _ ht => ht.toRedraws)
  | resetCells row first last =>
    obtain ⟨y, rfl⟩ := Int.eq_ofNat_of_zero_le hc.1
    exact redraws ((resetCells_spec hs.isGrid (by have := hc.2; omega) first last).mono fun _ _ ht => ht.toRedraws)
  | clear => exact hs.continues_clear hsp
  | showAlternate => exact hs.continues_showAlternate hsp
  | showMain => exact hs.continues_showMain
  | reset => exact hs.continues_reset hsp
  | resize width height => exact hc.elim
  | moveToRow row => exact .modify (hs.continues_moveToRow row)
  | moveByRows n => exact .modify (hs.continues_moveToRow _)
  | moveToCol col => exact .modify (hs.continues_moveToCol col)
  | moveByCols n => exact .modify (hs.continues_moveToCol _)
  | advance => exact hc.elim
  | setCursor col row => exact .modify (hs.continues_setCursor col row)
  | setMargins top bottom => exact .modify (hs.continues_setMargins top bottom)
  | applyRendition n => exact .modify (hs.continues_pen _)
  | setForeground c => exact .modify (hs.continues_pen _)
  | setBackground c => exact .modify (hs.continues_pen _)
  | saveCursor => exact .modify hs.continues_saveCursor
  | restoreCursor => exact .modify (hs.continues_setCursor _ _)
  | setVisible on => exact .modify (hs.continues_setVisible on)

/-! ### Control functions -/

namespace Control.Function

theorem runAll_nil (s : Screen) : runAll [] s = .ok () s := rfl

theorem runAll_cons {c : Screen.Command} {rest : List Screen.Command} (h : c.run s = .ok () t)
    (h' : runAll rest t = .ok () u) : runAll (c :: rest) s = .ok () u :=
  (bind_of_ok h).trans h'

theorem runAll_singleton {c : Screen.Command} (h : c.run s = .ok () t) : runAll [c] s = .ok () t :=
  runAll_cons h (runAll_nil t)

theorem runAll_append (first rest : List Screen.Command) :
    runAll (first ++ rest) = (do runAll first; runAll rest) := List.forM_append

/-- Rendition codes change the pen, one after another. -/
theorem runAll_renditions (codes : List Nat) (s : Screen) :
    runAll (codes.map fun (n : Nat) => .applyRendition n) s =
      .ok () { s with pen := codes.foldl (fun q (n : Nat) => q.apply n) s.pen } := by
  induction codes generalizing s with
  | nil => rfl
  | cons n rest ih => exact runAll_cons rfl (ih _)

theorem perform_eq {f : Function} {q : Sequence} {commands : List Screen.Command}
    (hc : f.commands q s = commands) (h : runAll commands s = .ok () t) : f.perform q s = .ok () t := by
  subst hc
  exact h

theorem runAll_continues (hsp : ok 0x20) (hs : s.Fits) {commands : List Command}
    (h : ∀ c ∈ commands, c.IsSafe ok s.height) : Succeeds (runAll commands) s fun _ => Continues ok s := by
  refine Succeeds.forM _ (.refl hs) ?_
  intro c hc t ht
  have hsafe : c.IsSafe ok t.height := ht.height_eq ▸ h c hc
  exact (Command.run_continues hsp ht.fits hsafe).mono fun _ _ hu => ht.trans hu

private theorem modeChange_isSafe (on : Bool) (height mode : Nat) : ∀ c ∈ modeChange on mode, c.IsSafe ok height := by
  unfold modeChange
  split
  · simp [Command.IsSafe]
  · split
    · cases on <;> simp [Command.IsSafe]
    · simp

private theorem erasureInLine_isSafe (hs : s.Fits) (extent : Int) :
    ∀ c ∈ erasureInLine s extent, c.IsSafe ok s.height := by
  have hrow := hs.cursor.2
  unfold erasureInLine
  dsimp only
  split
  · simp [Command.IsSafe, hrow]
  · split
    · simp [Command.IsSafe, hrow]
    · split <;> simp [Command.IsSafe, hrow]

private theorem erasureInDisplay_isSafe (hs : s.Fits) (extent : Int) :
    ∀ c ∈ erasureInDisplay s extent, c.IsSafe ok s.height := by
  have hrow := hs.cursor.2
  unfold erasureInDisplay
  dsimp only
  split
  · intro c hc
    rcases List.mem_cons.1 hc with rfl | hc
    · exact ⟨by omega, by omega⟩
    · obtain ⟨i, hi, rfl⟩ := List.mem_map.1 hc
      have := List.mem_range.1 hi
      exact ⟨by omega, by omega⟩
  · split
    · intro c hc
      rcases List.mem_append.1 hc with hc | hc
      · obtain ⟨i, hi, rfl⟩ := List.mem_map.1 hc
        have := List.mem_range.1 hi
        exact ⟨by omega, by omega⟩
      · obtain rfl := List.mem_singleton.1 hc
        exact ⟨by omega, by omega⟩
    · split <;> simp [Command.IsSafe]

theorem commands_isSafe (hs : s.Fits) (f : Function) (q : Sequence) :
    ∀ c ∈ f.commands q s, c.IsSafe ok s.height := by
  -- Only erasures name rows; what a list of parameters asks for is looked at parameter by parameter.
  cases f with
  | eraseInLine => exact erasureInLine_isSafe hs _
  | eraseInDisplay => exact erasureInDisplay_isSafe hs _
  | setMode | resetMode =>
    intro c hc
    unfold commands at hc
    dsimp only at hc
    split at hc
    · obtain ⟨mode, -, hm⟩ := List.mem_flatMap.1 hc
      exact modeChange_isSafe _ _ mode c hm
    · cases hc
  | selectRendition =>
    intro c hc
    unfold commands at hc
    dsimp only at hc
    split at hc
    · obtain rfl := List.mem_singleton.1 hc
      trivial
    · obtain ⟨n, -, rfl⟩ := List.mem_map.1 hc
      trivial
  | _ => simp [commands, Command.IsSafe]

theorem perform_continues (hsp : ok 0x20) (hs : s.Fits) (f : Function) (q : Sequence) :
    Succeeds (f.perform q) s fun _ => Continues ok s := by
  have hsafe : ∀ c ∈ f.commands q s, c.IsSafe ok s.height := commands_isSafe hs f q
  exact .get_bind (runAll_continues hsp hs hsafe)

end Control.Function

/-! ### New sizes -/

namespace Screen

/-- What holds of the filled grid and is kept when an old cell or the filling is set holds of the new grid. -/
private theorem refit_induction {cells : Array Cell} {oldWidth oldHeight width height : Nat} {fill : Cell}
    (P : Array Cell → Prop) (h : P (Array.replicate (width * height) fill))
    (hset : ∀ a, P a → ∀ i c, c = fill ∨ c ∈ cells → P (a.setIfInBounds i c)) :
    P (refit cells oldWidth oldHeight width height fill) := by
  unfold refit
  refine List.foldlRecOn _ _ h ?_
  intro a ha y _
  refine List.foldlRecOn _ _ ha ?_
  intro b hb x _
  refine hset b hb _ _ ?_
  rw [Array.getD_eq_getD_getElem?]
  cases hi : cells[y * oldWidth + x]? with
  | none => exact .inl rfl
  | some c => exact .inr (Array.mem_of_getElem? hi)

private theorem size_refit (cells : Array Cell) (oldWidth oldHeight width height : Nat) (fill : Cell) :
    (refit cells oldWidth oldHeight width height fill).size = width * height := by
  refine refit_induction (·.size = width * height) Array.size_replicate ?_
  intro a ha i c _
  rw [Array.size_setIfInBounds, ha]

private theorem mem_refit {cells : Array Cell} {oldWidth oldHeight width height : Nat} {fill c : Cell}
    (h : c ∈ refit cells oldWidth oldHeight width height fill) : c = fill ∨ c ∈ cells := by
  refine refit_induction (fun a => ∀ c ∈ a, c = fill ∨ c ∈ cells) ?_ ?_ c h
  · intro c hc
    exact .inl (Array.mem_replicate.1 hc).2
  · intro a ha i d hd c hc
    rcases Array.mem_or_eq_of_mem_setIfInBounds hc with hc | rfl
    · exact ha c hc
    · exact hd

private theorem on_within (p : Position) {width height : Nat} (hh : 0 < height) :
    (p.within width height).On width height := by
  unfold Position.On Position.within
  constructor
  · dsimp only
    omega
  · dsimp only
    omega

/-- A size with something wrong about it is refused, and nothing changes. -/
theorem resize_of_fault {width height : Int} {fault : Fault} (h : sizeFault? width height = some fault) (s : Screen) :
    resize width height s = .error fault s := by
  unfold resize
  rw [h]
  rfl

theorem resize_of_none {width height : Int} (h : sizeFault? width height = none) (s : Screen) :
    resize width height s = .ok () (s.resized width.toNat height.toNat) := by
  unfold resize
  rw [h]
  rfl

theorem fits_resized (s : Screen) {width height : Nat} (hw : 0 < width) (hh : 0 < height) :
    (s.resized width height).Fits where
  width_pos := hw
  isGrid := size_refit ..
  cursor := on_within _ hh
  top_lt := by simp only [resized]; omega
  bottom_lt := by simp only [resized]; omega
  saved := on_within _ hh
  behind main hm := by
    obtain ⟨old, -, rfl⟩ := Option.map_eq_some_iff.1 hm
    exact ⟨size_refit .., on_within _ hh⟩

theorem holds_resized (hsp : ok 0x20) (h : s.Holds ok) (width height : Nat) : (s.resized width height).Holds ok where
  cells c hc := by
    rcases mem_refit hc with rfl | hc
    · exact hsp
    · exact h.cells c hc
  behind main hm c hc := by
    obtain ⟨old, ho, rfl⟩ := Option.map_eq_some_iff.1 hm
    rcases mem_refit hc with rfl | hc
    · exact hsp
    · exact h.behind old ho c hc

end Screen

end ScreenWatch
