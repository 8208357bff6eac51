import ScreenWatch.Proofs.Session.Round

/-!
# Rounds

The moments of a session (`Pump.Rounds`): before a wait, before a repaint, at the end of the loop, and after the last
repaint.  Each comes with what the repaints before it have sent.  A session passes through such moments to the end, or
breaks off in a repaint, or with a chunk for a screen whose text is too long to be read (`Pump.follow_ends`).
-/

namespace ScreenWatch.Session

open Host World

namespace Pump

/-- Where in its loop a session is. -/
inductive Place
  | waiting
  /-- An event was dealt with, and a repaint comes next. -/
  | ticking
  /-- The loop has ended. -/
  | ended
  /-- The last repaint is done. -/
  | closing
  deriving DecidableEq

/-- A repaint: the time, the screen of the terminal, and what was sent to the user. -/
structure Tick where
  time : UInt64
  screen : Screen
  sent : Bytes
  deriving DecidableEq

/-- The repaint by a pump between two worlds. -/
def Tick.between (p : Pump) (v v' : World) : Tick where
  time := v.clock.frozen
  screen := p.terminal.screen
  sent := v'.traffic.toUser.drop v.traffic.toUser.length

/-- The moments of a session that starts with `p₀` in `v₀`, with the repaints before each of them. -/
inductive Rounds (events : List Event) (p₀ : Pump) (v₀ : World) : Place → List Tick → Pump → World → Prop
  | start : Rounds events p₀ v₀ .waiting [] p₀ v₀
  | attend {ticks : List Tick} {p p' : Pump} {v v' : World} (h : Rounds events p₀ v₀ .waiting ticks p v)
    (hattend : p.attend events[ticks.length]? v = .ok (true, p') v') : Rounds events p₀ v₀ .ticking ticks p' v'
  | stop {ticks : List Tick} {p p' : Pump} {v v' : World} (h : Rounds events p₀ v₀ .waiting ticks p v)
    (hattend : p.attend events[ticks.length]? v = .ok (false, p') v') : Rounds events p₀ v₀ .ended ticks p' v'
  | repaint {ticks : List Tick} {p p' : Pump} {v v' : World} (h : Rounds events p₀ v₀ .ticking ticks p v)
    (hpresent : p.present false v = .ok p' v') :
    Rounds events p₀ v₀ .waiting (ticks ++ [.between p v v']) p' v'
  | last {ticks : List Tick} {p p' : Pump} {v v' : World} (h : Rounds events p₀ v₀ .ended ticks p v)
    (hpresent : p.present true v = .ok p' v') :
    Rounds events p₀ v₀ .closing (ticks ++ [.between p v v']) p' v'

/-- Goes on through a number of rounds, and gives what their repaints have done; fatal if the session ends before. -/
def rounds (events : List Event) (p : Pump) : Nat → SessionM (List Tick × Pump)
  | 0 => return ([], p)
  | n + 1 => do
    let (ticks, p) ← rounds events p n
    let (goesOn, p) ← p.attend events[ticks.length]?
    if goesOn then
      let v ← get
      let p' ← p.present false
      return (ticks ++ [.between p v (← get)], p')
    else throw .fatal

/-- The session breaks off in a repaint or with a chunk from the child, which leaves the world as `v'`. -/
inductive BreaksOff (events : List Event) (p₀ : Pump) (v₀ v' : World) : Prop
  | attend {ticks : List Tick} {p : Pump} {v : World} {stop : Stop} (h : Rounds events p₀ v₀ .waiting ticks p v)
    (hattend : p.attend events[ticks.length]? v = .error stop v')
  | repaint {ticks : List Tick} {p : Pump} {v : World} {stop : Stop} (h : Rounds events p₀ v₀ .ticking ticks p v)
    (hpresent : p.present false v = .error stop v')
  | last {ticks : List Tick} {p : Pump} {v : World} {stop : Stop} (h : Rounds events p₀ v₀ .ended ticks p v)
    (hpresent : p.present true v = .error stop v')

variable {o : Options} {events : List Event} {w v₀ v v' : World} {p₀ p p' : Pump} {place : Place} {ticks : List Tick}

theorem Rounds.of_rounds {n : Nat} (h : rounds events p₀ n v₀ = .ok (ticks, p) v) :
    Rounds events p₀ v₀ .waiting ticks p v := by
  induction n generalizing ticks p v with
  | zero =>
    cases h
    exact .start
  | succ n ih =>
    obtain ⟨⟨ticks', q⟩, u, hrounds, h⟩ := exists_of_bind_eq_ok h
    obtain ⟨⟨goesOn, q'⟩, u', hattend, h⟩ := exists_of_bind_eq_ok h
    cases goesOn with
    | false => cases h
    | true =>
      obtain ⟨_, _, hget, h⟩ := exists_of_bind_eq_ok h
      cases hget
      obtain ⟨p', v', hpresent, h⟩ := exists_of_bind_eq_ok h
      cases h
      exact .repaint (.attend (ih hrounds) hattend) hpresent

/-! ### Every moment -/

/-- A repaint leaves the emulator alone, and shows the user something if anything. -/
theorem present_shows (p : Pump) (force : Bool) (hv : v.IsFrozen) :
    Ends (p.present force) v (fun q v' => q.terminal.emulator = p.terminal.emulator ∧ v.Shows v') v.Shows := by
  cases hr : p.presenter with
  | none =>
    rw [present_of_none hr]
    exact .pure ⟨rfl, (World.Quiet.refl v).shows⟩
  | some r => exact (present_ends hr hv force).mono (fun _ _ h => ⟨h.emulator_eq, h.shows⟩) fun _ h => h.shows

/-- What every moment has: a sound emulator of the size that was asked for, whose text can be read where there are
traces, and a world that watches; and the time is frozen by the wait before it. -/
structure Steady (o : Options) (place : Place) (p : Pump) (v : World) : Prop where
  sound : p.terminal.emulator.Sound
  sameSize : (Screen.empty o.cols o.rows).SameSize p.terminal.screen
  room : o.verbose = true → p.terminal.emulator.HasTextRoom
  watches : v.Watches
  frozen : place ≠ .waiting → v.IsFrozen

private theorem Ready.steady (h : Ready o w p v) : Steady o .waiting p v := by
  obtain ⟨e, he, hp⟩ := h.create_eq
  have hsize : (Screen.empty o.cols o.rows).SameSize p.terminal.screen := by
    obtain ⟨-, -, -, rfl⟩ := Emulator.eq_empty_of_create he
    unfold Terminal.screen
    rw [hp]
    exact .refl _
  refine ⟨?_, hsize, h.room, h.watches, fun hplace => absurd rfl hplace⟩
  rw [hp]
  exact (Emulator.Reached.setDebug (.create he) o.debug).sound

theorem Steady.attended {event : Option Event} (h : Steady o place p v) :
    Ends (p.attend event) v (fun result v' => Attended p v result v' ∧ v'.IsFrozen) (Refuses p v) :=
  attend_ends h.sound h.watches event

private theorem Steady.attend {place' : Place} {event : Option Event} {goesOn : Bool} (h : Steady o place p v)
    (hattend : p.attend event v = .ok (goesOn, p') v') : Steady o place' p' v' := by
  obtain ⟨ha, hfrozen⟩ := h.attended.of_ok hattend
  have hroom (hverbose : o.verbose = true) : p'.terminal.emulator.HasTextRoom :=
    ha.keepsSize.hasTextRoom.2 (h.room hverbose)
  exact ⟨ha.isSound h.sound, h.sameSize.trans ha.keepsSize, hroom, h.watches.continues ha.continues, fun _ => hfrozen⟩

private theorem Steady.present {place' : Place} {force : Bool} (h : Steady o place p v) (hplace : place ≠ .waiting)
    (hpresent : p.present force v = .ok p' v') : Steady o place' p' v' := by
  obtain ⟨he, hshows⟩ := (present_shows p force (h.frozen hplace)).of_ok hpresent
  have hscreen : p'.terminal.screen = p.terminal.screen := congrArg Emulator.screen he
  exact ⟨he ▸ h.sound, hscreen ▸ h.sameSize, he ▸ h.room, h.watches.continues hshows.toContinues,
    fun _ => hshows.isFrozen (h.frozen hplace)⟩

theorem Rounds.steady (h₀ : Ready o w p₀ v₀) (h : Rounds events p₀ v₀ place ticks p v) : Steady o place p v := by
  induction h with
  | start => exact h₀.steady
  | attend _ hattend ih => exact ih.attend hattend
  | stop _ hattend ih => exact ih.attend hattend
  | repaint _ hpresent ih => exact ih.present (by decide) hpresent
  | last _ hpresent ih => exact ih.present (by decide) hpresent

theorem Steady.room_iff (h : Steady o place p v) :
    p.terminal.emulator.HasTextRoom ↔ (o.cols + 1) * o.rows ≤ 2147483647 := h.sameSize.hasTextRoom

theorem Rounds.attended (h₀ : Ready o w p₀ v₀) (h : Rounds events p₀ v₀ .waiting ticks p v) {event : Option Event}
    {goesOn : Bool} (hattend : p.attend event v = .ok (goesOn, p') v') : Attended p v (goesOn, p') v' :=
  ((h.steady h₀).attended.of_ok hattend).1

theorem Rounds.present_shows (h₀ : Ready o w p₀ v₀) (h : Rounds events p₀ v₀ place ticks p v)
    (hplace : place ≠ .waiting) (force : Bool) :
    Ends (p.present force) v (fun q v' => q.terminal.emulator = p.terminal.emulator ∧ v.Shows v') v.Shows :=
  Pump.present_shows p force ((h.steady h₀).frozen hplace)

/-- A session that breaks off in a repaint shows the user something, if anything; otherwise it breaks off with a
chunk that is not applied. -/
theorem BreaksOff.shows_or_refuses (h₀ : Ready o w p₀ v₀) (h : BreaksOff events p₀ v₀ v') :
    ∃ place ticks p v, Rounds events p₀ v₀ place ticks p v ∧ (v.Shows v' ∨ Refuses p v v') := by
  cases h with
  | attend h hattend => exact ⟨_, _, _, _, h, .inr ((h.steady h₀).attended.of_error hattend)⟩
  | repaint h hpresent => exact ⟨_, _, _, _, h, .inl ((h.present_shows h₀ (by decide) false).of_error hpresent)⟩
  | last h hpresent => exact ⟨_, _, _, _, h, .inl ((h.present_shows h₀ (by decide) true).of_error hpresent)⟩

/-! ### The whole session -/

/-- A step that goes on has dealt with an event and repainted; otherwise the loop ends. -/
private theorem step_ends (h₀ : Ready o w p₀ v₀) (h : Rounds events p₀ v₀ .waiting ticks p v) {rest : List Event}
    (hrest : events.drop ticks.length = rest) :
    Ends (p.step rest.head?) v (fun result v' =>
      if result.1 = true then rest ≠ [] ∧ ∃ tick, Rounds events p₀ v₀ .waiting (ticks ++ [tick]) result.2 v'
      else Rounds events p₀ v₀ .ended ticks result.2 v') (BreaksOff events p₀ v₀) := by
  have hsteady := h.steady h₀
  have hevent : rest.head? = events[ticks.length]? := by rw [← hrest, List.head?_drop]
  rw [step_eq, hevent]
  have hrefuses (v' : World) : (∃ stop, p.attend events[ticks.length]? v = .error stop v') →
      BreaksOff events p₀ v₀ v' := fun ⟨_, hattend⟩ => .attend h hattend
  refine ((Ends.exactly (p.attend events[ticks.length]?) v).mono (fun _ _ h => h) hrefuses).bind ?_
  rintro ⟨goesOn, q⟩ u hattend
  cases goesOn with
  | false => exact .pure (.stop h hattend)
  | true =>
    have hgoesOn : rest ≠ [] := by
      rintro rfl
      rw [← hevent] at hattend
      cases (attend_none p v).of_ok hattend
    have hbreaks (v' : World) : (∃ stop, q.present false u = .error stop v') → BreaksOff events p₀ v₀ v' :=
      fun ⟨_, hpresent⟩ => .repaint (.attend h hattend) hpresent
    refine ((Ends.exactly (q.present false) u).mono (fun _ _ h => h) hbreaks).bind ?_
    intro q' u' hpresent
    exact .pure ⟨hgoesOn, _, .repaint (.attend h hattend) hpresent⟩

private theorem run_ends (h₀ : Ready o w p₀ v₀) {rest : List Event} (h : Rounds events p₀ v₀ .waiting ticks p v)
    (hrest : events.drop ticks.length = rest) :
    Ends (run rest p) v (fun p' v' => ∃ ticks', Rounds events p₀ v₀ .ended ticks' p' v') (BreaksOff events p₀ v₀) := by
  have hstep := step_ends h₀ h hrest
  induction rest generalizing ticks p v with
  | nil =>
    refine hstep.bind ?_
    rintro ⟨goesOn, p'⟩ v' hround
    cases goesOn with
    | true => exact absurd rfl hround.1
    | false => exact .pure ⟨ticks, hround⟩
  | cons event rest ih =>
    refine hstep.bind ?_
    rintro ⟨goesOn, p'⟩ v' hround
    cases goesOn with
    | false => exact .pure ⟨ticks, hround⟩
    | true =>
      obtain ⟨-, tick, hround⟩ := hround
      have hrest' : events.drop (ticks ++ [tick]).length = rest := by
        rw [List.length_append, List.length_singleton, ← List.drop_drop, hrest, List.drop_one, List.tail_cons]
      exact ih hround hrest' (step_ends h₀ hround hrest')

/-- The bytes that leave the user's screen, if the pump repaints it. -/
def closing (p : Pump) : Bytes := (p.presenter.map fun r => r.display.closing).getD []

private theorem currentScreen_shows (hroom : p.terminal.emulator.HasTextRoom) (v : World) :
    Succeeds (do
      log [p.terminal.stateNotice]
      let (notices, _) ← p.onTerminal Terminal.currentScreen
      log notices) v fun _ => v.Quiet := by
  refine (log_quiet _).bind ?_
  intro _ u hu
  have hread : Succeeds Terminal.currentScreen p.terminal fun _ t => t = p.terminal :=
    ⟨_, _, bind_of_ok (Terminal.readText_of_room hroom), rfl⟩
  refine (onTerminal_succeeds hread).bind ?_
  rintro ⟨notices, _⟩ t ⟨-, rfl⟩
  exact (log_quiet notices).mono fun _ _ h => hu.trans h

/-- After the last repaint the user's screen is left, and no more is shown. -/
theorem finish_closes (o : Options) (p : Pump) (hroom : o.verbose = true → p.terminal.emulator.HasTextRoom)
    (hv : v.IsFrozen) : Ends (finish o p) v (fun p' v' => ∃ u, p.present true v = .ok p' u ∧ u.ShowsPart p'.closing v')
      fun v' => ∃ stop, p.present true v = .error stop v' := by
  unfold finish
  refine (Ends.exactly (p.present true) v).bind ?_
  intro q u hpresent
  have hq : q.terminal.emulator = p.terminal.emulator := ((present_shows p true hv).of_ok hpresent).1
  -- What comes after the closing words concerns the logs alone, and no part of it fails.
  suffices words : ∀ t, u.ShowsPart q.closing t → Succeeds (do
      if o.verbose then
        log [q.terminal.stateNotice]
        let (notices, _) ← q.onTerminal Terminal.currentScreen
        log notices
      if q.terminal.failures ≠ 0 then
        complain (Text.decimal q.terminal.failures ++ ascii " change listener error(s).\n")
      return q) t fun q' v' => q' = q ∧ u.ShowsPart q.closing v' by
    have said (t : World) (ht : u.ShowsPart q.closing t) := (words t ht).mono fun q' v' h =>
      (⟨u, h.1 ▸ hpresent, h.1 ▸ h.2⟩ : ∃ u, p.present true v = .ok q' u ∧ u.ShowsPart q'.closing v')
    dsimp only
    split
    · next r hr =>
      have hclosing : q.closing = r.display.closing := by rw [closing, hr]; rfl
      exact (deliver_shows _).discard.ends.bind fun _ t ht => (said t (hclosing ▸ ht)).ends
    · exact (said u ((World.Quiet.refl u).showsPart _)).ends
  have complaint (t : World) (ht : u.ShowsPart q.closing t) : Succeeds (do
      if q.terminal.failures ≠ 0 then
        complain (Text.decimal q.terminal.failures ++ ascii " change listener error(s).\n")
      return q) t fun q' v' => q' = q ∧ u.ShowsPart q.closing v' := by
    dsimp only
    split
    · exact (complain_quiet _).bind fun _ _ h => .pure ⟨rfl, ht.trans_quiet h⟩
    · exact .pure ⟨rfl, ht⟩
  intro t ht
  dsimp only
  split
  · next hverbose =>
    have hshown := currentScreen_shows (p := q) (hq ▸ hroom hverbose) t
    refine Succeeds.of_eq (hshown.bind fun _ s h => complaint s (ht.trans_quiet h)) ?_
    simp only [bind_assoc]
  · exact complaint t ht

theorem follow_eq (o : Options) (events : List Event) :
    follow o events = setUp o >>= fun p => run events p >>= finish o := by
  unfold follow setUp
  simp only [bind_assoc, pure_bind]

/-- A session that ends well has come to its last repaint, after which it leaves the user's screen; any other one breaks
off while it is set up, or in its loop. -/
theorem follow_closes (o : Options) (events : List Event) (w : World) :
    Ends (follow o events) w
      (fun p v => ∃ p₀ v₀ ticks u, setUp o w = .ok p₀ v₀ ∧ Rounds events p₀ v₀ .closing ticks p u ∧
        u.ShowsPart p.closing v)
      fun v => (∃ stop, setUp o w = .error stop v) ∨ ∃ p₀ v₀, setUp o w = .ok p₀ v₀ ∧ BreaksOff events p₀ v₀ v := by
  rw [follow_eq]
  refine ((Ends.exactly (setUp o) w).mono (fun _ _ h => h) fun _ h => .inl h).bind ?_
  intro p₀ v₀ hsetUp
  have h₀ : Ready o w p₀ v₀ := (setUp_ends o w).of_ok hsetUp
  refine ((run_ends h₀ .start rfl).mono (fun _ _ h => h) fun _ h => .inr ⟨p₀, v₀, hsetUp, h⟩).bind ?_
  rintro p v ⟨ticks, hended⟩
  have hsteady := hended.steady h₀
  refine (finish_closes o p hsteady.room (hsteady.frozen (by decide))).mono ?_ ?_
  · rintro p' v' ⟨u, hpresent, hshows⟩
    exact ⟨p₀, v₀, _, u, hsetUp, .last hended hpresent, hshows⟩
  · rintro v' ⟨stop, hpresent⟩
    exact .inr ⟨p₀, v₀, hsetUp, .last hended hpresent⟩

theorem follow_ends (o : Options) (events : List Event) (w : World) :
    Ends (follow o events) w
      (fun p v => ∃ p₀ v₀ ticks u, setUp o w = .ok p₀ v₀ ∧ Rounds events p₀ v₀ .closing ticks p u ∧ u.Shows v)
      fun v => (∃ stop, setUp o w = .error stop v) ∨ ∃ p₀ v₀, setUp o w = .ok p₀ v₀ ∧ BreaksOff events p₀ v₀ v := by
  refine (follow_closes o events w).mono ?_ fun _ h => h
  rintro p v ⟨p₀, v₀, ticks, u, hsetUp, hround, hshows⟩
  exact ⟨p₀, v₀, ticks, u, hsetUp, hround, hshows.shows⟩

end Pump

end ScreenWatch.Session
