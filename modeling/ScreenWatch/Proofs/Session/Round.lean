import ScreenWatch.Proofs.Emulator.Sound
import ScreenWatch.Proofs.Session.Traffic
import ScreenWatch.Proofs.Terminal.Runs
import ScreenWatch.Session.Pump

/-!
# One round

A round of the loop waits for an event, deals with it (`Pump.attend`), and repaints (`Pump.present`).  Dealing with an
event passes on at most one chunk (`Attended`); it fails only if a chunk has come for a screen whose text is too long to
be read (`Refuses`).  Repainting either finds that it is too early, finds
nothing to do, or sends one frame (`Presented`); it fails only if that frame is given up on (`GivesUp`).  Before the
first round the session is set up (`Pump.setUp`).
-/

namespace ScreenWatch.Session

open Host World

variable {v v' u : World}

namespace World

/-- What the session listens to is watched. -/
structure Watches (v : World) : Prop where
  child : childTerminal ∈ v.selector.watched
  user : v.machine.isTerminal = true → userInput ∈ v.selector.watched

theorem Watches.continues (hv : v.Watches) (h : v.Continues v') : v'.Watches where
  child := h.watched_subset hv.child
  user hterminal := h.watched_subset (hv.user (h.machine_eq ▸ hterminal))

/-- Between `v` and `v'` only the user was shown something. -/
structure Shows (v v' : World) : Prop extends v.Continues v' where
  traffic_eq : ∃ data, v'.traffic = v.traffic.send .user data

theorem Quiet.shows (h : v.Quiet v') : v.Shows v' := ⟨h.toContinues, [], by rw [h.traffic_eq, Traffic.send_nil]⟩

theorem Quiet.trans_shows (h : v.Quiet v') (h' : v'.Shows u) : v.Shows u := by
  refine ⟨h.toContinues.trans h'.toContinues, ?_⟩
  rw [← h.traffic_eq]
  exact h'.traffic_eq

theorem Shows.trans_quiet (h : v.Shows v') (h' : v'.Quiet u) : v.Shows u :=
  ⟨h.toContinues.trans h'.toContinues, h.traffic_eq.imp fun _ hdata => h'.traffic_eq.trans hdata⟩

theorem Shows.fromChild_eq (h : v.Shows v') : v'.traffic.fromChild = v.traffic.fromChild := by
  obtain ⟨data, htraffic⟩ := h.traffic_eq
  simp [htraffic, Traffic.send]

/-- Of what was to go to a target between `v` and `v'`, only a first part has gone: the delivery was given up on. -/
structure CutsShort (v : World) (target : Target) (data : Bytes) (v' : World) : Prop extends v.Continues v' where
  failure_ne : (Delivery.deliver data v.writes).failure ≠ none
  traffic_eq : v'.traffic = v.traffic.send target (Delivery.deliver data v.writes).taken

theorem CutsShort.of_quiet {target : Target} {data : Bytes} (hv : v.Quiet u) (h : u.CutsShort target data v') :
    v.CutsShort target data v' := by
  obtain ⟨hcontinues, hfailure, htraffic⟩ := h
  rw [hv.writes_eq] at hfailure htraffic
  exact ⟨hv.toContinues.trans hcontinues, hfailure, htraffic.trans (by rw [hv.traffic_eq])⟩

theorem CutsShort.shows {data : Bytes} (h : v.CutsShort .user data v') : v.Shows v' :=
  ⟨h.toContinues, _, h.traffic_eq⟩

/-- Between `v` and `v'` the user was shown a first part of the data, and nothing else. -/
structure ShowsPart (v : World) (data : Bytes) (v' : World) : Prop extends v.Continues v' where
  traffic_eq : ∃ part, part <+: data ∧ v'.traffic = v.traffic.send .user part

theorem ShowsPart.shows {data : Bytes} (h : v.ShowsPart data v') : v.Shows v' :=
  ⟨h.toContinues, h.traffic_eq.imp fun _ => And.right⟩

theorem Quiet.showsPart (h : v.Quiet v') (data : Bytes) : v.ShowsPart data v' :=
  ⟨h.toContinues, [], List.nil_prefix, by rw [h.traffic_eq, Traffic.send_nil]⟩

theorem ShowsPart.trans_quiet {data : Bytes} (h : v.ShowsPart data v') (h' : v'.Quiet u) : v.ShowsPart data u :=
  ⟨h.toContinues.trans h'.toContinues, h.traffic_eq.imp fun _ hpart => ⟨hpart.1, h'.traffic_eq.trans hpart.2⟩⟩

theorem deliver_shows (data : Bytes) : Succeeds (deliver .user data) v fun _ => v.ShowsPart data :=
  (deliver_sends .user data).mono fun _ _ h => ⟨h.2.1, _, Delivery.taken_prefix data v.writes, h.2.2⟩

end World

/-- The frame of a presenter for a terminal. -/
def Presenter.frameFor (r : Presenter) (t : Terminal) : Bytes := r.display.frame r.initialized r.painted t.screen

namespace Pump

theorem log_quiet (notices : List Notice) : Succeeds (log notices) v fun _ => v.Quiet := by
  refine Succeeds.forM v.Quiet (.refl v) ?_
  intro notice _ u hu
  exact (complain_quiet _).mono fun _ _ h => hu.trans h

theorem onTerminal_succeeds {α : Type} {p : Pump} {act : TerminalM α} {Q : α → Terminal → Prop}
    (h : Succeeds act p.terminal Q) : Succeeds (p.onTerminal act) v fun result v' =>
      (∃ t, Q result.1 t ∧ result.2 = { p with terminal := t }) ∧ v' = v := by
  obtain ⟨a, t, ha, hq⟩ := h
  unfold onTerminal
  rw [ha]
  exact .pure ⟨⟨t, hq, rfl⟩, rfl⟩

theorem onTerminal_of_error {α : Type} {p : Pump} {act : TerminalM α} {fault : Fault} {t : Terminal}
    (h : act p.terminal = .error fault t) (v : World) :
    p.onTerminal act v = .error (.raised (ascii fault.message)) v := by
  unfold onTerminal
  rw [h]
  rfl

/-! ### Dealing with an event -/

/-- Waits for an event and deals with it, without repainting.  Says whether the session goes on. -/
def attend (p : Pump) (event : Option Event) : SessionM (Bool × Pump) := do
  match ← wait p.timeout event, event with
  | .error e, _ =>
    reportFailure "select" e
    return (false, p)
  | .ok _, none => return (false, p)
  | .ok _, some event =>
    if ← isEnded fatalSignals then return (false, p)
    p.handle event

/-- A step attends to an event, and then repaints if the session goes on. -/
theorem step_eq (p : Pump) (event : Option Event) : p.step event = do
    let (goesOn, p) ← p.attend event
    if goesOn then return (true, ← p.present false) else return (false, p) := by
  unfold step attend
  rw [bind_assoc]
  congr 1
  funext result
  rcases result with e | n
  · simp
  · cases event with
    | none => simp
    | some event =>
      simp only [bind_assoc]
      congr 1
      funext ended
      cases ended <;> simp

/-- What attending to an event may do: nothing, pass a chunk from the user to the child, or show a chunk from the child
to the terminal. -/
inductive Attended (p : Pump) (v : World) : Bool × Pump → World → Prop
  | idle {goesOn : Bool} {v' : World} (hv : v.Quiet v') : Attended p v (goesOn, p) v'
  | passed {chunk : Bytes} {v' : World} (hv : v.Continues v')
    (htraffic : v'.traffic = (v.traffic.hear userInput chunk).send .child (Delivery.deliver chunk v.writes).taken) :
    Attended p v ((Delivery.deliver chunk v.writes).failure.isNone, p) v'
  | shown {chunk : Bytes} {notices : List Notice} {t : Terminal} {v' : World} (hv : v.Continues v')
    (htraffic : v'.traffic = v.traffic.hear childTerminal chunk) (hroom : p.terminal.emulator.HasTextRoom)
    (htake : p.terminal.emulator.take chunk = .ok notices t.emulator) :
    Attended p v (true, { p with terminal := t }) v'

/-- A chunk has come from the child, but the text of the screen is too long to be read. -/
structure Refuses (p : Pump) (v v' : World) : Prop extends v.Continues v' where
  noRoom : ¬ p.terminal.emulator.HasTextRoom
  traffic_eq : ∃ chunk, v'.traffic = v.traffic.hear childTerminal chunk

variable {p : Pump} {result : Bool × Pump}

theorem Refuses.of_quiet (hv : v.Quiet u) (h : Refuses p u v') : Refuses p v v' := by
  obtain ⟨hcontinues, hroom, chunk, htraffic⟩ := h
  rw [hv.traffic_eq] at htraffic
  exact ⟨hv.toContinues.trans hcontinues, hroom, chunk, htraffic⟩

theorem Attended.continues (h : Attended p v result v') : v.Continues v' := by
  cases h with
  | idle hv => exact hv.toContinues
  | passed hv => exact hv
  | shown hv => exact hv

theorem Attended.of_quiet (hv : v.Quiet u) (h : Attended p u result v') : Attended p v result v' := by
  cases h with
  | idle hv' => exact .idle (hv.trans hv')
  | passed hv' htraffic =>
    rw [hv.traffic_eq] at htraffic
    rw [hv.writes_eq] at htraffic ⊢
    exact .passed (hv.toContinues.trans hv') htraffic
  | shown hv' htraffic hroom htake =>
    rw [hv.traffic_eq] at htraffic
    exact .shown (hv.toContinues.trans hv') htraffic hroom htake

theorem Attended.isSound (hp : p.terminal.emulator.Sound) (h : Attended p v result v') :
    result.2.terminal.emulator.Sound := by
  cases h with
  | idle => exact hp
  | passed => exact hp
  | @shown chunk notices t _ _ _ _ htake =>
    obtain ⟨_, e, he, hsound, -⟩ := Emulator.take_sound hp chunk
    obtain rfl := (EStateM.Result.ok.inj (htake.symm.trans he)).2
    exact hsound

theorem Attended.keepsSize (h : Attended p v result v') : p.terminal.screen.SameSize result.2.terminal.screen := by
  cases h with
  | idle => exact .refl _
  | passed => exact .refl _
  | shown _ _ _ htake => exact Emulator.sameSize_of_take htake

theorem isEnded_quiet {signals : List Int} (h : ∀ s ∈ signals, Selector.isSignal s = true) :
    Succeeds (isEnded signals) v fun _ => v.Quiet := by
  induction signals generalizing v with
  | nil => exact .pure (.refl v)
  | cons signal rest ih =>
    unfold isEnded
    refine (takeSignal_quiet (h signal (by simp))).bind ?_
    intro arrived u hu
    split
    · exact .pure hu
    · exact (ih fun s hs => h s (by simp [hs])).mono fun _ _ h' => hu.trans h'

theorem passInput_attended (p : Pump) (event : Event) :
    Succeeds (passInput event) v fun goesOn => Attended p v (goesOn, p) := by
  unfold passInput
  refine (read_hears event userInput).bind ?_
  rintro result u ⟨hu, hwrites, htraffic⟩
  rcases result with e | _ | ⟨b, chunk⟩
  · have hquiet : v.Quiet u := ⟨hu, hwrites, htraffic.trans (Traffic.hear_nil _ _)⟩
    exact (reportFailure_quiet "read" e).bind fun _ _ h => .pure (.idle (hquiet.trans h))
  · exact .pure (.idle ⟨hu, hwrites, htraffic.trans (Traffic.hear_nil _ _)⟩)
  · refine (deliver_sends .child (b :: chunk)).mono ?_
    rintro goesOn v' ⟨rfl, hv', hsent⟩
    rw [hwrites] at hsent ⊢
    exact .passed (hu.trans hv') (hsent.trans (by rw [htraffic]; rfl))

private theorem terminalReceive_takes {t : Terminal} (ht : t.emulator.Sound) (hroom : t.emulator.HasTextRoom)
    (time : Nat) (chunk : Bytes) (raises : ListenerName → Change → Option Bytes) :
    Succeeds (Terminal.receive time chunk raises) t fun _ t' =>
      ∃ notices, t.emulator.take chunk = .ok notices t'.emulator := by
  obtain ⟨notices, e, he, -⟩ := Emulator.take_sound ht chunk
  unfold Terminal.receive
  refine .of_eq ?_ (bind_of_ok (Terminal.readText_of_room hroom))
  refine .of_eq ?_ (bind_of_ok (Terminal.take_eq he))
  have hroom' : Emulator.HasTextRoom (Terminal.emulator { t with emulator := e }) := hroom.take he
  refine .of_eq ?_ (bind_of_ok (Terminal.readText_of_room hroom'))
  dsimp only
  split
  · refine Succeeds.bind (Q := fun _ t' => t'.emulator = e) ⟨_, _, rfl, rfl⟩ ?_
    rintro change t' rfl
    refine Succeeds.bind (Q := fun _ t'' => t''.emulator = t'.emulator) ⟨_, _, rfl, rfl⟩ ?_
    intro _ t'' h
    exact .get_bind (.pure ⟨notices, h ▸ he⟩)
  · exact .get_bind (.pure ⟨notices, he⟩)

/-- A chunk from the child is shown to the terminal, if the text of its screen can be read. -/
theorem receive_ends (hp : p.terminal.emulator.Sound) (chunk : Bytes) (v : World) :
    Ends (p.receive chunk) v (fun q v' => p.terminal.emulator.HasTextRoom ∧ ∃ notices t,
        q = { p with terminal := t } ∧ p.terminal.emulator.take chunk = .ok notices t.emulator ∧ v.Quiet v')
      fun v' => ¬ p.terminal.emulator.HasTextRoom ∧ v.Quiet v' := by
  unfold receive
  refine .get_bind ((log_quiet _).ends.bind ?_)
  intro _ u hu
  by_cases hroom : p.terminal.emulator.HasTextRoom
  · refine (onTerminal_succeeds (terminalReceive_takes hp hroom v.machine.wall chunk _)).ends.bind ?_
    rintro ⟨notices, _⟩ _ ⟨⟨t, ⟨found, htake⟩, rfl⟩, rfl⟩
    exact (log_quiet notices).ends.bind fun _ _ h => .pure ⟨hroom, found, t, rfl, htake, hu.trans h⟩
  · have hrefused {time : Nat} {raises : ListenerName → Change → Option Bytes} :
        Terminal.receive time chunk raises p.terminal = .error .textTooLong p.terminal :=
      bind_of_error (Terminal.readText_of_no_room hroom)
    exact .of_eq (.throw ⟨hroom, hu⟩) (bind_of_error (onTerminal_of_error hrefused u))

private theorem takeOutput_attended (hp : p.terminal.emulator.Sound) (event : Event) :
    Ends (p.takeOutput event) v (Attended p v) (Refuses p v) := by
  unfold takeOutput
  refine (read_hears event childTerminal).ends.bind ?_
  rintro result u ⟨hu, hwrites, htraffic⟩
  rcases result with e | _ | ⟨b, chunk⟩
  · have hquiet : v.Quiet u := ⟨hu, hwrites, htraffic.trans (Traffic.hear_nil _ _)⟩
    dsimp only
    split
    · exact (reportFailure_quiet "read" e).ends.bind fun _ _ h => .pure (.idle (hquiet.trans h))
    · exact .pure (.idle hquiet)
  · exact .pure (.idle ⟨hu, hwrites, htraffic.trans (Traffic.hear_nil _ _)⟩)
  · have hreceive := (receive_ends hp (b :: chunk) u).mono (fun _ _ h => h) fun u' hu' =>
      (⟨hu.trans hu'.2.toContinues, hu'.1, b :: chunk, hu'.2.traffic_eq.trans htraffic⟩ : Refuses p v u')
    refine hreceive.bind ?_
    rintro _ u' ⟨hroom, notices, t, rfl, htake, h⟩
    exact .pure (.shown (hu.trans h.toContinues) (h.traffic_eq.trans htraffic) hroom htake)

private theorem handle_attended (hp : p.terminal.emulator.Sound) (hv : v.Watches) (event : Event) :
    Ends (p.handle event) v (Attended p v) (Refuses p v) := by
  have output {u : World} (hu : v.Quiet u) : Ends (do
      if ← isReadable childTerminal then p.takeOutput event else return (true, p)) u (Attended p v) (Refuses p v) := by
    refine (isReadable_quiet (hv.continues hu.toContinues).child).ends.bind ?_
    intro readable t ht
    split
    · exact (takeOutput_attended hp event).mono (fun _ _ h => h.of_quiet (hu.trans ht))
        fun _ h => h.of_quiet (hu.trans ht)
    · exact .pure (.idle (hu.trans ht))
  unfold handle
  refine .get_bind ?_
  split
  · next hterminal =>
    refine (isReadable_quiet (hv.user hterminal)).ends.bind ?_
    intro readable u hu
    split
    · exact (passInput_attended p event).ends.bind fun _ _ h => .pure (h.of_quiet hu)
    · exact output hu
  · exact output (.refl v)

theorem attend_ends (hp : p.terminal.emulator.Sound) (hv : v.Watches) (event : Option Event) :
    Ends (p.attend event) v (fun result v' => Attended p v result v' ∧ v'.IsFrozen) (Refuses p v) := by
  unfold attend
  refine (wait_quiet p.timeout event).ends.bind ?_
  rintro result u ⟨hu, hfrozen⟩
  -- Whatever is done after the wait leaves the time frozen.
  have later {act : SessionM (Bool × Pump)} (h : Ends act u (Attended p u) (Refuses p u)) :
      Ends act u (fun result v' => Attended p v result v' ∧ v'.IsFrozen) (Refuses p v) :=
    h.mono (fun _ _ ha => ⟨ha.of_quiet hu, ha.continues.isFrozen hfrozen⟩) fun _ h => h.of_quiet hu
  rcases result with e | n
  · exact later ((reportFailure_quiet "select" e).ends.bind fun _ _ h => .pure (.idle h))
  cases event with
  | none => exact later (.pure (.idle (.refl u)))
  | some event =>
    refine later ((isEnded_quiet (by decide)).ends.bind ?_)
    intro ended t ht
    split
    · exact .pure (.idle ht)
    · exact (handle_attended hp (hv.continues (hu.trans ht).toContinues) event).mono (fun _ _ h => h.of_quiet ht)
        fun _ h => h.of_quiet ht

/-- Without an event the session ends. -/
theorem attend_none (p : Pump) (v : World) : Succeeds (p.attend none) v fun result _ => result.1 = false := by
  unfold attend
  refine (wait_quiet p.timeout none).bind ?_
  rintro (e | n) u -
  · exact (reportFailure_quiet "select" e).bind fun _ _ _ => .pure rfl
  · exact .pure rfl

/-! ### Repainting -/

section Present

variable {r : Presenter} {force : Bool}

/-- What a repaint that ends well may do. -/
inductive Presented (p : Pump) (r : Presenter) (force : Bool) (v : World) : Pump → World → Prop
  | early {v' : World} (hearly : r.isEarly v.clock.frozen force = true) (hv : v.Quiet v') :
    Presented p r force v { p with presenter := some r, timeout := r.interval } v'
  | upToDate {v' : World} (hearly : r.isEarly v.clock.frozen force = false)
    (hcurrent : r.isUpToDate p.terminal = true) (hv : v.Quiet v') :
    Presented p r force v { p with presenter := some r, timeout := -1 } v'
  | painted {v' : World} (hearly : r.isEarly v.clock.frozen force = false)
    (hcurrent : r.isUpToDate p.terminal = false) (hv : v.Continues v')
    (htraffic : v'.traffic = v.traffic.send .user (r.frameFor p.terminal)) :
    Presented p r force v
      { terminal := { p.terminal with unread := false, readHash := p.terminal.screen.hash }
        presenter := some { r with
          painted := p.terminal.screen, initialized := true, lastTime := v.clock.frozen }
        timeout := -1 } v'

/-- A repaint is due, but its frame is given up on. -/
structure GivesUp (p : Pump) (r : Presenter) (force : Bool) (v v' : World) : Prop
    extends v.CutsShort .user (r.frameFor p.terminal) v' where
  isDue : r.isEarly v.clock.frozen force = false
  isPending : r.isUpToDate p.terminal = false

theorem Presented.shows {q : Pump} (h : p.Presented r force v q v') : v.Shows v' := by
  cases h with
  | early _ hv => exact hv.shows
  | upToDate _ _ hv => exact hv.shows
  | painted _ _ hv htraffic => exact ⟨hv, _, htraffic⟩

theorem Presented.emulator_eq {q : Pump} (h : p.Presented r force v q v') :
    q.terminal.emulator = p.terminal.emulator := by
  cases h <;> rfl

theorem present_of_none (h : p.presenter = none) (force : Bool) : p.present force = pure p := by
  unfold present
  rw [h]

private theorem paint_ends (r : Presenter) (t : Terminal) (now : UInt64) (v : World) :
    Ends (r.paint t now) v
      (fun result v' => result = ({ t with unread := false, readHash := t.screen.hash },
          { r with painted := t.screen, initialized := true, lastTime := now }) ∧
        v.Continues v' ∧ v'.traffic = v.traffic.send .user (r.frameFor t))
      (v.CutsShort .user (r.frameFor t)) := by
  unfold Presenter.paint
  refine (deliver_sends .user (r.frameFor t)).ends.bind ?_
  rintro isDone v' ⟨rfl, hv', htraffic⟩
  cases hfailure : (Delivery.deliver (r.frameFor t) v.writes).failure with
  | none =>
    rw [Delivery.taken_of_no_failure hfailure] at htraffic
    exact .pure ⟨rfl, hv', htraffic⟩
  | some failure =>
    have hcut : v.CutsShort .user (r.frameFor t) v' :=
      ⟨hv', by simp [hfailure], htraffic⟩
    exact .get_bind (Ends.bind (Q := fun _ _ => False) (.throw hcut) fun _ _ h => h.elim)

theorem present_ends (hr : p.presenter = some r) (hv : v.IsFrozen) (force : Bool) :
    Ends (p.present force) v (p.Presented r force v) (p.GivesUp r force v) := by
  unfold present Presenter.tick
  rw [hr]
  simp only [bind_assoc]
  refine (time_quiet hv).ends.bind ?_
  rintro _ u ⟨rfl, hu⟩
  cases hearly : r.isEarly v.clock.frozen force with
  | true => exact .pure (.early hearly hu)
  | false =>
    cases hcurrent : r.isUpToDate p.terminal with
    | true => exact .pure (.upToDate hearly hcurrent hu)
    | false =>
      simp only [Bool.false_eq_true, if_false, bind_assoc]
      have hpaint := (paint_ends r p.terminal v.clock.frozen u).mono (fun _ _ h => h)
        fun _ h => GivesUp.mk (h.of_quiet hu) hearly hcurrent
      refine hpaint.bind ?_
      rintro _ t ⟨rfl, ht, htraffic⟩
      rw [hu.traffic_eq] at htraffic
      exact .pure (.painted hearly hcurrent (hu.toContinues.trans ht) htraffic)

end Present

/-! ### Setting up -/

/-- Everything that is done before the first round. -/
def setUp (o : Options) : SessionM Pump := do
  let p ← start o
  watch
  return p

/-- The display of the user's terminal. -/
def displayOf (m : Machine) : Except Repaint.DescriptionError Repaint.Display :=
  Repaint.Display.ofDescription m.description (m.env.get? "VTMIRROR_NO_TERM_INIT").isSome

/-- The session has begun: nothing was painted yet, and the terminal is as it was created. -/
structure Begun (o : Options) (w : World) (p : Pump) (v : World) : Prop where
  create_eq : ∃ e, Emulator.create o.cols o.rows = .ok e ∧ p.terminal.emulator = { e with debug := o.debug }
  /-- The screen has been shown if there are traces. -/
  room : o.verbose = true → p.terminal.emulator.HasTextRoom
  presenter_eq : o.present = true → ∃ display, displayOf w.machine = .ok display ∧
    p.presenter = some { display, interval := o.interval, painted := .empty o.cols o.rows }
  presenter_none : o.present = false → p.presenter = none
  timeout_eq : p.timeout = -1
  shows : w.Shows v

/-- The session is ready for its first round. -/
structure Ready (o : Options) (w : World) (p : Pump) (v : World) : Prop extends Begun o w p v where
  watches : v.Watches

private theorem openDisplay_ends (w : World) :
    Ends openDisplay w (fun display v => displayOf w.machine = .ok display ∧ w.Shows v) w.Shows := by
  unfold openDisplay displayOf
  refine .get_bind ?_
  dsimp only
  split
  · exact .throw (World.Quiet.refl w).shows
  · next display hdisplay => exact (deliver_shows _).discard.ends.bind fun _ _ h => .pure ⟨hdisplay, h.shows⟩

theorem watch_watches : Succeeds watch v fun _ v' => v.Quiet v' ∧ v'.Watches := by
  -- The user is watched by now, if that is necessary.
  have others {u : World} (hu : v.Quiet u) (huser : u.machine.isTerminal = true → userInput ∈ u.selector.watched) :
      Succeeds (do
        watchDescriptor childTerminal
        fatalSignals.forM watchSignal) u fun _ v' => v.Quiet v' ∧ v'.Watches := by
    refine (watchDescriptor_quiet (by decide)).bind ?_
    rintro _ t ⟨ht, hchild⟩
    have hwatches : t.Watches := ⟨hchild, fun hterminal =>
      ht.watched_subset (huser (ht.machine_eq ▸ hterminal))⟩
    refine Succeeds.forM (fun v' => v.Quiet v' ∧ v'.Watches) ⟨hu.trans ht, hwatches⟩ ?_
    rintro signal hsignal v' ⟨hv', hw⟩
    have hhandleable : Selector.isSignal signal = true ∧ signal ∉ Selector.unhandleable := by
      revert signal
      decide
    exact (watchSignal_quiet hhandleable).mono fun _ _ h => ⟨hv'.trans h, hw.continues h.toContinues⟩
  unfold watch
  refine .get_bind ?_
  dsimp only
  split
  · exact (watchDescriptor_quiet (by decide)).bind fun _ _ h => others h.1 fun _ => h.2
  · next h => exact others (.refl v) fun hterminal => absurd hterminal h

/-- There is a new terminal, or the action raises. -/
theorem openTerminal_cases (o : Options) :
    (∃ message, openTerminal o = throw (.raised message)) ∨
      ∃ t, Terminal.create o.cols o.rows = .ok t ∧ openTerminal o = pure t := by
  unfold openTerminal
  cases hcreate : Terminal.create o.cols o.rows with
  | error fault => exact .inl ⟨_, rfl⟩
  | ok t => exact .inr ⟨t, rfl, rfl⟩

/-- The screen is read where there are traces, and is not too long then. -/
private theorem initialScreen_ends (p : Pump) (v : World) :
    Ends (p.onTerminal Terminal.initialScreen) v
      (fun result v' => result.2 = p ∧ (p.terminal.verbose = true → p.terminal.emulator.HasTextRoom) ∧ v' = v)
      (· = v) := by
  have hshows (h : p.terminal.verbose = true → p.terminal.emulator.HasTextRoom) {notices : List Notice}
      (hok : Terminal.initialScreen p.terminal = .ok notices p.terminal) :
      Succeeds (p.onTerminal Terminal.initialScreen) v fun result v' =>
        result.2 = p ∧ (p.terminal.verbose = true → p.terminal.emulator.HasTextRoom) ∧ v' = v := by
    unfold onTerminal
    rw [hok]
    exact .pure ⟨rfl, h, rfl⟩
  cases hverbose : p.terminal.verbose with
  | false =>
    have hok : Terminal.initialScreen p.terminal = .ok [] p.terminal := by
      unfold Terminal.initialScreen
      rw [get_bind, hverbose]
      rfl
    exact hverbose ▸ (hshows (by simp [hverbose]) hok).ends
  | true =>
    have hread : Terminal.initialScreen p.terminal =
        (do return [Notice.initialScreen (← Terminal.readText)] : TerminalM (List Notice)) p.terminal := by
      unfold Terminal.initialScreen
      rw [get_bind, hverbose]
      rfl
    by_cases hroom : p.terminal.emulator.HasTextRoom
    · have hok := hread.trans (bind_of_ok (Terminal.readText_of_room hroom))
      exact hverbose ▸ (hshows (fun _ => hroom) hok).ends
    · have herror := hread.trans (bind_of_error (Terminal.readText_of_no_room hroom))
      exact .of_eq (.throw rfl) (onTerminal_of_error herror v)

private theorem openLog_ends (p : Pump) (o : Options) (v : World) :
    Ends (p.openLog o) v (fun q v' => q.terminal.emulator = p.terminal.emulator ∧ q.presenter = p.presenter ∧
      q.timeout = p.timeout ∧ v' = v) v.Quiet := by
  unfold openLog
  split
  · exact .pure ⟨rfl, rfl, rfl, rfl⟩
  · refine .get_bind ?_
    split
    · exact (setErrno_quiet _).ends.bind fun _ _ h => .throw h
    · exact .pure ⟨rfl, rfl, rfl, rfl⟩

private theorem start_ends (o : Options) (w : World) : Ends (start o) w (Begun o w) w.Shows := by
  unfold start
  -- Only the terminal, its first text, the log of frames and the display can fail to be set up.
  rcases openTerminal_cases o with ⟨message, hopen⟩ | ⟨terminal, hcreate, hopen⟩
  · rw [hopen]
    exact .throw (World.Quiet.refl w).shows
  · rw [hopen]
    obtain ⟨e, he, rfl⟩ := Terminal.create_eq hcreate
    dsimp only
    rw [pure_bind]
    have hverbose : Succeeds (Terminal.setVerbose o.verbose) { emulator := e } fun _ t =>
        t.emulator = e ∧ t.verbose = o.verbose := ⟨_, _, rfl, rfl, rfl⟩
    refine (onTerminal_succeeds hverbose).ends.bind ?_
    rintro ⟨notices, _⟩ _ ⟨⟨t, ⟨rfl, ht⟩, rfl⟩, rfl⟩
    refine (log_quiet notices).ends.bind ?_
    intro _ u hu
    refine ((initialScreen_ends _ u).mono (fun _ _ h => h) fun _ h => h ▸ hu.shows).bind ?_
    rintro ⟨notices, _⟩ _ ⟨rfl, hroom, rfl⟩
    refine (log_quiet notices).ends.bind ?_
    intro _ v hv
    have hdebug : Succeeds (Terminal.setDebug o.debug) t fun _ t' =>
        t'.emulator = { t.emulator with debug := o.debug } := ⟨_, _, rfl, rfl⟩
    refine (onTerminal_succeeds hdebug).ends.bind ?_
    rintro ⟨_, _⟩ v ⟨⟨t', ht', rfl⟩, rfl⟩
    have hbefore := hu.trans hv
    refine ((openLog_ends _ o v).mono (fun _ _ h => h) fun _ h => (hbefore.trans h).shows).bind ?_
    rintro q v ⟨hemulator, hpresenter, htimeout, rfl⟩
    have hq : q.terminal.emulator = { t.emulator with debug := o.debug } := hemulator.trans ht'
    have hroom' (h : o.verbose = true) : q.terminal.emulator.HasTextRoom := hq ▸ hroom (ht.trans h)
    split
    · next hpresent =>
      refine ((openDisplay_ends v).mono (fun _ _ h => h) fun _ h => hbefore.trans_shows h).bind ?_
      rintro display u' ⟨hdisplay, hu'⟩
      rw [hbefore.machine_eq] at hdisplay
      exact .pure ⟨⟨_, he, hq⟩, hroom', fun _ => ⟨display, hdisplay, rfl⟩, fun h => absurd hpresent (by simp [h]),
        htimeout, hbefore.trans_shows hu'⟩
    · next hpresent =>
      exact .pure ⟨⟨_, he, hq⟩, hroom', fun h => absurd h hpresent, fun _ => hpresenter, htimeout, hbefore.shows⟩

theorem setUp_ends (o : Options) (w : World) : Ends (setUp o) w (Ready o w) w.Shows := by
  refine (start_ends o w).bind ?_
  intro p v hp
  exact watch_watches.ends.bind fun _ u hu =>
    .pure ⟨⟨hp.create_eq, hp.room, hp.presenter_eq, hp.presenter_none, hp.timeout_eq, hp.shows.trans_quiet hu.1⟩, hu.2⟩

end Pump

end ScreenWatch.Session
