import ScreenWatch.Proofs.Repaint.Frames
import ScreenWatch.Proofs.Session.Rounds

/-!
# No change is left unpainted

A repaint that sends something paints the screen of the terminal (`Tick.isPaint`), and what the presenter remembers is
the last such paint (`Presenter.after`).  A session that waits without a time limit shows its screen; otherwise it waits
for the interval at most, and a repaint that is due paints what is pending (`Pump.changes_are_painted`).
-/

namespace ScreenWatch

theorem Screen.LooksLike.refl (s : Screen) : s.LooksLike s := ⟨rfl, rfl, rfl, rfl, rfl, rfl, rfl, rfl, rfl⟩

namespace Repaint.Display

theorem frame_ne_nil (d : Display) (initialized : Bool) (last s : Screen) : d.frame initialized last s ≠ [] :=
  Repaint.frame_ne_nil d.bce initialized last s

/-- The frames of screens that are shown one after another, an update for each but perhaps the first. -/
def frames (d : Display) : Bool → Screen → List Screen → Bytes
  | _, _, [] => []
  | initialized, last, s :: rest => d.frame initialized last s ++ d.frames true s rest

theorem frames_concat (d : Display) (initialized : Bool) (last : Screen) (shown : List Screen) (s : Screen) :
    d.frames initialized last (shown ++ [s]) = d.frames initialized last shown ++
      d.frame (initialized || shown.getLast?.isSome) (shown.getLast?.getD last) s := by
  induction shown generalizing initialized last with
  | nil => simp [frames]
  | cons t rest ih =>
    rw [List.cons_append, frames, ih, frames, List.append_assoc, List.getLast?_cons]
    simp

end Repaint.Display

namespace Session

open Host World

/-! ### Paints -/

namespace Pump

/-- Whether the repaint has sent a frame. -/
def Tick.isPaint (t : Tick) : Bool := !t.sent.isEmpty

def paints (ticks : List Tick) : List Tick := ticks.filter Tick.isPaint

def lastPaint? (ticks : List Tick) : Option Tick := (paints ticks).getLast?

/-- The screen is the one that was painted last. -/
def IsShown (ticks : List Tick) (s : Screen) : Prop := ∃ t, lastPaint? ticks = some t ∧ t.screen.LooksLike s

/-- The last paint, if there was one, is at least the interval ago. -/
def IsDue (o : Options) (ticks : List Tick) (now : UInt64) : Prop :=
  ∀ t, lastPaint? ticks = some t → t.time.toNat + o.interval ≤ now.toNat

instance (ticks : List Tick) (s : Screen) : Decidable (IsShown ticks s) :=
  decidable_of_iff ((lastPaint? ticks).any fun t => decide (t.screen.LooksLike s))
    (by simp [IsShown, Option.any_eq_true])

instance (o : Options) (ticks : List Tick) (now : UInt64) : Decidable (IsDue o ticks now) :=
  decidable_of_iff ((lastPaint? ticks).all fun t => decide (t.time.toNat + o.interval ≤ now.toNat))
    (by simp [IsDue, Option.all_eq_true])

/-- There is a change of the text that was not read, or the screen is not the one that was painted last. -/
def IsPending (ticks : List Tick) (t : Terminal) : Prop := t.unread = true ∨ ¬IsShown ticks t.screen

variable {ticks : List Tick} {t : Tick}

theorem paints_append (ticks : List Tick) (t : Tick) :
    paints (ticks ++ [t]) = if t.isPaint then paints ticks ++ [t] else paints ticks := by
  unfold paints
  rw [List.filter_append]
  cases h : t.isPaint <;> simp [h]

theorem lastPaint?_append (ticks : List Tick) (t : Tick) :
    lastPaint? (ticks ++ [t]) = if t.isPaint then some t else lastPaint? ticks := by
  unfold lastPaint?
  rw [paints_append]
  split <;> simp

end Pump

open Pump

/-- What a presenter remembers after some repaints. -/
def Presenter.after (o : Options) (d : Repaint.Display) (ticks : List Tick) : Presenter where
  display := d
  interval := o.interval
  painted := ((lastPaint? ticks).map Tick.screen).getD (.empty o.cols o.rows)
  initialized := (lastPaint? ticks).isSome
  lastTime := ((lastPaint? ticks).map Tick.time).getD 0

namespace Presenter

variable {o : Options} {d : Repaint.Display} {ticks : List Tick}

/-- A frame is early only if the last paint was less than the interval ago. -/
theorem isEarly_after_of_due {now : UInt64} (h : IsDue o ticks now) (force : Bool) :
    (after o d ticks).isEarly now force = false := by
  unfold isEarly after
  cases hlast : lastPaint? ticks with
  | none => rfl
  | some t =>
    have hdue := h t hlast
    have hsub : (now - t.time).toNat = now.toNat - t.time.toNat :=
      UInt64.toNat_sub_of_le _ _ (UInt64.le_iff_toNat_le.2 (by omega))
    have hinterval : (UInt64.ofNat o.interval).toNat ≤ o.interval := by
      rw [UInt64.toNat_ofNat']
      exact Nat.mod_le _ _
    have hlate : ¬now - t.time < UInt64.ofNat o.interval := by
      rw [UInt64.lt_iff_toNat_lt, hsub]
      omega
    simp [hlate]

theorem isUpToDate_after (t : Terminal) : (after o d ticks).isUpToDate t = true ↔ ¬IsPending ticks t := by
  unfold isUpToDate after IsPending IsShown
  cases lastPaint? ticks <;> simp

end Presenter

namespace Pump

variable {o : Options} {d : Repaint.Display} {events : List Event} {w v₀ v v' : World} {p₀ p p' : Pump} {place : Place}
  {ticks : List Tick} {force : Bool}

@[simp]
theorem Tick.time_between (p : Pump) (v v' : World) : (Tick.between p v v').time = v.clock.frozen := rfl

@[simp]
theorem Tick.screen_between (p : Pump) (v v' : World) : (Tick.between p v v').screen = p.terminal.screen := rfl

theorem Tick.between_quiet (hv : v.Quiet v') : (Tick.between p v v').isPaint = false := by
  simp [Tick.isPaint, Tick.between, hv.traffic_eq]

theorem Tick.between_sends {data : Bytes} (hv : v'.traffic = v.traffic.send .user data) :
    (Tick.between p v v').sent = data := by
  simp [Tick.between, hv, Traffic.send]

/-! ### Every moment -/

/-- The presenter remembers the last paint, and the user was sent the frames of all paints. -/
structure Painted (o : Options) (d : Repaint.Display) (v₀ : World) (ticks : List Tick) (p : Pump) (v : World) :
    Prop where
  presenter_eq : p.presenter = some (.after o d ticks)
  toUser_eq : v.traffic.toUser =
    v₀.traffic.toUser ++ d.frames false (.empty o.cols o.rows) ((paints ticks).map Tick.screen)

/-- Something other than a repaint, which leaves the presenter alone and shows the user nothing. -/
theorem Painted.attended {goesOn : Bool} (h : Painted o d v₀ ticks p v) (ha : Attended p v (goesOn, p') v') :
    Painted o d v₀ ticks p' v' := by
  have hto : v'.traffic.toUser = v.traffic.toUser := by
    cases ha with
    | idle hv => rw [hv.traffic_eq]
    | passed _ htraffic => simp [htraffic, Traffic.hear, Traffic.send]
    | shown _ htraffic => simp [htraffic, Traffic.hear]
  have hpresenter : p'.presenter = p.presenter := by cases ha <;> rfl
  exact ⟨hpresenter.trans h.presenter_eq, hto.trans h.toUser_eq⟩

/-- A repaint that sends nothing. -/
private theorem Painted.quiet (h : Painted o d v₀ ticks p v) (hv : v.Quiet v')
    (hp : p'.presenter = some (.after o d ticks)) : Painted o d v₀ (ticks ++ [.between p v v']) p' v' := by
  have hnone : (Tick.between p v v').isPaint = false := Tick.between_quiet hv
  refine ⟨?_, ?_⟩
  · simp [hp, Presenter.after, lastPaint?_append, hnone]
  · simp [hv.traffic_eq, h.toUser_eq, paints_append, hnone]

/-- After a repaint, the session waits without a limit only if its screen was painted last. -/
theorem Painted.presented (h : Painted o d v₀ ticks p v) (hp : Presented p (.after o d ticks) force v p' v') :
    Painted o d v₀ (ticks ++ [.between p v v']) p' v' ∧
      (force = false ∧ p'.timeout = o.interval ∨
        p'.timeout = -1 ∧ IsShown (ticks ++ [.between p v v']) p'.terminal.screen) := by
  cases hp with
  | early hearly hv =>
    have hforce : force = false := by
      simp only [Presenter.isEarly, Bool.and_eq_true, Bool.not_eq_true'] at hearly
      exact hearly.1.2
    exact ⟨h.quiet hv rfl, .inl ⟨hforce, rfl⟩⟩
  | upToDate _ hcurrent hv =>
    have hshown : IsShown ticks p.terminal.screen := by
      have hpending := (Presenter.isUpToDate_after p.terminal).1 hcurrent
      exact of_not_not fun hnot => hpending (.inr hnot)
    refine ⟨h.quiet hv rfl, .inr ⟨rfl, ?_⟩⟩
    unfold IsShown
    rw [lastPaint?_append, Tick.between_quiet hv]
    exact hshown
  | painted _ _ hv htraffic =>
    have hsent := Tick.between_sends (p := p) htraffic
    have hpaint : (Tick.between p v v').isPaint = true := by
      simp [Tick.isPaint, hsent, Presenter.frameFor, Repaint.Display.frame_ne_nil]
    refine ⟨⟨?_, ?_⟩, .inr ⟨rfl, .between p v v', ?_, .refl _⟩⟩
    · simp [Presenter.after, lastPaint?_append, hpaint]
    · have hscreens : (paints (ticks ++ [.between p v v'])).map Tick.screen =
          (paints ticks).map Tick.screen ++ [p.terminal.screen] := by
        simp [paints_append, hpaint]
      rw [hscreens, Repaint.Display.frames_concat, List.getLast?_map, ← List.append_assoc, ← h.toUser_eq, htraffic]
      simp [Traffic.send, Presenter.frameFor, Presenter.after, lastPaint?]
    · rw [lastPaint?_append, if_pos hpaint]

theorem Ready.painted (h : Ready o w p v) (ho : o.present = true) :
    ∃ d, displayOf w.machine = .ok d ∧ Painted o d v [] p v := by
  obtain ⟨d, hd, hp⟩ := h.presenter_eq ho
  exact ⟨d, hd, hp, (List.append_nil _).symm⟩

/-- What every moment has; before a wait but the first, the session waits for the interval, or without a limit and with
its screen painted, as it is after the last repaint. -/
structure Settled (o : Options) (d : Repaint.Display) (v₀ : World) (place : Place) (ticks : List Tick) (p : Pump)
    (v : World) : Prop extends Painted o d v₀ ticks p v where
  waiting : place = .waiting → ticks ≠ [] →
    p.timeout = o.interval ∨ p.timeout = -1 ∧ IsShown ticks p.terminal.screen
  closing : place = .closing → IsShown ticks p.terminal.screen

theorem Rounds.presented (h₀ : Ready o w p₀ v₀) (h : Rounds events p₀ v₀ place ticks p v) (hplace : place ≠ .waiting)
    (hp : Painted o d v₀ ticks p v) (force : Bool) :
    Ends (p.present force) v (p.Presented (.after o d ticks) force v) (p.GivesUp (.after o d ticks) force v) :=
  present_ends hp.presenter_eq ((h.steady h₀).frozen hplace) force

theorem Rounds.settled (h₀ : Ready o w p₀ v₀) (hd : Painted o d v₀ [] p₀ v₀)
    (h : Rounds events p₀ v₀ place ticks p v) : Settled o d v₀ place ticks p v := by
  induction h with
  | start => exact ⟨hd, fun _ hticks => absurd rfl hticks, nofun⟩
  | attend h hattend ih =>
    have ha := h.attended h₀ hattend
    exact ⟨ih.toPainted.attended ha, nofun, nofun⟩
  | stop h hattend ih =>
    have ha := h.attended h₀ hattend
    exact ⟨ih.toPainted.attended ha, nofun, nofun⟩
  | repaint h hpresent ih =>
    have hpresented := (h.presented h₀ (by decide) ih.toPainted false).of_ok hpresent
    obtain ⟨hpainted, htimeout⟩ := ih.toPainted.presented hpresented
    exact ⟨hpainted, fun _ _ => htimeout.imp_left And.right, nofun⟩
  | last h hpresent ih =>
    have hpresented := (h.presented h₀ (by decide) ih.toPainted true).of_ok hpresent
    obtain ⟨hpainted, ⟨hforce, -⟩ | ⟨-, hshown⟩⟩ := ih.toPainted.presented hpresented
    · cases hforce
    · exact ⟨hpainted, nofun, fun _ => hshown⟩

/-! ### Due repaints -/

/-- A repaint of the loop paints exactly if it is not too early and something is pending; only then may its frame be
given up on.  Where nothing is pending, it sends nothing and leaves the presenter as it is. -/
theorem Rounds.repaint_ends (h₀ : Ready o w p₀ v₀) (hd : Painted o d v₀ [] p₀ v₀)
    (h : Rounds events p₀ v₀ .ticking ticks p v) :
    let isEarly := (Presenter.after o d ticks).isEarly v.clock.frozen false
    Ends (p.present false) v
      (fun p' v' => ((Tick.between p v v').isPaint = true ↔ isEarly = false ∧ IsPending ticks p.terminal) ∧
        (isEarly = false → p'.timeout = -1) ∧
        (¬IsPending ticks p.terminal → v'.traffic = v.traffic ∧ p'.presenter = p.presenter))
      fun v' => (isEarly = false ∧ IsPending ticks p.terminal) ∧ ∃ data, v.CutsShort .user data v' := by
  intro isEarly
  have hpainted := (h.settled h₀ hd).toPainted
  have hpending : (Presenter.after o d ticks).isUpToDate p.terminal = false ↔ IsPending ticks p.terminal := by
    rw [← Bool.not_eq_true, Presenter.isUpToDate_after, not_not]
  refine (h.presented h₀ (by decide) hpainted false).mono ?_ ?_
  · rintro p' v' hp
    rw [← hpending, hpainted.presenter_eq]
    cases hp with
    | early hearly hv => simp [isEarly, Tick.between_quiet hv, hearly, hv.traffic_eq]
    | upToDate hearly hcurrent hv => simp [Tick.between_quiet hv, hcurrent, hv.traffic_eq]
    | painted hearly hcurrent _ htraffic =>
      simp [isEarly, Tick.isPaint, Tick.between_sends htraffic, Presenter.frameFor, Repaint.Display.frame_ne_nil,
        hearly, hcurrent]
  · intro v' hgives
    exact ⟨⟨hgives.isDue, hpending.1 hgives.isPending⟩, _, hgives.toCutsShort⟩

/-- A repaint that is due paints exactly if something is pending, and the session then waits without a limit; only if
something is pending, its frame may be given up on. -/
private theorem Rounds.due_ends (h₀ : Ready o w p₀ v₀) (hd : Painted o d v₀ [] p₀ v₀)
    (h : Rounds events p₀ v₀ .ticking ticks p v) (hdue : IsDue o ticks v.clock.frozen) :
    Ends (p.present false) v
      (fun p' v' => p'.timeout = -1 ∧ ((Tick.between p v v').isPaint = true ↔ IsPending ticks p.terminal))
      fun v' => IsPending ticks p.terminal ∧ ∃ data, v.CutsShort .user data v' := by
  have hearly : (Presenter.after o d ticks).isEarly v.clock.frozen false = false :=
    Presenter.isEarly_after_of_due hdue false
  refine (h.repaint_ends h₀ hd).mono ?_ ?_
  · rintro p' v' ⟨hpaint, htimeout, -⟩
    exact ⟨htimeout hearly, hpaint.trans (and_iff_right hearly)⟩
  · rintro v' ⟨⟨-, hpending⟩, hcut⟩
    exact ⟨hpending, hcut⟩

/-! ### The whole session -/

/-- No change is left unpainted.  In a session with a display, every wait without a time limit but the first comes when
the screen is the one that was painted last; where it is not, the session waits for the interval.  A repaint that is due
paints if something is pending, unless its frame is given up on, and does nothing otherwise.  A session that ends well
has painted its last screen.  And what the user was sent since the session was set up are the frames of the paints. -/
theorem changes_are_painted (o : Options) (events : List Event) {w v₀ : World} {p₀ : Pump} (ho : o.present = true)
    (hsetUp : setUp o w = .ok p₀ v₀) :
    (∀ ticks p v, Rounds events p₀ v₀ .waiting ticks p v → ticks ≠ [] →
      (p.timeout < 0 → IsShown ticks p.terminal.screen) ∧
        (¬IsShown ticks p.terminal.screen → p.timeout = o.interval)) ∧
    (∀ ticks p v, Rounds events p₀ v₀ .ticking ticks p v → IsDue o ticks v.clock.frozen →
      (IsPending ticks p.terminal → Ends (p.present false) v
        (fun _ v' => (Tick.between p v v').isPaint = true) fun v' => ∃ data, v.CutsShort .user data v') ∧
      (¬IsPending ticks p.terminal → Succeeds (p.present false) v
        fun p' v' => (Tick.between p v v').isPaint = false ∧ p'.timeout = -1)) ∧
    (∀ p v, follow o events w = .ok p v →
      ∃ ticks u, Rounds events p₀ v₀ .closing ticks p u ∧ u.Shows v ∧ IsShown ticks p.terminal.screen) ∧
    ∃ d, displayOf w.machine = .ok d ∧ ∀ place ticks p v, Rounds events p₀ v₀ place ticks p v →
      v.traffic.toUser =
        v₀.traffic.toUser ++ d.frames false (.empty o.cols o.rows) ((paints ticks).map Tick.screen) := by
  have h₀ : Ready o w p₀ v₀ := (setUp_ends o w).of_ok hsetUp
  obtain ⟨d, hd, hpainted⟩ := h₀.painted ho
  refine ⟨?_, ?_, ?_, d, hd, fun place ticks p v h => (h.settled h₀ hpainted).toUser_eq⟩
  · intro ticks p v h hticks
    -- After a repaint the session waits for the interval, or without limit and the screen is shown.
    rcases (h.settled h₀ hpainted).waiting rfl hticks with htimeout | ⟨htimeout, hshown⟩
    · exact ⟨fun hforever => by omega, fun _ => htimeout⟩
    · exact ⟨fun _ => hshown, fun hnot => absurd hshown hnot⟩
  · intro ticks p v h hdue
    have hends := h.due_ends h₀ hpainted hdue
    refine ⟨fun hpending => hends.mono (fun _ _ ht => ht.2.2 hpending) fun _ ht => ht.2, fun hnot => ?_⟩
    cases hpresent : p.present false v with
    | ok p' v' =>
      obtain ⟨htimeout, hpaint⟩ := hends.of_ok hpresent
      exact ⟨p', v', hpresent, Bool.eq_false_iff.2 fun h => hnot (hpaint.1 h), htimeout⟩
    | error stop v' => exact absurd (hends.of_error hpresent).1 hnot
  · intro p v hfollow
    obtain ⟨p₁, v₁, ticks, u, hsetUp', hround, hshows⟩ := (follow_ends o events w).of_ok hfollow
    cases hsetUp.symm.trans hsetUp'
    exact ⟨ticks, u, hround, hshows, (hround.settled h₀ hpainted).closing rfl⟩

/-- A letter is painted at once, the next one too early; the session ends with both painted. -/
theorem changes_are_painted_letters :
    let o : Options := { cols := 2, rows := 1 }
    let w : World := {
      machine := { description := { status := 0, bce := 1, enter := .absent, leave := .absent } } }
    let events : List Event := [
      { millis := some 100, reads := [(99, .bytes [0x61])] }, { millis := some 105, reads := [(99, .bytes [0x62])] }]
    o.present = true ∧ ∃ p₀ v₀, setUp o w = .ok p₀ v₀ ∧ ∃ p v, follow o events w = .ok p v ∧
      ∃ ticks u, Rounds events p₀ v₀ .closing ticks p u ∧ u.Shows v ∧ IsShown ticks p.terminal.screen := by
  intro o w events
  obtain ⟨p₀, v₀, hsetUp, -⟩ : Succeeds (setUp o) w fun _ _ => True := by decide +kernel
  obtain ⟨p, v, hfollow, -⟩ : Succeeds (follow o events) w fun _ _ => True := by decide +kernel
  exact ⟨rfl, p₀, v₀, hsetUp, p, v, hfollow, (changes_are_painted o events rfl hsetUp).2.2.1 p v hfollow⟩

set_option synthInstance.maxSize 256 in
/-- A change that is taken back before the next repaint is not painted: the pen of the screen is made bold too early for
a repaint, and is plain again when the next one is due. -/
theorem reverted_change_is_not_painted :
    let o : Options := { cols := 2, rows := 1 }
    let w : World := {
      machine := { description := { status := 0, bce := 1, enter := .absent, leave := .absent } } }
    let events : List Event := [
      { millis := some 100, reads := [(99, .bytes [0x61])] },
      { millis := some 105, reads := [(99, .bytes [0x1B, 0x5B, 0x31, 0x6D])] },
      { millis := some 130, reads := [(99, .bytes [0x1B, 0x5B, 0x32, 0x32, 0x6D])] }]
    o.present = true ∧ ∃ p₀ v₀ ticks p v q u q' u', setUp o w = .ok p₀ v₀ ∧
      Rounds events p₀ v₀ .waiting ticks p v ∧ ticks ≠ [] ∧ ¬IsShown ticks p.terminal.screen ∧
      Rounds events p₀ v₀ .ticking ticks q u ∧ IsDue o ticks u.clock.frozen ∧
      q.present false u = .ok q' u' ∧ (Tick.between q u u').isPaint = false := by
  intro o w events
  -- Two rounds, and the third up to its repaint.
  obtain ⟨p₀, v₀, hsetUp, ⟨ticks, p⟩, v, hrounds, ⟨goesOn, q⟩, u, hattend, q', u', hpresent, htwo, hnot, hgoesOn, hdue,
      hpaint⟩ : Succeeds (setUp o) w fun p₀ v₀ => Succeeds (rounds events p₀ 2) v₀ fun r v =>
    Succeeds (r.2.attend events[2]?) v fun a u => Succeeds (a.2.present false) u fun _ u' =>
      r.1.length = 2 ∧ ¬IsShown r.1 r.2.terminal.screen ∧ a.1 = true ∧ IsDue o r.1 u.clock.frozen ∧
        (Tick.between a.2 u u').isPaint = false := by decide +kernel
  dsimp only at htwo hnot hgoesOn hdue hpaint
  subst hgoesOn
  rw [← htwo] at hattend
  have hround : Rounds events p₀ v₀ .waiting ticks p v := .of_rounds hrounds
  have hticks : ticks ≠ [] := by
    rintro rfl
    cases htwo
  exact ⟨rfl, p₀, v₀, ticks, p, v, q, u, q', u', hsetUp, hround, hticks, hnot, .attend hround hattend, hdue, hpresent,
    hpaint⟩

end Pump

end Session

end ScreenWatch
