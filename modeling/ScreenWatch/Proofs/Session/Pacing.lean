import ScreenWatch.Proofs.Session.Painting
import ScreenWatch.Proofs.Session.Pumping

/-!
# The pace of repaints

The time of a repaint is the one that the clock has shown at the last wait (`Pump.readings`).  If the clock never goes
back, a repaint of the loop paints exactly if it is due and something is pending, and so the paints of the loop keep the
interval between them (`Pump.Paced`).  Besides them only the last repaint paints, which waits for nothing
(`Pump.repaints_are_paced`).
-/

namespace ScreenWatch

open Host

/-! ### The clock -/

private theorem ofInt_natCast (n : Nat) : UInt64.ofInt (n : Int) = UInt64.ofNat n := by
  have hmod : ((n : Int) % 2 ^ 64).toNat = n % 2 ^ 64 := by omega
  rw [UInt64.ofInt, hmod, UInt64.ofNat_mod_size]

theorem Host.ClockAnswers.read_ofMillis (millis : Nat) : (ofMillis millis).read = .ok (UInt64.ofNat millis) := by
  have hpart : (((millis % 1000 : Nat) : Int) * 1000000).tdiv 1000000 = (millis % 1000 : Nat) :=
    Int.mul_tdiv_cancel _ (by decide)
  have hthousand : UInt64.ofInt 1000 = 1000 := by decide
  have hsum : (millis / 1000 : Int) * 1000 + (millis % 1000 : Nat) = millis := by omega
  unfold read ofMillis ClockAnswers.millis
  rw [if_pos rfl]
  dsimp only
  rw [hpart, ← hthousand, ← UInt64.ofInt_mul, ← UInt64.ofInt_add, hsum, ofInt_natCast]

namespace Session

open World

theorem World.IsFrozen.frozen_eq {v : World} (h : v.IsFrozen) : v.clock.frozen = .ofNat v.millis := by
  rw [IsFrozen, ClockAnswers.read_ofMillis] at h
  exact (Except.ok.inj h).symm

namespace Pump

/-- The milliseconds after waits for events; an event that does not set them leaves them as they are. -/
def millisAfter (millis : Nat) (events : List Event) : Nat := events.foldl (fun m e => e.millis.getD m) millis

/-- What the clock shows at the end of each wait. -/
def readings (millis : Nat) : List Event → List UInt64
  | [] => []
  | event :: rest => .ofNat (event.millis.getD millis) :: readings (event.millis.getD millis) rest

theorem readings_append (millis : Nat) (events more : List Event) :
    readings millis (events ++ more) = readings millis events ++ readings (millisAfter millis events) more := by
  induction events generalizing millis with
  | nil => rfl
  | cons event rest ih =>
    rw [List.cons_append, readings, ih]
    rfl

theorem readings_take_sublist (millis : Nat) (events : List Event) (n : Nat) :
    (readings millis (events.take n)).Sublist (readings millis events) := by
  conv_rhs => rw [← List.take_append_drop n events, readings_append]
  exact List.sublist_append_left _ _

theorem millisAfter_take_succ (millis : Nat) (events : List Event) (n : Nat) :
    millisAfter millis (events.take (n + 1)) =
      (events[n]?.bind Event.millis).getD (millisAfter millis (events.take n)) := by
  rw [List.take_add_one]
  cases events[n]? with
  | none => simp
  | some event => simp [millisAfter]

theorem readings_take_succ (millis : Nat) {events : List Event} {n : Nat} (h : n < events.length) :
    readings millis (events.take (n + 1)) =
      readings millis (events.take n) ++ [.ofNat (millisAfter millis (events.take (n + 1)))] := by
  rw [millisAfter_take_succ, List.take_add_one, List.getElem?_eq_getElem h, Option.toList_some, readings_append]
  rfl

variable {o : Options} {d : Repaint.Display} {events : List Event} {w v₀ v v' : World} {p₀ p p' : Pump} {place : Place}
  {ticks : List Tick}

/-- At each moment but the last one, the clock has shown what it was to show, and the repaints took its times. -/
structure Timed (events : List Event) (millis : Nat) (place : Place) (ticks : List Tick) (v : World) : Prop where
  millis_eq : v.millis = millisAfter millis (events.take (ticks.length + if place = .waiting then 0 else 1))
  times_eq : ticks.map Tick.time = readings millis (events.take ticks.length)
  hasEvent : place = .ticking → ticks.length < events.length

theorem Timed.attended {goesOn : Bool} (h : Timed events v₀.millis .waiting ticks v)
    (hattend : p.attend events[ticks.length]? v = .ok (goesOn, p') v') (hplace : place ≠ .waiting)
    (hgoesOn : place = .ticking → goesOn = true) : Timed events v₀.millis place ticks v' := by
  refine ⟨?_, h.times_eq, ?_⟩
  · rw [if_neg hplace, millisAfter_take_succ, attend_millis hattend, h.millis_eq]
    rfl
  · intro hticking
    obtain rfl := hgoesOn hticking
    -- A wait without an event would have ended the loop.
    by_contra hlength
    rw [List.getElem?_eq_none (by omega)] at hattend
    cases (attend_none p v).of_ok hattend

theorem Rounds.timed (h₀ : Ready o w p₀ v₀) (h : Rounds events p₀ v₀ place ticks p v) (hplace : place ≠ .closing) :
    Timed events v₀.millis place ticks v := by
  induction h with
  | start => exact ⟨rfl, rfl, nofun⟩
  | attend _ hattend ih => exact (ih (by decide)).attended hattend (by decide) fun _ => rfl
  | stop _ hattend ih => exact (ih (by decide)).attended hattend (by decide) nofun
  | @repaint ticks p p' v v' h hpresent ih =>
    obtain ⟨hmillis, htimes, hevent⟩ := ih (by decide)
    have hfrozen := ((h.steady h₀).frozen (by decide)).frozen_eq
    have hlength : (ticks ++ [Tick.between p v v']).length = ticks.length + 1 := List.length_append
    refine ⟨?_, ?_, nofun⟩
    · rw [present_millis hpresent, hmillis, hlength]
      rfl
    · rw [hlength, readings_take_succ _ (hevent rfl), List.map_append, htimes, List.map_singleton, Tick.time_between,
        hfrozen, hmillis]
      rfl
  | last => exact absurd rfl hplace

/-- Where the clock never goes back, a repaint of the loop comes no earlier than the repaints before it. -/
theorem Rounds.times_le (h₀ : Ready o w p₀ v₀) (h : Rounds events p₀ v₀ .ticking ticks p v)
    (hclock : (readings v₀.millis events).Pairwise (· ≤ ·)) : ∀ t ∈ ticks, t.time ≤ v.clock.frozen := by
  intro t ht
  obtain ⟨hmillis, htimes, hevent⟩ := h.timed h₀ (by decide)
  have hreadings := readings_take_succ v₀.millis (hevent rfl)
  have hsorted := hclock.sublist (readings_take_sublist v₀.millis events (ticks.length + 1))
  rw [hreadings, ← htimes, List.pairwise_append] at hsorted
  rw [((h.steady h₀).frozen (by decide)).frozen_eq, hmillis]
  exact hsorted.2.2 _ (List.mem_map_of_mem ht) _ (List.mem_singleton_self _)

end Pump

open Pump

/-! ### Due repaints -/

/-- A frame is early exactly if the last paint was less than the interval ago. -/
theorem Presenter.isEarly_after {o : Options} {d : Repaint.Display} {ticks : List Tick} {now : UInt64}
    (hinterval : o.interval < 2 ^ 64) (htimes : ∀ t ∈ ticks, t.time ≤ now) :
    (after o d ticks).isEarly now false = false ↔ IsDue o ticks now := by
  refine ⟨fun hearly t hlast => ?_, fun hdue => isEarly_after_of_due hdue false⟩
  have hmem : t ∈ ticks := (List.mem_filter.1 (List.mem_of_getLast? hlast)).1
  have hle : t.time ≤ now := htimes t hmem
  have hsub : (now - t.time).toNat = now.toNat - t.time.toNat := UInt64.toNat_sub_of_le _ _ hle
  have hlate : ¬now - t.time < UInt64.ofNat o.interval := by
    simpa [isEarly, after, hlast] using hearly
  rw [UInt64.lt_iff_toNat_lt, hsub, UInt64.toNat_ofNat_of_lt' hinterval] at hlate
  have := UInt64.le_iff_toNat_le.1 hle
  omega

namespace Pump

variable {o : Options} {d : Repaint.Display} {events : List Event} {w v₀ v v' : World} {p₀ p p' : Pump} {place : Place}
  {ticks : List Tick}

/-- The interval lies between each two paints. -/
def Paced (o : Options) (ticks : List Tick) : Prop :=
  (paints ticks).Pairwise fun t t' => t.time.toNat + o.interval ≤ t'.time.toNat

instance (o : Options) (ticks : List Tick) : Decidable (Paced o ticks) := by unfold Paced; infer_instance

/-- A repaint that is due, or paints nothing, keeps the pace. -/
theorem Paced.append {t : Tick} (h : Paced o ticks) (ht : t.isPaint = true → IsDue o ticks t.time) :
    Paced o (ticks ++ [t]) := by
  unfold Paced at h ⊢
  rw [paints_append]
  cases hpaint : t.isPaint with
  | false => exact h
  | true =>
    have hdue := ht hpaint
    refine List.pairwise_append.2 ⟨h, List.pairwise_singleton _ _, ?_⟩
    intro earlier hearlier t' ht'
    obtain rfl := List.mem_singleton.1 ht'
    -- The last paint is due; the ones before it are earlier still.
    obtain ⟨last, hlast⟩ : ∃ last, lastPaint? ticks = some last :=
      Option.isSome_iff_exists.1 (List.getLast?_isSome.2 (List.ne_nil_of_mem hearlier))
    have hlate := hdue last hlast
    obtain ⟨before, hbefore⟩ := List.getLast?_eq_some_iff.1 hlast
    rw [hbefore] at h hearlier
    rcases List.mem_append.1 hearlier with hmem | hmem
    · have := (List.pairwise_append.1 h).2.2 earlier hmem last (List.mem_singleton_self _)
      omega
    · obtain rfl := List.mem_singleton.1 hmem
      exact hlate

/-- A repaint of the loop, where the clock never goes back.  It paints exactly if it is due and something is pending.
If nothing is pending, the presenter stays as it is. -/
theorem Rounds.paints_iff (h₀ : Ready o w p₀ v₀) (hd : Painted o d v₀ [] p₀ v₀) (hinterval : o.interval < 2 ^ 64)
    (hclock : (readings v₀.millis events).Pairwise (· ≤ ·)) (h : Rounds events p₀ v₀ .ticking ticks p v) :
    Ends (p.present false) v
      (fun p' v' => ((Tick.between p v v').isPaint = true ↔
          IsDue o ticks v.clock.frozen ∧ IsPending ticks p.terminal) ∧
        (¬IsPending ticks p.terminal → v'.traffic = v.traffic ∧ p'.presenter = p.presenter))
      fun v' => (IsDue o ticks v.clock.frozen ∧ IsPending ticks p.terminal) ∧ ∃ data, v.CutsShort .user data v' := by
  have hdue : (Presenter.after o d ticks).isEarly v.clock.frozen false = false ↔ IsDue o ticks v.clock.frozen :=
    Presenter.isEarly_after hinterval (h.times_le h₀ hclock)
  rw [← hdue]
  exact (h.repaint_ends h₀ hd).mono (fun _ _ ht => ⟨ht.1, ht.2.2⟩) fun _ ht => ht

/-- Until its last repaint a session keeps the pace. -/
theorem Rounds.paced (h₀ : Ready o w p₀ v₀) (hd : Painted o d v₀ [] p₀ v₀) (hinterval : o.interval < 2 ^ 64)
    (hclock : (readings v₀.millis events).Pairwise (· ≤ ·)) (h : Rounds events p₀ v₀ place ticks p v)
    (hplace : place ≠ .closing) : Paced o ticks := by
  induction h with
  | start => exact List.Pairwise.nil
  | attend _ _ ih => exact ih (by decide)
  | stop _ _ ih => exact ih (by decide)
  | repaint h hpresent ih =>
    obtain ⟨hpaint, -⟩ := (h.paints_iff h₀ hd hinterval hclock).of_ok hpresent
    exact (ih (by decide)).append fun ht => (hpaint.1 ht).1
  | last => exact absurd rfl hplace

/-! ### The whole session -/

/-- Repaints are paced.  In a session with a display whose clock never goes back, and with an interval that the clock
can count, the interval lies between each two paints of the loop.  A repaint of the loop paints exactly if it is due and
something is pending; where nothing is pending, it sends nothing and leaves the presenter as it is, so that no later
paint is put off.  A session that ends well has shown the user the frames of the paints of its loop, at most one more at
the end, and then words that leave the screen; any other one has broken off in a frame that was due, or in the one at
the end. -/
theorem repaints_are_paced (o : Options) (events : List Event) {w v₀ : World} {p₀ : Pump} (ho : o.present = true)
    (hinterval : o.interval < 2 ^ 64) (hclock : (readings w.millis events).Pairwise (· ≤ ·))
    (hsetUp : setUp o w = .ok p₀ v₀) :
    (∀ place ticks p v, Rounds events p₀ v₀ place ticks p v → place ≠ .closing → Paced o ticks) ∧
    (∀ ticks p v, Rounds events p₀ v₀ .ticking ticks p v → Ends (p.present false) v
      (fun p' v' => ((Tick.between p v v').isPaint = true ↔
          IsDue o ticks v.clock.frozen ∧ IsPending ticks p.terminal) ∧
        (¬IsPending ticks p.terminal → v'.traffic = v.traffic ∧ p'.presenter = p.presenter))
      fun v' => (IsDue o ticks v.clock.frozen ∧ IsPending ticks p.terminal) ∧ ∃ data, v.CutsShort .user data v') ∧
    ∃ d, displayOf w.machine = .ok d ∧ Ends (follow o events) w
      (fun p v => ∃ ticks q u last u' words, Rounds events p₀ v₀ .ended ticks q u ∧
        Rounds events p₀ v₀ .closing (ticks ++ [last]) p u' ∧ words <+: d.closing ∧
        v.traffic.toUser = v₀.traffic.toUser ++
          d.frames false (.empty o.cols o.rows) ((paints (ticks ++ [last])).map Tick.screen) ++ words)
      fun v => (∃ place ticks p u data, Rounds events p₀ v₀ place ticks p u ∧
          (place = .ticking ∧ IsDue o ticks u.clock.frozen ∨ place = .ended) ∧ u.CutsShort .user data v) ∨
        2147483647 < (o.cols + 1) * o.rows ∧ ∃ ticks p u chunk, Rounds events p₀ v₀ .waiting ticks p u ∧
          v.traffic = u.traffic.hear childTerminal chunk := by
  have h₀ : Ready o w p₀ v₀ := (setUp_ends o w).of_ok hsetUp
  obtain ⟨d, hd, hpainted⟩ := h₀.painted ho
  rw [← setUp_millis hsetUp] at hclock
  refine ⟨fun place ticks p v h hplace => h.paced h₀ hpainted hinterval hclock hplace,
    fun ticks p v h => h.paints_iff h₀ hpainted hinterval hclock, d, hd, ?_⟩
  refine (follow_closes o events w).mono ?_ ?_
  · rintro p v ⟨p₁, v₁, ticks, u', hsetUp', hclosing, hshows⟩
    cases hsetUp.symm.trans hsetUp'
    have hlast := (hclosing.settled h₀ hpainted).toPainted
    obtain ⟨words, hwords, htraffic⟩ := hshows.traffic_eq
    have hpclosing : p.closing = d.closing := by
      rw [closing, hlast.presenter_eq]
      rfl
    have hto : v.traffic.toUser = u'.traffic.toUser ++ words := by simp [htraffic, Traffic.send]
    rw [hlast.toUser_eq] at hto
    -- The last repaint was the one at the end, and only the words have been sent after it.
    cases hclosing with
    | last hended hpresent =>
      exact ⟨_, _, _, _, u', words, hended, .last hended hpresent, hpclosing ▸ hwords, hto⟩
  · rintro v (⟨stop, herror⟩ | ⟨p₁, v₁, hsetUp', hbreaks⟩)
    · cases hsetUp.symm.trans herror
    cases hsetUp.symm.trans hsetUp'
    -- Besides the two kinds of repaints only a chunk that is refused ends the session early.
    cases hbreaks with
    | attend h hattend =>
      have hsteady := h.steady h₀
      have hrefuses := hsteady.attended.of_error hattend
      obtain ⟨chunk, htraffic⟩ := hrefuses.traffic_eq
      exact .inr ⟨Nat.lt_of_not_le (mt hsteady.room_iff.2 hrefuses.noRoom), _, _, _, chunk, h, htraffic⟩
    | repaint h hpresent =>
      obtain ⟨⟨hdue, -⟩, data, hcut⟩ := (h.paints_iff h₀ hpainted hinterval hclock).of_error hpresent
      exact .inl ⟨_, _, _, _, data, h, .inl ⟨rfl, hdue⟩, hcut⟩
    | last h hpresent =>
      have hgives := (h.presented h₀ (by decide) (h.settled h₀ hpainted).toPainted true).of_error hpresent
      exact .inl ⟨_, _, _, _, _, h, .inr rfl, hgives.toCutsShort⟩

/-- A letter is painted at once; the next one comes too early, and is painted after the wait for the interval; the third
one is left to the end. -/
theorem repaints_are_paced_letters :
    let o : Options := { cols := 2, rows := 1 }
    let w : World := {
      machine := { description := { status := 0, bce := 1, enter := .absent, leave := .absent } } }
    let events : List Event := [
      { millis := some 100, reads := [(99, .bytes [0x61])] }, { millis := some 105, reads := [(99, .bytes [0x62])] },
      { millis := some 125 }, { millis := some 130, reads := [(99, .bytes [0x63])] }]
    o.present = true ∧ o.interval < 2 ^ 64 ∧ (readings w.millis events).Pairwise (· ≤ ·) ∧
      ∃ p₀ v₀ ticks p v, setUp o w = .ok p₀ v₀ ∧ Rounds events p₀ v₀ .waiting ticks p v ∧
        (paints ticks).map Tick.time = [100, 125] ∧ Paced o ticks := by
  intro o w events
  obtain ⟨p₀, v₀, hsetUp, ⟨ticks, p⟩, v, hrounds, htimes⟩ : Succeeds (setUp o) w fun p₀ v₀ =>
    Succeeds (rounds events p₀ 4) v₀ fun r _ => (paints r.1).map Tick.time = [100, 125] := by decide +kernel
  have hround : Rounds events p₀ v₀ .waiting ticks p v := .of_rounds hrounds
  have hclock : (readings w.millis events).Pairwise (· ≤ ·) := by decide
  exact ⟨rfl, by decide, hclock, p₀, v₀, ticks, p, v, hsetUp, hround, htimes,
    (repaints_are_paced o events rfl (by decide) hclock hsetUp).1 _ _ _ _ hround (by decide)⟩

end Pump

end Session

end ScreenWatch
