import ScreenWatch.Proofs.Emulator.Chunks
import ScreenWatch.Proofs.Session.Rounds

/-!
# The pump is faithful

What comes from the user goes to the child, all of it and in order, unless a delivery is given up on (`Relayed`).  And
the emulator is the one that a new terminal becomes by taking the whole output of the child at once (`Fed`).  Each round
keeps both, so they hold at every moment, and at the end however a session ends (`Pump.follow_faithful`).
-/

namespace ScreenWatch.Session

open Host World

/-- Parser, dispatcher and screen are those of a new terminal of the size to which the output was written at once.  It
takes the output, unless the text of its screen is too long to be read: then no chunk is ever applied. -/
def Fed (o : Options) (output : Bytes) (e : Emulator) : Prop :=
  ∃ fresh fed, Emulator.create o.cols o.rows = .ok fresh ∧
    ((o.cols + 1) * o.rows ≤ 2147483647 → ∃ notices, fresh.take output = .ok notices fed) ∧
    (2147483647 < (o.cols + 1) * o.rows → fed = fresh) ∧
    e.stream = fed.stream ∧ e.sequence = fed.sequence ∧ e.screen = fed.screen

/-- The size of such an emulator is that of the new terminal. -/
theorem Fed.room_iff {o : Options} {output : Bytes} {e : Emulator} (h : Fed o output e) :
    e.HasTextRoom ↔ (o.cols + 1) * o.rows ≤ 2147483647 := by
  obtain ⟨fresh, fed, hfresh, htake, hsame, -, -, hscreen⟩ := h
  have hsize : fresh.HasTextRoom ↔ (o.cols + 1) * o.rows ≤ 2147483647 := by
    obtain ⟨-, -, -, rfl⟩ := Emulator.eq_empty_of_create hfresh
    exact Iff.rfl
  rw [← hsize]
  have hfed : fed.HasTextRoom ↔ fresh.HasTextRoom := by
    by_cases hroom : (o.cols + 1) * o.rows ≤ 2147483647
    · obtain ⟨notices, hok⟩ := htake hroom
      exact iff_of_true ((hsize.2 hroom).take hok) (hsize.2 hroom)
    · rw [hsame (Nat.lt_of_not_le hroom)]
  refine Iff.trans ?_ hfed
  unfold Emulator.HasTextRoom
  rw [hscreen]

theorem Fed.take {o : Options} {output chunk : Bytes} {e e' : Emulator} {notices : List Notice} (h : Fed o output e)
    (hroom : e.HasTextRoom) (htake : e.take chunk = .ok notices e') : Fed o (output ++ chunk) e' := by
  have hsize := h.room_iff.1 hroom
  obtain ⟨fresh, fed, hfresh, hbefore, -, hstream, hsequence, hscreen⟩ := h
  obtain ⟨before, hfed⟩ := hbefore hsize
  have halike := Emulator.take_alike ⟨hstream, hscreen, fun _ => hsequence⟩ chunk
  rcases halike.cases with ⟨_, later, t, fed', ht, hfed', halike⟩ | ⟨_, _, _, hfault, -⟩
  · cases htake.symm.trans ht
    exact ⟨fresh, fed', hfresh, fun _ => ⟨_, Emulator.take_append hfed hfed'⟩,
      fun hno => absurd hsize (Nat.not_le_of_lt hno), halike.stream_eq, halike.sequence_eq trivial, halike.screen_eq⟩
  · cases htake.symm.trans hfault

/-- Where no chunk is applied, more output makes no difference. -/
theorem Fed.refuse {o : Options} {output : Bytes} {e : Emulator} (h : Fed o output e) (hno : ¬ e.HasTextRoom)
    (chunk : Bytes) : Fed o (output ++ chunk) e := by
  have hsize := mt h.room_iff.2 hno
  obtain ⟨fresh, fed, hfresh, -, hsame, hparts⟩ := h
  exact ⟨fresh, fed, hfresh, fun hroom => absurd hroom hsize, hsame, hparts⟩

namespace Pump

variable {o : Options} {events : List Event} {w v₀ v v' : World} {p₀ p p' : Pump} {place : Place} {ticks : List Tick}

/-- The session was ended by an event whose chunk from the user could not be delivered: the child has got all that had
come before, and what the delivery has taken of the chunk. -/
def EndedByDelivery (events : List Event) (p₀ : Pump) (v₀ v : World) : Prop :=
  ∃ ticks p u chunk, Rounds events p₀ v₀ .waiting ticks p u ∧
    (∃ q t, p.attend events[ticks.length]? u = .ok (false, q) t) ∧
    v.traffic.fromUser = u.traffic.fromUser ++ chunk ∧ (Delivery.deliver chunk u.writes).failure ≠ none ∧
    v.traffic.toChild = u.traffic.fromUser ++ (Delivery.deliver chunk u.writes).taken

/-- What has come from the user has gone to the child, all of it or up to the delivery that has ended the session. -/
def Relayed (events : List Event) (p₀ : Pump) (v₀ v : World) : Prop :=
  v.traffic.toChild = v.traffic.fromUser ∨ EndedByDelivery events p₀ v₀ v

theorem Relayed.toChild_prefix (h : Relayed events p₀ v₀ v) : v.traffic.toChild <+: v.traffic.fromUser := by
  rcases h with h | ⟨_, _, u, chunk, -, -, hfrom, -, hto⟩
  · exact h ▸ List.prefix_rfl
  · rw [hfrom, hto, List.prefix_append_right_inj]
    exact Delivery.taken_prefix chunk u.writes

theorem Relayed.refuses (h : Relayed events p₀ v₀ v) (hv : Refuses p v v') : Relayed events p₀ v₀ v' := by
  obtain ⟨chunk, htraffic⟩ := hv.traffic_eq
  unfold Relayed EndedByDelivery at h ⊢
  rw [htraffic]
  simpa [Traffic.hear, userInput, childTerminal] using h

theorem Relayed.shows (h : Relayed events p₀ v₀ v) (hv : v.Shows v') : Relayed events p₀ v₀ v' := by
  obtain ⟨data, htraffic⟩ := hv.traffic_eq
  unfold Relayed EndedByDelivery at h ⊢
  rw [htraffic]
  simpa [Traffic.send] using h

/-! ### One round -/

/-- Where everything was passed on, it is so after an event, unless its chunk could not be delivered. -/
theorem Attended.relays {goesOn : Bool} (h : Attended p v (goesOn, p') v')
    (hv : v.traffic.toChild = v.traffic.fromUser) :
    v'.traffic.toChild = v'.traffic.fromUser ∨
      goesOn = false ∧ ∃ chunk, v'.traffic.fromUser = v.traffic.fromUser ++ chunk ∧
        (Delivery.deliver chunk v.writes).failure ≠ none ∧
        v'.traffic.toChild = v.traffic.fromUser ++ (Delivery.deliver chunk v.writes).taken := by
  cases h with
  | idle hquiet => exact .inl (by rw [hquiet.traffic_eq, hv])
  | @passed chunk _ _ htraffic =>
    have hfrom : v'.traffic.fromUser = v.traffic.fromUser ++ chunk := by
      simp [htraffic, Traffic.hear, Traffic.send]
    have hto : v'.traffic.toChild = v.traffic.fromUser ++ (Delivery.deliver chunk v.writes).taken := by
      simp [htraffic, Traffic.hear, Traffic.send, hv]
    cases hfailure : (Delivery.deliver chunk v.writes).failure with
    | none => exact .inl (by rw [hto, hfrom, Delivery.taken_of_no_failure hfailure])
    | some failure => exact .inr ⟨rfl, chunk, hfrom, by simp [hfailure], hto⟩
  | shown _ htraffic => exact .inl (by simp [htraffic, Traffic.hear, hv, userInput, childTerminal])

theorem Attended.fed {goesOn : Bool} (h : Attended p v (goesOn, p') v')
    (hfed : Fed o v.traffic.fromChild p.terminal.emulator) : Fed o v'.traffic.fromChild p'.terminal.emulator := by
  cases h with
  | idle hquiet =>
    rw [hquiet.traffic_eq]
    exact hfed
  | passed _ htraffic =>
    have houtput : v'.traffic.fromChild = v.traffic.fromChild := by
      simp [htraffic, Traffic.hear, Traffic.send, userInput, childTerminal]
    exact houtput ▸ hfed
  | @shown chunk _ _ _ _ htraffic hroom htake =>
    have houtput : v'.traffic.fromChild = v.traffic.fromChild ++ chunk := by simp [htraffic, Traffic.hear]
    exact houtput ▸ hfed.take hroom htake

theorem Refuses.fed (h : Refuses p v v') (hfed : Fed o v.traffic.fromChild p.terminal.emulator) :
    Fed o v'.traffic.fromChild p.terminal.emulator := by
  obtain ⟨chunk, htraffic⟩ := h.traffic_eq
  have houtput : v'.traffic.fromChild = v.traffic.fromChild ++ chunk := by simp [htraffic, Traffic.hear]
  exact houtput ▸ hfed.refuse h.noRoom chunk

/-! ### Every moment -/

/-- A session is faithful at a moment; while it goes on, everything was passed on. -/
structure Faithful (o : Options) (events : List Event) (p₀ : Pump) (v₀ : World) (place : Place) (p : Pump)
    (v : World) : Prop where
  fed : Fed o v.traffic.fromChild p.terminal.emulator
  relayed : Relayed events p₀ v₀ v
  toChild_eq : place = .waiting ∨ place = .ticking → v.traffic.toChild = v.traffic.fromUser

private theorem Ready.faithful (h : Ready o w p v) (hw : w.traffic = {}) : Faithful o events p v .waiting p v := by
  obtain ⟨data, htraffic⟩ := h.shows.traffic_eq
  rw [hw] at htraffic
  have hto : v.traffic.toChild = v.traffic.fromUser := by
    rw [htraffic]
    rfl
  refine ⟨?_, .inl hto, fun _ => hto⟩
  obtain ⟨fresh, hfresh, hp⟩ := h.create_eq
  rw [hp, htraffic]
  exact ⟨fresh, fresh, hfresh, fun _ => ⟨[], rfl⟩, fun _ => rfl, rfl, rfl, rfl⟩

private theorem Faithful.shows {place' : Place} (h : Faithful o events p₀ v₀ place p v)
    (he : p'.terminal.emulator = p.terminal.emulator) (hv : v.Shows v')
    (hplace : place' = .waiting → place = .ticking) (hplace' : place' ≠ .ticking) :
    Faithful o events p₀ v₀ place' p' v' := by
  obtain ⟨data, htraffic⟩ := hv.traffic_eq
  refine ⟨?_, h.relayed.shows hv, fun hgoesOn => ?_⟩
  · rw [he, htraffic]
    exact h.fed
  · have hto := h.toChild_eq (.inr (hplace (hgoesOn.resolve_right hplace')))
    simp [htraffic, Traffic.send, hto]

theorem Rounds.faithful (h₀ : Ready o w p₀ v₀) (hw : w.traffic = {}) (h : Rounds events p₀ v₀ place ticks p v) :
    Faithful o events p₀ v₀ place p v := by
  induction h with
  | start => exact h₀.faithful hw
  | attend h hattend ih =>
    have ha := h.attended h₀ hattend
    have hto := (ha.relays (ih.toChild_eq (.inl rfl))).resolve_right fun hended => Bool.noConfusion hended.1
    exact ⟨ha.fed ih.fed, .inl hto, fun _ => hto⟩
  | stop h hattend ih =>
    have ha := h.attended h₀ hattend
    refine ⟨ha.fed ih.fed, (ha.relays (ih.toChild_eq (.inl rfl))).imp_right ?_, by simp⟩
    rintro ⟨-, chunk, hfrom, hfailure, hto⟩
    exact ⟨_, _, _, chunk, h, ⟨_, _, hattend⟩, hfrom, hfailure, hto⟩
  | repaint h hpresent ih =>
    obtain ⟨he, hshows⟩ := (h.present_shows h₀ (by decide) false).of_ok hpresent
    exact ih.shows he hshows (fun _ => rfl) (by decide)
  | last h hpresent ih =>
    obtain ⟨he, hshows⟩ := (h.present_shows h₀ (by decide) true).of_ok hpresent
    exact ih.shows he hshows nofun (by decide)

/-! ### The whole session -/

private theorem follow_relays (o : Options) (events : List Event) (hw : w.traffic = {}) :
    Leaves (follow o events) w fun v => v.traffic.toChild = v.traffic.fromUser ∨
      ∃ p₀ v₀, setUp o w = .ok p₀ v₀ ∧ EndedByDelivery events p₀ v₀ v := by
  have relayed {p₀ : Pump} {v₀ v : World} (hsetUp : setUp o w = .ok p₀ v₀) (h : Relayed events p₀ v₀ v) :
      v.traffic.toChild = v.traffic.fromUser ∨ ∃ p₀ v₀, setUp o w = .ok p₀ v₀ ∧ EndedByDelivery events p₀ v₀ v :=
    h.imp_right fun hended => ⟨p₀, v₀, hsetUp, hended⟩
  refine ((follow_ends o events w).mono ?_ ?_).leaves
  · rintro p v ⟨p₀, v₀, ticks, u, hsetUp, hround, hshows⟩
    exact relayed hsetUp ((hround.faithful ((setUp_ends o w).of_ok hsetUp) hw).relayed.shows hshows)
  · rintro v (⟨stop, hsetUp⟩ | ⟨p₀, v₀, hsetUp, hbreaks⟩)
    · obtain ⟨data, htraffic⟩ := ((setUp_ends o w).of_error hsetUp).traffic_eq
      refine .inl ?_
      rw [htraffic, hw]
      rfl
    · have h₀ := (setUp_ends o w).of_ok hsetUp
      obtain ⟨place, ticks, p, u, hround, hlast⟩ := hbreaks.shows_or_refuses h₀
      have hbefore := (hround.faithful h₀ hw).relayed
      exact relayed hsetUp (hlast.elim hbefore.shows hbefore.refuses)

/-- The pump is faithful, however reads are split and writes cut short, and whenever the session waits, repaints or is
interrupted.  What has gone to the child is, in order, a first part of what has come from the user, and all of it unless
the session was ended by a chunk that could not be delivered; so it is when the session ends, in whichever way, and at
every moment before.  And the emulator is what a new terminal of the size becomes when all that has come from the child
is written to it at once, at every moment and at the end.  A session that does not end well breaks off while it is set
up, or after a moment since which nothing has come from the child, or with a chunk for a screen whose text is too long to
be read. -/
theorem follow_faithful (o : Options) (events : List Event) {w : World} (hw : w.traffic = {}) :
    ((left (follow o events) w).traffic.toChild <+: (left (follow o events) w).traffic.fromUser ∧
      ((left (follow o events) w).traffic.toChild = (left (follow o events) w).traffic.fromUser ∨
        ∃ p₀ v₀, setUp o w = .ok p₀ v₀ ∧ EndedByDelivery events p₀ v₀ (left (follow o events) w))) ∧
    (∀ p v, follow o events w = .ok p v → Fed o v.traffic.fromChild p.terminal.emulator) ∧
    (∀ p₀ v₀, setUp o w = .ok p₀ v₀ → ∀ place ticks p v, Rounds events p₀ v₀ place ticks p v →
      v.traffic.toChild <+: v.traffic.fromUser ∧ Relayed events p₀ v₀ v ∧
        Fed o v.traffic.fromChild p.terminal.emulator) ∧
    ∀ stop v, follow o events w = .error stop v → (∃ stop', setUp o w = .error stop' v) ∨
      ∃ p₀ v₀ place ticks p u, setUp o w = .ok p₀ v₀ ∧ Rounds events p₀ v₀ place ticks p u ∧
        (v.traffic.fromChild = u.traffic.fromChild ∨
          2147483647 < (o.cols + 1) * o.rows ∧ ∃ chunk, v.traffic.fromChild = u.traffic.fromChild ++ chunk) ∧
        Fed o v.traffic.fromChild p.terminal.emulator := by
  have hrelayed := follow_relays o events hw
  have hends := follow_ends o events w
  have hmoment {p₀ v₀ place ticks p v} (hsetUp : setUp o w = .ok p₀ v₀)
      (h : Rounds events p₀ v₀ place ticks p v) : Faithful o events p₀ v₀ place p v :=
    h.faithful ((setUp_ends o w).of_ok hsetUp) hw
  refine ⟨⟨?_, hrelayed⟩, ?_, ?_, ?_⟩
  · rcases hrelayed with hto | ⟨p₀, v₀, -, hended⟩
    · exact hto ▸ List.prefix_rfl
    · exact Relayed.toChild_prefix (.inr hended)
  · intro p v hfollow
    obtain ⟨p₀, v₀, ticks, u, hsetUp, hround, hshows⟩ := hends.of_ok hfollow
    rw [hshows.fromChild_eq]
    exact (hmoment hsetUp hround).fed
  · intro p₀ v₀ hsetUp place ticks p v hround
    have hfaithful := hmoment hsetUp hround
    exact ⟨hfaithful.relayed.toChild_prefix, hfaithful.relayed, hfaithful.fed⟩
  · intro stop v hfollow
    refine (hends.of_error hfollow).imp_right ?_
    rintro ⟨p₀, v₀, hsetUp, hbreaks⟩
    obtain ⟨place, ticks, p, u, hround, hlast⟩ := hbreaks.shows_or_refuses ((setUp_ends o w).of_ok hsetUp)
    have hfed := (hmoment hsetUp hround).fed
    refine ⟨p₀, v₀, place, ticks, p, u, hsetUp, hround, ?_⟩
    -- Since the last round nothing was read, or a chunk that was refused and so left the emulator as it was.
    rcases hlast with hshows | hrefuses
    · have houtput := hshows.fromChild_eq
      exact ⟨.inl houtput, houtput ▸ hfed⟩
    · obtain ⟨chunk, htraffic⟩ := hrefuses.traffic_eq
      have hsize := Nat.lt_of_not_le (mt hfed.room_iff.2 hrefuses.noRoom)
      exact ⟨.inr ⟨hsize, chunk, by simp [htraffic, Traffic.hear]⟩, hrefuses.fed hfed⟩

/-- The child's output comes in two chunks that cut a sequence in two; then the user types three letters, of which the
child gets two, one after an interruption, before the delivery is given up on. -/
theorem follow_faithful_cut_short :
    let o : Options := { cols := 2, rows := 1 }
    let w : World := {
      machine := { isTerminal := true, description := { status := 0, bce := 1, enter := .absent, leave := .absent } }
      writes := [100, 1, -4, 1, -5] }
    let events : List Event := [
      { reads := [(99, .bytes [0x61, 0x1B])] }, { reads := [(99, .bytes [0x5B, 0x44, 0x62])] },
      { reads := [(0, .bytes [0x78, 0x79, 0x7A])] }]
    w.traffic = {} ∧ ∃ p v, follow o events w = .ok p v ∧
      v.traffic.fromUser = [0x78, 0x79, 0x7A] ∧ v.traffic.toChild = [0x78, 0x79] ∧
      (∃ p₀ v₀, setUp o w = .ok p₀ v₀ ∧ EndedByDelivery events p₀ v₀ v) ∧
      Fed o [0x61, 0x1B, 0x5B, 0x44, 0x62] p.terminal.emulator := by
  intro o w events
  have hw : w.traffic = {} := rfl
  obtain ⟨p, v, hfollow, hfrom, hto, houtput⟩ : Succeeds (follow o events) w fun _ v =>
      v.traffic.fromUser = [0x78, 0x79, 0x7A] ∧ v.traffic.toChild = [0x78, 0x79] ∧
        v.traffic.fromChild = [0x61, 0x1B, 0x5B, 0x44, 0x62] := by decide +kernel
  obtain ⟨⟨-, hrelayed⟩, hfed, -, -⟩ := follow_faithful o events hw
  rw [left_of_ok hfollow] at hrelayed
  have hended := hrelayed.resolve_left (by rw [hfrom, hto]; decide)
  exact ⟨hw, p, v, hfollow, hfrom, hto, hended, houtput ▸ hfed p v hfollow⟩

end Pump

end ScreenWatch.Session
