import ScreenWatch.Proofs.Session.Status

/-!
# The mode of the user's terminal

A session with a terminal puts it into raw mode before it follows the child.  Following the child takes only waits and
writes, and ends well or raises (`Pump.follow_mayRaise`); a failure that was raised is caught.  So in the end the
terminal is always asked for the mode that it had, and unless this fails, the child is then closed and waited for
(`mode_is_given_back`).
-/

namespace ScreenWatch.Session

open Host World

variable {α β : Type} {v u w : World} {o : Options} {events : List Event}

namespace Pump

/-! ### What may be raised -/

/-- The action ends well, or raises a failure. -/
def MayRaise (act : SessionM α) (v : World) : Prop := (∃ a u, act v = .ok a u) ∨ Raises act v

theorem MayRaise.of_succeeds {act : SessionM α} {Q : α → World → Prop} (h : Succeeds act v Q) : MayRaise act v := by
  obtain ⟨a, u, hact, -⟩ := h
  exact .inl ⟨a, u, hact⟩

theorem MayRaise.raise (message : Bytes) : MayRaise (throw (.raised message) : SessionM α) v := .inr ⟨message, v, rfl⟩

theorem MayRaise.pure (a : α) : MayRaise (Pure.pure a : SessionM α) v := .inl ⟨a, v, rfl⟩

theorem MayRaise.get_bind {f : World → SessionM α} (h : MayRaise (f v) v) : MayRaise (get >>= f) v := h

theorem MayRaise.bind {x : SessionM α} {f : α → SessionM β} (hx : MayRaise x v) (hf : ∀ a u, MayRaise (f a) u) :
    MayRaise (x >>= f) v := by
  rcases hx with ⟨a, u, hx⟩ | hraises
  · rcases hf a u with ⟨b, t, hb⟩ | hraises
    · exact .inl ⟨b, t, (bind_of_ok hx).trans hb⟩
    · exact .inr (hraises.of_eq (bind_of_ok hx))
  · exact .inr (hraises.bind f)

theorem MayRaise.bind_of_succeeds {x : SessionM α} {Q : α → World → Prop} {f : α → SessionM β} (hx : Succeeds x v Q)
    (hf : ∀ a u, Q a u → MayRaise (f a) u) : MayRaise (x >>= f) v := by
  obtain ⟨a, u, hx, hq⟩ := hx
  unfold MayRaise Raises
  rw [bind_of_ok hx]
  exact hf a u hq

theorem MayRaise.raises_of_error {act : SessionM α} {stop : Stop} (h : MayRaise act v)
    (herror : act v = .error stop u) : Raises act v := by
  rcases h with ⟨a, t, hok⟩ | hraises
  · cases hok.symm.trans herror
  · exact hraises

private theorem onTerminal_mayRaise (p : Pump) (act : TerminalM α) (v : World) : MayRaise (p.onTerminal act) v := by
  unfold onTerminal
  split
  · exact .pure _
  · exact .raise _

private theorem openDisplay_mayRaise (v : World) : MayRaise openDisplay v := by
  refine MayRaise.get_bind ?_
  dsimp only
  split
  · exact .raise _
  · exact (MayRaise.of_succeeds (deliver_shows _).discard).bind fun _ _ => .pure _

private theorem openLog_mayRaise (p : Pump) (o : Options) (v : World) : MayRaise (p.openLog o) v := by
  unfold openLog
  split
  · exact .pure _
  · refine MayRaise.get_bind ?_
    split
    · exact (MayRaise.of_succeeds (setErrno_quiet _)).bind fun _ _ => .raise _
    · exact .pure _

private theorem start_mayRaise (o : Options) (v : World) : MayRaise (start o) v := by
  unfold start
  rcases openTerminal_cases o with ⟨message, hopen⟩ | ⟨terminal, -, hopen⟩
  · rw [hopen]
    exact .raise _
  · rw [hopen, pure_bind]
    dsimp only
    refine (onTerminal_mayRaise _ _ v).bind fun verbose u => ?_
    refine (MayRaise.of_succeeds (log_quiet _)).bind fun _ u => ?_
    refine (onTerminal_mayRaise verbose.2 _ u).bind fun initial u => ?_
    refine (MayRaise.of_succeeds (log_quiet _)).bind fun _ u => ?_
    refine (onTerminal_mayRaise initial.2 _ u).bind fun debug u => ?_
    refine (openLog_mayRaise debug.2 o u).bind fun q u => ?_
    split
    · exact (openDisplay_mayRaise u).bind fun _ _ => .pure _
    · exact .pure _

theorem setUp_mayRaise (o : Options) (v : World) : MayRaise (setUp o) v :=
  (start_mayRaise o v).bind fun _ _ => (MayRaise.of_succeeds watch_watches).bind fun _ _ => .pure _

private theorem takeOutput_mayRaise (p : Pump) (event : Event) (v : World) : MayRaise (p.takeOutput event) v := by
  unfold takeOutput
  refine (MayRaise.of_succeeds (read_hears event childTerminal)).bind ?_
  rintro (e | _ | ⟨b, chunk⟩) u
  · dsimp only
    split
    · exact (MayRaise.of_succeeds (reportFailure_quiet "read" e)).bind fun _ _ => .pure _
    · exact .pure _
  · exact .pure _
  · refine MayRaise.bind ?_ fun _ _ => .pure _
    refine MayRaise.get_bind ((MayRaise.of_succeeds (log_quiet _)).bind fun _ u' => ?_)
    exact (onTerminal_mayRaise p _ u').bind fun _ _ => (MayRaise.of_succeeds (log_quiet _)).bind fun _ _ => .pure _

private theorem handle_mayRaise {p : Pump} (hv : v.Watches) (event : Event) : MayRaise (p.handle event) v := by
  have output {u : World} (hu : u.Watches) : MayRaise (do
      if ← isReadable childTerminal then p.takeOutput event else return (true, p)) u := by
    refine .bind_of_succeeds (isReadable_quiet hu.child) fun readable t _ => ?_
    split
    · exact takeOutput_mayRaise p event t
    · exact .pure _
  unfold handle
  refine .get_bind ?_
  split
  · next hterminal =>
    refine .bind_of_succeeds (isReadable_quiet (hv.user hterminal)) fun readable u hu => ?_
    split
    · exact (MayRaise.of_succeeds (passInput_attended p event)).bind fun _ _ => .pure _
    · exact output (hv.continues hu.toContinues)
  · exact output hv

theorem attend_mayRaise {p : Pump} (hv : v.Watches) (event : Option Event) : MayRaise (p.attend event) v := by
  unfold attend
  refine .bind_of_succeeds (wait_quiet p.timeout event) ?_
  rintro (e | n) u ⟨hu, -⟩
  · exact (MayRaise.of_succeeds (reportFailure_quiet "select" e)).bind fun _ _ => .pure _
  cases event with
  | none => exact .pure _
  | some event =>
    refine .bind_of_succeeds (isEnded_quiet (by decide)) fun ended t ht => ?_
    split
    · exact .pure _
    · exact handle_mayRaise (hv.continues (hu.trans ht).toContinues) event

/-- A repaint that does not end well is given up on. -/
theorem exists_repaintFailure {p : Pump} {force : Bool} {stop : Stop} (hv : v.IsFrozen)
    (h : p.present force v = .error stop u) : ∃ failure, p.repaintFailure? force v = some failure := by
  refine Option.ne_none_iff_exists'.1 fun hnone => ?_
  obtain ⟨_, _, hok, -⟩ := present_of_no_failure hv hnone
  cases hok.symm.trans h

/-- Whatever happens, a session ends well or raises: it never exits, and no condition that must hold fails. -/
theorem follow_mayRaise (o : Options) (events : List Event) (w : World) : MayRaise (follow o events) w := by
  cases hfollow : follow o events w with
  | ok p v => exact .inl ⟨p, v, hfollow⟩
  | error stop v =>
    right
    rcases (follow_ends o events w).of_error hfollow with ⟨_, herror⟩ | ⟨p₀, v₀, hsetUp, hbreaks⟩
    · rw [follow_eq]
      exact ((setUp_mayRaise o w).raises_of_error herror).bind _
    · have h₀ : Ready o w p₀ v₀ := (setUp_ends o w).of_ok hsetUp
      cases hbreaks with
      | attend h hattend =>
        have hraises := (attend_mayRaise (h.steady h₀).watches _).raises_of_error hattend
        exact follow_raises_of_waiting hsetUp h hraises
      | repaint h hpresent =>
        obtain ⟨failure, hfailure⟩ := exists_repaintFailure ((h.steady h₀).frozen (by decide)) hpresent
        exact follow_raises_of_ticking hsetUp h hfailure
      | last h hpresent =>
        obtain ⟨failure, hfailure⟩ := exists_repaintFailure ((h.steady h₀).frozen (by decide)) hpresent
        exact follow_raises_of_ended hsetUp h hfailure

end Pump

namespace Program

/-! ### The calls of a session -/

private theorem forkChild_did (o : Options) (hget : v.machine.getModeError = none) (hfork : v.machine.forkError = none)
    (hparent : v.machine.isChild = false) : Succeeds (forkChild o) v fun _ =>
      v.Did [.setLocale, .fork o.cols o.rows (childMode v.machine)] := by
  unfold forkChild
  refine .get_bind ?_
  dsimp only
  refine (record_did rfl v).bind fun _ u hu => ?_
  refine (complain_did _ u).bind fun _ t ht => ?_
  rw [hget, hfork, hparent, if_neg Bool.false_ne_true, ite_self]
  exact (record_did rfl t).mono fun _ _ hs => (hu.trans_nil ht).trans hs

private theorem enterRawMode_did (hterminal : v.machine.isTerminal = true)
    (hraw : v.machine.failingSetMode ≠ some (v.modesSet + 1)) :
    Succeeds enterRawMode v fun _ => v.Did [.setMode .raw] := by
  unfold enterRawMode
  refine .get_bind ?_
  rw [if_pos hterminal]
  refine (setMode_did .raw v).bind ?_
  rintro _ u ⟨rfl, hu⟩
  rw [if_neg hraw]
  exact .pure hu

/-- The parent of a session with a terminal, before it follows the child. -/
theorem prepare_did (o : Options) (hterminal : v.machine.isTerminal = true) (hget : v.machine.getModeError = none)
    (hfork : v.machine.forkError = none) (hparent : v.machine.isChild = false)
    (hraw : v.machine.failingSetMode ≠ some (v.modesSet + 1)) : Succeeds (prepare o) v fun _ =>
      v.Did [.setLocale, .fork o.cols o.rows (childMode v.machine), .setMode .raw] := by
  refine (forkChild_did o hget hfork hparent).bind fun _ u hu => ?_
  rw [← hu.machine_eq] at hterminal hraw
  have hmodes : u.modesSet = v.modesSet := hu.modesSet_eq
  rw [← hmodes] at hraw
  exact (enterRawMode_did hterminal hraw).mono fun _ _ ht => hu.trans ht

/-- However a session ends, it has only waited and written; a failure that was raised is caught, and the mode given back
at once. -/
theorem followGuarded_did (o : Options) (events : List Event) (v : World) : ∃ made again,
    (∀ call ∈ made, call.isTraffic = true) ∧
      ((∃ p u, Pump.follow o events v = .ok p u) ∧ again = [] ∨
        Pump.Raises (Pump.follow o events) v ∧ again = restoring v.machine) ∧
      Succeeds (followGuarded o events) v fun _ => v.Did (made ++ again) := by
  rcases Pump.follow_mayRaise o events v with ⟨p, u, hfollow⟩ | hraises
  · obtain ⟨made, hdid, hmade⟩ := ((Pump.follow_pumps o events).pumps_of_ok hfollow).did
    refine ⟨made, [], hmade, .inl ⟨⟨p, u, hfollow⟩, rfl⟩, 0, u, followGuarded_of_ok hfollow, ?_⟩
    rwa [List.append_nil]
  · obtain ⟨status, u, hguarded, -, made, hmade, hdid⟩ := followGuarded_of_raises hraises
    exact ⟨made, restoring v.machine, hmade, .inr ⟨hraises, rfl⟩, status, u, hguarded, hdid⟩

end Program

open Program

/-- The mode of the user's terminal is given back.  Let a parent with a terminal parse its arguments, fork, and set the
raw mode.  However following the child ends, it has only waited and written; if a failure was raised, the parent asks
for the mode that the terminal had before it reports the failure.  In any case it asks for this mode last of all modes.
If that call fails, the program exits; otherwise the child is then closed and waited for, and the program returns. -/
theorem mode_is_given_back {m : Machine} {arguments : List Bytes} (writes : List Int) (events : List Event)
    (hparse : Options.parse m.env arguments = .ok o) (hterminal : m.isTerminal = true) (hget : m.getModeError = none)
    (hfork : m.forkError = none) (hparent : m.isChild = false) (hraw : m.failingSetMode ≠ some 1) :
    ∃ u made again, prepare o { machine := m, writes } = .ok () u ∧ (∀ call ∈ made, call.isTraffic = true) ∧
      ((∃ p v, Pump.follow o events u = .ok p v) ∧ again = [] ∨
        Pump.Raises (Pump.follow o events) u ∧ again = [.setMode .saved]) ∧
      let before := [.setLocale, .fork o.cols o.rows (childMode m), .setMode .raw] ++ (made ++ again)
      if m.failingSetMode = some (before.countP Call.setsMode + 1) then
        ∃ v, main arguments events { machine := m, writes } = .error (.exit 1) v ∧
          v.calls.toList = before ++ [.setMode .saved]
      else Succeeds (main arguments events) { machine := m, writes } fun _ v =>
        v.calls.toList = before ++ [.setMode .saved, .closeChild, .waitForChild] := by
  obtain ⟨_, u, hprepare, hu⟩ := @prepare_did { machine := m, writes } o hterminal hget hfork hparent hraw
  obtain ⟨made, again, hmade, hends, status, t, hguarded, ht⟩ := followGuarded_did o events u
  have hrestoring : restoring m = [.setMode .saved] := if_pos hterminal
  have hmain : main arguments events { machine := m, writes } = leave status t := by
    rw [main_of_parse hparse, runSession_eq, bind_of_ok hprepare, bind_of_ok hguarded]
  rw [hu.machine_eq, hrestoring] at hends
  refine ⟨u, made, again, hprepare, hmade, hends, ?_⟩
  have hdid := hu.trans ht
  have hcalls {more : List Call} {v : World} (hv : t.Did more v) : v.calls.toList = _ ++ more :=
    (hdid.trans hv).calls_eq.trans (List.nil_append _)
  have hmachine : restoring t.machine = [.setMode .saved] := by rw [hdid.machine_eq, hrestoring]
  -- Calls that set a mode are counted, so those made before tell whether the last one fails.
  have hfails : t.failsToRestore = true ↔ m.failingSetMode = some (List.countP Call.setsMode
      ([.setLocale, .fork o.cols o.rows (childMode m), .setMode .raw] ++ (made ++ again)) + 1) := by
    rw [World.failsToRestore, hdid.machine_eq, hterminal, hdid.modesSet_eq]
    simp
  cases hrestore : t.failsToRestore with
  | true =>
    obtain ⟨v, hleave, hv⟩ := leave_of_fails status hrestore
    rw [hmachine] at hv
    exact (if_pos (hfails.1 hrestore)).mpr ⟨v, hmain.trans hleave, hcalls hv⟩
  | false =>
    have hleave := leave_of_restores status hrestore
    rw [hmachine] at hleave
    have hnot := fun h => Bool.false_ne_true (hrestore.symm.trans (hfails.2 h))
    exact (if_neg hnot).mpr ((hleave.mono fun _ _ hv => hcalls hv.2).of_eq hmain)

/-- The user's terminal takes nothing of the first frame, and then does not take its mode back; it is asked again. -/
theorem mode_is_given_back_on_second_try :
    let o : Options := { cols := 2, rows := 1 }
    let m : Machine := {
      description := { status := 0, bce := 1, enter := .absent, leave := .absent }
      isTerminal := true
      failingSetMode := some 2 }
    let arguments := [ascii "vtmirror", ascii "-c", ascii "2", ascii "-r", ascii "1"]
    let events : List Event := [{ millis := some 100, reads := [(99, .bytes [0x61])] }]
    Options.parse m.env arguments = .ok o ∧ m.isTerminal = true ∧ m.getModeError = none ∧ m.forkError = none ∧
      m.isChild = false ∧ m.failingSetMode ≠ some 1 ∧
      ∃ u made, prepare o { machine := m, writes := [0] } = .ok () u ∧ Pump.Raises (Pump.follow o events) u ∧
        Succeeds (main arguments events) { machine := m, writes := [0] } fun _ v =>
          v.calls.toList = [.setLocale, .fork 2 1 .plain, .setMode .raw] ++ (made ++ [.setMode .saved]) ++
            [.setMode .saved, .closeChild, .waitForChild] := by
  intro o m arguments events
  have hparse : Options.parse m.env arguments = .ok o := by rfl
  obtain ⟨_, u, hprepare, hfails⟩ : Succeeds (prepare o) { machine := m, writes := [0] } fun _ u =>
    ¬Succeeds (Pump.follow o events) u fun _ _ => True := by decide +kernel
  obtain ⟨u', made, again, hprepare', -, hends, hmain⟩ :=
    mode_is_given_back [0] events hparse rfl rfl rfl rfl (by decide)
  cases hprepare.symm.trans hprepare'
  rcases hends with ⟨⟨p, v, hfollow⟩, -⟩ | ⟨hraises, rfl⟩
  · exact absurd ⟨p, v, hfollow, trivial⟩ hfails
  · have hthird : m.failingSetMode ≠ some (List.countP Call.setsMode
        ([.setLocale, .fork o.cols o.rows (childMode m), .setMode .raw] ++ (made ++ [.setMode .saved])) + 1) := by
      simp [m, List.countP_cons, Call.setsMode]
    exact ⟨hparse, rfl, rfl, rfl, rfl, by decide, u, made, hprepare, hraises, (if_neg hthird).mp hmain⟩

end ScreenWatch.Session
