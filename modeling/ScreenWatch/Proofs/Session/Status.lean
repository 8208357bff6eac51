import ScreenWatch.Proofs.Session.Failures
import ScreenWatch.Proofs.Session.Pumping
import ScreenWatch.Session.Program

/-!
# Exit statuses

What becomes of a failure in the end.  The program prepares a session, follows it and leaves it (`runSession_eq`).  A
failure that was raised makes the status one; a session that ends well gives zero, unless the terminal cannot get its
mode back.  Of the failures in the loop only a repaint that is given up on is raised: the others are reported, but the
session then ends well (`exit_status`).
-/

namespace ScreenWatch.Session

open Host World

variable {v u w : World} {o : Options} {events : List Event}

/-- Whether giving the user's terminal its mode back fails. -/
def World.failsToRestore (v : World) : Bool := v.machine.isTerminal && v.machine.failingSetMode == some (v.modesSet + 1)

namespace Program

/-! ### The parts of a session -/

def forkChild (o : Options) : SessionM Unit := do
  let m := (← get).machine
  record .setLocale
  complain (Locale.setNative m.env m.localeError)
  if m.isTerminal then
    if let some e := m.getModeError then giveUp "tcgetattr" e
  record (.fork o.cols o.rows (childMode m))
  if let some e := m.forkError then giveUp "forkpty" e
  if m.isChild then runChild o

def enterRawMode : SessionM Unit := do
  if (← get).machine.isTerminal then
    if let some e ← setMode .raw then giveUp "tcsetattr" e

/-- Everything that the parent does before it follows the child. -/
def prepare (o : Options) : SessionM Unit := do
  forkChild o
  enterRawMode

/-- Everything that the parent does after it has followed the child. -/
def leave (status : Nat) : SessionM Nat := do
  if let some e ← restoreMode then giveUp "tcsetattr" e
  record .closeChild
  if let some e := (← get).machine.closeError then reportFailure "close" e
  record .waitForChild
  if let some e := (← get).machine.waitError then reportFailure "waitpid" e
  print (ascii "\n[vtmirror is exiting.]\n")
  return status

private theorem runParent_eq (o : Options) (events : List Event) :
    runParent o events = enterRawMode >>= fun _ => followGuarded o events >>= leave := by
  unfold runParent enterRawMode
  rw [bind_assoc]
  refine congrArg _ (funext fun w => ?_)
  dsimp only
  split
  · rw [bind_assoc]
    refine congrArg _ (funext fun result => ?_)
    cases result with
    | none => rfl
    | some e => exact (bind_assoc _ _ _).symm
  · rfl

theorem runSession_eq (o : Options) (events : List Event) :
    runSession o events = prepare o >>= fun _ => followGuarded o events >>= leave := by
  have hfork : runSession o events = forkChild o >>= fun _ => runParent o events := by
    unfold runSession forkChild
    rw [bind_assoc]
    refine congrArg _ (funext fun w => ?_)
    dsimp only
    -- Each call that may fail gives up or goes on, whatever comes later.
    cases w.machine.isTerminal <;> cases w.machine.getModeError <;> cases w.machine.forkError <;>
      cases w.machine.isChild <;> simp only [bind_assoc, pure_bind, if_true, if_false, Bool.false_eq_true]
  rw [hfork, runParent_eq, prepare, bind_assoc]

theorem main_of_parse {arguments : List Bytes} (h : Options.parse w.machine.env arguments = .ok o) :
    main arguments events w = runSession o events w := by
  unfold main
  rw [get_bind, h]

/-! ### Leaving -/

/-- The program exits with the status, by ending well or before. -/
def Exits (act : SessionM Nat) (v : World) (status : Nat) : Prop :=
  (∃ u, act v = .ok status u) ∨ ∃ u, act v = .error (.exit status) u

theorem Exits.of_succeeds {act : SessionM Nat} {status : Nat}
    (h : Succeeds act v fun result _ => result = status) : Exits act v status := by
  obtain ⟨_, u, hact, rfl⟩ := h
  exact .inl ⟨u, hact⟩

theorem Exits.of_eq {act act' : SessionM Nat} {status : Nat} (h : Exits act' u status) (he : act v = act' u) :
    Exits act v status := by
  unfold Exits at h ⊢
  rwa [he]

theorem setMode_did (mode : Mode) (v : World) : Succeeds (setMode mode) v fun result u =>
    result = (if v.machine.failingSetMode = some (v.modesSet + 1) then some Errno.inputOutput else none) ∧
      v.Did [.setMode mode] u := by
  have hdid (e : Errno) : v.Did [.setMode mode]
      { v with calls := v.calls.push (.setMode mode), modesSet := v.modesSet + 1, errno := e } :=
    ⟨rfl, Array.toList_push, rfl⟩
  unfold setMode
  refine Succeeds.bind (Q := fun _ u => u = { v with calls := v.calls.push (.setMode mode) }) ⟨_, _, rfl, rfl⟩ ?_
  rintro _ _ rfl
  refine .get_bind ?_
  dsimp only
  split
  · exact ⟨_, _, rfl, rfl, hdid _⟩
  · exact ⟨_, _, rfl, rfl, hdid _⟩

/-- The calls that give the user's terminal its mode back, if there is one. -/
def restoring (m : Machine) : List Call := if m.isTerminal then [.setMode .saved] else []

theorem restoreMode_did (v : World) : Succeeds restoreMode v fun result u =>
    result = (if v.failsToRestore then some Errno.inputOutput else none) ∧ v.Did (restoring v.machine) u := by
  unfold restoreMode World.failsToRestore restoring
  refine .get_bind ?_
  cases v.machine.isTerminal with
  | false => exact .pure ⟨rfl, .refl v⟩
  | true => simpa using setMode_did .saved v

theorem record_did {call : Call} (h : call.setsMode = false) (v : World) :
    Succeeds (record call) v fun _ => v.Did [call] := by
  refine .modify ⟨rfl, Array.toList_push, ?_⟩
  rw [List.countP_singleton, h]
  rfl

theorem complain_did (text : Bytes) (v : World) : Succeeds (complain text) v fun _ => v.Did [] :=
  .modify (.nil_of_eq rfl rfl rfl)

theorem reportFailure_did (subject : String) (e : Errno) (v : World) :
    Succeeds (reportFailure subject e) v fun _ => v.Did [] := ⟨_, _, rfl, .nil_of_eq rfl rfl rfl⟩

/-- A call whose failure is only reported does not matter for what comes later. -/
private theorem reported_did {act : SessionM Nat} {status : Nat} {made : List Call}
    (hact : ∀ u, Succeeds act u fun result t => result = status ∧ u.Did made t) (call : Call)
    (hcall : call.setsMode = false) (subject : String) (error : Machine → Option Errno) (v : World) :
    Succeeds (do
      record call
      if let some e := error (← get).machine then reportFailure subject e
      act) v fun result t => result = status ∧ v.Did (call :: made) t := by
  refine (record_did hcall v).bind ?_
  intro _ u hu
  refine .get_bind ?_
  dsimp only
  split
  · refine (reportFailure_did subject _ u).bind fun _ t ht => ?_
    exact (hact t).mono fun _ _ h => ⟨h.1, (hu.trans_nil ht).trans h.2⟩
  · exact (hact u).mono fun _ _ h => ⟨h.1, hu.trans h.2⟩

/-- If the mode cannot be given back, the program exits at once. -/
theorem leave_of_fails (status : Nat) (h : v.failsToRestore = true) :
    ∃ u, leave status v = .error (.exit 1) u ∧ v.Did (restoring v.machine) u := by
  obtain ⟨_, u, hrestore, rfl, hdid⟩ := restoreMode_did v
  rw [h] at hrestore
  unfold leave
  rw [bind_of_ok hrestore]
  exact ⟨_, rfl, hdid.machine_eq, hdid.calls_eq, hdid.modesSet_eq⟩

/-- Otherwise it closes the child, waits for it and ends well. -/
theorem leave_of_restores (status : Nat) (h : v.failsToRestore = false) : Succeeds (leave status) v fun result u =>
    result = status ∧ v.Did (restoring v.machine ++ [.closeChild, .waitForChild]) u := by
  have farewell (u : World) : Succeeds (do
      print (ascii "\n[vtmirror is exiting.]\n")
      return status) u fun result t => result = status ∧ u.Did [] t := ⟨_, _, rfl, rfl, .nil_of_eq rfl rfl rfl⟩
  have waited := reported_did farewell .waitForChild rfl "waitpid" Machine.waitError
  have closed := reported_did waited .closeChild rfl "close" Machine.closeError
  obtain ⟨_, u, hrestore, rfl, hdid⟩ := restoreMode_did v
  rw [h] at hrestore
  unfold leave
  refine Succeeds.of_eq ?_ (bind_of_ok hrestore)
  exact (closed u).mono fun _ _ h => ⟨h.1, hdid.trans h.2⟩

/-- The status is the one that is given, unless the mode cannot be given back. -/
theorem leave_exits (status : Nat) (v : World) : Exits (leave status) v (if v.failsToRestore then 1 else status) := by
  cases hfails : v.failsToRestore with
  | true => exact .inr ((leave_of_fails status hfails).imp fun _ => And.left)
  | false => exact .of_succeeds ((leave_of_restores status hfails).mono fun _ _ => And.left)

/-! ### Following -/

theorem followGuarded_of_ok {p : Pump} (h : Pump.follow o events w = .ok p v) : followGuarded o events w = .ok 0 v := by
  have hdiscard : discard (Pump.follow o events) w = .ok () v := bind_of_ok h
  exact tryCatch_of_ok ((bind_of_ok hdiscard).trans rfl)

/-- A failure that was raised is caught, and the mode given back before it is reported. -/
theorem followGuarded_of_raises (h : Pump.Raises (Pump.follow o events) w) :
    Succeeds (followGuarded o events) w fun status v => status = 1 ∧
      ∃ made, (∀ call ∈ made, call.isTraffic = true) ∧ w.Did (made ++ restoring w.machine) v := by
  obtain ⟨message, u, hraise⟩ := h
  have hpumps : w.Pumps true u := by
    have := Pump.follow_pumps o events w
    rwa [Leaves, left_of_error hraise] at this
  obtain ⟨made, hdid, hmade⟩ := hpumps.did
  have hdiscard : discard (Pump.follow o events) w = .error (.raised message) u := bind_of_error hraise
  refine Succeeds.of_eq ?_ (tryCatch_of_error (bind_of_error hdiscard))
  refine ((restoreMode_did u).mono fun _ _ => And.right).discard.bind fun _ t ht => ?_
  rw [hdid.machine_eq] at ht
  exact (complain_did _ t).bind fun _ _ hsaid => .pure ⟨rfl, made, hmade, (hdid.trans ht).trans_nil hsaid⟩

private theorem runSession_exits {status : Nat} (hprepare : prepare o w = .ok () v)
    (h : followGuarded o events v = .ok status u) :
    Exits (runSession o events) w (if u.failsToRestore then 1 else status) := by
  refine (leave_exits status u).of_eq ?_
  rw [runSession_eq, bind_of_ok hprepare, bind_of_ok h]

/-- A failure that was raised makes the status one. -/
theorem runSession_of_raises (hprepare : prepare o w = .ok () v) (h : Pump.Raises (Pump.follow o events) v) :
    Exits (runSession o events) w 1 := by
  obtain ⟨_, u, hfollow, rfl, -⟩ := followGuarded_of_raises h
  have hexits := runSession_exits hprepare hfollow
  rwa [ite_self] at hexits

theorem runSession_of_ok {p : Pump} (hprepare : prepare o w = .ok () v) (h : Pump.follow o events v = .ok p u) :
    Exits (runSession o events) w (if u.failsToRestore then 1 else 0) :=
  runSession_exits hprepare (followGuarded_of_ok h)

end Program

/-! ### Whole runs -/

section Report

variable {m : Machine} {arguments : List Bytes} {writes : List Int} {status : Nat}

theorem report_status_of_exits (h : Program.Exits (Program.main arguments events) { machine := m, writes } status) :
    (report m arguments writes events).status = some status := by
  unfold report
  rcases h with ⟨u, h⟩ | ⟨u, h⟩
  · rw [h]
  · rw [h]

private theorem report_status_of_parse (hparse : Options.parse m.env arguments = .ok o)
    (h : Program.Exits (Program.runSession o events) { machine := m, writes } status) :
    (report m arguments writes events).status = some status :=
  report_status_of_exits (h.of_eq (Program.main_of_parse hparse))

end Report

namespace Pump

variable {p p₀ : Pump} {v₀ : World} {ticks : List Tick}

private theorem follow_of_setUp (hsetUp : setUp o w = .ok p₀ v₀) :
    follow o events w = (run events p₀ >>= finish o) v₀ := by
  rw [follow_eq, bind_of_ok hsetUp]

/-- A session ends with what is raised when an event is attended to. -/
theorem follow_raises_of_waiting (hsetUp : setUp o w = .ok p₀ v₀) (h : Rounds events p₀ v₀ .waiting ticks p v)
    (hattend : Raises (p.attend events[ticks.length]?) v) : Raises (follow o events) w := by
  rw [← List.head?_drop] at hattend
  refine Raises.of_eq ?_ (follow_of_setUp hsetUp)
  exact ((run_of_raises hattend).of_eq (h.run_eq (by decide))).bind _

/-- A repaint in the loop that is given up on raises, ... -/
theorem follow_raises_of_ticking (hsetUp : setUp o w = .ok p₀ v₀) (h : Rounds events p₀ v₀ .ticking ticks p v)
    {failure : DeliveryFailure} (hfailure : p.repaintFailure? false v = some failure) : Raises (follow o events) w := by
  have h₀ : Ready o w p₀ v₀ := (setUp_ends o w).of_ok hsetUp
  have hpresent := present_of_failure ((h.steady h₀).frozen (by decide)) hfailure
  refine Raises.of_eq ?_ (follow_of_setUp hsetUp)
  exact ((hpresent.bind _).of_eq (h.run_eq (by decide))).bind _

/-- ... and so does the last one. -/
theorem follow_raises_of_ended (hsetUp : setUp o w = .ok p₀ v₀) (h : Rounds events p₀ v₀ .ended ticks p v)
    {failure : DeliveryFailure} (hfailure : p.repaintFailure? true v = some failure) : Raises (follow o events) w := by
  have h₀ : Ready o w p₀ v₀ := (setUp_ends o w).of_ok hsetUp
  have hpresent := present_of_failure ((h.steady h₀).frozen (by decide)) hfailure
  have hrun : run events p₀ v₀ = .ok p v := h.run_eq (by decide)
  refine Raises.of_eq ?_ ((follow_of_setUp hsetUp).trans (bind_of_ok hrun))
  exact hpresent.bind _

/-- A session ends well if its last repaint is not given up on. -/
private theorem follow_of_ended (hsetUp : setUp o w = .ok p₀ v₀) (h : Rounds events p₀ v₀ .ended ticks p v)
    (hnone : p.repaintFailure? true v = none) : Succeeds (follow o events) w fun _ _ => True := by
  have h₀ : Ready o w p₀ v₀ := (setUp_ends o w).of_ok hsetUp
  obtain ⟨q, t, hpresent, -⟩ := present_of_no_failure ((h.steady h₀).frozen (by decide)) hnone
  have hrun : run events p₀ v₀ = .ok p v := h.run_eq (by decide)
  refine Succeeds.of_eq ?_ ((follow_of_setUp hsetUp).trans (bind_of_ok hrun))
  cases hfinish : finish o p v with
  | ok q' t' => exact ⟨q', t', hfinish, trivial⟩
  | error stop t' =>
    have hsteady := h.steady h₀
    obtain ⟨_, herror⟩ := (finish_closes o p hsteady.room (hsteady.frozen (by decide))).of_error hfinish
    cases hpresent.symm.trans herror

end Pump

open Pump

/-- How a failure ends a session that parses its arguments and gets to its loop.  If a repaint is given up on, in the
loop or after it, the status is one.  Every other failure in the loop ends it at once and is reported; if the last
repaint is not given up on then, the session ends well, and the status is zero unless the terminal cannot get its mode
back. -/
theorem exit_status {m : Machine} {arguments : List Bytes} {writes : List Int} {p₀ : Pump} {v₀ : World}
    (hparse : Options.parse m.env arguments = .ok o)
    (hprepare : Program.prepare o { machine := m, writes } = .ok () w) (hsetUp : setUp o w = .ok p₀ v₀) :
    (∀ ticks p v failure, Rounds events p₀ v₀ .ticking ticks p v → p.repaintFailure? false v = some failure →
      (report m arguments writes events).status = some 1) ∧
    (∀ ticks p v failure, Rounds events p₀ v₀ .ended ticks p v → p.repaintFailure? true v = some failure →
      (report m arguments writes events).status = some 1) ∧
    ∀ ticks p v failure, Rounds events p₀ v₀ .waiting ticks p v → failure? events[ticks.length]? v = some failure →
      ∃ u, p.attend events[ticks.length]? v = .ok (false, p) u ∧ Reports u failure ∧
        Rounds events p₀ v₀ .ended ticks p u ∧
        (p.repaintFailure? true u = none → ∃ q t, follow o events w = .ok q t ∧
          (report m arguments writes events).status = some (if t.failsToRestore then 1 else 0)) := by
  have raised (h : Raises (follow o events) w) : (report m arguments writes events).status = some 1 :=
    report_status_of_parse hparse (Program.runSession_of_raises hprepare h)
  refine ⟨?_, ?_, ?_⟩
  · intro ticks p v failure h hfailure
    exact raised (follow_raises_of_ticking hsetUp h hfailure)
  · intro ticks p v failure h hfailure
    exact raised (follow_raises_of_ended hsetUp h hfailure)
  · intro ticks p v failure h hfailure
    have h₀ : Ready o w p₀ v₀ := (setUp_ends o w).of_ok hsetUp
    obtain ⟨_, u, hattend, rfl, hreports⟩ := attend_of_failure (h.steady h₀).watches hfailure
    have hended : Rounds events p₀ v₀ .ended ticks p u := .stop h hattend
    refine ⟨u, hattend, hreports, hended, ?_⟩
    intro hnone
    obtain ⟨q, t, hfollow, -⟩ := follow_of_ended hsetUp hended hnone
    exact ⟨q, t, hfollow, report_status_of_parse hparse (Program.runSession_of_ok hprepare hfollow)⟩

/-- The user's terminal takes nothing of the first frame. -/
theorem exit_status_first_frame :
    let o : Options := { cols := 2, rows := 1 }
    let m : Machine := { description := { status := 0, bce := 1, enter := .absent, leave := .absent } }
    let arguments := [ascii "vtmirror", ascii "-c", ascii "2", ascii "-r", ascii "1"]
    let events : List Event := [{ millis := some 100, reads := [(99, .bytes [0x61])] }]
    Options.parse m.env arguments = .ok o ∧
      ∃ w p₀ v₀ p v, Program.prepare o { machine := m, writes := [0] } = .ok () w ∧ setUp o w = .ok p₀ v₀ ∧
        Rounds events p₀ v₀ .ticking [] p v ∧ p.repaintFailure? false v = some .noProgress ∧
        (report m arguments [0] events).status = some 1 := by
  intro o m arguments events
  have hparse : Options.parse m.env arguments = .ok o := by rfl
  obtain ⟨_, w, hprepare, p₀, v₀, hsetUp, ⟨goesOn, p⟩, v, hattend, hgoesOn, hfailure⟩ :
      Succeeds (Program.prepare o) { machine := m, writes := [0] } fun _ w => Succeeds (setUp o) w fun p₀ v₀ =>
        Succeeds (p₀.attend events[0]?) v₀ fun result v =>
          result.1 = true ∧ result.2.repaintFailure? false v = some .noProgress := by decide +kernel
  dsimp only at hgoesOn hfailure
  subst hgoesOn
  have hround : Rounds events p₀ v₀ .ticking [] p v := .attend .start hattend
  exact ⟨hparse, w, p₀, v₀, p, v, hprepare, hsetUp, hround, hfailure,
    (exit_status hparse hprepare hsetUp).1 _ p v _ hround hfailure⟩

/-- There is no memory for the first wait.  This ends the loop, and the program exits as if nothing had failed. -/
theorem exit_status_zero_after_failed_wait :
    let o : Options := { cols := 2, rows := 1 }
    let m : Machine := { description := { status := 0, bce := 1, enter := .absent, leave := .absent } }
    let arguments := [ascii "vtmirror", ascii "-c", ascii "2", ascii "-r", ascii "1"]
    let events : List Event := [{ error := some 12 }]
    Options.parse m.env arguments = .ok o ∧
      ∃ w p₀ v₀, Program.prepare o { machine := m } = .ok () w ∧ setUp o w = .ok p₀ v₀ ∧
        Rounds events p₀ v₀ .waiting [] p₀ v₀ ∧ failure? events[0]? v₀ = some (.wait 12) ∧
        (report m arguments [] events).status = some 0 := by
  intro o m arguments events
  have hparse : Options.parse m.env arguments = .ok o := by rfl
  obtain ⟨_, w, hprepare, p₀, v₀, hsetUp, hfailure⟩ :
      Succeeds (Program.prepare o) { machine := m } fun _ w => Succeeds (setUp o) w fun _ v₀ =>
        failure? events[0]? v₀ = some (.wait 12) := by decide +kernel
  exact ⟨hparse, w, p₀, v₀, hprepare, hsetUp, .start, hfailure, by decide +kernel⟩

end ScreenWatch.Session
