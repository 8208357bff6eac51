import ScreenWatch.Proofs.Session.Rounds

/-!
# Failing calls

Which system call fails in a round can be told from the world at its start (`Pump.failure?`, `Pump.repaintFailure?`).
Waiting and reading may fail, and a write to the child may be given up on: the failure is reported, and the loop ends as
it does at the end of the input (`attend_of_failure`).  A repaint that is given up on raises (`present_of_failure`).
From each of its moments on a session goes its one way (`Rounds.run_eq`), so a failure ends every session that comes to
it.
-/

namespace ScreenWatch.Session

open Host World

variable {v : World}

/-- A system call that fails when an event is attended to. -/
inductive Failure
  | wait (e : Errno)
  /-- Reading from the user or the child; an input/output error of the child is its end, and no failure. -/
  | read (e : Errno)
  /-- Writing to the child is given up on. -/
  | write (failure : DeliveryFailure)
  deriving DecidableEq

def Failure.report : Failure → Bytes
  | wait e => e.report (ascii "select")
  | read e => e.report (ascii "read")
  | write failure => failure.report Target.child.descriptor

namespace Pump

/-- What reading after an event gives. -/
def answerOf (event : Event) (descriptor : Int) : Except Errno Bytes :=
  match event.answer descriptor with
  | .failed e => .error e
  | .endOfFile => .ok []
  | .bytes b => .ok (b.take bufferSize)

/-- What fails when the user's input is passed on. -/
def inputFailure? (event : Event) (writes : List Int) : Option Failure :=
  match answerOf event userInput with
  | .error e => some (.read e)
  | .ok chunk => (Delivery.deliver chunk writes).failure.map .write

/-- What fails when the child's output is taken. -/
def outputFailure? (event : Event) : Option Failure :=
  match answerOf event childTerminal with
  | .error e => if e = Errno.inputOutput then none else some (.read e)
  | .ok _ => none

/-- What fails when the input that is there is dealt with; only one input is read in a round. -/
def handleFailure? (event : Event) (isTerminal : Bool) (readable writes : List Int) : Option Failure :=
  if isTerminal ∧ userInput ∈ readable then inputFailure? event writes
  else if childTerminal ∈ readable then outputFailure? event
  else none

/-- What fails when an event is attended to; a signal ends the session before anything is read. -/
def failure? (event : Option Event) (v : World) : Option Failure :=
  match v.selector.wait event, event with
  | (.error e, _), _ => some (.wait e)
  | (.ok _, _), none => none
  | (.ok _, s), some event =>
    if ∃ signal ∈ fatalSignals, signal ∈ s.arrived then none
    else handleFailure? event v.machine.isTerminal s.readable v.writes

/-- Why a repaint is given up on, if it is. -/
def repaintFailure? (p : Pump) (force : Bool) (v : World) : Option DeliveryFailure :=
  match p.presenter with
  | none => none
  | some r =>
    if r.isEarly v.clock.frozen force || r.isUpToDate p.terminal then none
    else (Delivery.deliver (r.frameFor p.terminal) v.writes).failure

/-! ### Attending to an event -/

private theorem wait_result (timeout : Int) (event : Option Event) : Succeeds (wait timeout event) v fun result u =>
    result = (v.selector.wait event).1 ∧ u.selector = (v.selector.wait event).2 ∧ u.machine = v.machine ∧
      u.writes = v.writes := ⟨_, _, rfl, rfl, rfl, rfl, rfl⟩

/-- Asking for signals that have not arrived changes nothing. -/
private theorem isEnded_of_not_arrived {signals : List Int} (hsignals : ∀ s ∈ signals, Selector.isSignal s = true)
    (h : ∀ s ∈ signals, s ∉ v.selector.arrived) : isEnded signals v = .ok false v := by
  induction signals with
  | nil => rfl
  | cons signal rest ih =>
    have hnot := h signal (by simp)
    have hfilter : v.selector.arrived.filter (· ≠ signal) = v.selector.arrived := by
      rw [List.filter_eq_self]
      intro s hs
      rw [decide_eq_true_eq]
      rintro rfl
      exact hnot hs
    have htake : takeSignal signal v = .ok false v := by
      unfold takeSignal Selector.takeSignal
      rw [get_bind, if_pos (hsignals signal (by simp)), hfilter, decide_eq_false hnot]
      rfl
    rw [isEnded, bind_of_ok htake]
    exact ih (fun s hs => hsignals s (by simp [hs])) fun s hs => h s (by simp [hs])

private theorem isReadable_eq {descriptor : Int} (h : descriptor ∈ v.selector.watched) :
    isReadable descriptor v = .ok (decide (descriptor ∈ v.selector.readable)) v := by
  unfold isReadable Selector.isReadable?
  rw [get_bind, if_pos h]
  rfl

private theorem read_result (event : Event) (descriptor : Int) : Succeeds (World.read event descriptor) v
    fun result u => result = answerOf event descriptor ∧ u.writes = v.writes := by
  unfold World.read answerOf
  cases event.answer descriptor with
  | failed e => exact ⟨_, _, rfl, rfl, rfl⟩
  | endOfFile => exact ⟨_, _, rfl, rfl, rfl⟩
  | bytes b => exact ⟨_, _, rfl, rfl, rfl⟩

/-- The failure is what was said last. -/
def Reports (v : World) (f : Failure) : Prop := ∃ said : Array Bytes, v.complaints = said.push f.report

private theorem deliver_of_failure {target : Target} {data : Bytes} {failure : DeliveryFailure}
    (h : (Delivery.deliver data v.writes).failure = some failure) :
    Succeeds (deliver target data) v fun isDone u => isDone = false ∧
      ∃ said : Array Bytes, u.complaints = said.push (failure.report target.descriptor) := by
  unfold deliver
  refine .get_bind ((Succeeds.modify (R := fun _ _ => True) trivial).bind ?_)
  intro _ u _
  rw [h]
  exact ⟨_, _, rfl, rfl, _, rfl⟩

variable {p : Pump} {event : Event} {f : Failure}

private theorem reportFailure_reports {subject : String} {e : Errno} (h : f.report = e.report (ascii subject)) :
    Succeeds (reportFailure subject e) v fun _ u => Reports u f := ⟨_, _, rfl, _, by rw [h]⟩

private theorem passInput_of_failure (h : inputFailure? event v.writes = some f) :
    Succeeds (passInput event) v fun goesOn u => goesOn = false ∧ Reports u f := by
  unfold inputFailure? at h
  unfold passInput
  refine (read_result event userInput).bind ?_
  rintro _ u ⟨rfl, hwrites⟩
  rcases hanswer : answerOf event userInput with e | chunk
  · rw [hanswer] at h
    obtain rfl := Option.some.inj h
    exact (reportFailure_reports rfl).bind fun _ _ hu => .pure ⟨rfl, hu⟩
  · rw [hanswer] at h
    obtain ⟨failure, hfailure, rfl⟩ := Option.map_eq_some_iff.1 h
    rw [← hwrites] at hfailure
    cases chunk with
    | nil => cases hw : u.writes <;> simp [hw, Delivery.deliver] at hfailure
    | cons b chunk => exact deliver_of_failure hfailure

private theorem takeOutput_of_failure (h : outputFailure? event = some f) :
    Succeeds (p.takeOutput event) v fun result u => result = (false, p) ∧ Reports u f := by
  unfold outputFailure? at h
  unfold takeOutput
  refine (read_result event childTerminal).bind ?_
  rintro _ u ⟨rfl, -⟩
  rcases hanswer : answerOf event childTerminal with e | chunk
  · rw [hanswer] at h
    dsimp only at h ⊢
    split at h
    · cases h
    · next he =>
      obtain rfl := Option.some.inj h
      rw [if_pos he]
      exact (reportFailure_reports rfl).bind fun _ _ hu => .pure ⟨rfl, hu⟩
  · rw [hanswer] at h
    cases h

private theorem handle_of_failure (hv : v.Watches)
    (h : handleFailure? event v.machine.isTerminal v.selector.readable v.writes = some f) :
    Succeeds (p.handle event) v fun result u => result = (false, p) ∧ Reports u f := by
  have output (h : (if childTerminal ∈ v.selector.readable then outputFailure? event else none) = some f) :
      Succeeds (do
        if ← isReadable childTerminal then p.takeOutput event else return (true, p)) v
        fun result u => result = (false, p) ∧ Reports u f := by
    split at h
    · next hreadable =>
      refine Succeeds.of_eq ?_ (bind_of_ok (isReadable_eq hv.child))
      rw [if_pos (decide_eq_true hreadable)]
      exact takeOutput_of_failure h
    · cases h
  unfold handleFailure? at h
  unfold handle
  refine .get_bind ?_
  split
  · next hterminal =>
    refine Succeeds.of_eq ?_ (bind_of_ok (isReadable_eq (hv.user hterminal)))
    by_cases hreadable : userInput ∈ v.selector.readable
    · rw [if_pos ⟨hterminal, hreadable⟩] at h
      rw [if_pos (decide_eq_true hreadable)]
      exact (passInput_of_failure h).bind fun _ _ hu => .pure ⟨by rw [hu.1], hu.2⟩
    · rw [if_neg fun hboth => hreadable hboth.2] at h
      rw [decide_eq_false hreadable, if_neg Bool.false_ne_true]
      exact output h
  · next hterminal =>
    rw [if_neg fun hboth => hterminal hboth.1] at h
    exact output h

/-- A failure is reported and ends the loop; the pump stays as it is. -/
theorem attend_of_failure {event : Option Event} (hv : v.Watches) (h : failure? event v = some f) :
    Succeeds (p.attend event) v fun result u => result = (false, p) ∧ Reports u f := by
  unfold failure? at h
  unfold attend
  refine (wait_result p.timeout event).bind ?_
  rintro _ u ⟨rfl, hselector, hmachine, hwrites⟩
  rcases hwait : v.selector.wait event with ⟨e | n, s⟩
  · rw [hwait] at h
    obtain rfl := Option.some.inj h
    exact (reportFailure_reports rfl).bind fun _ _ hu => .pure ⟨rfl, hu⟩
  cases event with
  | none =>
    rw [hwait] at h
    cases h
  | some event =>
    have hwatched : s.watched = v.selector.watched := by
      have := wait_watched v.selector (some event)
      rwa [hwait] at this
    rw [hwait] at h hselector
    subst hselector
    dsimp only at h ⊢
    split at h
    · cases h
    next hsignals =>
    have hended : isEnded fatalSignals u = .ok false u :=
      isEnded_of_not_arrived (by decide) fun s hs harrived => hsignals ⟨s, hs, harrived⟩
    rw [← hmachine, ← hwrites] at h
    have hu : u.Watches := ⟨hwatched ▸ hv.child, fun hterminal => hwatched ▸ hv.user (hmachine ▸ hterminal)⟩
    exact Succeeds.of_eq (handle_of_failure hu h) (bind_of_ok hended)

/-! ### Repainting -/

/-- The action raises a failure. -/
def Raises {α : Type} (act : SessionM α) (v : World) : Prop := ∃ message u, act v = .error (.raised message) u

theorem Raises.bind {α β : Type} {x : SessionM α} (h : Raises x v) (f : α → SessionM β) : Raises (x >>= f) v := by
  obtain ⟨message, u, hx⟩ := h
  exact ⟨message, u, bind_of_error hx⟩

theorem Raises.of_eq {α : Type} {act act' : SessionM α} {u : World} (h : Raises act' u) (he : act v = act' u) :
    Raises act v := by
  unfold Raises at h ⊢
  rwa [he]

private theorem paint_of_failure {r : Presenter} {t : Terminal} {failure : DeliveryFailure}
    (h : (Delivery.deliver (r.frameFor t) v.writes).failure = some failure) (now : UInt64) :
    Raises (r.paint t now) v := by
  obtain ⟨_, u, hdeliver, rfl, -⟩ := @deliver_of_failure v .user _ failure h
  unfold Presenter.paint
  exact ⟨ascii "write: " ++ ascii (Errno.description u.errno), u, (bind_of_ok hdeliver).trans rfl⟩

private theorem paint_of_no_failure {r : Presenter} {t : Terminal}
    (h : (Delivery.deliver (r.frameFor t) v.writes).failure = none) (now : UInt64) :
    Succeeds (r.paint t now) v fun _ _ => True := by
  unfold Presenter.paint
  refine (deliver_sends .user (r.frameFor t)).bind ?_
  rintro _ u ⟨rfl, -⟩
  rw [h]
  exact .pure trivial

section Present

variable {force : Bool}

/-- A repaint that is given up on raises, ... -/
theorem present_of_failure {failure : DeliveryFailure} (hv : v.IsFrozen)
    (h : p.repaintFailure? force v = some failure) : Raises (p.present force) v := by
  obtain ⟨_, u, htime, rfl, hu⟩ := time_quiet hv
  unfold repaintFailure? at h
  unfold present
  cases hr : p.presenter with
  | none =>
    rw [hr] at h
    cases h
  | some r =>
    rw [hr] at h
    dsimp only at h
    split at h
    · cases h
    next hdue =>
    rw [Bool.or_eq_true, not_or, Bool.not_eq_true, Bool.not_eq_true] at hdue
    rw [← hu.writes_eq] at h
    unfold Presenter.tick
    refine Raises.bind (Raises.of_eq ?_ (bind_of_ok htime)) _
    rw [hdue.1, hdue.2]
    exact (paint_of_failure h _).bind _

/-- ... and any other one ends well. -/
theorem present_of_no_failure (hv : v.IsFrozen) (h : p.repaintFailure? force v = none) :
    Succeeds (p.present force) v fun _ _ => True := by
  unfold repaintFailure? at h
  unfold present
  cases hr : p.presenter with
  | none => exact .pure trivial
  | some r =>
    rw [hr] at h
    unfold Presenter.tick
    simp only [bind_assoc]
    refine (time_quiet hv).bind ?_
    rintro _ u ⟨rfl, hu⟩
    cases hearly : r.isEarly v.clock.frozen force with
    | true => exact .pure trivial
    | false =>
      cases hcurrent : r.isUpToDate p.terminal with
      | true => exact .pure trivial
      | false =>
        simp only [hearly, hcurrent, Bool.or_false, Bool.false_eq_true, if_false] at h
        rw [← hu.writes_eq] at h
        simp only [Bool.false_eq_true, if_false, bind_assoc]
        exact (paint_of_no_failure h _).bind fun _ _ _ => .pure trivial

end Present

/-! ### What is left of a session -/

/-- What is left of the loop at a moment, after a number of repaints. -/
def remaining (events : List Event) : Place → Nat → Pump → SessionM Pump
  | .waiting, n, p => run (events.drop n) p
  | .ticking, n, p => p.present false >>= run (events.drop (n + 1))
  | .ended, _, p | .closing, _, p => pure p

private theorem run_cons_eq (event : Event) (rest : List Event) (p : Pump) :
    run (event :: rest) p = p.attend (some event) >>= fun result =>
      if result.1 then result.2.present false >>= run rest else pure result.2 := by
  rw [run, step_eq, bind_assoc]
  refine congrArg _ (funext fun result => ?_)
  obtain ⟨goesOn, q⟩ := result
  cases goesOn with
  | true => simp
  | false => simp

private theorem run_of_goesOn {events : List Event} {u : World} {q : Pump}
    (h : p.attend events.head? v = .ok (true, q) u) : run events p v = (q.present false >>= run events.tail) u := by
  cases events with
  | nil => cases (attend_none p v).of_ok h
  | cons event rest =>
    rw [run_cons_eq]
    exact bind_of_ok h

private theorem run_of_stop {events : List Event} {u : World} {q : Pump}
    (h : p.attend events.head? v = .ok (false, q) u) : run events p v = .ok q u := by
  cases events with
  | nil =>
    rw [run, step_eq, bind_assoc]
    exact bind_of_ok h
  | cons event rest =>
    rw [run_cons_eq]
    exact bind_of_ok h

theorem run_of_raises {events : List Event} (h : Raises (p.attend events.head?) v) : Raises (run events p) v := by
  cases events with
  | nil =>
    rw [run, step_eq, bind_assoc]
    exact h.bind _
  | cons event rest =>
    rw [run_cons_eq]
    exact h.bind _

/-- The loop goes through its moments: what it does as a whole is what is left of it at each of them. -/
theorem Rounds.run_eq {events : List Event} {p₀ : Pump} {v₀ : World} {place : Place} {ticks : List Tick}
    (h : Rounds events p₀ v₀ place ticks p v) (hplace : place ≠ .closing) :
    run events p₀ v₀ = remaining events place ticks.length p v := by
  induction h with
  | start => rfl
  | attend _ hattend ih =>
    rw [← List.head?_drop] at hattend
    rw [ih (by decide)]
    refine (run_of_goesOn hattend).trans ?_
    rw [List.tail_drop]
    rfl
  | stop _ hattend ih =>
    rw [← List.head?_drop] at hattend
    exact (ih (by decide)).trans (run_of_stop hattend)
  | repaint _ hpresent ih =>
    refine (ih (by decide)).trans ((bind_of_ok hpresent).trans ?_)
    simp only [remaining, List.length_append, List.length_singleton]
  | last => exact absurd rfl hplace

end Pump

end ScreenWatch.Session
