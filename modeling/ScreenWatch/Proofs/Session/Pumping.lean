import ScreenWatch.Proofs.Session.Round

/-!
# What a pump does to the world

Whatever happens in a session, also when it breaks off, it only waits and writes: it sets no mode, closes nothing and
does not wait for the child (`follow_pumps`).  And time passes only while it waits (`attend_millis`, `present_millis`).
-/

namespace ScreenWatch.Session

open Host World

variable {α β : Type} {waits : Bool} {v v' v'' : World}

namespace Call

/-- Whether the call waits for events or writes. -/
def isTraffic : Call → Bool
  | .wait .. | .write .. => true
  | _ => false

def setsMode : Call → Bool
  | .setMode _ => true
  | _ => false

end Call

namespace World

/-- From `v` to `v'` the session makes the calls, and counts those that set a mode. -/
structure Did (v : World) (made : List Call) (v' : World) : Prop where
  machine_eq : v'.machine = v.machine
  calls_eq : v'.calls.toList = v.calls.toList ++ made
  modesSet_eq : v'.modesSet = v.modesSet + made.countP Call.setsMode

theorem Did.nil_of_eq (hmachine : v'.machine = v.machine) (hcalls : v'.calls = v.calls)
    (hmodes : v'.modesSet = v.modesSet) : v.Did [] v' := ⟨hmachine, by rw [hcalls, List.append_nil], hmodes⟩

theorem Did.refl (v : World) : v.Did [] v := nil_of_eq rfl rfl rfl

theorem Did.trans {made later : List Call} (h : v.Did made v') (h' : v'.Did later v'') : v.Did (made ++ later) v'' where
  machine_eq := h'.machine_eq.trans h.machine_eq
  calls_eq := by rw [h'.calls_eq, h.calls_eq, List.append_assoc]
  modesSet_eq := by rw [h'.modesSet_eq, h.modesSet_eq, List.countP_append, Nat.add_assoc]

theorem Did.trans_nil {made : List Call} (h : v.Did made v') (h' : v'.Did [] v'') : v.Did made v'' := by
  rw [← List.append_nil made]
  exact h.trans h'

/-- From `v` to `v'` the session only waits and writes, and if `waits` is false, no time passes. -/
structure Pumps (waits : Bool) (v v' : World) : Prop where
  millis_eq : waits = false → v'.millis = v.millis
  did : ∃ made, v.Did made v' ∧ ∀ call ∈ made, call.isTraffic = true

end World

namespace World.Pumps

/-- What no call was made for. -/
theorem of_eq (hmachine : v'.machine = v.machine) (hmodes : v'.modesSet = v.modesSet) (hmillis : v'.millis = v.millis)
    (hcalls : v'.calls = v.calls) : v.Pumps waits v' :=
  ⟨fun _ => hmillis, [], .nil_of_eq hmachine hcalls hmodes, nofun⟩

theorem refl (v : World) : v.Pumps waits v := of_eq rfl rfl rfl rfl

/-- Calls that wait and write set no mode. -/
theorem of_calls {made : List Call} (hmachine : v'.machine = v.machine) (hmodes : v'.modesSet = v.modesSet)
    (hmillis : waits = false → v'.millis = v.millis) (hcalls : v'.calls.toList = v.calls.toList ++ made)
    (hmade : ∀ call ∈ made, call.isTraffic = true) : v.Pumps waits v' := by
  refine ⟨hmillis, made, ⟨hmachine, hcalls, ?_⟩, hmade⟩
  have hnone : made.countP Call.setsMode = 0 := by
    rw [List.countP_eq_zero]
    intro call hcall hsets
    have htraffic := hmade call hcall
    cases call <;> simp [Call.setsMode, Call.isTraffic] at hsets htraffic
  rw [hnone, hmodes, Nat.add_zero]

theorem trans (h : v.Pumps waits v') (h' : v'.Pumps waits v'') : v.Pumps waits v'' := by
  obtain ⟨made, hdid, hmade⟩ := h.did
  obtain ⟨later, hdid', hlater⟩ := h'.did
  exact ⟨fun hwaits => (h'.millis_eq hwaits).trans (h.millis_eq hwaits), made ++ later, hdid.trans hdid',
    List.forall_mem_append.2 ⟨hmade, hlater⟩⟩

end World.Pumps

/-- Whether the action ends well or fails, it only waits and writes. -/
def IsPumping (waits : Bool) (act : SessionM α) : Prop := ∀ v, Leaves act v (v.Pumps waits)

namespace IsPumping

theorem pure (a : α) : IsPumping waits (Pure.pure a : SessionM α) := fun v => .refl v

theorem throw (stop : Stop) : IsPumping waits (throw stop : SessionM α) := fun v => .refl v

theorem get : IsPumping waits (get : SessionM World) := fun v => .refl v

theorem modify {f : World → World} (h : ∀ v : World, v.Pumps waits (f v)) :
    IsPumping waits (modify f : SessionM Unit) := h

theorem bind {x : SessionM α} {f : α → SessionM β} (hx : IsPumping waits x) (hf : ∀ a, IsPumping waits (f a)) :
    IsPumping waits (x >>= f) := by
  intro v
  refine (hx v).bind ?_
  intro a t ht
  exact ht.trans (hf a t)

theorem forM {l : List α} {f : α → SessionM Unit} (h : ∀ a, IsPumping waits (f a)) : IsPumping waits (l.forM f) := by
  induction l with
  | nil => exact pure ()
  | cons a l ih => exact bind (h a) fun _ => ih

theorem discard {act : SessionM α} (h : IsPumping waits act) : IsPumping waits (discard act) := bind h fun _ => pure ()

theorem pumps_of_ok {act : SessionM α} {a : α} (h : IsPumping waits act) (ha : act v = .ok a v') :
    v.Pumps waits v' := by
  have hact := h v
  rwa [Leaves, left_of_ok ha] at hact

end IsPumping

/-! ### System calls -/

theorem complain_pumps (text : Bytes) : IsPumping waits (complain text) := .modify fun _ => .of_eq rfl rfl rfl rfl

theorem setErrno_pumps (e : Errno) : IsPumping waits (setErrno e) := .modify fun _ => .of_eq rfl rfl rfl rfl

theorem reportFailure_pumps (subject : String) (e : Errno) : IsPumping waits (reportFailure subject e) :=
  (setErrno_pumps e).bind fun _ => complain_pumps _

theorem demand_pumps (a : Option α) : IsPumping waits (demand a) := by
  cases a with
  | none => exact .throw _
  | some a => exact .pure a

theorem deliver_pumps (target : Target) (data : Bytes) : IsPumping waits (deliver target data) := by
  refine IsPumping.get.bind fun w => IsPumping.bind (.modify fun v => ?_) fun _ => ?_
  · refine .of_calls rfl rfl (fun _ => rfl) Array.toList_append ?_
    simp [Call.isTraffic]
  · split
    · exact .pure _
    · exact (complain_pumps _).bind fun _ => .pure _

theorem wait_pumps (timeout : Int) (event : Option Event) : IsPumping true (wait timeout event) := by
  intro v
  have hwait : Succeeds (wait timeout event) v fun _ v' => v.Pumps true v' := by
    refine ⟨_, _, rfl, .of_calls rfl rfl nofun Array.toList_push ?_⟩
    simp [Call.isTraffic]
  exact hwait.leaves

theorem time_pumps : IsPumping waits time := by
  refine IsPumping.get.bind fun w => IsPumping.bind ?_ fun _ => (complain_pumps _).bind fun _ => .pure _
  exact .modify fun _ => .of_eq rfl rfl rfl rfl

theorem isReadable_pumps (descriptor : Int) : IsPumping waits (isReadable descriptor) :=
  IsPumping.get.bind fun _ => demand_pumps _

theorem takeSignal_pumps (signal : Int) : IsPumping waits (takeSignal signal) := by
  refine IsPumping.get.bind fun _ => (demand_pumps _).bind fun _ => IsPumping.bind ?_ fun _ => .pure _
  exact .modify fun _ => .of_eq rfl rfl rfl rfl

theorem watchDescriptor_pumps (descriptor : Int) : IsPumping waits (watchDescriptor descriptor) :=
  IsPumping.get.bind fun _ => (demand_pumps _).bind fun _ => .modify fun _ => .of_eq rfl rfl rfl rfl

theorem watchSignal_pumps (signal : Int) : IsPumping waits (watchSignal signal) :=
  IsPumping.get.bind fun _ => (demand_pumps _).bind fun _ => .modify fun _ => .of_eq rfl rfl rfl rfl

theorem read_pumps (event : Event) (descriptor : Int) : IsPumping waits (World.read event descriptor) := by
  unfold World.read
  split
  · exact (setErrno_pumps _).bind fun _ => .pure _
  · exact .pure _
  · refine IsPumping.bind ?_ fun _ => .pure _
    exact .modify fun _ => .of_eq rfl rfl rfl rfl

/-! ### The parts of a round -/

namespace Pump

variable {p q : Pump}

private theorem onTerminal_pumps (p : Pump) (act : TerminalM α) : IsPumping waits (p.onTerminal act) := by
  unfold onTerminal
  split
  · exact .pure _
  · exact .throw _

private theorem log_pumps (notices : List Notice) : IsPumping waits (log notices) := .forM fun _ => complain_pumps _

private theorem passInput_pumps (event : Event) : IsPumping waits (passInput event) := by
  refine (read_pumps event userInput).bind ?_
  rintro (e | _ | ⟨b, chunk⟩)
  · exact (reportFailure_pumps _ _).bind fun _ => .pure _
  · exact .pure _
  · exact deliver_pumps _ _

private theorem receive_pumps (p : Pump) (chunk : Bytes) : IsPumping waits (p.receive chunk) :=
  IsPumping.get.bind fun _ => (log_pumps _).bind fun _ => (onTerminal_pumps _ _).bind fun _ =>
    (log_pumps _).bind fun _ => .pure _

private theorem takeOutput_pumps (p : Pump) (event : Event) : IsPumping waits (p.takeOutput event) := by
  refine (read_pumps event childTerminal).bind ?_
  rintro (e | _ | ⟨b, chunk⟩)
  · dsimp only
    split
    · exact (reportFailure_pumps _ _).bind fun _ => .pure _
    · exact .pure _
  · exact .pure _
  · exact (receive_pumps p (b :: chunk)).bind fun _ => .pure _

private theorem isEnded_pumps (signals : List Int) : IsPumping waits (isEnded signals) := by
  induction signals with
  | nil => exact .pure _
  | cons signal rest ih =>
    refine (takeSignal_pumps signal).bind fun arrived => ?_
    split
    · exact .pure _
    · exact ih

private theorem handle_pumps (p : Pump) (event : Event) : IsPumping waits (p.handle event) := by
  have output : IsPumping waits (do
      if ← isReadable childTerminal then p.takeOutput event else return (true, p)) := by
    refine (isReadable_pumps _).bind fun readable => ?_
    split
    · exact takeOutput_pumps p event
    · exact .pure _
  refine IsPumping.get.bind fun w => ?_
  dsimp only
  split
  · refine (isReadable_pumps _).bind fun readable => ?_
    split
    · exact (passInput_pumps event).bind fun _ => .pure _
    · exact output
  · exact output

private theorem paint_pumps (r : Presenter) (t : Terminal) (now : UInt64) : IsPumping waits (r.paint t now) := by
  refine (deliver_pumps _ _).bind fun delivered => ?_
  dsimp only
  split
  · exact .pure _
  · exact IsPumping.get.bind fun _ => (IsPumping.throw _).bind fun _ => .pure _

private theorem present_pumps (p : Pump) (force : Bool) : IsPumping waits (p.present force) := by
  unfold present
  cases p.presenter with
  | none => exact .pure p
  | some r =>
    refine IsPumping.bind ?_ fun _ => .pure _
    refine time_pumps.bind fun now => ?_
    dsimp only
    split
    · exact .pure _
    · split
      · exact .pure _
      · exact (paint_pumps r p.terminal now).bind fun _ => .pure _

/-- What is done after a wait that has not failed. -/
private theorem afterWait_pumps (p : Pump) (event : Event) : IsPumping waits (do
    if ← isEnded fatalSignals then return (false, p)
    p.handle event) := by
  refine (isEnded_pumps _).bind fun ended => ?_
  split
  · exact .pure _
  · exact handle_pumps p event

/-- A wait ends at the time of its event, and no time passes until the next one. -/
theorem attend_millis {event : Option Event} {result : Bool × Pump} (h : p.attend event v = .ok result v') :
    v'.millis = (event.bind Event.millis).getD v.millis := by
  obtain ⟨waited, u, hwait, hmillis⟩ : Succeeds (wait p.timeout event) v fun _ u =>
    u.millis = (event.bind Event.millis).getD v.millis := ⟨_, _, rfl, rfl⟩
  have later {act : SessionM (Bool × Pump)} (hact : IsPumping false act) (h : act u = .ok result v') :
      v'.millis = (event.bind Event.millis).getD v.millis := ((hact.pumps_of_ok h).millis_eq rfl).trans hmillis
  rw [attend, bind_of_ok hwait] at h
  rcases waited with e | n
  · exact later ((reportFailure_pumps _ _).bind fun _ => .pure _) h
  · cases event with
    | none => exact later (.pure _) h
    | some event => exact later (afterWait_pumps p event) h

theorem present_millis {force : Bool} (h : p.present force v = .ok q v') : v'.millis = v.millis :=
  ((present_pumps p force).pumps_of_ok h).millis_eq rfl

/-! ### Whole sessions -/

private theorem attend_pumps (p : Pump) (event : Option Event) : IsPumping true (p.attend event) := by
  refine (wait_pumps p.timeout event).bind ?_
  rintro (e | n)
  · exact (reportFailure_pumps _ _).bind fun _ => .pure _
  · cases event with
    | none => exact .pure _
    | some event => exact afterWait_pumps p event

private theorem step_pumps (p : Pump) (event : Option Event) : IsPumping true (p.step event) := by
  rw [step_eq]
  refine (attend_pumps p event).bind ?_
  rintro ⟨goesOn, q⟩
  cases goesOn with
  | true => exact (present_pumps q false).bind fun _ => .pure _
  | false => exact .pure _

private theorem run_pumps (events : List Event) (p : Pump) : IsPumping true (run events p) := by
  induction events generalizing p with
  | nil => exact (step_pumps p none).bind fun _ => .pure _
  | cons event rest ih =>
    refine (step_pumps p (some event)).bind ?_
    rintro ⟨goesOn, q⟩
    cases goesOn with
    | true => exact ih q
    | false => exact .pure q

private theorem openDisplay_pumps : IsPumping waits openDisplay := by
  refine IsPumping.get.bind fun w => ?_
  dsimp only
  split
  · exact .throw _
  · exact (deliver_pumps _ _).discard.bind fun _ => .pure _

private theorem openLog_pumps (p : Pump) (o : Options) : IsPumping waits (p.openLog o) := by
  unfold openLog
  split
  · exact .pure _
  · refine IsPumping.get.bind fun _ => ?_
    split
    · exact (setErrno_pumps _).bind fun _ => .throw _
    · exact .pure _

private theorem start_pumps (o : Options) : IsPumping waits (start o) := by
  unfold start
  rcases openTerminal_cases o with ⟨message, hopen⟩ | ⟨terminal, -, hopen⟩
  · rw [hopen]
    exact IsPumping.throw (.raised message)
  · rw [hopen, pure_bind]
    dsimp only
    refine (onTerminal_pumps _ _).bind fun verbose => (log_pumps _).bind fun _ => ?_
    refine (onTerminal_pumps verbose.2 _).bind fun initial => (log_pumps _).bind fun _ => ?_
    refine (onTerminal_pumps initial.2 _).bind fun debug => (openLog_pumps debug.2 o).bind fun _ => ?_
    split
    · exact openDisplay_pumps.bind fun _ => .pure _
    · exact .pure _

private theorem watch_pumps : IsPumping waits watch := by
  have others : IsPumping waits (do
      watchDescriptor childTerminal
      fatalSignals.forM watchSignal) :=
    (watchDescriptor_pumps _).bind fun _ => .forM fun _ => watchSignal_pumps _
  refine IsPumping.get.bind fun w => ?_
  split
  · exact (watchDescriptor_pumps _).bind fun _ => others
  · exact others

/-- No time passes while a session is set up. -/
theorem setUp_millis {o : Options} (h : setUp o v = .ok p v') : v'.millis = v.millis := by
  have hpumps : IsPumping false (setUp o) := (start_pumps o).bind fun _ => watch_pumps.bind fun _ => .pure _
  exact (hpumps.pumps_of_ok h).millis_eq rfl

private theorem finish_pumps (o : Options) (p : Pump) : IsPumping waits (finish o p) := by
  refine (present_pumps p true).bind fun q => ?_
  have failures : IsPumping waits (do
      if q.terminal.failures ≠ 0 then
        complain (Text.decimal q.terminal.failures ++ ascii " change listener error(s).\n")
      return q) := by
    dsimp only
    split
    · exact (complain_pumps _).bind fun _ => .pure _
    · exact .pure _
  have words : IsPumping waits (do
      if o.verbose then
        log [q.terminal.stateNotice]
        log (← q.onTerminal Terminal.currentScreen).1
      if q.terminal.failures ≠ 0 then
        complain (Text.decimal q.terminal.failures ++ ascii " change listener error(s).\n")
      return q) := by
    dsimp only
    split
    · exact (log_pumps _).bind fun _ => (onTerminal_pumps _ _).bind fun _ => (log_pumps _).bind fun _ => failures
    · exact failures
  dsimp only
  split
  · exact (deliver_pumps _ _).discard.bind fun _ => words
  · exact words

/-- In whichever way a session ends, it has only waited and written. -/
theorem follow_pumps (o : Options) (events : List Event) : IsPumping true (follow o events) :=
  (start_pumps o).bind fun _ => watch_pumps.bind fun _ => (run_pumps events _).bind fun _ => finish_pumps o _

end Pump

end ScreenWatch.Session
