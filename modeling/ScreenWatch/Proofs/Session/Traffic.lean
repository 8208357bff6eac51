import ScreenWatch.Proofs.Host.Delivery
import ScreenWatch.Proofs.Host.Selector
import ScreenWatch.Proofs.Outcome
import ScreenWatch.Session.World

/-!
# Traffic

The bytes that have come from the user and the child of a session, and those that have gone to them
(`World.traffic`).  Only reading and writing add to them, each at one place; everything else is quiet
(`World.Quiet`).
-/

namespace ScreenWatch.Session

open Host

structure Traffic where
  fromUser : Bytes := []
  fromChild : Bytes := []
  toUser : Bytes := []
  toChild : Bytes := []
  deriving DecidableEq

namespace Traffic

/-- The traffic after a chunk has come from a descriptor. -/
def hear (t : Traffic) (descriptor : Int) (chunk : Bytes) : Traffic :=
  { t with
    fromUser := t.fromUser ++ if descriptor = userInput then chunk else []
    fromChild := t.fromChild ++ if descriptor = childTerminal then chunk else [] }

/-- The traffic after bytes have gone to a target. -/
def send (t : Traffic) (target : Target) (data : Bytes) : Traffic :=
  { t with
    toUser := t.toUser ++ if target = .user then data else []
    toChild := t.toChild ++ if target = .child then data else [] }

@[simp]
theorem hear_nil (t : Traffic) (descriptor : Int) : t.hear descriptor [] = t := by
  simp [hear]

@[simp]
theorem send_nil (t : Traffic) (target : Target) : t.send target [] = t := by
  simp [send]

end Traffic

/-- What a call has written to a target. -/
def Call.writtenTo (target : Target) : Call → Bytes
  | .write t data => if t = target then data else []
  | _ => []

namespace World

variable {v v' v'' : World}

def heardFrom (v : World) (descriptor : Int) : Bytes :=
  v.received.toList.flatMap fun r => if r.1 = descriptor then r.2 else []

def saidTo (v : World) (target : Target) : Bytes := v.calls.toList.flatMap (Call.writtenTo target)

def traffic (v : World) : Traffic where
  fromUser := v.heardFrom userInput
  fromChild := v.heardFrom childTerminal
  toUser := v.saidTo .user
  toChild := v.saidTo .child

/-- The frozen time is the present one. -/
def IsFrozen (v : World) : Prop := (ClockAnswers.ofMillis v.millis).read = .ok v.clock.frozen

/-- `v'` comes after `v` in a session: it is on the same machine, watches what was watched, and keeps the time frozen.
-/
structure Continues (v v' : World) : Prop where
  machine_eq : v'.machine = v.machine
  watched_subset : v.selector.watched ⊆ v'.selector.watched
  isFrozen : v.IsFrozen → v'.IsFrozen

/-- Nothing was read or written between `v` and `v'`. -/
structure Quiet (v v' : World) : Prop extends v.Continues v' where
  writes_eq : v'.writes = v.writes
  traffic_eq : v'.traffic = v.traffic

theorem Continues.refl (v : World) : v.Continues v := ⟨rfl, List.Subset.refl _, id⟩

theorem Continues.trans (h : v.Continues v') (h' : v'.Continues v'') : v.Continues v'' where
  machine_eq := h'.machine_eq.trans h.machine_eq
  watched_subset := List.Subset.trans h.watched_subset h'.watched_subset
  isFrozen hv := h'.isFrozen (h.isFrozen hv)

theorem Quiet.refl (v : World) : v.Quiet v := ⟨.refl v, rfl, rfl⟩

theorem Quiet.trans (h : v.Quiet v') (h' : v'.Quiet v'') : v.Quiet v'' :=
  ⟨h.toContinues.trans h'.toContinues, h'.writes_eq.trans h.writes_eq, h'.traffic_eq.trans h.traffic_eq⟩

/-! ### Everyday actions -/

theorem traffic_push_call (v : World) (call : Call) (h : ∀ target, call.writtenTo target = []) :
    traffic { v with calls := v.calls.push call } = v.traffic := by
  simp [traffic, saidTo, heardFrom, h]

theorem complain_quiet (text : Bytes) : Succeeds (complain text) v fun _ => v.Quiet :=
  .modify ⟨⟨rfl, List.Subset.refl _, id⟩, rfl, rfl⟩

theorem setErrno_quiet (e : Errno) : Succeeds (setErrno e) v fun _ => v.Quiet :=
  .modify ⟨⟨rfl, List.Subset.refl _, id⟩, rfl, rfl⟩

theorem reportFailure_quiet (subject : String) (e : Errno) : Succeeds (reportFailure subject e) v fun _ => v.Quiet :=
  (setErrno_quiet e).bind fun _ _ h => (complain_quiet _).mono fun _ _ h' => h.trans h'

/-! ### Waiting and the time -/

theorem wait_watched (s : Selector) (event : Option Event) : (s.wait event).2.watched = s.watched :=
  Selector.settle_watched s _

/-- The time is frozen anew when the waiting has ended. -/
theorem wait_quiet (timeout : Int) (event : Option Event) :
    Succeeds (wait timeout event) v fun _ v' => v.Quiet v' ∧ v'.IsFrozen := by
  refine ⟨_, _, rfl, ⟨⟨rfl, ?_, fun _ => rfl⟩, rfl, ?_⟩, rfl⟩
  · show v.selector.watched ⊆ (v.selector.wait event).2.watched
    rw [wait_watched]
    exact List.Subset.refl _
  · exact traffic_push_call v (.wait _ _) fun _ => rfl

/-- A frozen time is the one that is given; asking for it again changes nothing. -/
theorem time_quiet (hv : v.IsFrozen) : Succeeds time v fun now v' => now = v.clock.frozen ∧ v.Quiet v' := by
  have htime : v.clock.time (.ofMillis v.millis) = (v.clock.frozen, v.clock, []) := by
    unfold Clock.time
    by_cases h : v.clock.frozen = Clock.unset
    · rw [if_pos h]
      unfold Clock.freeze
      rw [hv]
    · rw [if_neg h]
  unfold time
  refine .get_bind ?_
  rw [htime]
  refine (Succeeds.modify (R := fun _ => v.Quiet) (.refl v)).bind ?_
  intro _ u hu
  exact (complain_quiet []).bind fun _ _ hu' => .pure ⟨rfl, hu.trans hu'⟩

/-! ### The selector -/

theorem isReadable_quiet {descriptor : Int} (h : descriptor ∈ v.selector.watched) :
    Succeeds (isReadable descriptor) v fun _ => v.Quiet := by
  unfold isReadable Selector.isReadable?
  refine .get_bind ?_
  rw [if_pos h]
  exact .pure (.refl v)

theorem takeSignal_quiet {signal : Int} (h : Selector.isSignal signal = true) :
    Succeeds (takeSignal signal) v fun _ => v.Quiet := by
  unfold takeSignal Selector.takeSignal
  refine .get_bind ?_
  rw [if_pos h]
  exact ⟨_, _, rfl, ⟨rfl, List.Subset.refl _, id⟩, rfl, rfl⟩

theorem watchDescriptor_quiet {descriptor : Int} (h : 0 ≤ descriptor ∧ descriptor < Selector.maxDescriptors) :
    Succeeds (watchDescriptor descriptor) v fun _ v' => v.Quiet v' ∧ descriptor ∈ v'.selector.watched := by
  unfold watchDescriptor Selector.addDescriptor
  refine .get_bind ?_
  rw [if_pos h]
  refine ⟨_, _, rfl, ⟨⟨rfl, ?_, id⟩, rfl, rfl⟩, ?_⟩
  · dsimp only
    split
    · exact List.Subset.refl _
    · exact List.subset_append_left _ _
  · dsimp only
    split
    · assumption
    · simp

theorem watchSignal_quiet {signal : Int}
    (h : Selector.isSignal signal = true ∧ signal ∉ Selector.unhandleable) :
    Succeeds (watchSignal signal) v fun _ => v.Quiet := by
  unfold watchSignal Selector.addSignal
  refine .get_bind ?_
  rw [if_pos h]
  exact ⟨_, _, rfl, ⟨rfl, List.Subset.refl _, id⟩, rfl, rfl⟩

/-! ### Reading and writing -/

/-- What is read is heard; at the end of the input, and when reading fails, nothing is. -/
theorem read_hears (event : Event) (descriptor : Int) : Succeeds (read event descriptor) v fun result v' =>
    v.Continues v' ∧ v'.writes = v.writes ∧
      v'.traffic = v.traffic.hear descriptor (result.toOption.getD []) := by
  have heard {u : World} (h : v.Quiet u) :
      v.Continues u ∧ u.writes = v.writes ∧ u.traffic = v.traffic.hear descriptor [] :=
    ⟨h.toContinues, h.writes_eq, by rw [h.traffic_eq, Traffic.hear_nil]⟩
  unfold read
  split
  · exact (setErrno_quiet _).bind fun _ _ h => .pure (heard h)
  · exact .pure (heard (.refl v))
  · refine ⟨_, _, rfl, ⟨rfl, List.Subset.refl _, id⟩, rfl, ?_⟩
    simp [traffic, heardFrom, saidTo, Traffic.hear, Except.toOption]

private theorem saidTo_writes (v : World) (target t : Target) (pieces : List Bytes) :
    saidTo { v with calls := v.calls ++ (pieces.map (Call.write target)).toArray } t =
      v.saidTo t ++ if target = t then pieces.flatten else [] := by
  have hpieces : (pieces.map (Call.write target)).flatMap (Call.writtenTo t) =
      if target = t then pieces.flatten else [] := by
    rw [List.flatMap_map]
    split
    · next h => simp [Call.writtenTo, h]
    · next h => simp [Call.writtenTo, h]
  simp only [saidTo, Array.toList_append, List.flatMap_append, hpieces]

/-- A delivery says what it takes, and gives whether that is everything. -/
theorem deliver_sends (target : Target) (data : Bytes) : Succeeds (deliver target data) v fun isDone v' =>
    isDone = (Delivery.deliver data v.writes).failure.isNone ∧ v.Continues v' ∧
      v'.traffic = v.traffic.send target (Delivery.deliver data v.writes).taken := by
  unfold deliver
  refine .get_bind ?_
  -- What the world is after the writes, before a failure is reported.
  refine Succeeds.bind (Q := fun _ u => v.Continues u ∧
    u.traffic = v.traffic.send target (Delivery.deliver data v.writes).taken) (.modify ⟨?_, ?_⟩) ?_
  · exact ⟨rfl, List.Subset.refl _, id⟩
  · show Traffic.mk _ _ _ _ = Traffic.mk _ _ _ _
    exact congr (congrArg _ (saidTo_writes v target .user _)) (saidTo_writes v target .child _)
  rintro _ u ⟨hu, htraffic⟩
  cases hfailure : (Delivery.deliver data v.writes).failure with
  | none => exact .pure ⟨rfl, hu, htraffic⟩
  | some failure =>
    refine (complain_quiet _).bind fun _ _ hquiet => .pure ⟨rfl, hu.trans hquiet.toContinues, ?_⟩
    exact hquiet.traffic_eq.trans htraffic

end World

end ScreenWatch.Session
