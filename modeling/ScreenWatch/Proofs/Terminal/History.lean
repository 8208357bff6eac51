import ScreenWatch.Proofs.Terminal.Runs

/-!
# Histories

What happens in a scene, moment by moment.  A command that tells no listener is one moment.  A chunk that changes the
text is told to the listeners: each of them has a turn, and what a listener does when it is called happens between its
turn and the next one.

`history` writes down the moments of a run, and passing them one after another leads through all scenes of the run
(`history_recorded`).  A history unfolds one moment at a time, with the dispatches that are under way on a stack
(`Unfolds`); facts about histories are proved by induction on that.
-/

namespace ScreenWatch

inductive Moment
  /-- A command is carried out that tells no listener. -/
  | did (command : Command)
  /-- A chunk is taken that changes the text, and the dispatch of the change begins. -/
  | took (chunk : Bytes)
  /-- It is the turn of a listener to be told of a change; it is called or passed over. -/
  | turn (name : ListenerName) (change : Change) (called : Bool)
  /-- The listener that was called fails. -/
  | failed (failure : Failure)
  /-- All listeners have been told of a change. -/
  | closed (change : Change)

namespace Scene

/-- Those who are registered with the present terminal. -/
def members (s : Scene) : List ListenerName :=
  match s.terminal with
  | some t => t.registry.members
  | none => []

/-- The change that a chunk makes, if it makes one, and the scene in which the listeners are told of it.  There is none
where the characters of the text cannot be counted, as the chunk is not applied then. -/
def announce (s : Scene) (chunk : Bytes) : Option (Change × Scene) :=
  match s.terminal with
  | none => none
  | some t =>
    match t.emulator.take chunk with
    | .error _ _ => none
    | .ok notices e =>
      if ¬ t.emulator.HasTextRoom ∨ t.text = e.screen.text then none
      else some (⟨t.frames + 1, s.now, t.text, e.screen.text, e.screen.cursor, chunk⟩,
        { s with
          terminal := some { t with emulator := e, frames := t.frames + 1, unread := true },
          log := s.log ++ t.openingNotices s.now chunk ++ notices })

/-- The scene after a listener has heard of a change. -/
def told (s : Scene) (name : ListenerName) (change : Change) : Scene :=
  let listener := (s.listeners.lookup name).getD { }
  { s with
    heard := s.heard ++ [(name, change)],
    listeners := assign name (some { listener with calls := listener.calls + 1 }) s.listeners }

/-- What a listener is about to do when it is called. -/
def answerOf (s : Scene) (name : ListenerName) : List Command := ((s.listeners.lookup name).getD { }).answer

/-- Listeners that do nothing. -/
def idle : ListenerName → Change → SceneM Unit := fun _ _ => pure ()

/-- A failure of a listener is noted and counted. -/
def countFailure (failure : Failure) : SceneM Unit := do
  note [.listenerFailed failure.what]
  onTerminal () (Terminal.countFailures 1)

end Scene

open Scene

/-- The scene after a moment. -/
def Moment.pass (s : Scene) : Moment → Scene
  | did command => left (perform idle command) s
  | took chunk => ((s.announce chunk).map Prod.snd).getD s
  | turn name change called => if called then s.told name change else s
  | failed failure => left (countFailure failure) s
  | closed change => left (closing change.before change.after) s

namespace Scene

/-- The scene after moments. -/
def along (s : Scene) (moments : List Moment) : Scene := moments.foldl Moment.pass s

/-- The scene after commands from outside, with room for that many calls within calls; a command that fails leaves
what it has done. -/
def carryOut (room : Nat) (s : Scene) (commands : List Command) : Scene :=
  commands.foldl (fun s command => left (perform (hear room) command) s) s

/-! ### The history of a run -/

section

variable (hear : ListenerName → Change → SceneM Unit) (call : ListenerName → Change → Scene → List Moment)

/-- The turn of a listener, where `call` says what happens in a call. -/
def turnOf (change : Change) (name : ListenerName) (s : Scene) : List Moment :=
  if name ∈ s.members then
    .turn name change true ::
      match hear name change s with
      | .ok _ _ => call name change s
      | .error failure _ => call name change s ++ [.failed failure]
  else [.turn name change false]

def turnsOf (change : Change) : List ListenerName → Scene → List Moment
  | [], _ => []
  | name :: rest, s =>
    turnOf hear call change name s ++ turnsOf change rest (s.along (turnOf hear call change name s))

def momentsOf : Command → Scene → List Moment
  | .write chunk, s =>
    match s.announce chunk with
    | some (change, u) => .took chunk :: (turnsOf hear call change u.members u ++ [.closed change])
    | none => [.did (.write chunk)]
  | command, _ => [.did command]

/-- The commands of a listener are carried out up to the first that fails. -/
def answerMoments : List Command → Scene → List Moment
  | [], _ => []
  | command :: rest, s =>
    match perform hear command s with
    | .ok _ u => momentsOf hear call command s ++ answerMoments rest u
    | .error _ _ => momentsOf hear call command s

end

def callMoments : Nat → ListenerName → Change → Scene → List Moment
  | 0, _, _, _ => []
  | room + 1, name, change, s =>
    answerMoments (hear room) (callMoments room) (s.answerOf name) (s.told name change)

/-- The moments of a run, command by command from outside. -/
def history (room : Nat) : List Command → Scene → List Moment
  | [], _ => []
  | command :: rest, s =>
    momentsOf (hear room) (callMoments room) command s ++
      history room rest (left (perform (hear room) command) s)

/-! ### Dispatches under way -/

/-- A change of which listeners are being told, and those whose turn has not come yet. -/
structure Dispatch where
  change : Change
  waiting : List ListenerName

/-- What a moment does to the dispatches under way, the innermost first. -/
inductive Step : List Dispatch → Scene → Moment → List Dispatch → Prop
  | did {ds : List Dispatch} {s : Scene} {command : Command}
      (h : ∀ chunk, command = .write chunk → s.announce chunk = none) : Step ds s (.did command) ds
  | took {ds : List Dispatch} {s u : Scene} {chunk : Bytes} {change : Change}
      (h : s.announce chunk = some (change, u)) : Step ds s (.took chunk) (⟨change, u.members⟩ :: ds)
  | turn {ds : List Dispatch} {s : Scene} {change : Change} {name : ListenerName} {waiting : List ListenerName} :
      Step (⟨change, name :: waiting⟩ :: ds) s (.turn name change (decide (name ∈ s.members)))
        (⟨change, waiting⟩ :: ds)
  | failed {ds : List Dispatch} {s : Scene} {failure : Failure} : Step ds s (.failed failure) ds
  | closed {ds : List Dispatch} {s : Scene} {change : Change} :
      Step (⟨change, []⟩ :: ds) s (.closed change) ds

inductive Unfolds : List Dispatch → Scene → List Moment → List Dispatch → Prop
  | nil {ds : List Dispatch} {s : Scene} : Unfolds ds s [] ds
  | cons {ds ds' ds'' : List Dispatch} {s : Scene} {m : Moment} {rest : List Moment} (h : Step ds s m ds')
      (hrest : Unfolds ds' (m.pass s) rest ds'') : Unfolds ds s (m :: rest) ds''

variable {s t : Scene} {ds ds' ds'' : List Dispatch} {l l' : List Moment}

theorem along_cons (s : Scene) (m : Moment) (l : List Moment) : s.along (m :: l) = (m.pass s).along l := rfl

theorem along_append (s : Scene) (l l' : List Moment) : s.along (l ++ l') = (s.along l).along l' :=
  List.foldl_append

namespace Unfolds

theorem append (h : Unfolds ds s l ds') (h' : Unfolds ds' (s.along l) l' ds'') : Unfolds ds s (l ++ l') ds'' := by
  induction h with
  | nil => exact h'
  | cons hstep _ ih => exact .cons hstep (ih h')

theorem split (h : Unfolds ds s (l ++ l') ds'') :
    ∃ ds', Unfolds ds s l ds' ∧ Unfolds ds' (s.along l) l' ds'' := by
  induction l generalizing ds s with
  | nil => exact ⟨ds, .nil, h⟩
  | cons m l ih =>
    cases h with
    | cons hstep hrest =>
      obtain ⟨ds', hl, hl'⟩ := ih hrest
      exact ⟨ds', .cons hstep hl, hl'⟩

/-- The last moment is a step. -/
theorem last {m : Moment} (h : Unfolds ds s (l ++ [m]) ds'') :
    ∃ ds', Unfolds ds s l ds' ∧ Step ds' (s.along l) m ds'' := by
  obtain ⟨ds', hl, hm⟩ := h.split
  cases hm with
  | cons hstep hnil =>
    cases hnil
    exact ⟨ds', hl, hstep⟩

/-- What unfolds within some dispatches unfolds within more of them. -/
theorem within (h : Unfolds ds s l ds') (outer : List Dispatch) : Unfolds (ds ++ outer) s l (ds' ++ outer) := by
  induction h with
  | nil => exact .nil
  | cons hstep _ ih =>
    refine .cons ?_ ih
    cases hstep with
    | did h => exact .did h
    | took h => exact .took h
    | turn => exact .turn
    | failed => exact .failed
    | closed => exact .closed

end Unfolds

/-! ### Histories unfold -/

/-- The moments unfold from `s`, whatever dispatches are under way, and lead to `t`. -/
structure Recorded (s : Scene) (l : List Moment) (t : Scene) : Prop where
  unfolds : Unfolds [] s l []
  along_eq : s.along l = t

theorem Recorded.append {u : Scene} (h : Recorded s l t) (h' : Recorded t l' u) : Recorded s (l ++ l') u := by
  obtain ⟨hl, rfl⟩ := h
  obtain ⟨hl', rfl⟩ := h'
  exact ⟨hl.append hl', along_append ..⟩

section

variable {hear : ListenerName → Change → SceneM Unit} {call : ListenerName → Change → Scene → List Moment}

private theorem contains_eq_mem {t : Terminal} (ht : s.terminal = some t) (name : ListenerName) :
    t.registry.contains name = decide (name ∈ s.members) := by
  unfold Registry.contains members
  rw [ht]
  exact List.contains_eq_mem name _

private theorem isRegistered_eq (s : Scene) (name : ListenerName) :
    onTerminal false (return (← get).registry.contains name) s = .ok (decide (name ∈ s.members)) s := by
  cases ht : s.terminal with
  | none =>
    have hmem : decide (name ∈ s.members) = false := by simp [members, ht]
    obtain ⟨now, terminal, generation, listeners, handles, heard, log⟩ := s
    cases ht
    rw [hmem]
    rfl
  | some t =>
    rw [← contains_eq_mem ht]
    obtain ⟨now, terminal, generation, listeners, handles, heard, log⟩ := s
    cases ht
    rfl

theorem countFailure_eq (failure : Failure) (s : Scene) :
    countFailure failure s = .ok () (left (countFailure failure) s) := by
  obtain ⟨now, terminal, generation, listeners, handles, heard, log⟩ := s
  cases terminal <;> rfl

theorem closing_eq (before after : Bytes) (s : Scene) :
    closing before after s = .ok () (left (closing before after) s) := by
  obtain ⟨now, terminal, generation, listeners, handles, heard, log⟩ := s
  cases terminal <;> rfl

theorem tell_eq (hear : ListenerName → Change → SceneM Unit) (change : Change) (name : ListenerName)
    (s : Scene) : tell hear change name s =
      if name ∈ s.members then tryCatch (hear name change) countFailure s else .ok () s := by
  unfold tell
  rw [bind_of_ok (isRegistered_eq s name)]
  by_cases h : name ∈ s.members
  · rw [if_pos h, if_pos (decide_eq_true h)]
    rfl
  · rw [if_neg h, if_neg (by simpa using h)]
    rfl

/-- What happens in calls is recorded by `call`. -/
def CallsRecorded (hear : ListenerName → Change → SceneM Unit)
    (call : ListenerName → Change → Scene → List Moment) : Prop :=
  ∀ name change s, Recorded (s.told name change) (call name change s) (left (hear name change) s)

private theorem turnOf_unfolds (hcall : CallsRecorded hear call) (change : Change) (name : ListenerName)
    (waiting : List ListenerName) (s : Scene) :
    Unfolds [⟨change, name :: waiting⟩] s (turnOf hear call change name s) [⟨change, waiting⟩] ∧
      tell hear change name s = .ok () (s.along (turnOf hear call change name s)) := by
  have hturn : Step [⟨change, name :: waiting⟩] s (.turn name change (decide (name ∈ s.members)))
      [⟨change, waiting⟩] := .turn
  obtain ⟨hunfolds, halong⟩ := hcall name change s
  rw [tell_eq]
  unfold turnOf
  by_cases h : name ∈ s.members
  · rw [if_pos h, if_pos h]
    rw [decide_eq_true h] at hturn
    cases hhear : hear name change s with
    | ok _ t =>
      rw [left_of_ok hhear] at halong
      refine ⟨.cons hturn (hunfolds.within _), ?_⟩
      rw [tryCatch_of_ok hhear, ← halong]
      rfl
    | error failure t =>
      rw [left_of_error hhear] at halong
      refine ⟨.cons hturn ((hunfolds.within _).append (.cons .failed .nil)), ?_⟩
      rw [tryCatch_of_error hhear, countFailure_eq, ← halong, along_cons, along_append]
      rfl
  · rw [if_neg h, if_neg h]
    rw [decide_eq_false h] at hturn
    exact ⟨.cons hturn .nil, rfl⟩

private theorem turnsOf_unfolds (hcall : CallsRecorded hear call) (change : Change) (names : List ListenerName)
    (s : Scene) :
    Unfolds [⟨change, names⟩] s (turnsOf hear call change names s) [⟨change, []⟩] ∧
      names.forM (tell hear change) s = .ok () (s.along (turnsOf hear call change names s)) := by
  induction names generalizing s with
  | nil => exact ⟨.nil, rfl⟩
  | cons name rest ih =>
    obtain ⟨hturn, htell⟩ := turnOf_unfolds hcall change name rest s
    obtain ⟨hrest, hforM⟩ := ih (s.along (turnOf hear call change name s))
    refine ⟨hturn.append hrest, ?_⟩
    show (tell hear change name >>= fun _ => rest.forM (tell hear change)) s = _
    rw [bind_of_ok htell, hforM, ← along_append]
    rfl

theorem members_eq (s : Scene) : onTerminal [] (return (← get).registry.members) s = .ok s.members s := by
  obtain ⟨now, terminal, generation, listeners, handles, heard, log⟩ := s
  cases terminal <;> rfl

/-- A chunk that changes the text. -/
theorem write_of_announce (hear : ListenerName → Change → SceneM Unit) {chunk : Bytes} {change : Change}
    (h : s.announce chunk = some (change, t)) :
    write hear chunk s = (do notify hear change; closing change.before change.after) t := by
  unfold announce at h
  split at h
  · cases h
  · rename_i t' ht
    split at h
    · cases h
    · rename_i notices e he
      split at h
      · cases h
      · rename_i hne
        obtain ⟨hroom, hne⟩ := not_or.1 hne
        obtain ⟨rfl, rfl⟩ := Prod.mk.inj (Option.some.inj h)
        rw [write_eq hear ht (Decidable.not_not.1 hroom) he]
        exact if_neg hne

/-- A chunk that the emulator does not take to its end. -/
theorem write_of_fault (hear : ListenerName → Change → SceneM Unit) {t : Terminal} (ht : s.terminal = some t)
    (hroom : t.emulator.HasTextRoom) {chunk : Bytes} {fault : Fault} {e : Emulator}
    (h : t.emulator.take chunk = .error fault e) :
    write hear chunk s = .error (.fault fault)
      { s with terminal := some { t with emulator := e }, log := s.log ++ t.openingNotices s.now chunk } := by
  obtain ⟨now, terminal, generation, listeners, handles, heard, log⟩ := s
  cases ht
  have htake : onTerminal [] (Terminal.take chunk)
      ⟨now, some t, generation, listeners, handles, heard, log ++ t.openingNotices now chunk⟩ =
      .error (.fault fault) ⟨now, some { t with emulator := e }, generation, listeners, handles, heard,
        log ++ t.openingNotices now chunk⟩ := by
    have h : Terminal.take chunk t = .error fault { t with emulator := e } := Terminal.onEmulator_of_error h
    simp only [onTerminal, h]
  unfold write
  rw [get_bind]
  dsimp only
  refine (bind_of_ok (rfl : onTerminal [] _ _ = .ok (t.openingNotices now chunk) _)).trans ?_
  refine (bind_of_ok (rfl : note _ _ = .ok () _)).trans ?_
  refine (bind_of_ok (onTerminal_of_ok rfl (Terminal.readText_of_room hroom))).trans ?_
  exact bind_of_error htake

/-- A chunk that is taken to its end and announces no change leaves the text alone. -/
theorem text_eq_of_no_announce {chunk : Bytes} (h : s.announce chunk = none) {t : Terminal} (ht : s.terminal = some t)
    (hroom : t.emulator.HasTextRoom) {notices : List Notice} {e : Emulator}
    (he : t.emulator.take chunk = .ok notices e) : t.text = e.screen.text := by
  refine Decidable.of_not_not fun hne => ?_
  unfold announce at h
  rw [ht] at h
  dsimp only at h
  rw [he] at h
  dsimp only at h
  rw [if_neg (not_or.2 ⟨not_not_intro hroom, hne⟩)] at h
  cases h

/-- A chunk that does not change the text is written in the same way whoever listens, and leaves traces in the emulator
and in the log alone. -/
theorem write_of_no_announce {chunk : Bytes} (h : s.announce chunk = none) :
    ∃ r : EStateM.Result Failure Scene Unit, (∀ hear, write hear chunk s = r) ∧
      ∃ log, ∀ hear, left (write hear chunk) s =
        { s with
          terminal := s.terminal.map fun t => { t with emulator := t.emulator.written chunk },
          log := log } := by
  obtain ⟨now, terminal, generation, listeners, handles, heard, log⟩ := s
  cases terminal with
  | none =>
    have hnone (hear : ListenerName → Change → SceneM Unit) :
        write hear chunk ⟨now, none, generation, listeners, handles, heard, log⟩ =
          .ok () ⟨now, none, generation, listeners, handles, heard, log ++ [] ++ [] ++ []⟩ := rfl
    exact ⟨_, hnone, _, fun hear => left_of_ok (hnone hear)⟩
  | some t =>
    -- The chunk is refused, breaks off in the emulator or leaves the text as it is; none of this is told.
    by_cases hroom : t.emulator.HasTextRoom
    · have hwritten : t.emulator.written chunk = left (Emulator.take chunk) t.emulator := if_pos hroom
      cases he : t.emulator.take chunk with
      | error fault e =>
        have herror (hear : ListenerName → Change → SceneM Unit) :=
          write_of_fault hear (s := ⟨now, some t, generation, listeners, handles, heard, log⟩) rfl hroom he
        refine ⟨_, herror, log ++ t.openingNotices now chunk, fun hear => ?_⟩
        rw [left_of_error (herror hear), Option.map_some, hwritten, left_of_error he]
      | ok notices e =>
        have hsame := text_eq_of_no_announce h rfl hroom he
        have hwrite (hear : ListenerName → Change → SceneM Unit) :=
          (write_eq hear (s := ⟨now, some t, generation, listeners, handles, heard, log⟩) rfl hroom he).trans
            (if_pos hsame)
        refine ⟨_, hwrite, log ++ t.openingNotices now chunk ++ notices ++
          { t with emulator := e }.closingNotices t.text e.screen.text, fun hear => ?_⟩
        rw [left_of_ok ((hwrite hear).trans (closing_eq ..)), Option.map_some, hwritten, left_of_ok he]
        rfl
    · have hwritten : t.emulator.written chunk = t.emulator := if_neg hroom
      have herror (hear : ListenerName → Change → SceneM Unit) :=
        write_of_no_room hear (s := ⟨now, some t, generation, listeners, handles, heard, log⟩) rfl hroom chunk
      refine ⟨_, herror, log ++ t.openingNotices now chunk, fun hear => ?_⟩
      rw [left_of_error (herror hear), Option.map_some, hwritten]

/-- A command that announces no change is carried out in the same way whoever listens. -/
theorem perform_of_no_announce (hear hear' : ListenerName → Change → SceneM Unit) {command : Command}
    (h : ∀ chunk, command = .write chunk → s.announce chunk = none) :
    perform hear command s = perform hear' command s := by
  cases command with
  | write chunk =>
    show (write hear chunk >>= fun _ => pure Reply.done) s = (write hear' chunk >>= fun _ => pure Reply.done) s
    obtain ⟨r, hr, -⟩ := write_of_no_announce (h chunk rfl)
    cases r with
    | ok a t => rw [bind_of_ok (hr hear), bind_of_ok (hr hear')]
    | error e t => rw [bind_of_error (hr hear), bind_of_error (hr hear')]
  | _ => rfl

private theorem did_recorded {command : Command} (h : ∀ chunk, command = .write chunk → s.announce chunk = none) :
    Recorded s [.did command] (left (perform hear command) s) := by
  refine ⟨.cons (.did h) .nil, ?_⟩
  show left (perform idle command) s = _
  unfold left
  rw [perform_of_no_announce idle hear h]

theorem momentsOf_recorded (hcall : CallsRecorded hear call) (command : Command) (s : Scene) :
    Recorded s (momentsOf hear call command s) (left (perform hear command) s) := by
  cases command with
  | write chunk =>
    cases ha : s.announce chunk with
    | none =>
      simp only [momentsOf, ha]
      refine did_recorded ?_
      rintro _ ⟨rfl⟩
      exact ha
    | some announced =>
      obtain ⟨change, u⟩ := announced
      simp only [momentsOf, ha]
      obtain ⟨hturns, hforM⟩ := turnsOf_unfolds hcall change u.members u
      -- The whole telling lies between the chunk and the end of its dispatch.
      have htook : Moment.pass s (.took chunk) = u := by
        show ((s.announce chunk).map Prod.snd).getD s = u
        rw [ha]
        rfl
      have hnotify : notify hear change u = .ok () (u.along (turnsOf hear call change u.members u)) := by
        unfold notify
        rw [bind_of_ok (members_eq u)]
        exact hforM
      have hperform : perform hear (.write chunk) s =
          .ok .done (Moment.pass (u.along (turnsOf hear call change u.members u)) (.closed change)) := by
        show (write hear chunk >>= fun _ => pure Reply.done) s = _
        have hwrite := write_of_announce hear ha
        rw [bind_of_ok hnotify, closing_eq] at hwrite
        rw [bind_of_ok hwrite]
        rfl
      refine ⟨.cons (.took ha) ?_, ?_⟩
      · rw [htook]
        exact hturns.append (.cons .closed .nil)
      · rw [along_cons, htook, along_append, left_of_ok hperform]
        rfl
  | _ => exact did_recorded (by rintro _ ⟨⟩)

theorem answerMoments_recorded (hcall : CallsRecorded hear call) (commands : List Command) (s : Scene) :
    Recorded s (answerMoments hear call commands s)
      (left (commands.forM fun command => discard (perform hear command)) s) := by
  induction commands generalizing s with
  | nil => exact ⟨.nil, rfl⟩
  | cons command rest ih =>
    have hfirst := momentsOf_recorded hcall command s
    unfold answerMoments
    cases hp : perform hear command s with
    | ok a u =>
      rw [left_of_ok hp] at hfirst
      have hdiscard : discard (perform hear command) s = .ok () u := bind_of_ok hp
      have hrest : left ((command :: rest).forM fun command => discard (perform hear command)) s =
          left (rest.forM fun command => discard (perform hear command)) u := left_bind_of_ok hdiscard
      rw [hrest]
      exact hfirst.append (ih u)
    | error e u =>
      rw [left_of_error hp] at hfirst
      have hdiscard : discard (perform hear command) s = .error e u := bind_of_error hp
      have hstop : left ((command :: rest).forM fun command => discard (perform hear command)) s = u :=
        left_of_error (bind_of_error hdiscard)
      rw [hstop]
      exact hfirst

end

/-! ### Runs in which calls go another way -/

/-- The call of a listener, where `hear` says what happens in the calls that its answer brings about. -/
def callWith (hear : ListenerName → Change → SceneM Unit) (name : ListenerName) (change : Change) : SceneM Unit := do
  let s ← get
  set (s.told name change)
  (s.answerOf name).forM fun command => discard (perform hear command)

/-- The moments of a call. -/
def callMomentsWith (hear : ListenerName → Change → SceneM Unit) (call : ListenerName → Change → Scene → List Moment)
    (name : ListenerName) (change : Change) (s : Scene) : List Moment :=
  answerMoments hear call (s.answerOf name) (s.told name change)

/-- The scene after commands from outside, where `hear` says what happens in calls. -/
def carryOutWith (hear : ListenerName → Change → SceneM Unit) (s : Scene) (commands : List Command) : Scene :=
  commands.foldl (fun s command => left (perform hear command) s) s

/-- The moments of that run. -/
def historyWith (hear : ListenerName → Change → SceneM Unit) (call : ListenerName → Change → Scene → List Moment) :
    List Command → Scene → List Moment
  | [], _ => []
  | command :: rest, s => momentsOf hear call command s ++ historyWith hear call rest (left (perform hear command) s)

theorem hear_succ (room : Nat) : Scene.hear (room + 1) = callWith (Scene.hear room) := rfl

theorem callMoments_succ (room : Nat) : callMoments (room + 1) = callMomentsWith (Scene.hear room) (callMoments room) :=
  rfl

theorem carryOut_eq (room : Nat) : carryOut room = carryOutWith (Scene.hear room) := rfl

theorem history_eq (room : Nat) (commands : List Command) (s : Scene) :
    history room commands s = historyWith (Scene.hear room) (callMoments room) commands s := by
  induction commands generalizing s with
  | nil => rfl
  | cons command rest ih => exact congrArg (momentsOf _ _ command s ++ ·) (ih _)

section

variable {hear : ListenerName → Change → SceneM Unit} {call : ListenerName → Change → Scene → List Moment}

theorem callWith_recorded (hcall : CallsRecorded hear call) :
    CallsRecorded (callWith hear) (callMomentsWith hear call) :=
  fun name change s => answerMoments_recorded hcall (s.answerOf name) (s.told name change)

theorem historyWith_recorded (hcall : CallsRecorded hear call) (commands : List Command) (s : Scene) :
    Recorded s (historyWith hear call commands s) (carryOutWith hear s commands) := by
  induction commands generalizing s with
  | nil => exact ⟨.nil, rfl⟩
  | cons command rest ih => exact (momentsOf_recorded hcall command s).append (ih _)

end

/-- The induction is on the room for calls within calls. -/
theorem callMoments_recorded (room : Nat) : CallsRecorded (Scene.hear room) (callMoments room) := by
  induction room with
  | zero => exact fun name change s => ⟨.nil, rfl⟩
  | succ room ih =>
    rw [hear_succ, callMoments_succ]
    exact callWith_recorded ih

/-- A history unfolds from the scene in which the run begins, and leads to the one in which it ends. -/
theorem history_recorded (room : Nat) (commands : List Command) (s : Scene) :
    Recorded s (history room commands s) (carryOut room s commands) := by
  rw [history_eq, carryOut_eq]
  exact historyWith_recorded (callMoments_recorded room) commands s

end Scene

end ScreenWatch
