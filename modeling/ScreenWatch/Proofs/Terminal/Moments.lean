import ScreenWatch.Proofs.Terminal.History

/-!
# What a moment leaves alone

Each moment of a history is about one thing.  Those who are registered, the handles and the number of frames change
only through commands about just these (`sameRecords_did`), frames are counted only when a chunk is taken that changes
the text (`announce_spec`, `frames_did`), and apart from that only new sizes and resets change the text (`text_did`).
-/

namespace ScreenWatch

namespace Command

/-- The same terminal goes on. -/
def KeepsTerminal : Command → Prop
  | .create _ _ | .destroy => False
  | _ => True

instance : DecidablePred KeepsTerminal := fun command => by
  cases command <;> first | exact .isTrue trivial | exact .isFalse id

/-- The same terminal goes on, and the text is not changed but by writing. -/
def KeepsText : Command → Prop
  | .create _ _ | .destroy | .resize _ _ | .reset => False
  | _ => True

instance : DecidablePred KeepsText := fun command => by
  cases command <;> first | exact .isTrue trivial | exact .isFalse id

theorem KeepsText.keepsTerminal {command : Command} (h : command.KeepsText) : command.KeepsTerminal := by
  cases command <;> first | exact h | trivial

/-- The same terminal goes on, and its traces are not turned off. -/
def KeepsVerbose : Command → Prop
  | .create _ _ | .destroy | .setVerbose false => False
  | _ => True

instance : DecidablePred KeepsVerbose := fun command => by
  cases command
  case setVerbose on => cases on <;> first | exact .isTrue trivial | exact .isFalse id
  all_goals first | exact .isTrue trivial | exact .isFalse id

theorem KeepsVerbose.keepsTerminal {command : Command} (h : command.KeepsVerbose) : command.KeepsTerminal := by
  cases command <;> first | exact h | trivial

/-- The flag for unread changes is neither asked for nor cleared. -/
def KeepsUnread : Command → Prop
  | .takeUnread | .markRead => False
  | _ => True

/-- The command is not about terminals, registrations or handles. -/
def KeepsBooks : Command → Prop
  | .create _ _ | .destroy | .subscribe _ _ | .unlisten _ | .unsubscribe _ | .copyHandle _ _ => False
  | _ => True

end Command

/-- The number of frames, the flag for unread changes and the hash of the screen that was read last. -/
def Terminal.counts (t : Terminal) : Nat × Bool × UInt32 := (t.frames, t.unread, t.readHash)

namespace Moment

/-- The moment goes on with the same terminal. -/
def KeepsTerminal : Moment → Prop
  | did command => command.KeepsTerminal
  | _ => True

/-- The moment goes on with the same terminal and changes its text by writing alone. -/
def KeepsText : Moment → Prop
  | did command => command.KeepsText
  | _ => True

/-- The moment goes on with the same terminal and does not turn its traces off. -/
def KeepsVerbose : Moment → Prop
  | did command => command.KeepsVerbose
  | _ => True

theorem KeepsVerbose.keepsTerminal {m : Moment} (h : m.KeepsVerbose) : m.KeepsTerminal := by
  cases m with
  | did command => exact Command.KeepsVerbose.keepsTerminal h
  | took | turn | failed | closed => trivial

instance : DecidablePred KeepsTerminal
  | did command => inferInstanceAs (Decidable command.KeepsTerminal)
  | took _ | turn _ _ _ | failed _ | closed _ => .isTrue trivial

instance : DecidablePred KeepsText
  | did command => inferInstanceAs (Decidable command.KeepsText)
  | took _ | turn _ _ _ | failed _ | closed _ => .isTrue trivial

instance : DecidablePred KeepsVerbose
  | did command => inferInstanceAs (Decidable command.KeepsVerbose)
  | took _ | turn _ _ _ | failed _ | closed _ => .isTrue trivial

end Moment

namespace Scene

variable {s t : Scene}

/-- The same registrations and handles. -/
structure SameBooks (s t : Scene) : Prop where
  generation_eq : t.generation = s.generation
  handles_eq : t.handles = s.handles
  registry_eq : t.terminal.map Terminal.registry = s.terminal.map Terminal.registry

/-- Besides, nobody has been called and no frame has been counted. -/
structure SameRecords (s t : Scene) : Prop extends SameBooks s t where
  heard_eq : t.heard = s.heard
  frames_eq : t.terminal.map Terminal.frames = s.terminal.map Terminal.frames

/-- `name` is registered at the start and after each of the moments. -/
def IsMember (name : ListenerName) : Scene → List Moment → Prop
  | s, [] => name ∈ s.members
  | s, m :: rest => name ∈ s.members ∧ IsMember name (m.pass s) rest

instance IsMember.instDecidable (name : ListenerName) : (s : Scene) → (l : List Moment) → Decidable (IsMember name s l)
  | s, [] => inferInstanceAs (Decidable (name ∈ s.members))
  | s, m :: rest => @instDecidableAnd _ _ _ (instDecidable name (m.pass s) rest)

theorem members_eq_getD (s : Scene) :
    s.members = ((s.terminal.map Terminal.registry).map Registry.members).getD [] := by
  obtain ⟨now, terminal, generation, listeners, handles, heard, log⟩ := s
  cases terminal <;> rfl

theorem SameBooks.members_eq (h : SameBooks s t) : t.members = s.members := by
  rw [members_eq_getD, members_eq_getD, h.registry_eq]

/-! ### Chunks that change the text -/

/-- A change is announced when the emulator takes a chunk and the text is another one afterwards; it has the number
of the frame that is counted with it. -/
theorem announce_spec {chunk : Bytes} {change : Change} (h : s.announce chunk = some (change, t)) :
    ∃ terminal notices e, s.terminal = some terminal ∧ terminal.emulator.HasTextRoom ∧
      terminal.emulator.take chunk = .ok notices e ∧ terminal.text ≠ e.screen.text ∧
      change = ⟨terminal.frames + 1, s.now, terminal.text, e.screen.text, e.screen.cursor, chunk⟩ ∧
      t = { s with
        terminal := some { terminal with emulator := e, frames := terminal.frames + 1, unread := true },
        log := s.log ++ terminal.openingNotices s.now chunk ++ notices } := by
  unfold announce at h
  split at h
  · cases h
  · rename_i terminal ht
    split at h
    · cases h
    · rename_i notices e he
      split at h
      · cases h
      · rename_i hne
        obtain ⟨hroom, hne⟩ := not_or.1 hne
        obtain ⟨hchange, hscene⟩ := Prod.mk.inj (Option.some.inj h)
        exact ⟨terminal, notices, e, ht, Decidable.not_not.1 hroom, he, hne, hchange.symm, hscene.symm⟩

theorem pass_took {chunk : Bytes} {change : Change} (h : s.announce chunk = some (change, t)) :
    Moment.pass s (.took chunk) = t := by
  show ((s.announce chunk).map Prod.snd).getD s = t
  rw [h]
  rfl

/-! ### Commands -/

/-- The scene in which the registry of the terminal, if there is one, has been edited. -/
def editing (s : Scene) (edit : Registry ListenerName → Registry ListenerName) : Scene :=
  { s with terminal := s.terminal.map fun t => { t with registry := edit t.registry } }

def adding (s : Scene) (name : ListenerName) : Scene := s.editing fun registry => registry.add name

def removing (s : Scene) (name : ListenerName) : Scene := s.editing fun registry => registry.remove name

/-- Something that happens in the emulator, seen from the scene. -/
private theorem left_onEmulator (act : EmulatorM Unit) (s : Scene) :
    left (onTerminal () (Terminal.onEmulator act)) s =
      { s with terminal := s.terminal.map fun t => { t with emulator := left act t.emulator } } := by
  obtain ⟨now, terminal, generation, listeners, handles, heard, log⟩ := s
  cases terminal with
  | none => rfl
  | some t =>
    cases h : act t.emulator with
    | ok a e =>
      rw [Option.map_some, left_of_ok h]
      refine left_of_ok (a := a) ?_
      simp only [onTerminal, Terminal.onEmulator, h]
    | error fault e =>
      rw [Option.map_some, left_of_error h]
      refine left_of_error (e := .fault fault) ?_
      simp only [onTerminal, Terminal.onEmulator, h]

theorem pass_resize (width height : Int) : Moment.pass s (.did (.resize width height)) =
    { s with terminal := s.terminal.map fun t =>
      { t with emulator := left (Emulator.onScreen (Screen.resize width height)) t.emulator } } :=
  (left_bind_pure _ _ s).trans (left_onEmulator (Emulator.onScreen (Screen.resize width height)) s)

theorem pass_reset : Moment.pass s (.did .reset) =
    { s with terminal := s.terminal.map fun t =>
      { t with emulator := left (Emulator.onScreen Screen.reset) t.emulator } } :=
  (left_bind_pure _ _ s).trans (left_onEmulator (Emulator.onScreen Screen.reset) s)

private theorem pass_write {chunk : Bytes} (h : s.announce chunk = none) :
    ∃ log, Moment.pass s (.did (.write chunk)) =
      { s with
        terminal := s.terminal.map fun t => { t with emulator := t.emulator.written chunk },
        log := log } := by
  obtain ⟨-, -, log, hlog⟩ := write_of_no_announce h
  exact ⟨log, (left_bind_pure _ _ s).trans (hlog idle)⟩

/-- Something is read in the terminal, if it can be, and noted. -/
private theorem left_noteRead {act : TerminalM (List Notice)} (h : ∀ t, Leaves act t (· = t)) (s : Scene) :
    ∃ log, left (do note (← onTerminal [] act); return Reply.done) s = { s with log := log } := by
  obtain ⟨now, terminal, generation, listeners, handles, heard, log⟩ := s
  cases terminal with
  | none => exact ⟨_, rfl⟩
  | some t =>
    have hsame : left act t = t := h t
    cases hact : act t with
    | ok notices u =>
      rw [left_of_ok hact] at hsame
      subst hsame
      exact ⟨_, left_bind_of_ok (onTerminal_of_ok rfl hact)⟩
    | error fault u =>
      rw [left_of_error hact] at hsame
      subst hsame
      exact ⟨_, left_of_error (bind_of_error (onTerminal_of_error rfl hact))⟩

theorem pass_setVerbose (on : Bool) : ∃ log, Moment.pass s (.did (.setVerbose on)) =
    { s with terminal := s.terminal.map fun t => { t with verbose := on }, log := log } := by
  obtain ⟨now, terminal, generation, listeners, handles, heard, log⟩ := s
  cases terminal with
  | none => exact ⟨_, rfl⟩
  | some t =>
    have heading : onTerminal [] (Terminal.setVerbose on) ⟨now, some t, generation, listeners, handles, heard, log⟩ =
        .ok _ ⟨now, some { t with verbose := on }, generation, listeners, handles, heard, log⟩ := rfl
    obtain ⟨log', hlog⟩ := left_noteRead Terminal.initialScreen_leaves
      ⟨now, some { t with verbose := on }, generation, listeners, handles, heard, log ++ _⟩
    exact ⟨log', (left_bind_of_ok heading).trans hlog⟩

theorem pass_logState : ∃ log, Moment.pass s (.did .logState) = { s with log := log } := by
  obtain ⟨now, terminal, generation, listeners, handles, heard, log⟩ := s
  cases terminal with
  | none => exact ⟨_, rfl⟩
  | some t =>
    exact left_noteRead Terminal.currentScreen_leaves
      ⟨now, some t, generation, listeners, handles, heard, log ++ [t.stateNotice]⟩

theorem pass_subscribe (name : ListenerName) (handle : Option HandleName) :
    Moment.pass s (.did (.subscribe (some name) handle)) =
      { s.adding name with
        handles := match handle with
          | some handle => assign handle (some ⟨s.generation, name⟩) s.handles
          | none => s.handles } := by
  obtain ⟨now, terminal, generation, listeners, handles, heard, log⟩ := s
  cases terminal <;> cases handle <;> rfl

theorem pass_unlisten (name : ListenerName) : Moment.pass s (.did (.unlisten (some name))) = s.removing name := by
  obtain ⟨now, terminal, generation, listeners, handles, heard, log⟩ := s
  cases terminal <;> rfl

theorem unsubscribe_void {handle : HandleName} (h : s.handles.lookup handle = none) :
    unsubscribe handle s = .ok () s := by
  unfold unsubscribe
  rw [get_bind, h]
  rfl

theorem unsubscribe_eq {handle : HandleName} {subscription : Subscription}
    (h : s.handles.lookup handle = some subscription) : unsubscribe handle s =
      .ok () { (if s.generation = subscription.generation then s.removing subscription.listener else s) with
        handles := assign handle none s.handles } := by
  unfold unsubscribe
  rw [get_bind, h]
  dsimp only
  split
  · obtain ⟨now, terminal, generation, listeners, handles, heard, log⟩ := s
    cases terminal <;> rfl
  · rfl

theorem pass_unsubscribe_void {handle : HandleName} (h : s.handles.lookup handle = none) :
    Moment.pass s (.did (.unsubscribe handle)) = s :=
  (left_bind_pure _ _ s).trans (left_of_ok (unsubscribe_void h))

theorem pass_unsubscribe {handle : HandleName} {subscription : Subscription}
    (h : s.handles.lookup handle = some subscription) : Moment.pass s (.did (.unsubscribe handle)) =
      { (if s.generation = subscription.generation then s.removing subscription.listener else s) with
        handles := assign handle none s.handles } :=
  (left_bind_pure _ _ s).trans (left_of_ok (unsubscribe_eq h))

theorem pass_create (width height : Int) : Moment.pass s (.did (.create width height)) =
    match Terminal.create width height with
    | .ok terminal => { s with terminal := some terminal, generation := s.generation + 1 }
    | .error _ => { s with terminal := none } := by
  show left (modify (fun s : Scene => { s with terminal := none }) >>= fun _ => _) s = _
  rw [left_bind_of_ok (rfl : (modify (fun s : Scene => { s with terminal := none }) : SceneM Unit) s = .ok () _)]
  cases Terminal.create width height <;> rfl

theorem pass_takeUnread : Moment.pass s (.did .takeUnread) =
    { s with terminal := s.terminal.map fun t => { t with unread := false } } := by
  obtain ⟨now, terminal, generation, listeners, handles, heard, log⟩ := s
  cases terminal <;> rfl

theorem pass_markRead : Moment.pass s (.did .markRead) =
    { s with terminal := s.terminal.map fun t => { t with unread := false, readHash := t.screen.hash } } := by
  obtain ⟨now, terminal, generation, listeners, handles, heard, log⟩ := s
  cases terminal <;> rfl

/-! ### Failures, turns and the end of a dispatch -/

theorem pass_failed (failure : Failure) : Moment.pass s (.failed failure) =
    { s with
      terminal := s.terminal.map fun t => { t with failureCount := t.failureCount + 1 },
      log := s.log ++ [.listenerFailed failure.what] } := by
  obtain ⟨now, terminal, generation, listeners, handles, heard, log⟩ := s
  cases terminal <;> rfl

theorem pass_closed (change : Change) : ∃ log, Moment.pass s (.closed change) = { s with log := log } := by
  obtain ⟨now, terminal, generation, listeners, handles, heard, log⟩ := s
  cases terminal <;> exact ⟨_, rfl⟩

theorem terminal_turn (name : ListenerName) (change : Change) (called : Bool) :
    (Moment.pass s (.turn name change called)).terminal = s.terminal := by
  cases called <;> rfl

/-! ### What is kept -/

/-- A command that is not about terminals, registrations or handles. -/
theorem sameRecords_did {command : Command} (hbooks : command.KeepsBooks)
    (hquiet : ∀ chunk, command = .write chunk → s.announce chunk = none) :
    SameRecords s (Moment.pass s (.did command)) := by
  -- What does not touch the emulator is computed; there may or may not be a terminal.
  have computed {act : SceneM Reply} (h : ∀ now terminal generation listeners handles heard log,
      SameRecords ⟨now, terminal, generation, listeners, handles, heard, log⟩
        (left act ⟨now, terminal, generation, listeners, handles, heard, log⟩)) : SameRecords s (left act s) := h ..
  cases command with
  | write chunk =>
    obtain ⟨log, hpass⟩ := pass_write (hquiet chunk rfl)
    rw [hpass]
    exact ⟨⟨rfl, rfl, Option.map_map ..⟩, rfl, Option.map_map ..⟩
  | resize width height =>
    rw [pass_resize]
    exact ⟨⟨rfl, rfl, Option.map_map ..⟩, rfl, Option.map_map ..⟩
  | reset =>
    rw [pass_reset]
    exact ⟨⟨rfl, rfl, Option.map_map ..⟩, rfl, Option.map_map ..⟩
  | setVerbose on =>
    obtain ⟨log, hpass⟩ := pass_setVerbose (s := s) on
    rw [hpass]
    exact ⟨⟨rfl, rfl, Option.map_map ..⟩, rfl, Option.map_map ..⟩
  | logState =>
    obtain ⟨log, hpass⟩ := pass_logState (s := s)
    rw [hpass]
    exact ⟨⟨rfl, rfl, rfl⟩, rfl, rfl⟩
  | listener name callable script always =>
    cases callable <;> exact ⟨⟨rfl, rfl, rfl⟩, rfl, rfl⟩
  | takeUnread | markRead | markedText | setDebug =>
    refine computed fun _ terminal _ _ _ _ _ => ?_
    cases terminal <;> exact ⟨⟨rfl, rfl, rfl⟩, rfl, rfl⟩
  | setTime | logScreen | isActive | fail => exact ⟨⟨rfl, rfl, rfl⟩, rfl, rfl⟩
  | _ => exact hbooks.elim

theorem sameRecords_failed (failure : Failure) : SameRecords s (Moment.pass s (.failed failure)) := by
  rw [pass_failed]
  exact ⟨⟨rfl, rfl, Option.map_map ..⟩, rfl, Option.map_map ..⟩

theorem sameRecords_closed (change : Change) : SameRecords s (Moment.pass s (.closed change)) := by
  obtain ⟨log, hpass⟩ := pass_closed (s := s) change
  rw [hpass]
  exact ⟨⟨rfl, rfl, rfl⟩, rfl, rfl⟩

theorem sameBooks_took {chunk : Bytes} {change : Change} (h : s.announce chunk = some (change, t)) :
    SameBooks s (Moment.pass s (.took chunk)) := by
  rw [pass_took h]
  obtain ⟨terminal, -, e, ht, -, -, -, -, rfl⟩ := announce_spec h
  exact ⟨rfl, rfl, by rw [ht]; rfl⟩

theorem sameBooks_turn (name : ListenerName) (change : Change) (called : Bool) :
    SameBooks s (Moment.pass s (.turn name change called)) := by
  cases called <;> exact ⟨rfl, rfl, rfl⟩

/-- A command that announces no change calls nobody. -/
theorem heard_did {command : Command} (hquiet : ∀ chunk, command = .write chunk → s.announce chunk = none) :
    (Moment.pass s (.did command)).heard = s.heard := by
  cases command with
  | create width height =>
    rw [pass_create]
    split <;> rfl
  | subscribe name handle =>
    cases name with
    | none => rfl
    | some name =>
      rw [pass_subscribe]
      rfl
  | unlisten name =>
    cases name with
    | none => rfl
    | some name =>
      rw [pass_unlisten]
      rfl
  | unsubscribe handle =>
    cases h : s.handles.lookup handle with
    | none => rw [pass_unsubscribe_void h]
    | some subscription =>
      rw [pass_unsubscribe h]
      dsimp only
      split <;> rfl
  | destroy | copyHandle => rfl
  | _ => exact SameRecords.heard_eq (sameRecords_did (by trivial) hquiet)

/-- What does not depend on the registry changes only through commands that are not about registrations. -/
private theorem map_terminal_did {α : Type} {f : Terminal → α} (hf : ∀ t registry, f { t with registry } = f t)
    {command : Command} (hkeeps : command.KeepsTerminal)
    (hbooks : command.KeepsBooks → (Moment.pass s (.did command)).terminal.map f = s.terminal.map f) :
    (Moment.pass s (.did command)).terminal.map f = s.terminal.map f := by
  have edited (edit : Registry ListenerName → Registry ListenerName) :
      (s.editing edit).terminal.map f = s.terminal.map f := by
    unfold editing
    rw [Option.map_map]
    exact congrFun (congrArg Option.map (funext fun t => hf t _)) _
  cases command with
  | create | destroy => exact hkeeps.elim
  | subscribe name handle =>
    cases name with
    | none => rfl
    | some name =>
      rw [pass_subscribe]
      exact edited fun registry => registry.add name
  | unlisten name =>
    cases name with
    | none => rfl
    | some name =>
      rw [pass_unlisten]
      exact edited fun registry => registry.remove name
  | unsubscribe handle =>
    cases h : s.handles.lookup handle with
    | none => rw [pass_unsubscribe_void h]
    | some subscription =>
      rw [pass_unsubscribe h]
      dsimp only
      split
      · exact edited fun registry => registry.remove subscription.listener
      · rfl
  | copyHandle => rfl
  | _ => exact hbooks trivial

/-- What depends neither on the emulator nor on registrations changes, as long as no change is announced, only when
the flag for unread changes is asked for or cleared. -/
private theorem map_counts_did {α : Type} {f : Terminal → α}
    (hf : ∀ t emulator registry verbose, f { t with emulator, registry, verbose } = f t) {command : Command}
    (hkeeps : command.KeepsTerminal)
    (hunread : command.KeepsUnread ∨ ∀ t unread readHash, f { t with unread, readHash } = f t)
    (hquiet : ∀ chunk, command = .write chunk → s.announce chunk = none) :
    (Moment.pass s (.did command)).terminal.map f = s.terminal.map f := by
  -- Each of the commands edits the terminal in place, if there is one.
  have edited {g : Terminal → Terminal} (hg : ∀ t, f (g t) = f t) (terminal : Option Terminal) :
      (terminal.map g).map f = terminal.map f := by
    rw [Option.map_map]
    exact congrFun (congrArg Option.map (funext hg)) terminal
  refine map_terminal_did (fun t registry => hf t t.emulator registry t.verbose) hkeeps fun hbooks => ?_
  cases command with
  | write chunk =>
    obtain ⟨log, hpass⟩ := pass_write (hquiet chunk rfl)
    rw [hpass]
    exact edited (fun t => hf t _ t.registry t.verbose) s.terminal
  | resize width height =>
    rw [pass_resize]
    exact edited (fun t => hf t _ t.registry t.verbose) s.terminal
  | reset =>
    rw [pass_reset]
    exact edited (fun t => hf t _ t.registry t.verbose) s.terminal
  | takeUnread =>
    rw [pass_takeUnread]
    exact edited (fun t => hunread.resolve_left id t false t.readHash) s.terminal
  | markRead =>
    rw [pass_markRead]
    exact edited (fun t => hunread.resolve_left id t false t.screen.hash) s.terminal
  | setVerbose on =>
    obtain ⟨log, hpass⟩ := pass_setVerbose (s := s) on
    rw [hpass]
    exact edited (fun t => hf t t.emulator t.registry on) s.terminal
  | setDebug on =>
    have hpass : (Moment.pass s (.did (.setDebug on))).terminal =
        s.terminal.map fun t => { t with emulator.debug := on } := by
      obtain ⟨now, terminal, generation, listeners, handles, heard, log⟩ := s
      cases terminal <;> rfl
    rw [hpass]
    exact edited (fun t => hf t _ t.registry t.verbose) s.terminal
  | listener name callable script always => cases callable <;> rfl
  | markedText =>
    obtain ⟨now, terminal, generation, listeners, handles, heard, log⟩ := s
    cases terminal <;> rfl
  | logState =>
    obtain ⟨log, hpass⟩ := pass_logState (s := s)
    rw [hpass]
  | setTime | logScreen | isActive | fail => rfl
  | _ => exact hbooks.elim

/-- A command that announces no change counts no frame. -/
theorem frames_did {command : Command} (hkeeps : command.KeepsTerminal)
    (hquiet : ∀ chunk, command = .write chunk → s.announce chunk = none) :
    (Moment.pass s (.did command)).terminal.map Terminal.frames = s.terminal.map Terminal.frames :=
  map_counts_did (fun _ _ _ _ => rfl) hkeeps (.inr fun _ _ _ => rfl) hquiet

/-- Such a command counts no failure. -/
theorem failureCount_did {command : Command} (hkeeps : command.KeepsTerminal)
    (hquiet : ∀ chunk, command = .write chunk → s.announce chunk = none) :
    (Moment.pass s (.did command)).terminal.map Terminal.failureCount = s.terminal.map Terminal.failureCount :=
  map_counts_did (fun _ _ _ _ => rfl) hkeeps (.inr fun _ _ _ => rfl) hquiet

/-- Such a command leaves the flag for unread changes and the hash alone unless it is about them. -/
theorem counts_did {command : Command} (hkeeps : command.KeepsTerminal) (hunread : command.KeepsUnread)
    (hquiet : ∀ chunk, command = .write chunk → s.announce chunk = none) :
    (Moment.pass s (.did command)).terminal.map Terminal.counts = s.terminal.map Terminal.counts :=
  map_counts_did (fun _ _ _ _ => rfl) hkeeps (.inl hunread) hquiet

/-- A chunk that an emulator of a run takes without a change of the text. -/
theorem text_of_no_announce (hs : s.Reached) {chunk : Bytes} (h : s.announce chunk = none) {t : Terminal}
    (ht : s.terminal = some t) : (t.emulator.written chunk).screen.text = t.text := by
  unfold Emulator.written
  split
  · next hroom =>
    obtain ⟨notices, e, he, -⟩ := Emulator.take_sound (hs.emulator ht).sound chunk
    rw [left_of_ok he]
    exact (text_eq_of_no_announce h ht hroom he).symm
  · rfl

/-- Chunks that change the text are announced, and only new sizes and resets change it otherwise. -/
theorem text_did (hs : s.Reached) {command : Command} (hkeeps : command.KeepsText)
    (hquiet : ∀ chunk, command = .write chunk → s.announce chunk = none) :
    (Moment.pass s (.did command)).terminal.map Terminal.text = s.terminal.map Terminal.text := by
  have computed {act : SceneM Reply} (h : ∀ now terminal generation listeners handles heard log,
      (left act ⟨now, terminal, generation, listeners, handles, heard, log⟩).terminal.map Terminal.text =
        terminal.map Terminal.text) : (left act s).terminal.map Terminal.text = s.terminal.map Terminal.text := h ..
  refine map_terminal_did (fun _ _ => rfl) hkeeps.keepsTerminal fun hbooks => ?_
  cases command with
  | resize | reset => exact hkeeps.elim
  | write chunk =>
    have hnone := hquiet chunk rfl
    obtain ⟨log, hpass⟩ := pass_write hnone
    rw [hpass]
    cases ht : s.terminal with
    | none => rfl
    | some t => exact congrArg some (text_of_no_announce hs hnone ht)
  | listener name callable script always => cases callable <;> rfl
  | setVerbose on =>
    obtain ⟨log, hpass⟩ := pass_setVerbose (s := s) on
    rw [hpass]
    exact Option.map_map ..
  | logState =>
    obtain ⟨log, hpass⟩ := pass_logState (s := s)
    rw [hpass]
  | takeUnread | markRead | markedText | setDebug =>
    refine computed fun _ terminal _ _ _ _ _ => ?_
    cases terminal <;> rfl
  | setTime | logScreen | isActive | fail => rfl
  | _ => exact hbooks.elim

/-- Traces that are on stay on unless they are turned off. -/
theorem verbose_did {command : Command} (hkeeps : command.KeepsVerbose)
    (hquiet : ∀ chunk, command = .write chunk → s.announce chunk = none)
    (hon : s.terminal.map Terminal.verbose = some true) :
    (Moment.pass s (.did command)).terminal.map Terminal.verbose = some true := by
  have edited {edit : Terminal → Terminal} (hedit : ∀ t, (edit t).verbose = t.verbose) :
      (s.terminal.map edit).map Terminal.verbose = some true := by
    rw [Option.map_map]
    exact (congrFun (congrArg Option.map (funext hedit)) s.terminal).trans hon
  have computed {act : SceneM Reply} (h : ∀ now terminal generation listeners handles heard log,
      (left act ⟨now, some terminal, generation, listeners, handles, heard, log⟩).terminal.map Terminal.verbose =
        some terminal.verbose) : (left act s).terminal.map Terminal.verbose = some true := by
    obtain ⟨now, terminal, generation, listeners, handles, heard, log⟩ := s
    obtain ⟨t, rfl, ht⟩ := Option.map_eq_some_iff.1 hon
    exact (h ..).trans (congrArg some ht)
  -- What changes the books of listeners alone is covered by the lemma for all of these commands.
  by_cases hbooks : command.KeepsBooks
  · cases command with
    | write chunk =>
      obtain ⟨log, hpass⟩ := pass_write (hquiet chunk rfl)
      rw [hpass]
      exact edited fun _ => rfl
    | resize width height =>
      rw [pass_resize]
      exact edited fun _ => rfl
    | reset =>
      rw [pass_reset]
      exact edited fun _ => rfl
    | setVerbose on =>
      cases on with
      | false => exact hkeeps.elim
      | true =>
        obtain ⟨log, hpass⟩ := pass_setVerbose (s := s) true
        obtain ⟨t, ht, -⟩ := Option.map_eq_some_iff.1 hon
        rw [hpass, ht]
        rfl
    | logState =>
      obtain ⟨log, hpass⟩ := pass_logState (s := s)
      rw [hpass]
      exact hon
    | listener name callable script always => cases callable <;> exact hon
    | takeUnread | markRead | markedText | setDebug => exact computed fun _ _ _ _ _ _ _ => rfl
    | setTime | logScreen | isActive | fail => exact hon
    | _ => exact hbooks.elim
  · exact (map_terminal_did (fun _ _ => rfl) hkeeps.keepsTerminal fun h => (hbooks h).elim).trans hon

/-! ### What holds along a run -/

/-- Who is called at a moment, and of what it is told. -/
def callIn? : Moment → Option (ListenerName × Change)
  | .turn name change true => some (name, change)
  | _ => none

theorem nodup_editing (hs : s.members.Nodup) {edit : Registry ListenerName → Registry ListenerName}
    (hedit : ∀ registry : Registry ListenerName, registry.members.Nodup → (edit registry).members.Nodup) :
    (s.editing edit).members.Nodup := by
  unfold editing members at *
  cases ht : s.terminal with
  | none => exact .nil
  | some t =>
    rw [ht] at hs
    exact hedit _ hs

private theorem nodup_did (hs : s.members.Nodup) {command : Command}
    (hquiet : ∀ chunk, command = .write chunk → s.announce chunk = none) :
    (Moment.pass s (.did command)).members.Nodup := by
  cases command with
  | create width height =>
    rw [pass_create]
    cases hcreate : Terminal.create width height with
    | error fault => exact .nil
    | ok t =>
      obtain ⟨e, -, rfl⟩ := Terminal.create_eq hcreate
      exact .nil
  | destroy => exact .nil
  | subscribe name handle =>
    cases name with
    | none => exact hs
    | some name =>
      rw [pass_subscribe]
      exact nodup_editing hs fun _ h => Registry.nodup_add h name
  | unlisten name =>
    cases name with
    | none => exact hs
    | some name =>
      rw [pass_unlisten]
      exact nodup_editing hs fun _ h => Registry.nodup_remove h name
  | unsubscribe handle =>
    cases h : s.handles.lookup handle with
    | none => rwa [pass_unsubscribe_void h]
    | some subscription =>
      rw [pass_unsubscribe h]
      show (if _ then _ else s).members.Nodup
      split
      · exact nodup_editing hs fun _ h => Registry.nodup_remove h _
      · exact hs
  | copyHandle => exact hs
  | _ => exact (SameBooks.members_eq (SameRecords.toSameBooks (sameRecords_did (by trivial) hquiet))) ▸ hs

namespace Step

variable {ds ds' : List Dispatch} {m : Moment}

theorem reached (h : Step ds s m ds') (hs : s.Reached) : (m.pass s).Reached := by
  cases h with
  | did =>
    have hidle : ∀ name change (s : Scene), s.Reached → Leaves (idle name change) s Reached := fun _ _ _ h => h
    exact perform_reached hidle hs _
  | took h =>
    rw [pass_took h]
    obtain ⟨terminal, notices, e, ht, -, he, -, -, rfl⟩ := announce_spec h
    have hnext : e.Reached := left_of_ok he ▸ (hs.emulator ht).take _
    exact reached_of_some rfl hnext
  | turn => exact Reached.congr (s := s) (congrArg (Option.map _) (terminal_turn ..).symm) hs
  | failed =>
    obtain ⟨now, terminal, generation, listeners, handles, heard, log⟩ := s
    cases terminal <;> exact hs
  | closed =>
    obtain ⟨log, hpass⟩ := pass_closed (s := s) _
    rw [hpass]
    exact Reached.congr (s := s) rfl hs

theorem heard_eq (h : Step ds s m ds') : (m.pass s).heard = s.heard ++ (callIn? m).toList := by
  cases h with
  | did hquiet => exact (heard_did hquiet).trans (List.append_nil _).symm
  | took ha =>
    rw [pass_took ha]
    obtain ⟨_, _, _, -, -, -, -, -, rfl⟩ := announce_spec ha
    exact (List.append_nil _).symm
  | turn =>
    unfold Moment.pass
    dsimp only
    split
    · next hcalled =>
      rw [hcalled]
      rfl
    · next hcalled =>
      rw [Bool.not_eq_true] at hcalled
      rw [hcalled]
      exact (List.append_nil _).symm
  | failed => exact (sameRecords_failed _).heard_eq.trans (List.append_nil _).symm
  | closed => exact (sameRecords_closed _).heard_eq.trans (List.append_nil _).symm

/-- Nobody is registered twice. -/
theorem nodup (h : Step ds s m ds') (hs : s.members.Nodup) : (m.pass s).members.Nodup := by
  cases h with
  | did hquiet => exact nodup_did hs hquiet
  | took h => rwa [(sameBooks_took h).members_eq]
  | turn => rwa [(sameBooks_turn _ _ _).members_eq]
  | failed => rwa [(sameRecords_failed _).members_eq]
  | closed => rwa [(sameRecords_closed _).members_eq]

end Step

namespace Unfolds

variable {ds ds' : List Dispatch} {l : List Moment}

theorem reached (h : Unfolds ds s l ds') (hs : s.Reached) : (s.along l).Reached := by
  induction h with
  | nil => exact hs
  | cons hstep _ ih => exact ih (hstep.reached hs)

theorem nodup (h : Unfolds ds s l ds') (hs : s.members.Nodup) : (s.along l).members.Nodup := by
  induction h with
  | nil => exact hs
  | cons hstep _ ih => exact ih (hstep.nodup hs)

end Unfolds

theorem reached_carryOut (room : Nat) (commands : List Command) : (carryOut room { } commands).Reached := by
  obtain ⟨hunfolds, halong⟩ := history_recorded room commands { }
  exact halong ▸ hunfolds.reached (reached_of_none rfl)

theorem nodup_carryOut (room : Nat) (commands : List Command) : (carryOut room { } commands).members.Nodup := by
  obtain ⟨hunfolds, halong⟩ := history_recorded room commands { }
  exact halong ▸ hunfolds.nodup .nil

end Scene

end ScreenWatch
