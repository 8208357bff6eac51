import ScreenWatch.Proofs.Emulator.Sizes
import ScreenWatch.Terminal.Scene

/-!
# Runs

A scene is run by commands from outside (`Scene.after`); its listeners answer with commands of their own.  Whatever
they do, the emulator of the terminal is one that comes out of a run of its own (`reached_after`).  A chunk is written
without a failure if the characters of the text can be counted (`write_succeeds`), and not at all if they cannot
(`write_of_no_room`).
-/

namespace ScreenWatch

theorem Terminal.create_eq {width height : Int} {t : Terminal} (h : Terminal.create width height = .ok t) :
    ∃ e, Emulator.create width height = .ok e ∧ t = { emulator := e } := by
  unfold Terminal.create at h
  cases he : Emulator.create width height with
  | error fault =>
    rw [he] at h
    cases h
  | ok e =>
    rw [he] at h
    exact ⟨e, rfl, (Except.ok.inj h).symm⟩

theorem Terminal.create_of_hasCellRoom {width height : Nat} (hw : 0 < width) (hh : 0 < height)
    (hroom : Screen.HasCellRoom width height) :
    create width height = .ok { emulator := { screen := .empty width height } } := by
  unfold create
  rw [Emulator.create_of_hasCellRoom hw hh hroom]
  rfl

theorem Terminal.create_of_no_cellRoom {width height : Nat} (hw : 0 < width) (hh : 0 < height)
    (hno : ¬ Screen.HasCellRoom width height) : create width height = .error .tooManyCells := by
  unfold create
  rw [Emulator.create_of_no_cellRoom hw hh hno]
  rfl

section Editing

variable {ε α : Type} {act : EStateM ε Emulator α} {t : Terminal} {e : Emulator}

theorem Terminal.onEmulator_of_ok {a : α} (h : act t.emulator = .ok a e) :
    onEmulator act t = .ok a { t with emulator := e } := by
  unfold onEmulator
  dsimp only
  rw [h]

theorem Terminal.onEmulator_of_error {fault : ε} (h : act t.emulator = .error fault e) :
    onEmulator act t = .error fault { t with emulator := e } := by
  unfold onEmulator
  dsimp only
  rw [h]

end Editing

theorem Terminal.take_eq {t : Terminal} {chunk : Bytes} {notices : List Notice} {e : Emulator}
    (h : t.emulator.take chunk = .ok notices e) : Terminal.take chunk t = .ok notices { t with emulator := e } :=
  onEmulator_of_ok h

theorem Terminal.readText_of_room {t : Terminal} (h : t.emulator.HasTextRoom) :
    Terminal.readText t = .ok t.text t :=
  onEmulator_of_ok (Emulator.onScreen_of_ok (Screen.readText_of_hasTextRoom h))

theorem Terminal.readText_of_no_room {t : Terminal} (h : ¬ t.emulator.HasTextRoom) :
    Terminal.readText t = .error .textTooLong t :=
  onEmulator_of_error (Emulator.onScreen_of_error (Screen.readText_of_not_hasTextRoom h))

theorem Terminal.readText_leaves (t : Terminal) : Leaves Terminal.readText t (· = t) := by
  by_cases h : t.emulator.HasTextRoom
  · exact .of_ok (readText_of_room h) rfl
  · exact .of_error (readText_of_no_room h) rfl

theorem Terminal.initialScreen_leaves (t : Terminal) : Leaves Terminal.initialScreen t (· = t) := by
  unfold Terminal.initialScreen
  refine .get_bind ?_
  split
  · exact (Terminal.readText_leaves t).bind fun _ _ h => .pure h
  · exact .pure rfl

theorem Terminal.currentScreen_leaves (t : Terminal) : Leaves Terminal.currentScreen t (· = t) :=
  (Terminal.readText_leaves t).bind fun _ _ h => .pure h

namespace Scene

/-- The scene after a command from outside; one that fails leaves what it has done. -/
def next (s : Scene) (command : Command) : Scene := left (run command) s

def after (commands : List Command) : Scene := commands.foldl next { }

def emulator? (s : Scene) : Option Emulator := s.terminal.map Terminal.emulator

/-- The emulator of the terminal, if there is one, comes out of a run. -/
def Reached (s : Scene) : Prop := ∀ e, s.emulator? = some e → e.Reached

variable {s : Scene}

/-! ### Actions of the terminal -/

theorem onTerminal_of_none {α : Type} {absent : α} {act : TerminalM α} (h : s.terminal = none) :
    onTerminal absent act s = .ok absent s := by
  obtain ⟨now, terminal, generation, listeners, handles, heard, log⟩ := s
  cases h
  rfl

theorem onTerminal_of_ok {α : Type} {absent a : α} {act : TerminalM α} {t u : Terminal} (h : s.terminal = some t)
    (hact : act t = .ok a u) : onTerminal absent act s = .ok a { s with terminal := some u } := by
  obtain ⟨now, terminal, generation, listeners, handles, heard, log⟩ := s
  cases h
  simp only [onTerminal, hact]

theorem onTerminal_of_error {α : Type} {absent : α} {act : TerminalM α} {t u : Terminal} {fault : Fault}
    (h : s.terminal = some t) (hact : act t = .error fault u) :
    onTerminal absent act s = .error (.fault fault) { s with terminal := some u } := by
  obtain ⟨now, terminal, generation, listeners, handles, heard, log⟩ := s
  cases h
  simp only [onTerminal, hact]

theorem onTerminal_succeeds {α : Type} {absent : α} {act : TerminalM α} {Q : α → Scene → Prop}
    (hnone : s.terminal = none → Q absent s)
    (hsome : ∀ t, s.terminal = some t → Succeeds act t fun a t' => Q a { s with terminal := some t' }) :
    Succeeds (onTerminal absent act) s Q := by
  obtain ⟨now, terminal, generation, listeners, handles, heard, log⟩ := s
  cases terminal with
  | none => exact ⟨absent, _, rfl, hnone rfl⟩
  | some t =>
    obtain ⟨a, t', ha, hq⟩ := hsome t rfl
    refine ⟨a, _, ?_, hq⟩
    simp only [onTerminal, ha]

theorem onTerminal_leaves {α : Type} {absent : α} {act : TerminalM α} {P : Scene → Prop}
    (hnone : s.terminal = none → P s)
    (hsome : ∀ t, s.terminal = some t → Leaves act t fun t' => P { s with terminal := some t' }) :
    Leaves (onTerminal absent act) s P := by
  obtain ⟨now, terminal, generation, listeners, handles, heard, log⟩ := s
  cases terminal with
  | none => exact hnone rfl
  | some t =>
    have h := hsome t rfl
    unfold Leaves left at *
    unfold onTerminal
    dsimp only
    cases ha : act t <;> rw [ha] at h <;> exact h

/-! ### Telling listeners

`P` is a property of scenes that depends on the emulator alone and that listeners keep. -/

variable {P : Scene → Prop} {hear : ListenerName → Change → SceneM Unit}

private theorem note_succeeds (hP : ∀ s t, s.emulator? = t.emulator? → P s → P t) (hs : P s) (notices : List Notice) :
    Succeeds (note notices) s fun _ => P :=
  .modify (hP s _ rfl hs)

/-- The terminal does something that ends well and leaves its emulator alone. -/
private theorem onTerminal_keeps (hP : ∀ s t, s.emulator? = t.emulator? → P s → P t) (hs : P s) {α : Type}
    {absent : α} {act : TerminalM α} (h : ∀ t, Succeeds act t fun _ t' => t'.emulator = t.emulator) :
    Succeeds (onTerminal absent act) s fun _ => P := by
  refine onTerminal_succeeds (fun _ => hs) ?_
  intro t ht
  refine (h t).mono ?_
  intro _ t' he
  have hsame : s.emulator? = Scene.emulator? { s with terminal := some t' } := by
    simp only [emulator?, ht, Option.map_some, he]
  exact hP s _ hsame hs

private theorem tell_succeeds (hP : ∀ s t, s.emulator? = t.emulator? → P s → P t)
    (hhear : ∀ name change s, P s → Leaves (hear name change) s P) (hs : P s) (change : Change)
    (name : ListenerName) : Succeeds (tell hear change name) s fun _ => P := by
  unfold tell
  refine (onTerminal_keeps hP hs fun t => ⟨_, t, rfl, rfl⟩).bind ?_
  intro registered t ht
  split
  · -- A listener that fails is noted and forgotten.
    refine .tryCatch (hhear name change t ht) (fun _ _ h => h) ?_
    intro failure u hu
    refine (note_succeeds hP hu _).bind ?_
    intro _ v hv
    exact onTerminal_keeps hP hv fun t => ⟨_, _, rfl, rfl⟩
  · exact .pure ht

theorem notify_succeeds (hP : ∀ s t, s.emulator? = t.emulator? → P s → P t)
    (hhear : ∀ name change s, P s → Leaves (hear name change) s P) (hs : P s) (change : Change) :
    Succeeds (notify hear change) s fun _ => P := by
  unfold notify
  refine (onTerminal_keeps hP hs fun t => ⟨_, t, rfl, rfl⟩).bind ?_
  intro members t ht
  refine .forM P ht ?_
  intro name _ u hu
  exact tell_succeeds hP hhear hu change name

/-! ### Writing -/

/-- What is noted when a chunk has been written. -/
def closing (before after : Bytes) : SceneM Unit := do
  note (← onTerminal [] (return (← get).closingNotices before after))

theorem closing_succeeds (hP : ∀ s t, s.emulator? = t.emulator? → P s → P t) (hs : P s) (before after : Bytes) :
    Succeeds (closing before after) s fun _ => P := by
  unfold closing
  refine (onTerminal_keeps hP hs fun t => ⟨_, t, rfl, rfl⟩).bind ?_
  intro notices t ht
  exact note_succeeds hP ht notices

/-- A chunk that the emulator takes: a frame is counted and the listeners are told if the text has changed, and
nothing happens to the terminal otherwise. -/
theorem write_eq (hear : ListenerName → Change → SceneM Unit) {t : Terminal} (ht : s.terminal = some t)
    (hroom : t.emulator.HasTextRoom) {chunk : Bytes} {notices : List Notice} {e : Emulator}
    (h : t.emulator.take chunk = .ok notices e) :
    write hear chunk s =
      let log := s.log ++ t.openingNotices s.now chunk ++ notices
      if t.text = e.screen.text then
        closing t.text e.screen.text { s with terminal := some { t with emulator := e }, log }
      else
        (do notify hear ⟨t.frames + 1, s.now, t.text, e.screen.text, e.screen.cursor, chunk⟩
            closing t.text e.screen.text)
          { s with terminal := some { t with emulator := e, frames := t.frames + 1, unread := true }, log } := by
  obtain ⟨now, terminal, generation, listeners, handles, heard, log⟩ := s
  cases ht
  have htake : onTerminal [] (Terminal.take chunk)
      ⟨now, some t, generation, listeners, handles, heard, log ++ t.openingNotices now chunk⟩ =
      .ok notices ⟨now, some { t with emulator := e }, generation, listeners, handles, heard,
        log ++ t.openingNotices now chunk⟩ := by
    simp only [onTerminal, Terminal.take_eq h]
  have hafter : onTerminal [] Terminal.readText
      ⟨now, some { t with emulator := e }, generation, listeners, handles, heard,
        log ++ t.openingNotices now chunk ++ notices⟩ =
      .ok e.screen.text ⟨now, some { t with emulator := e }, generation, listeners, handles, heard,
        log ++ t.openingNotices now chunk ++ notices⟩ :=
    onTerminal_of_ok rfl (Terminal.readText_of_room (hroom.take h))
  unfold write
  rw [get_bind]
  dsimp only
  refine (bind_of_ok (rfl : onTerminal [] _ _ = .ok (t.openingNotices now chunk) _)).trans ?_
  refine (bind_of_ok (rfl : note _ _ = .ok () _)).trans ?_
  refine (bind_of_ok (onTerminal_of_ok rfl (Terminal.readText_of_room hroom))).trans ?_
  refine (bind_of_ok htake).trans ?_
  refine (bind_of_ok (rfl : note _ _ = .ok () _)).trans ?_
  refine (bind_of_ok hafter).trans ?_
  by_cases hc : t.text = e.screen.text
  · rw [if_pos hc, if_neg (not_not_intro hc)]
    rfl
  · rw [if_neg hc, if_pos hc]
    rfl

/-- Where the characters of the text cannot be counted, the text is asked for before the chunk is applied. -/
theorem write_of_no_room (hear : ListenerName → Change → SceneM Unit) {t : Terminal} (ht : s.terminal = some t)
    (hroom : ¬ t.emulator.HasTextRoom) (chunk : Bytes) :
    write hear chunk s =
      .error (.fault .textTooLong) { s with log := s.log ++ t.openingNotices s.now chunk } := by
  obtain ⟨now, terminal, generation, listeners, handles, heard, log⟩ := s
  cases ht
  unfold write
  rw [get_bind]
  dsimp only
  refine (bind_of_ok (rfl : onTerminal [] _ _ = .ok (t.openingNotices now chunk) _)).trans ?_
  refine (bind_of_ok (rfl : note _ _ = .ok () _)).trans ?_
  exact bind_of_error (onTerminal_of_error rfl (Terminal.readText_of_no_room hroom))

/-- A chunk that the emulator takes is written without a failure, whatever the listeners do. -/
theorem write_succeeds (hP : ∀ s t, s.emulator? = t.emulator? → P s → P t)
    (hhear : ∀ name change s, P s → Leaves (hear name change) s P) (hs : P s) {chunk : Bytes}
    (hroom : ∀ t, s.terminal = some t → t.emulator.HasTextRoom)
    (htake : ∀ t, s.terminal = some t →
      Succeeds (Emulator.take chunk) t.emulator fun _ e => ∀ u : Scene, u.emulator? = some e → P u) :
    Succeeds (write hear chunk) s fun _ => P := by
  cases ht : s.terminal with
  | none =>
    refine ⟨(), { s with log := s.log ++ [] ++ [] ++ [] }, ?_, hP s _ rfl hs⟩
    obtain ⟨now, terminal, generation, listeners, handles, heard, log⟩ := s
    cases ht
    rfl
  | some t =>
    obtain ⟨notices, e, he, hp⟩ := htake t ht
    unfold Succeeds
    rw [write_eq hear ht (hroom t ht) he]
    dsimp only
    split
    · exact closing_succeeds hP (hp _ rfl) _ _
    · refine (notify_succeeds hP hhear (hp _ rfl) _).bind ?_
      intro _ u hu
      exact closing_succeeds hP hu _ _

/-! ### Emulators of runs -/

theorem Reached.congr {t : Scene} (h : s.emulator? = t.emulator?) (hs : s.Reached) : t.Reached := by
  intro e he
  exact hs e (h.trans he)

theorem reached_of_some {t : Terminal} (ht : s.terminal = some t) (he : t.emulator.Reached) : s.Reached := by
  intro e h
  rw [emulator?, ht] at h
  obtain rfl := Option.some.inj h
  exact he

theorem reached_of_none (h : s.terminal = none) : s.Reached := by
  intro e he
  rw [emulator?, h] at he
  cases he

theorem Reached.emulator {t : Terminal} (hs : s.Reached) (ht : s.terminal = some t) : t.emulator.Reached :=
  hs _ (by rw [emulator?, ht]; rfl)

/-- Something that happens in the emulator, as one step of its run. -/
private theorem onEmulator_reached (hs : s.Reached) {act : EmulatorM Unit}
    (h : ∀ e : Emulator, e.Reached → (left act e).Reached) :
    Leaves (onTerminal () (Terminal.onEmulator act)) s Reached := by
  refine onTerminal_leaves (fun _ => hs) ?_
  intro t ht
  have hl := h t.emulator (hs.emulator ht)
  unfold Leaves left at *
  unfold Terminal.onEmulator
  dsimp only
  cases ha : act t.emulator <;> rw [ha] at hl <;> exact reached_of_some rfl hl

private theorem create_reached (hear : ListenerName → Change → SceneM Unit) (width height : Int) :
    Leaves (perform hear (.create width height)) s Reached := by
  refine Leaves.bind (.modify (reached_of_none rfl)) ?_
  intro _ t ht
  cases hc : Terminal.create width height with
  | error fault => exact .throw ht
  | ok terminal =>
    obtain ⟨e, he, rfl⟩ := Terminal.create_eq hc
    exact Leaves.bind (.modify (reached_of_some rfl (.create he))) fun _ _ h => .pure h

/-- The characters of the text of the terminal, if there is one, can be counted. -/
def HasTextRoom (s : Scene) : Prop := ∀ e, s.emulator? = some e → e.HasTextRoom

/-- A chunk is written without a failure, also by a listener. -/
theorem write_reached (hhear : ∀ name change s, Reached s → Leaves (hear name change) s Reached) (hs : s.Reached)
    (hroom : s.HasTextRoom) (chunk : Bytes) : Succeeds (write hear chunk) s fun _ => Reached := by
  refine write_succeeds (fun _ _ => Reached.congr) hhear hs (fun t ht => hroom _ (congrArg _ ht)) ?_
  intro t ht
  have he := hs.emulator ht
  obtain ⟨notices, e, htake, -⟩ := Emulator.take_sound he.sound chunk
  have hnext : e.Reached := left_of_ok htake ▸ he.take chunk
  refine ⟨notices, e, htake, ?_⟩
  intro u hu e' he'
  obtain rfl := Option.some.inj (hu.symm.trans he')
  exact hnext

private theorem write_leaves_reached (hhear : ∀ name change s, Reached s → Leaves (hear name change) s Reached)
    (hs : s.Reached) (chunk : Bytes) : Leaves (write hear chunk) s Reached := by
  by_cases hroom : s.HasTextRoom
  · exact (write_reached hhear hs hroom chunk).leaves
  · obtain ⟨e, he, hno⟩ : ∃ e, s.emulator? = some e ∧ ¬ e.HasTextRoom := by simpa [HasTextRoom] using hroom
    obtain ⟨t, ht, rfl⟩ := Option.map_eq_some_iff.1 he
    exact .of_error (write_of_no_room hear ht hno chunk) (Reached.congr rfl hs)

/-- Something that happens in the terminal and does not touch it, whether it ends well or not. -/
private theorem onTerminal_unchanged (hs : s.Reached) {α : Type} {absent : α} {act : TerminalM α}
    (h : ∀ t, Leaves act t (· = t)) : Leaves (onTerminal absent act) s Reached := by
  refine onTerminal_leaves (fun _ => hs) fun t ht => ?_
  have hsame : left act t = t := h t
  unfold Leaves
  rw [hsame]
  exact hs.congr (congrArg (Option.map Terminal.emulator) ht)

/-- Something that happens in the terminal and ends well without touching its emulator. -/
private theorem onTerminal_reached (hs : s.Reached) {α : Type} {absent : α} {act : TerminalM α}
    (h : ∀ t, Succeeds act t fun _ t' => t'.emulator = t.emulator) : Leaves (onTerminal absent act) s Reached :=
  (onTerminal_keeps (fun _ _ => Reached.congr) hs h).leaves

private theorem unlisten_reached (hs : s.Reached) (name : Option ListenerName) :
    Leaves (unlisten name) s Reached := by
  unfold unlisten
  split
  · exact onTerminal_reached hs fun t => ⟨(), _, rfl, rfl⟩
  · exact .pure hs

private theorem subscribe_reached (hs : s.Reached) (name : Option ListenerName) (handle : Option HandleName) :
    Leaves (subscribe name handle) s Reached := by
  unfold subscribe
  split
  · refine Leaves.bind (onTerminal_reached hs fun t => ⟨(), _, rfl, rfl⟩) ?_
    intro _ t ht
    split
    · exact .modify ht
    · exact .pure ht
  · exact .throw hs

private theorem unsubscribe_reached (hs : s.Reached) (handle : HandleName) :
    Leaves (unsubscribe handle) s Reached := by
  have forget {t : Scene} (ht : t.Reached) : Leaves (modify fun s : Scene =>
      { s with handles := assign handle none s.handles } : SceneM Unit) t Reached := .modify ht
  unfold unsubscribe
  refine Leaves.bind (P := Reached) hs ?_
  intro s' t ht
  split
  · split
    · exact (unlisten_reached ht _).bind fun _ u hu => forget hu
    · exact forget ht
  · exact .pure ht

private theorem setDebug_reached (hs : s.Reached) (on : Bool) :
    Leaves (onTerminal () (Terminal.setDebug on)) s Reached := by
  refine onTerminal_leaves (fun _ => hs) ?_
  intro t ht
  have he := (hs.emulator ht).setDebug on
  exact .modify (reached_of_some rfl he)

/-- A command goes on with a run of the emulator if the calls of listeners that it brings about do. -/
theorem perform_reached (hhear : ∀ name change s, Reached s → Leaves (hear name change) s Reached) (hs : s.Reached)
    (command : Command) : Leaves (perform hear command) s Reached := by
  have done {act : SceneM Unit} {t : Scene} (h : Leaves act t Reached) :
      Leaves (do act; return Reply.done) t Reached := h.bind fun _ _ h => .pure h
  have noted (notices : List Notice) (t : Scene) (ht : t.Reached) : Leaves (note notices) t Reached :=
    (note_succeeds (fun _ _ => Reached.congr) ht notices).leaves
  cases command <;> unfold perform
  case create width height => exact create_reached hear width height
  case destroy => exact done (.modify (reached_of_none rfl))
  case setTime millis => exact done (.modify hs)
  case write chunk => exact done (write_leaves_reached hhear hs chunk)
  case resize width height => exact done (onEmulator_reached hs fun _ he => he.resize width height)
  case reset => exact done (onEmulator_reached hs fun _ he => he.reset)
  case takeUnread => exact onTerminal_reached hs fun t => ⟨_, _, rfl, rfl⟩
  case markRead => exact done (onTerminal_reached hs fun t => ⟨_, _, rfl, rfl⟩)
  case markedText => exact onTerminal_reached hs fun t => ⟨_, _, rfl, rfl⟩
  case setVerbose on =>
    refine Leaves.bind (onTerminal_reached hs fun t => ⟨_, _, rfl, rfl⟩) fun notices t ht => ?_
    refine (noted notices t ht).bind fun _ u hu => ?_
    exact (onTerminal_unchanged hu Terminal.initialScreen_leaves).bind fun notices v hv => done (noted notices v hv)
  case setDebug on => exact done (setDebug_reached hs on)
  case logState =>
    refine Leaves.bind (onTerminal_reached hs fun t => ⟨_, _, rfl, rfl⟩) fun notices t ht => ?_
    refine (noted notices t ht).bind fun _ u hu => ?_
    exact (onTerminal_unchanged hu Terminal.currentScreen_leaves).bind fun notices v hv => done (noted notices v hv)
  case logScreen text => exact done (noted _ s hs)
  case listener name callable script always =>
    cases callable with
    | false => exact .throw hs
    | true => exact done (.modify hs)
  case subscribe name handle => exact done (subscribe_reached hs name handle)
  case unlisten name => exact done (unlisten_reached hs name)
  case unsubscribe handle => exact done (unsubscribe_reached hs handle)
  case isActive handle => exact hs
  case copyHandle source target => exact done (.modify hs)
  case fail what => exact .throw hs

/-- The induction is on the room for calls within calls. -/
theorem hear_reached (room : Nat) (name : ListenerName) (change : Change) (s : Scene) (hs : s.Reached) :
    Leaves (Scene.hear room name change) s Reached := by
  induction room generalizing name change s with
  | zero =>
    unfold Scene.hear
    exact Leaves.bind (.modify hs) fun _ t ht => Leaves.bind (P := Reached) ht fun _ u hu =>
      Leaves.bind (.modify hu) fun _ v hv => .pure hv
  | succ room ih =>
    unfold Scene.hear
    refine Leaves.bind (.modify hs) fun _ t ht => Leaves.bind (P := Reached) ht fun _ u hu =>
      Leaves.bind (.modify hu) fun _ v hv => ?_
    exact .forM hv fun command _ w hw => (perform_reached ih hw command).bind fun _ _ h => .pure h

theorem reached_next (hs : s.Reached) (command : Command) : (s.next command).Reached :=
  perform_reached (hear_reached maxNesting) hs command

/-- Commands from outside never leave a terminal whose emulator is not one of a run. -/
theorem reached_after (commands : List Command) : (after commands).Reached := by
  refine List.foldlRecOn _ _ (reached_of_none rfl) ?_
  intro s hs command _
  exact reached_next hs command

end Scene

namespace Emulator

/-- The screen of an emulator that comes out of a run fits together, and every control function ends well on it, with
any parameters.  Every chunk is written to it without a failure, whatever the listeners do, if the characters of its
text can be counted; otherwise no chunk is, and nothing but what is noted beforehand tells of it. -/
theorem Reached.fits_and_writes {e : Emulator} (he : e.Reached) :
    e.screen.Fits ∧
      (∀ (f : Control.Function) (q : Control.Sequence), ∃ s, f.perform q e.screen = .ok () s ∧ s.Fits) ∧
      ∀ (hear : ListenerName → Change → SceneM Unit) (chunk : Bytes) (s : Scene) (t : Terminal),
        s.terminal = some t → t.emulator = e →
          ((e.screen.width + 1) * e.screen.height ≤ 2147483647 → ∃ s', Scene.write hear chunk s = .ok () s') ∧
          (2147483647 < (e.screen.width + 1) * e.screen.height →
            Scene.write hear chunk s =
              .error (.fault .textTooLong) { s with log := s.log ++ t.openingNotices s.now chunk }) := by
  refine ⟨he.sound.fits, ?_, ?_⟩
  · intro f q
    obtain ⟨_, s, hs, h⟩ := Control.Function.perform_continues Utf8.isPrintable_space he.sound.fits f q
    exact ⟨s, hs, h.fits⟩
  · rintro hear chunk s t ht rfl
    refine ⟨fun hroom => ?_, fun hno => Scene.write_of_no_room hear ht (Nat.not_le_of_lt hno) chunk⟩
    obtain ⟨notices, e', htake, -⟩ := take_sound he.sound chunk
    -- Nothing is asked of the listeners, so the property that they keep is the trivial one.
    have hwrite : Succeeds (Scene.write hear chunk) s fun _ _ => True := by
      refine Scene.write_succeeds (fun _ _ _ _ => trivial) (fun _ _ _ _ => trivial) trivial ?_ ?_
      · intro u hu
        obtain rfl := Option.some.inj (ht.symm.trans hu)
        exact hroom
      · intro u hu
        obtain rfl := Option.some.inj (ht.symm.trans hu)
        exact ⟨notices, e', htake, fun _ _ => trivial⟩
    obtain ⟨_, s', hs', -⟩ := hwrite
    exact ⟨s', hs'⟩

/-- An emulator that has been asked for the alternate screen is such a one. -/
theorem fits_and_writes_alternate :
    ∃ e : Emulator, e.Reached ∧ e.screen.isAlternate = true ∧ e.screen.Fits ∧
      ∀ chunk, ∃ s', Scene.write (fun _ _ => pure ()) chunk { terminal := some { emulator := e } } = .ok () s' := by
  obtain ⟨e, he, halt, hsize⟩ : ∃ e : Emulator, e.Reached ∧ e.screen.isAlternate = true ∧
      (e.screen.width + 1) * e.screen.height ≤ 2147483647 :=
    ⟨_, .take (@Reached.create _ 2 1 rfl) [0x1B, 0x5B, 0x3F, 0x31, 0x30, 0x34, 0x39, 0x68], by decide +kernel⟩
  obtain ⟨hfits, -, hwrite⟩ := Reached.fits_and_writes he
  exact ⟨e, he, halt, hfits, fun chunk => (hwrite _ chunk _ _ rfl rfl).1 hsize⟩

/-- Nothing can be written to a new terminal of that size, whose cells can be counted. -/
theorem write_fails_at_65535x32768 : ∃ t, Terminal.create 65535 32768 = .ok t ∧ t.emulator.Reached ∧
    ∀ (hear : ListenerName → Change → SceneM Unit) (chunk : Bytes),
      ∃ s, Scene.write hear chunk { terminal := some t } = .error (.fault .textTooLong) s := by
  have hcreate : Terminal.create 65535 32768 = .ok { emulator := { screen := .empty 65535 32768 } } :=
    @Terminal.create_of_hasCellRoom 65535 32768 (by decide) (by decide) (by decide)
  obtain ⟨e, he, ht⟩ := Terminal.create_eq hcreate
  have hno : ¬ Emulator.HasTextRoom { screen := .empty 65535 32768 } :=
    show ¬ Screen.HasTextRoom 65535 32768 by decide
  refine ⟨_, hcreate, ht ▸ .create he, fun hear chunk => ⟨_, Scene.write_of_no_room hear rfl hno chunk⟩⟩

end Emulator

end ScreenWatch
