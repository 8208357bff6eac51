import ScreenWatch.Proofs.Terminal.Moments

/-!
# Two runs side by side

Scenes are alike under a view of emulators if all of them is the same that is left when the emulator is seen through
the view, and when notices and counted failures are forgotten.  If the view shows how an emulator goes on and what a
terminal asks of it (`IsView`), alike scenes go through the same moments and stay alike at each of them, whatever the
listeners do (`historyWith_alike`, `along_alike_of_untroubled`).  A failure of a listener is one more moment, but one
that nobody sees, so runs are compared without their failures (`untroubled`).
-/

namespace ScreenWatch

/-- The same is seen of both emulators. -/
def Emulator.SeenAlike (view : Emulator → Emulator) (e e' : Emulator) : Prop := view e = view e'

/-- Emulators of which the same is seen take everything in the same way, and no terminal can tell them from each
other. -/
structure Emulator.IsView (view : Emulator → Emulator) : Prop where
  take {e e' : Emulator} (h : SeenAlike view e e') (chunk : Bytes) :
    EndAlike (Emulator.take chunk) (Emulator.take chunk) e e' (SeenAlike view)
  resize {e e' : Emulator} (h : SeenAlike view e e') (width height : Int) :
    EndAlike (onScreen (Screen.resize width height)) (onScreen (Screen.resize width height)) e e' (SeenAlike view)
  reset {e e' : Emulator} (h : SeenAlike view e e') :
    EndAlike (onScreen Screen.reset) (onScreen Screen.reset) e e' (SeenAlike view)
  setDebug {e e' : Emulator} (h : SeenAlike view e e') (on : Bool) :
    SeenAlike view { e with debug := on } { e' with debug := on }
  sameSize {e e' : Emulator} (h : SeenAlike view e e') : e.screen.SameSize e'.screen
  text_eq {e e' : Emulator} (h : SeenAlike view e e') : e.screen.text = e'.screen.text
  cursor_eq {e e' : Emulator} (h : SeenAlike view e e') : e.screen.cursor = e'.screen.cursor
  hash_eq {e e' : Emulator} (h : SeenAlike view e e') : e.screen.hash = e'.screen.hash

/-- Whether the moment is the failure of a listener. -/
def Moment.isFailure : Moment → Bool
  | failed _ => true
  | did _ | took _ | turn _ _ _ | closed _ => false

variable {view : Emulator → Emulator}

/-- The terminal with its emulator seen through a view and without the failures that were counted. -/
def Terminal.seen (view : Emulator → Emulator) (t : Terminal) : Terminal :=
  { t with emulator := view t.emulator, failureCount := 0 }

/-- The same is seen of both terminals. -/
def Terminal.SeenAlike (view : Emulator → Emulator) (t t' : Terminal) : Prop := t.seen view = t'.seen view

namespace Terminal

variable {t t' : Terminal} {e e' : Emulator}

theorem seenAlike_iff : SeenAlike view t t' ↔ Emulator.SeenAlike view t.emulator t'.emulator ∧
    t.registry = t'.registry ∧ t.frames = t'.frames ∧ t.unread = t'.unread ∧ t.readHash = t'.readHash ∧
    t.verbose = t'.verbose := by
  simp only [SeenAlike, seen, Terminal.mk.injEq, Emulator.SeenAlike, true_and]

namespace SeenAlike

theorem seen_eq (h : SeenAlike view t t') : t.seen view = t'.seen view := h

theorem emulator_alike (h : SeenAlike view t t') : Emulator.SeenAlike view t.emulator t'.emulator :=
  (congrArg Terminal.emulator h.seen_eq :)

theorem registry_eq (h : SeenAlike view t t') : t.registry = t'.registry := (congrArg Terminal.registry h.seen_eq :)

theorem frames_eq (h : SeenAlike view t t') : t.frames = t'.frames := (congrArg Terminal.frames h.seen_eq :)

theorem verbose_eq (h : SeenAlike view t t') : t.verbose = t'.verbose := (congrArg Terminal.verbose h.seen_eq :)

theorem room_iff (hview : Emulator.IsView view) (h : SeenAlike view t t') :
    t.emulator.HasTextRoom ↔ t'.emulator.HasTextRoom :=
  (hview.sameSize h.emulator_alike).hasTextRoom.symm

/-- The text is read from both terminals, or from neither. -/
theorem readText_alike (hview : Emulator.IsView view) (h : SeenAlike view t t') :
    EndAlike readText readText t t' (SeenAlike view) := by
  by_cases hroom : t.emulator.HasTextRoom
  · exact .of_ok (readText_of_room hroom) (readText_of_room ((h.room_iff hview).1 hroom)) h
  · exact .of_error (readText_of_no_room hroom) (readText_of_no_room (mt (h.room_iff hview).2 hroom)) h

private theorem initialScreen_alike (hview : Emulator.IsView view) (h : SeenAlike view t t') :
    EndAlike initialScreen initialScreen t t' (SeenAlike view) := by
  unfold initialScreen
  refine .get_bind ?_
  rw [h.verbose_eq]
  split
  · exact (h.readText_alike hview).bind (fun _ _ h => h) fun _ _ _ _ h => h
  · exact h

private theorem currentScreen_alike (hview : Emulator.IsView view) (h : SeenAlike view t t') :
    EndAlike currentScreen currentScreen t t' (SeenAlike view) :=
  (h.readText_alike hview).bind (fun _ _ h => h) fun _ _ _ _ h => h

/-- An edit for which it makes no difference whether the terminal is seen through the view before it or after it. -/
private theorem edit (h : SeenAlike view t t') {f : Terminal → Terminal}
    (hf : ∀ t, (f t).seen view = f (t.seen view)) : SeenAlike view (f t) (f t') := by
  show (f t).seen view = (f t').seen view
  rw [hf, hf, h.seen_eq]

/-- The terminals with other emulators of which the same is seen. -/
private theorem of_emulator (h : SeenAlike view t t') (he : Emulator.SeenAlike view e e') :
    SeenAlike view { t with emulator := e } { t' with emulator := e' } := by
  obtain ⟨-, hrest⟩ := seenAlike_iff.1 h
  exact seenAlike_iff.2 ⟨he, hrest⟩

/-- The terminals with one more frame. -/
private theorem counting (h : SeenAlike view t t') (he : Emulator.SeenAlike view e e') :
    SeenAlike view { t with emulator := e, frames := t.frames + 1, unread := true }
      { t' with emulator := e', frames := t'.frames + 1, unread := true } :=
  (h.of_emulator he).edit (f := fun t => { t with frames := t.frames + 1, unread := true }) fun _ => rfl

/-- What happens in the emulators. -/
private theorem onEmulator_alike (h : SeenAlike view t t') {act : EmulatorM Unit}
    (hact : EndAlike act act t.emulator t'.emulator (Emulator.SeenAlike view)) :
    EndAlike (onEmulator act) (onEmulator act) t t' (SeenAlike view) := by
  rcases hact.cases with ⟨_, _, e, e', he, he', hnext⟩ | ⟨fault, e, e', he, he', hnext⟩
  · have hleft : onEmulator act t = .ok () { t with emulator := e } := by simp only [onEmulator, he]
    have hright : onEmulator act t' = .ok () { t' with emulator := e' } := by simp only [onEmulator, he']
    exact .of_ok hleft hright (h.of_emulator hnext)
  · have hleft : onEmulator act t = .error fault { t with emulator := e } := by simp only [onEmulator, he]
    have hright : onEmulator act t' = .error fault { t' with emulator := e' } := by simp only [onEmulator, he']
    exact .of_error hleft hright (h.of_emulator hnext)

end SeenAlike

end Terminal

namespace Scene

/-- The scene with its terminal seen through a view and without the notices. -/
def seen (view : Emulator → Emulator) (s : Scene) : Scene :=
  { s with terminal := s.terminal.map (Terminal.seen view), log := [] }

/-- The same is seen of both scenes. -/
def SeenAlike (view : Emulator → Emulator) (s s' : Scene) : Prop := s.seen view = s'.seen view

variable {s s' : Scene}

namespace SeenAlike

theorem seen_eq (h : SeenAlike view s s') : s.seen view = s'.seen view := h

theorem now_eq (h : SeenAlike view s s') : s.now = s'.now := (congrArg Scene.now h.seen_eq :)

theorem generation_eq (h : SeenAlike view s s') : s.generation = s'.generation :=
  (congrArg Scene.generation h.seen_eq :)

theorem listeners_eq (h : SeenAlike view s s') : s.listeners = s'.listeners := (congrArg Scene.listeners h.seen_eq :)

theorem handles_eq (h : SeenAlike view s s') : s.handles = s'.handles := (congrArg Scene.handles h.seen_eq :)

theorem heard_eq (h : SeenAlike view s s') : s.heard = s'.heard := (congrArg Scene.heard h.seen_eq :)

theorem terminal_eq (h : SeenAlike view s s') :
    s.terminal.map (Terminal.seen view) = s'.terminal.map (Terminal.seen view) :=
  (congrArg Scene.terminal h.seen_eq :)

theorem emulator?_eq (h : SeenAlike view s s') : s.emulator?.map view = s'.emulator?.map view := by
  have hterminal := congrArg (Option.map Terminal.emulator) h.terminal_eq
  rw [Option.map_map, Option.map_map] at hterminal
  unfold emulator?
  rw [Option.map_map, Option.map_map]
  exact hterminal

/-- Either there is no terminal in both scenes, or one in each. -/
theorem cases (h : SeenAlike view s s') : s.terminal = none ∧ s'.terminal = none ∨
    ∃ t t', s.terminal = some t ∧ s'.terminal = some t' ∧ Terminal.SeenAlike view t t' := by
  have hterminal := h.terminal_eq
  cases ht : s.terminal with
  | none =>
    rw [ht, Option.map_none] at hterminal
    exact .inl ⟨rfl, Option.map_eq_none_iff.1 hterminal.symm⟩
  | some t =>
    rw [ht, Option.map_some] at hterminal
    obtain ⟨t', ht', hseen⟩ := Option.map_eq_some_iff.1 hterminal.symm
    exact .inr ⟨t, t', rfl, ht', hseen.symm⟩

theorem members_eq (h : SeenAlike view s s') : s.members = s'.members := by
  unfold members
  rcases h.cases with ⟨ht, ht'⟩ | ⟨t, t', ht, ht', hseen⟩
  · rw [ht, ht']
  · rw [ht, ht']
    exact congrArg Registry.members hseen.registry_eq

/-- The scenes with other terminals and notices. -/
theorem of_terminal (h : SeenAlike view s s') {terminal terminal' : Option Terminal}
    (hterminal : terminal.map (Terminal.seen view) = terminal'.map (Terminal.seen view)) (log log' : List Notice) :
    SeenAlike view { s with terminal, log } { s' with terminal := terminal', log := log' } := by
  have hrest := congrArg (fun u : Scene => { u with terminal := terminal.map (Terminal.seen view) }) h.seen_eq
  refine hrest.trans ?_
  rw [hterminal]
  rfl

theorem of_some (h : SeenAlike view s s') {t t' : Terminal} (ht : Terminal.SeenAlike view t t')
    (log log' : List Notice) :
    SeenAlike view { s with terminal := some t, log } { s' with terminal := some t', log := log' } := by
  have hterminal : (some t).map (Terminal.seen view) = (some t').map (Terminal.seen view) := congrArg some ht
  exact h.of_terminal hterminal log log'

end SeenAlike

/-! ### Actions in both scenes -/

theorem onTerminal_alike {α : Type} {absent : α} {act : TerminalM α} (h : SeenAlike view s s')
    (hact : ∀ t t', Terminal.SeenAlike view t t' → EndAlike act act t t' (Terminal.SeenAlike view)) :
    EndAlike (onTerminal absent act) (onTerminal absent act) s s' (SeenAlike view) := by
  rcases h.cases with ⟨ht, ht'⟩ | ⟨t, t', ht, ht', hseen⟩
  · exact .of_ok (onTerminal_of_none ht) (onTerminal_of_none ht') h
  · rcases (hact t t' hseen).cases with ⟨a, a', u, u', hu, hu', hnext⟩ | ⟨fault, u, u', hu, hu', hnext⟩
    · exact .of_ok (onTerminal_of_ok ht hu) (onTerminal_of_ok ht' hu')
        (h.of_some hnext s.log s'.log)
    · exact .of_error (onTerminal_of_error ht hu) (onTerminal_of_error ht' hu')
        (h.of_some hnext s.log s'.log)

variable {hear hear' : ListenerName → Change → SceneM Unit}

/-- Whether calls end well or fail, they leave scenes alike. -/
def CallsAlike (view : Emulator → Emulator) (hear hear' : ListenerName → Change → SceneM Unit) : Prop :=
  ∀ name change s s', SeenAlike view s s' → SeenAlike view (left (hear name change) s) (left (hear' name change) s')

private theorem seen_countFailure (failure : Failure) (s : Scene) :
    (left (countFailure failure) s).seen view = s.seen view := by
  obtain ⟨now, terminal, generation, listeners, handles, heard, log⟩ := s
  cases terminal <;> rfl

private theorem closing_alike (h : SeenAlike view s s') (before after : Bytes) :
    EndAlike (closing before after) (closing before after) s s' (SeenAlike view) := by
  unfold closing
  refine (onTerminal_alike h fun t t' ht => .of_ok rfl rfl ht).bind (fun _ _ h => h) ?_
  exact fun _ _ _ _ h => .of_ok rfl rfl h

private theorem told_alike (h : SeenAlike view s s') (name : ListenerName) (change : Change) :
    SeenAlike view (s.told name change) (s'.told name change) :=
  (congrArg (fun u : Scene => u.told name change) h.seen_eq :)

/-- A listener that is registered is told, and what it leaves is left, apart from its failure. -/
private theorem tell_of_mem {name : ListenerName} (h : name ∈ s.members) (change : Change) :
    ∃ u, tell hear change name s = .ok () u ∧ u.seen view = (left (hear name change) s).seen view := by
  rw [tell_eq, if_pos h]
  cases hhear : hear name change s with
  | ok _ u => exact ⟨u, tryCatch_of_ok hhear, by rw [left_of_ok hhear]⟩
  | error failure u =>
    refine ⟨left (countFailure failure) u, (tryCatch_of_error hhear).trans (countFailure_eq ..), ?_⟩
    rw [seen_countFailure, left_of_error hhear]

private theorem tell_alike (hcalls : CallsAlike view hear hear') (h : SeenAlike view s s') (change : Change)
    (name : ListenerName) : EndAlike (tell hear change name) (tell hear' change name) s s' (SeenAlike view) := by
  by_cases hname : name ∈ s.members
  · have hname' : name ∈ s'.members := h.members_eq ▸ hname
    obtain ⟨u, hu, hseen⟩ : ∃ u, tell hear change name s = .ok () u ∧
        u.seen view = (left (hear name change) s).seen view := tell_of_mem hname change
    obtain ⟨u', hu', hseen'⟩ : ∃ u', tell hear' change name s' = .ok () u' ∧
        u'.seen view = (left (hear' name change) s').seen view := tell_of_mem hname' change
    exact .of_ok hu hu' (hseen.trans ((hcalls name change s s' h).trans hseen'.symm))
  · have hname' : name ∉ s'.members := h.members_eq ▸ hname
    exact .of_ok ((tell_eq ..).trans (if_neg hname)) ((tell_eq ..).trans (if_neg hname')) h

private theorem notify_alike (hcalls : CallsAlike view hear hear') (h : SeenAlike view s s') (change : Change) :
    EndAlike (notify hear change) (notify hear' change) s s' (SeenAlike view) := by
  have htold := EndAlike.forM (l := s.members) h fun name _ t t' ht => tell_alike hcalls ht change name
  unfold notify
  refine htold.of_eq (bind_of_ok (members_eq s)) ?_
  rw [bind_of_ok (members_eq s'), ← h.members_eq]

private theorem write_of_none (hear : ListenerName → Change → SceneM Unit) (h : s.terminal = none) (chunk : Bytes) :
    write hear chunk s = .ok () { s with log := s.log ++ [] ++ [] ++ [] } := by
  obtain ⟨now, terminal, generation, listeners, handles, heard, log⟩ := s
  cases h
  rfl

/-- Either a chunk makes no change in both scenes, and is written to both in the same way, or it makes the same change
in both. -/
private theorem announce_alike (hview : Emulator.IsView view) (h : SeenAlike view s s') (chunk : Bytes) :
    (s.announce chunk = none ∧ s'.announce chunk = none ∧
      ∀ hear hear', EndAlike (write hear chunk) (write hear' chunk) s s' (SeenAlike view)) ∨
      ∃ change u u', s.announce chunk = some (change, u) ∧ s'.announce chunk = some (change, u') ∧
        SeenAlike view u u' := by
  unfold announce
  rcases h.cases with ⟨ht, ht'⟩ | ⟨t, t', ht, ht', hseen⟩
  · rw [ht, ht']
    exact .inl ⟨rfl, rfl, fun hear hear' => .of_ok (write_of_none hear ht chunk) (write_of_none hear' ht' chunk) h⟩
  · have hbefore : t.text = t'.text := hview.text_eq hseen.emulator_alike
    rw [ht, ht']
    dsimp only
    -- Without room for the text a chunk is refused in both scenes, before anything of it is applied.
    by_cases hroom : t.emulator.HasTextRoom
    case neg =>
      have hroom' := mt (hseen.room_iff hview).2 hroom
      have hstop := h.of_terminal h.terminal_eq (s.log ++ t.openingNotices s.now chunk)
        (s'.log ++ t'.openingNotices s'.now chunk)
      refine .inl ⟨?_, ?_, fun hear hear' =>
        .of_error (write_of_no_room hear ht hroom chunk) (write_of_no_room hear' ht' hroom' chunk) hstop⟩
      · cases t.emulator.take chunk with
        | error fault e => rfl
        | ok notices e => exact if_pos (.inl hroom)
      · cases t'.emulator.take chunk with
        | error fault e => rfl
        | ok notices e => exact if_pos (.inl hroom')
    have hroom' := (hseen.room_iff hview).1 hroom
    simp only [hroom, hroom', not_true, false_or]
    rcases (hview.take hseen.emulator_alike chunk).cases with ⟨notices, notices', e, e', he, he', hnext⟩ |
      ⟨fault, e, e', he, he', hnext⟩
    · have hafter := hview.text_eq hnext
      rw [he, he']
      dsimp only
      rw [← hbefore, ← hafter]
      -- A view shows the whole text, so the text changes in both scenes or in none.
      by_cases hsame : t.text = e.screen.text
      · refine .inl ⟨if_pos hsame, if_pos hsame, fun hear hear' => ?_⟩
        have hend := closing_alike (h.of_some (hseen.of_emulator hnext)
          (s.log ++ t.openingNotices s.now chunk ++ notices) (s'.log ++ t'.openingNotices s'.now chunk ++ notices'))
          t.text e.screen.text
        refine hend.of_eq ((write_eq hear ht hroom he).trans (if_pos hsame)) ?_
        rw [hbefore, hafter] at hsame ⊢
        exact (write_eq hear' ht' hroom' he').trans (if_pos hsame)
      · refine .inr ⟨_, _, _, if_neg hsame, ?_, h.of_some (hseen.counting hnext)
          (s.log ++ t.openingNotices s.now chunk ++ notices) (s'.log ++ t'.openingNotices s'.now chunk ++ notices')⟩
        rw [if_neg hsame, hseen.frames_eq, h.now_eq, hview.cursor_eq hnext]
    · rw [he, he']
      refine .inl ⟨rfl, rfl, fun hear hear' => ?_⟩
      have hstop := h.of_some (hseen.of_emulator hnext) (s.log ++ t.openingNotices s.now chunk)
        (s'.log ++ t'.openingNotices s'.now chunk)
      exact .of_error (write_of_fault hear ht hroom he) (write_of_fault hear' ht' hroom' he') hstop

private theorem write_alike (hview : Emulator.IsView view) (hcalls : CallsAlike view hear hear')
    (h : SeenAlike view s s') (chunk : Bytes) :
    EndAlike (write hear chunk) (write hear' chunk) s s' (SeenAlike view) := by
  rcases announce_alike hview h chunk with ⟨-, -, hwrite⟩ | ⟨change, u, u', ha, ha', hu⟩
  · exact hwrite hear hear'
  · have htold := (notify_alike hcalls hu change).bind (fun _ _ h => h)
      fun _ _ _ _ h => closing_alike h change.before change.after
    exact htold.of_eq (write_of_announce hear ha) (write_of_announce hear' ha')

/-- An edit for which it makes no difference whether the scene is seen through the view before it or after it. -/
private theorem edit_alike (h : SeenAlike view s s') {f : Scene → Scene}
    (hf : ∀ s, (f s).seen view = f (s.seen view)) :
    EndAlike (modify f : SceneM Unit) (modify f : SceneM Unit) s s' (SeenAlike view) := by
  refine .modify ?_
  show (f s).seen view = (f s').seen view
  rw [hf, hf, h.seen_eq]

/-- An edit of the terminal of which this is true. -/
private theorem edit_terminal_alike (h : SeenAlike view s s') {f : Terminal → Terminal}
    (hf : ∀ t, (f t).seen view = f (t.seen view)) :
    EndAlike (onTerminal () (modify f)) (onTerminal () (modify f)) s s' (SeenAlike view) := by
  exact onTerminal_alike h fun t t' ht => .of_ok rfl rfl (ht.edit hf)

private theorem unlisten_alike (h : SeenAlike view s s') (name : Option ListenerName) :
    EndAlike (unlisten name) (unlisten name) s s' (SeenAlike view) := by
  cases name with
  | none => exact h
  | some name => exact edit_terminal_alike h fun t => rfl

private theorem subscribe_alike (h : SeenAlike view s s') (name : Option ListenerName) (handle : Option HandleName) :
    EndAlike (subscribe name handle) (subscribe name handle) s s' (SeenAlike view) := by
  cases name with
  | none => exact .of_error rfl rfl h
  | some name =>
    refine EndAlike.bind ?_ (fun _ _ h => h) ?_
    · exact edit_terminal_alike h fun t => rfl
    · intro _ _ u u' hu
      cases handle with
      | none => exact hu
      | some handle => exact edit_alike hu fun s => rfl

private theorem unsubscribe_alike (h : SeenAlike view s s') (handle : HandleName) :
    EndAlike (unsubscribe handle) (unsubscribe handle) s s' (SeenAlike view) := by
  unfold unsubscribe
  refine .get_bind ?_
  rw [h.handles_eq, h.generation_eq]
  split
  · dsimp only
    split
    · exact (unlisten_alike h _).bind (fun _ _ h => h) fun _ _ _ _ h => edit_alike h fun s => rfl
    · exact edit_alike h fun s => rfl
  · exact h

/-- Scenes that are alike stay so through any command, and it ends in the same way. -/
theorem perform_alike (hview : Emulator.IsView view) (hcalls : CallsAlike view hear hear')
    (h : SeenAlike view s s') (command : Command) :
    EndAlike (perform hear command) (perform hear' command) s s' (SeenAlike view) := by
  -- Most commands answer the same whatever they find.
  have done {x x' : SceneM Unit} {s s' : Scene} (hx : EndAlike x x' s s' (SeenAlike view)) :
      EndAlike (do x; return Reply.done) (do x'; return Reply.done) s s' (SeenAlike view) :=
    hx.bind (fun _ _ h => h) fun _ _ _ _ h => h
  have noted {notices notices' : List Notice} {s s' : Scene} (h : SeenAlike view s s') :
      EndAlike (note notices) (note notices') s s' (SeenAlike view) := .of_ok rfl rfl h
  cases command <;> unfold perform
  case create width height =>
    refine EndAlike.bind (R := SeenAlike view) ?_ (fun _ _ h => h) ?_
    · exact edit_alike h fun s => rfl
    · intro _ _ u u' hu
      cases Terminal.create width height with
      | error fault => exact .of_error rfl rfl hu
      | ok t =>
        refine done (.modify ?_)
        exact (congrArg (fun u : Scene => { u with terminal := some (t.seen view), generation := u.generation + 1 })
          hu.seen_eq :)
  case destroy => exact done (edit_alike h fun s => rfl)
  case setTime millis => exact done (edit_alike h fun s => rfl)
  case write chunk => exact done (write_alike hview hcalls h chunk)
  case resize width height =>
    exact done (onTerminal_alike h fun t t' ht => ht.onEmulator_alike (hview.resize ht.emulator_alike width height))
  case reset =>
    exact done (onTerminal_alike h fun t t' ht => ht.onEmulator_alike (hview.reset ht.emulator_alike))
  case takeUnread =>
    refine onTerminal_alike h fun t t' ht => .of_ok rfl rfl ?_
    exact ht.edit (f := fun t => { t with unread := false }) fun _ => rfl
  case markRead =>
    refine done (onTerminal_alike h fun t t' ht => .of_ok rfl rfl ?_)
    -- What is kept as read is the hash, which is the same through the view.
    obtain ⟨he, hregistry, hframes, -, -, hverbose⟩ := Terminal.seenAlike_iff.1 ht
    exact Terminal.seenAlike_iff.2 ⟨he, hregistry, hframes, rfl, hview.hash_eq he, hverbose⟩
  case markedText => exact onTerminal_alike h fun t t' ht => .of_ok rfl rfl ht
  case setVerbose on =>
    refine EndAlike.bind (R := SeenAlike view) ?_ (fun _ _ h => h) fun _ _ _ _ h => (noted h).bind (fun _ _ h => h) ?_
    · refine onTerminal_alike h fun t t' ht => .of_ok rfl rfl ?_
      exact ht.edit (f := fun t => { t with verbose := on }) fun _ => rfl
    · intro _ _ u u' hu
      have hread : EndAlike (onTerminal [] Terminal.initialScreen) (onTerminal [] Terminal.initialScreen) u u'
          (SeenAlike view) :=
        onTerminal_alike hu fun t t' ht => ht.initialScreen_alike hview
      exact hread.bind (fun _ _ h => h) fun _ _ _ _ h => done (noted h)
  case setDebug on =>
    refine done (onTerminal_alike h fun t t' ht => .of_ok rfl rfl ?_)
    exact ht.of_emulator (hview.setDebug ht.emulator_alike on)
  case logState =>
    refine EndAlike.bind (R := SeenAlike view) ?_ (fun _ _ h => h) fun _ _ _ _ h => (noted h).bind (fun _ _ h => h) ?_
    · exact onTerminal_alike h fun t t' ht => .of_ok rfl rfl ht
    · intro _ _ u u' hu
      have hread : EndAlike (onTerminal [] Terminal.currentScreen) (onTerminal [] Terminal.currentScreen) u u'
          (SeenAlike view) :=
        onTerminal_alike hu fun t t' ht => ht.currentScreen_alike hview
      exact hread.bind (fun _ _ h => h) fun _ _ _ _ h => done (noted h)
  case logScreen text => exact done (noted h)
  case listener name callable script always =>
    cases callable with
    | false => exact .of_error rfl rfl h
    | true => exact done (edit_alike h fun s => rfl)
  case subscribe name handle => exact done (subscribe_alike h name handle)
  case unlisten name => exact done (unlisten_alike h name)
  case unsubscribe handle => exact done (unsubscribe_alike h handle)
  case isActive handle => exact .of_ok rfl rfl h
  case copyHandle source target => exact done (edit_alike h fun s => rfl)
  case fail what => exact .of_error rfl rfl h

/-! ### Moments in both scenes -/

theorem pass_alike (hview : Emulator.IsView view) (h : SeenAlike view s s') (m : Moment) :
    SeenAlike view (m.pass s) (m.pass s') := by
  have hidle : CallsAlike view idle idle := fun _ _ _ _ h => h
  cases m with
  | did command => exact (perform_alike hview hidle h command).left_alike
  | took chunk =>
    unfold Moment.pass
    dsimp only
    rcases announce_alike hview h chunk with ⟨ha, ha', -⟩ | ⟨change, u, u', ha, ha', hu⟩
    · rwa [ha, ha']
    · rwa [ha, ha']
  | turn name change called =>
    cases called with
    | false => exact h
    | true => exact told_alike h name change
  | failed failure => exact (seen_countFailure failure s).trans (h.seen_eq.trans (seen_countFailure failure s').symm)
  | closed change => exact (closing_alike h change.before change.after).left_alike

theorem along_alike (hview : Emulator.IsView view) (h : SeenAlike view s s') (l : List Moment) :
    SeenAlike view (s.along l) (s'.along l) := by
  induction l generalizing s s' with
  | nil => exact h
  | cons m l ih => exact ih (pass_alike hview h m)

/-- The moments without the failures of listeners. -/
def untroubled (l : List Moment) : List Moment := l.filter fun m => !m.isFailure

theorem untroubled_append (l l' : List Moment) : untroubled (l ++ l') = untroubled l ++ untroubled l' :=
  List.filter_append ..

/-- Failures make no difference. -/
theorem along_untroubled (hview : Emulator.IsView view) (s : Scene) (l : List Moment) :
    SeenAlike view (s.along l) (s.along (untroubled l)) := by
  induction l generalizing s with
  | nil => rfl
  | cons m l ih =>
    cases m with
    | failed failure => exact (along_alike hview (seen_countFailure failure s) l).trans (ih s)
    | did | took | turn | closed => exact ih _

/-- Scenes that are alike stay so through the same moments, however listeners fail. -/
theorem along_alike_of_untroubled (hview : Emulator.IsView view) (h : SeenAlike view s s') {l l' : List Moment}
    (hl : untroubled l = untroubled l') : SeenAlike view (s.along l) (s'.along l') := by
  have hend := (along_untroubled hview s l).trans (along_alike hview h (untroubled l))
  rw [hl] at hend
  exact hend.trans (along_untroubled hview s' l').symm

/-! ### Histories side by side -/

section

variable {call call' : ListenerName → Change → Scene → List Moment}

/-- Calls leave scenes alike and go through the same moments, apart from the failures of listeners. -/
structure RunsAlike (view : Emulator → Emulator) (hear hear' : ListenerName → Change → SceneM Unit)
    (call call' : ListenerName → Change → Scene → List Moment) : Prop where
  calls : CallsAlike view hear hear'
  moments {s s' : Scene} (h : SeenAlike view s s') (name : ListenerName) (change : Change) :
    untroubled (call name change s) = untroubled (call' name change s')

private theorem untroubled_turnOf (change : Change) {name : ListenerName} (h : name ∈ s.members) :
    untroubled (turnOf hear call change name s) = .turn name change true :: untroubled (call name change s) := by
  unfold turnOf
  rw [if_pos h]
  cases hear name change s with
  | ok => rfl
  | error failure =>
    show Moment.turn name change true :: untroubled (call name change s ++ [.failed failure]) = _
    rw [untroubled_append]
    exact congrArg _ (List.append_nil _)

private theorem turnOf_alike (hruns : RunsAlike view hear hear' call call') (h : SeenAlike view s s') (change : Change)
    (name : ListenerName) :
    untroubled (turnOf hear call change name s) = untroubled (turnOf hear' call' change name s') := by
  by_cases hname : name ∈ s.members
  · rw [untroubled_turnOf change hname, untroubled_turnOf change (h.members_eq ▸ hname), hruns.moments h]
  · have hname' : name ∉ s'.members := h.members_eq ▸ hname
    unfold turnOf
    rw [if_neg hname, if_neg hname']

private theorem turnsOf_alike (hview : Emulator.IsView view) (hruns : RunsAlike view hear hear' call call')
    (h : SeenAlike view s s') (change : Change) (names : List ListenerName) :
    untroubled (turnsOf hear call change names s) = untroubled (turnsOf hear' call' change names s') := by
  induction names generalizing s s' with
  | nil => rfl
  | cons name rest ih =>
    have hturn := turnOf_alike hruns h change name
    unfold turnsOf
    rw [untroubled_append, untroubled_append, hturn, ih (along_alike_of_untroubled hview h hturn)]

private theorem momentsOf_alike (hview : Emulator.IsView view) (hruns : RunsAlike view hear hear' call call')
    (h : SeenAlike view s s') (command : Command) :
    untroubled (momentsOf hear call command s) = untroubled (momentsOf hear' call' command s') := by
  cases command with
  | write chunk =>
    rcases announce_alike hview h chunk with ⟨ha, ha', -⟩ | ⟨change, u, u', ha, ha', hu⟩
    · simp only [momentsOf, ha, ha']
    · have hturns := turnsOf_alike hview hruns hu change u.members
      simp only [momentsOf, ha, ha', ← hu.members_eq]
      show Moment.took chunk :: untroubled (_ ++ [.closed change]) = .took chunk :: untroubled (_ ++ [.closed change])
      rw [untroubled_append, untroubled_append, hturns]
  | _ => rfl

/-- What a listener does when it is called, up to a failure. -/
private theorem answer_alike (hview : Emulator.IsView view) (hruns : RunsAlike view hear hear' call call')
    (h : SeenAlike view s s') (commands : List Command) :
    EndAlike (commands.forM fun command => discard (perform hear command))
        (commands.forM fun command => discard (perform hear' command)) s s' (SeenAlike view) ∧
      untroubled (answerMoments hear call commands s) = untroubled (answerMoments hear' call' commands s') := by
  constructor
  · refine EndAlike.forM h fun command _ t t' ht => ?_
    exact (perform_alike hview hruns.calls ht command).bind (fun _ _ h => h) fun _ _ _ _ h => h
  · induction commands generalizing s s' with
    | nil => rfl
    | cons command rest ih =>
      have hfirst := momentsOf_alike hview hruns h command
      unfold answerMoments
      rcases (perform_alike hview hruns.calls h command).cases with ⟨_, _, t, t', ht, ht', hnext⟩ |
        ⟨failure, t, t', ht, ht', -⟩
      · rw [ht, ht']
        dsimp only
        rw [untroubled_append, untroubled_append, hfirst, ih hnext]
      · rw [ht, ht']
        exact hfirst

theorem RunsAlike.callWith (hview : Emulator.IsView view) (hruns : RunsAlike view hear hear' call call') :
    RunsAlike view (callWith hear) (callWith hear') (callMomentsWith hear call) (callMomentsWith hear' call') := by
  have hanswer {s s' : Scene} (h : SeenAlike view s s') (name : ListenerName) : s.answerOf name = s'.answerOf name :=
    congrArg (fun listeners => ((listeners.lookup name).getD { }).answer) h.listeners_eq
  refine ⟨fun name change s s' h => ?_, fun {s s'} h name change => ?_⟩
  · show SeenAlike view (left ((s.answerOf name).forM _) (s.told name change))
      (left ((s'.answerOf name).forM _) (s'.told name change))
    rw [← hanswer h name]
    exact (answer_alike hview hruns (told_alike h name change) _).1.left_alike
  · unfold callMomentsWith
    rw [← hanswer h name]
    exact (answer_alike hview hruns (told_alike h name change) _).2

/-- Listeners do the same in scenes that are alike.  The induction is on the room for calls within calls. -/
theorem hear_alike (hview : Emulator.IsView view) (room : Nat) :
    RunsAlike view (Scene.hear room) (Scene.hear room) (callMoments room) (callMoments room) := by
  induction room with
  | zero => exact ⟨fun name change s s' h => told_alike h name change, fun _ _ _ => rfl⟩
  | succ room ih =>
    rw [hear_succ, callMoments_succ]
    exact ih.callWith hview

theorem historyWith_alike (hview : Emulator.IsView view) (hruns : RunsAlike view hear hear' call call')
    (h : SeenAlike view s s') (commands : List Command) :
    untroubled (historyWith hear call commands s) = untroubled (historyWith hear' call' commands s') := by
  induction commands generalizing s s' with
  | nil => rfl
  | cons command rest ih =>
    have hnext := (perform_alike hview hruns.calls h command).left_alike
    unfold historyWith
    rw [untroubled_append, untroubled_append, momentsOf_alike hview hruns h command, ih hnext]

end

end Scene

end ScreenWatch
