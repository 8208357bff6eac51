import ScreenWatch.Proofs.Terminal.Turns

/-!
# What is printed

When its traces are on, a terminal prints a block for each change of its text, with the number of a frame and the texts
before and after.  The log of a scene only grows, and of the moments of a history only the end of a dispatch prints a
block, with the number of the frames that have been counted by then (`Step.prints`, `prints_took`, `prints_closed`).
-/

namespace ScreenWatch

/-- What the trace shows of a change. -/
structure Block where
  frame : Nat
  before : Bytes
  after : Bytes
  deriving DecidableEq

def Notice.block? : Notice → Option Block
  | .screenChange frame before after => some ⟨frame, before, after⟩
  | _ => none

def blocksIn (notices : List Notice) : List Block := notices.filterMap Notice.block?

/-- The change with the number of its own frame. -/
def Change.block (change : Change) : Block := ⟨change.frame, change.before, change.after⟩

theorem blocksIn_append (notices notices' : List Notice) :
    blocksIn (notices ++ notices') = blocksIn notices ++ blocksIn notices' := List.filterMap_append

namespace Emulator

variable {e e' : Emulator} {notices : List Notice}

private theorem dispatch_blocks {kind : Control.Kind} {final : Int} (h : dispatch kind final e = .ok notices e') :
    blocksIn notices = [] := by
  unfold dispatch dispatchBy at h
  rw [get_bind, get_bind] at h
  cases hf : Control.Function.ofFinal? kind final with
  | none =>
    rw [hf] at h
    cases h
    split <;> rfl
  | some f =>
    rw [hf] at h
    obtain ⟨_, _, -, h⟩ := exists_of_bind_eq_ok h
    cases h
    split <;> rfl

private theorem apply_blocks {a : Escape.Action} (h : apply a e = .ok notices e') : blocksIn notices = [] := by
  cases a with
  | print c | clear | collect c | param c =>
    obtain ⟨_, _, -, h⟩ := exists_of_bind_eq_ok h
    cases h
    rfl
  | execute c | escDispatch c => exact dispatch_blocks h
  | csiDispatch c =>
    obtain ⟨_, _, -, h⟩ := exists_of_bind_eq_ok h
    exact dispatch_blocks h

private theorem applyAllFrom_blocks {actions : List Escape.Action} {found : List Notice} (hfound : blocksIn found = [])
    (h : applyAllFrom found actions e = .ok notices e') : blocksIn notices = [] := by
  induction actions generalizing e found with
  | nil =>
    cases h
    rw [blocksIn, List.filterMap_reverse, ← blocksIn, hfound, List.reverse_nil]
  | cons a rest ih =>
    obtain ⟨more, _, hmore, hrest⟩ := exists_of_bind_eq_ok h
    refine ih ?_ hrest
    rw [blocksIn_append, hfound, blocksIn, List.filterMap_reverse, ← blocksIn, apply_blocks hmore]
    rfl

/-- What is told of control functions are no blocks. -/
theorem take_blocks {chunk : Bytes} (h : take chunk e = .ok notices e') : blocksIn notices = [] := by
  unfold take takeBy at h
  rw [get_bind] at h
  obtain ⟨_, _, -, h⟩ := exists_of_bind_eq_ok h
  exact applyAllFrom_blocks rfl h

end Emulator

theorem Terminal.openingNotices_blocks (t : Terminal) (time : Nat) (chunk : Bytes) :
    blocksIn (t.openingNotices time chunk) = [] := by
  unfold openingNotices
  rw [blocksIn_append]
  split <;> split <;> rfl

theorem Terminal.initialScreen_blocks {t u : Terminal} {notices : List Notice} (h : initialScreen t = .ok notices u) :
    blocksIn notices = [] := by
  unfold initialScreen at h
  rw [get_bind] at h
  split at h
  · obtain ⟨text, v, -, hv⟩ := exists_of_bind_eq_ok h
    cases hv
    rfl
  · cases h
    rfl

theorem Terminal.currentScreen_blocks {t u : Terminal} {notices : List Notice} (h : currentScreen t = .ok notices u) :
    blocksIn notices = [] := by
  obtain ⟨text, v, -, hv⟩ := exists_of_bind_eq_ok h
  cases hv
  rfl

/-- The moment neither begins nor ends a dispatch. -/
def Moment.IsQuiet : Moment → Prop
  | took _ | closed _ => False
  | _ => True

namespace Scene

variable {s t u : Scene} {ds ds' : List Dispatch} {l : List Moment} {m : Moment} {change : Change} {chunk : Bytes}
  {blocks blocks' : List Block}

/-- From `s` to `t` the log goes on, and these blocks come to it. -/
def Prints (s t : Scene) (blocks : List Block) : Prop := ∃ notices, t.log = s.log ++ notices ∧ blocksIn notices = blocks

namespace Prints

theorem of_log_eq (h : t.log = s.log) : Prints s t [] := ⟨[], h.trans (List.append_nil _).symm, rfl⟩

theorem trans (h : Prints s t blocks) (h' : Prints t u blocks') : Prints s u (blocks ++ blocks') := by
  obtain ⟨notices, ht, rfl⟩ := h
  obtain ⟨notices', hu, rfl⟩ := h'
  exact ⟨notices ++ notices', by rw [hu, ht, List.append_assoc], blocksIn_append ..⟩

theorem unique (h : Prints s t blocks) (h' : Prints s t blocks') : blocks = blocks' := by
  obtain ⟨notices, ht, rfl⟩ := h
  obtain ⟨notices', ht', rfl⟩ := h'
  rw [List.append_cancel_left (ht.symm.trans ht')]

end Prints

/-! ### What a moment prints -/

private theorem log_closing {t : Terminal} (ht : s.terminal = some t) (before after : Bytes) :
    (left (closing before after) s).log = s.log ++ t.closingNotices before after := by
  obtain ⟨now, terminal, generation, listeners, handles, heard, log⟩ := s
  cases ht
  rfl

private theorem log_turn (name : ListenerName) (change : Change) (called : Bool) :
    (Moment.pass s (.turn name change called)).log = s.log := by
  cases called <;> rfl

/-- A chunk that does not change the text. -/
private theorem prints_write (h : s.announce chunk = none) : Prints s (Moment.pass s (.did (.write chunk))) [] := by
  show Prints s (left (write idle chunk >>= fun _ => pure Reply.done) s) []
  rw [left_bind_pure]
  cases ht : s.terminal with
  | none =>
    obtain ⟨now, terminal, generation, listeners, handles, heard, log⟩ := s
    cases ht
    have hwrite : write idle chunk ⟨now, none, generation, listeners, handles, heard, log⟩ =
        .ok () ⟨now, none, generation, listeners, handles, heard, log ++ [] ++ [] ++ []⟩ := rfl
    rw [left_of_ok hwrite]
    exact .of_log_eq (by simp)
  | some t =>
    by_cases hroom : t.emulator.HasTextRoom
    case neg =>
      rw [left_of_error (write_of_no_room idle ht hroom chunk)]
      exact ⟨_, rfl, t.openingNotices_blocks ..⟩
    cases he : t.emulator.take chunk with
    | error fault e =>
      rw [left_of_error (write_of_fault idle ht hroom he)]
      exact ⟨_, rfl, t.openingNotices_blocks ..⟩
    | ok notices e =>
      have hsame := text_eq_of_no_announce h ht hroom he
      refine ⟨t.openingNotices s.now chunk ++ notices ++
        { t with emulator := e }.closingNotices t.text e.screen.text, ?_, ?_⟩
      · rw [left_of_ok (((write_eq idle ht hroom he).trans (if_pos hsame)).trans (closing_eq ..)), log_closing rfl,
          List.append_assoc, List.append_assoc, List.append_assoc]
      · rw [blocksIn_append, blocksIn_append, t.openingNotices_blocks, Emulator.take_blocks he, hsame]
        unfold Terminal.closingNotices
        rw [if_pos rfl]
        split <;> rfl

/-- Something is read in the terminal, if it can be, and noted; what is read holds no block. -/
private theorem prints_noteRead {act : TerminalM (List Notice)}
    (hblocks : ∀ t notices u, act t = .ok notices u → blocksIn notices = []) (s : Scene) :
    Prints s (left (do note (← onTerminal [] act); return Reply.done) s) [] := by
  cases ht : s.terminal with
  | none =>
    rw [left_bind_of_ok (onTerminal_of_none ht)]
    exact ⟨[], rfl, rfl⟩
  | some t =>
    cases hact : act t with
    | ok notices u =>
      rw [left_bind_of_ok (onTerminal_of_ok ht hact)]
      exact ⟨notices, rfl, hblocks t notices u hact⟩
    | error fault u =>
      rw [left_of_error (bind_of_error (onTerminal_of_error ht hact))]
      exact .of_log_eq rfl

private theorem prints_setVerbose (on : Bool) : Prints s (Moment.pass s (.did (.setVerbose on))) [] := by
  have heading : ∃ notices u, onTerminal [] (Terminal.setVerbose on) s = .ok notices u ∧ u.log = s.log ∧
      blocksIn notices = [] := by
    obtain ⟨now, terminal, generation, listeners, handles, heard, log⟩ := s
    cases terminal <;> cases on <;> exact ⟨_, _, rfl, rfl, rfl⟩
  obtain ⟨notices, u, hu, hlog, hnone⟩ := heading
  have hnoted : Prints s { u with log := u.log ++ notices } [] := ⟨notices, by rw [hlog], hnone⟩
  have hrest := @prints_noteRead Terminal.initialScreen (fun _ _ _ => Terminal.initialScreen_blocks)
    { u with log := u.log ++ notices }
  have hpass : Moment.pass s (.did (.setVerbose on)) =
      left (do note (← onTerminal [] Terminal.initialScreen); return Reply.done)
        { u with log := u.log ++ notices } := left_bind_of_ok hu
  rw [hpass]
  exact hnoted.trans hrest

private theorem prints_logState : Prints s (Moment.pass s (.did .logState)) [] := by
  have heading : ∃ notices, onTerminal [] (return [(← get).stateNotice]) s = .ok notices s ∧
      blocksIn notices = [] := by
    obtain ⟨now, terminal, generation, listeners, handles, heard, log⟩ := s
    cases terminal <;> exact ⟨_, rfl, rfl⟩
  obtain ⟨notices, hs, hnone⟩ := heading
  have hnoted : Prints s { s with log := s.log ++ notices } [] := ⟨notices, rfl, hnone⟩
  have hrest := @prints_noteRead Terminal.currentScreen (fun _ _ _ => Terminal.currentScreen_blocks)
    { s with log := s.log ++ notices }
  have hpass : Moment.pass s (.did .logState) =
      left (do note (← onTerminal [] Terminal.currentScreen); return Reply.done)
        { s with log := s.log ++ notices } := left_bind_of_ok hs
  rw [hpass]
  exact hnoted.trans hrest

/-- A command that tells no listener prints no block. -/
private theorem prints_did {command : Command} (hquiet : ∀ chunk, command = .write chunk → s.announce chunk = none) :
    Prints s (Moment.pass s (.did command)) [] := by
  cases command with
  | write chunk => exact prints_write (hquiet chunk rfl)
  | create width height =>
    rw [pass_create]
    split <;> exact .of_log_eq rfl
  | resize width height =>
    rw [pass_resize]
    exact .of_log_eq rfl
  | reset =>
    rw [pass_reset]
    exact .of_log_eq rfl
  | subscribe name handle =>
    cases name with
    | none => exact .of_log_eq rfl
    | some name =>
      rw [pass_subscribe]
      exact .of_log_eq rfl
  | unlisten name =>
    cases name with
    | none => exact .of_log_eq rfl
    | some name =>
      rw [pass_unlisten]
      exact .of_log_eq rfl
  | unsubscribe handle =>
    cases h : s.handles.lookup handle with
    | none =>
      rw [pass_unsubscribe_void h]
      exact .of_log_eq rfl
    | some subscription =>
      rw [pass_unsubscribe h]
      refine .of_log_eq ?_
      dsimp only
      split <;> rfl
  | listener name callable script always => cases callable <;> exact .of_log_eq rfl
  | setVerbose on => exact prints_setVerbose on
  | logState => exact prints_logState
  | takeUnread | markRead | markedText | setDebug =>
    obtain ⟨now, terminal, generation, listeners, handles, heard, log⟩ := s
    cases terminal <;> exact .of_log_eq rfl
  | logScreen text => exact ⟨[.screen text], rfl, rfl⟩
  | destroy | setTime | isActive | copyHandle | fail => exact .of_log_eq rfl

theorem Step.prints (h : Step ds s m ds') (hquiet : m.IsQuiet) : Prints s (m.pass s) [] := by
  cases h with
  | did hnone => exact prints_did hnone
  | turn => exact .of_log_eq (log_turn ..)
  | failed =>
    rw [pass_failed]
    exact ⟨[.listenerFailed _], rfl, rfl⟩
  | took | closed => exact hquiet.elim

/-- A chunk is taken without a block. -/
theorem prints_took (h : s.announce chunk = some (change, u)) : Prints s u [] := by
  obtain ⟨t, notices, e, -, -, he, -, -, rfl⟩ := announce_spec h
  refine ⟨t.openingNotices s.now chunk ++ notices, List.append_assoc .., ?_⟩
  rw [blocksIn_append, t.openingNotices_blocks, Emulator.take_blocks he]
  rfl

theorem before_ne_after (h : s.announce chunk = some (change, u)) : change.before ≠ change.after := by
  obtain ⟨t, notices, e, -, -, -, hne, rfl, -⟩ := announce_spec h
  exact hne

/-- There is a terminal, and its traces are on. -/
def IsVerbose (s : Scene) : Prop := s.terminal.map Terminal.verbose = some true

instance : DecidablePred IsVerbose := fun s => inferInstanceAs (Decidable (s.terminal.map Terminal.verbose = some true))

/-- The block comes when the dispatch ends. -/
theorem prints_closed (h : s.IsVerbose) (hchange : change.before ≠ change.after) :
    Prints s (Moment.pass s (.closed change)) [⟨s.frames, change.before, change.after⟩] := by
  obtain ⟨t, ht, hon⟩ := Option.map_eq_some_iff.1 h
  refine ⟨t.closingNotices change.before change.after, log_closing ht .., ?_⟩
  unfold Terminal.closingNotices frames
  rw [if_pos hon, if_neg hchange, ht]
  rfl

/-- No moment takes anything out of the log. -/
theorem Step.exists_prints (h : Step ds s m ds') : ∃ blocks, Prints s (m.pass s) blocks := by
  by_cases hquiet : m.IsQuiet
  · exact ⟨[], h.prints hquiet⟩
  cases h with
  | did | turn | failed => exact (hquiet trivial).elim
  | took ha =>
    rw [pass_took ha]
    exact ⟨[], prints_took ha⟩
  | @closed _ _ change =>
    cases ht : s.terminal with
    | none =>
      obtain ⟨now, terminal, generation, listeners, handles, heard, log⟩ := s
      cases ht
      exact ⟨[], [], rfl, rfl⟩
    | some t => exact ⟨_, _, log_closing ht .., rfl⟩

theorem Unfolds.exists_prints (h : Unfolds ds s l ds') : ∃ blocks, Prints s (s.along l) blocks := by
  induction h with
  | nil => exact ⟨[], .of_log_eq rfl⟩
  | cons hstep _ ih =>
    obtain ⟨blocks, hfirst⟩ := hstep.exists_prints
    obtain ⟨blocks', hrest⟩ := ih
    exact ⟨blocks ++ blocks', hfirst.trans hrest⟩

/-! ### What a moment leaves alone -/

theorem Step.isVerbose (h : Step ds s m ds') (hkeeps : m.KeepsVerbose) (hon : s.IsVerbose) : (m.pass s).IsVerbose := by
  cases h with
  | did hnone => exact verbose_did hkeeps hnone hon
  | took ha =>
    rw [pass_took ha]
    obtain ⟨t, notices, e, ht, -, -, -, -, rfl⟩ := announce_spec ha
    unfold IsVerbose at hon
    rw [ht] at hon
    exact hon
  | turn =>
    unfold IsVerbose
    rwa [terminal_turn]
  | failed =>
    unfold IsVerbose
    rw [pass_failed, Option.map_map]
    exact hon
  | closed =>
    obtain ⟨log, hpass⟩ := pass_closed (s := s) _
    rw [hpass]
    exact hon

theorem Unfolds.isVerbose (h : Unfolds ds s l ds') (hkeeps : ∀ m ∈ l, m.KeepsVerbose) (hon : s.IsVerbose) :
    (s.along l).IsVerbose := by
  induction h with
  | nil => exact hon
  | @cons _ _ _ _ m rest hstep _ ih =>
    have hnext := hstep.isVerbose (hkeeps m (List.mem_cons_self ..)) hon
    exact ih (fun m hm => hkeeps m (List.mem_cons_of_mem _ hm)) hnext

theorem Step.frames_eq (h : Step ds s m ds') (hquiet : m.IsQuiet) (hkeeps : m.KeepsTerminal) :
    (m.pass s).frames = s.frames := by
  unfold frames
  cases h with
  | did hnone => rw [frames_did hkeeps hnone]
  | turn => rw [terminal_turn]
  | failed => rw [(sameRecords_failed _).frames_eq]
  | took | closed => exact hquiet.elim

theorem frames_closed (s : Scene) (change : Change) : (Moment.pass s (.closed change)).frames = s.frames := by
  unfold frames
  rw [(sameRecords_closed change).frames_eq]

end Scene

end ScreenWatch
