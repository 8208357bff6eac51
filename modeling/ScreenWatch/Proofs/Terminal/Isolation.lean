import ScreenWatch.Proofs.Terminal.TwoRuns

/-!
# Failures of listeners

Beside each run there is a calm one, in which a listener that would fail has done the same up to there and returns
(`hearCalmly`).  Both runs go through the same moments, except that the failures themselves happen in the first run
alone, and at each of them everything is the same in both but the notices and the number of failures that have been
counted (`failures_are_isolated`).  So it does not matter at which depth of calls within calls a listener fails.
-/

namespace ScreenWatch

namespace Scene

variable {s s' : Scene}

/-- The scenes are the same, except for the notices and the number of failures. -/
def SameButFailures (s s' : Scene) : Prop :=
  ({ s with terminal := s.terminal.map fun t => { t with failureCount := 0 }, log := [] } : Scene) =
    { s' with terminal := s'.terminal.map fun t => { t with failureCount := 0 }, log := [] }

/-- A call of a listener that returns where it would fail. -/
def hearCalmly : Nat → ListenerName → Change → SceneM Unit
  | 0, name, change => Scene.hear 0 name change
  | room + 1, name, change => tryCatch (callWith (hearCalmly room) name change) fun _ => pure ()

def calmCallMoments : Nat → ListenerName → Change → Scene → List Moment
  | 0 => fun _ _ _ => []
  | room + 1 => callMomentsWith (hearCalmly room) (calmCallMoments room)

/-- The scene after commands from outside when no listener fails. -/
def carryOutCalmly (room : Nat) (s : Scene) (commands : List Command) : Scene :=
  carryOutWith (hearCalmly room) s commands

/-- The moments of a run in which no listener fails. -/
def calmHistory (room : Nat) (commands : List Command) (s : Scene) : List Moment :=
  historyWith (hearCalmly room) (calmCallMoments room) commands s

/-! ### The calm run -/

private theorem left_hearCalmly (room : Nat) (name : ListenerName) (change : Change) (s : Scene) :
    left (hearCalmly (room + 1) name change) s = left (callWith (hearCalmly room) name change) s :=
  left_tryCatch_pure ..

/-- The induction is on the room for calls within calls. -/
private theorem calmCallMoments_recorded (room : Nat) : CallsRecorded (hearCalmly room) (calmCallMoments room) := by
  induction room with
  | zero => exact callMoments_recorded 0
  | succ room ih =>
    intro name change s
    rw [left_hearCalmly]
    exact callWith_recorded ih name change s

private theorem calmHistory_recorded (room : Nat) (commands : List Command) (s : Scene) :
    Recorded s (calmHistory room commands s) (carryOutCalmly room s commands) :=
  historyWith_recorded (calmCallMoments_recorded room) commands s

/-- Of emulators all is seen. -/
private theorem isView_id : Emulator.IsView id where
  take h chunk := by
    obtain rfl := (h : _ = _)
    exact .refl (fun _ => rfl) ..
  resize h width height := by
    obtain rfl := (h : _ = _)
    exact .refl (fun _ => rfl) ..
  reset h := by
    obtain rfl := (h : _ = _)
    exact .refl (fun _ => rfl) ..
  setDebug h on := by
    obtain rfl := (h : _ = _)
    rfl
  sameSize h := by
    obtain rfl := (h : _ = _)
    exact .refl _
  text_eq h := congrArg (fun e : Emulator => e.screen.text) h
  cursor_eq h := congrArg (fun e : Emulator => e.screen.cursor) h
  hash_eq h := congrArg (fun e : Emulator => e.screen.hash) h

/-- Calls that fail leave what those leave that return.  The induction is on the room for calls within calls. -/
private theorem hearCalmly_alike (room : Nat) :
    RunsAlike id (Scene.hear room) (hearCalmly room) (callMoments room) (calmCallMoments room) := by
  induction room with
  | zero => exact hear_alike isView_id 0
  | succ room ih =>
    obtain ⟨hcalls, hmoments⟩ := ih.callWith isView_id
    refine ⟨fun name change s s' h => ?_, hmoments⟩
    rw [left_hearCalmly]
    exact hcalls name change s s' h

/-! ### No failures in the calm run -/

section

variable {hear : ListenerName → Change → SceneM Unit} {call : ListenerName → Change → Scene → List Moment}

/-- Calls return, and so do the calls within them. -/
structure IsCalm (hear : ListenerName → Change → SceneM Unit)
    (call : ListenerName → Change → Scene → List Moment) : Prop where
  returns (name : ListenerName) (change : Change) (s : Scene) : ∃ u, hear name change s = .ok () u
  call_eq (name : ListenerName) (change : Change) (s : Scene) : untroubled (call name change s) = call name change s

namespace IsCalm

private theorem turnOf_eq (h : IsCalm hear call) (change : Change) (name : ListenerName) (s : Scene) :
    untroubled (turnOf hear call change name s) = turnOf hear call change name s := by
  obtain ⟨u, hu⟩ := h.returns name change s
  unfold turnOf
  rw [hu]
  split
  · exact congrArg (_ :: ·) (h.call_eq name change s)
  · rfl

private theorem turnsOf_eq (h : IsCalm hear call) (change : Change) (names : List ListenerName) (s : Scene) :
    untroubled (turnsOf hear call change names s) = turnsOf hear call change names s := by
  induction names generalizing s with
  | nil => rfl
  | cons name rest ih =>
    unfold turnsOf
    rw [untroubled_append, h.turnOf_eq, ih]

private theorem momentsOf_eq (h : IsCalm hear call) (command : Command) (s : Scene) :
    untroubled (momentsOf hear call command s) = momentsOf hear call command s := by
  cases command with
  | write chunk =>
    cases ha : s.announce chunk with
    | none =>
      simp only [momentsOf, ha]
      rfl
    | some announced =>
      obtain ⟨change, u⟩ := announced
      simp only [momentsOf, ha]
      show Moment.took chunk :: untroubled (_ ++ [.closed change]) = _
      rw [untroubled_append, h.turnsOf_eq]
      rfl
  | _ => rfl

private theorem callMomentsWith_eq (h : IsCalm hear call) (name : ListenerName) (change : Change) (s : Scene) :
    untroubled (callMomentsWith hear call name change s) = callMomentsWith hear call name change s := by
  have hanswer (commands : List Command) (s : Scene) :
      untroubled (answerMoments hear call commands s) = answerMoments hear call commands s := by
    induction commands generalizing s with
    | nil => rfl
    | cons command rest ih =>
      unfold answerMoments
      split
      · rw [untroubled_append, h.momentsOf_eq, ih]
      · exact h.momentsOf_eq command s
  exact hanswer _ _

private theorem historyWith_eq (h : IsCalm hear call) (commands : List Command) (s : Scene) :
    untroubled (historyWith hear call commands s) = historyWith hear call commands s := by
  induction commands generalizing s with
  | nil => rfl
  | cons command rest ih =>
    unfold historyWith
    rw [untroubled_append, h.momentsOf_eq, ih]

end IsCalm

end

/-- The induction is on the room for calls within calls. -/
private theorem isCalm_hearCalmly (room : Nat) : IsCalm (hearCalmly room) (calmCallMoments room) := by
  induction room with
  | zero => exact ⟨fun _ _ _ => ⟨_, rfl⟩, fun _ _ _ => rfl⟩
  | succ room ih =>
    refine ⟨fun name change s => ?_, ih.callMomentsWith_eq⟩
    unfold hearCalmly
    cases h : callWith (hearCalmly room) name change s with
    | ok _ u => exact ⟨u, tryCatch_of_ok h⟩
    | error failure u => exact ⟨u, tryCatch_of_error h⟩

/-! ### Chunks are written, and failures counted -/

variable {ds ds' : List Dispatch} {m : Moment} {l : List Moment}

private theorem hearCalmly_reached (room : Nat) (name : ListenerName) (change : Change) (s : Scene) (hs : s.Reached) :
    Leaves (hearCalmly room name change) s Reached := by
  have hsame := ((hearCalmly_alike room).calls name change s s rfl).emulator?_eq
  rw [Option.map_id_fun, id, id] at hsame
  exact Reached.congr hsame (hear_reached room name change s hs)

/-- A moment counts one failure if it is one, and none otherwise. -/
private theorem Step.failureCount_eq (h : Step ds s m ds') (hkeeps : m.KeepsTerminal) :
    (m.pass s).terminal.map Terminal.failureCount =
      (s.terminal.map Terminal.failureCount).map (· + UInt32.ofNat m.isFailure.toNat) := by
  have hnone (n : Option UInt32) : n = n.map (· + UInt32.ofNat 0) := by simp
  cases h with
  | did hquiet => exact (failureCount_did hkeeps hquiet).trans (hnone _)
  | took ha =>
    rw [pass_took ha]
    obtain ⟨terminal, notices, e, ht, -, -, -, -, rfl⟩ := announce_spec ha
    rw [ht]
    exact hnone _
  | turn =>
    rw [terminal_turn]
    exact hnone _
  | failed =>
    rw [pass_failed, Option.map_map, Option.map_map]
    rfl
  | closed =>
    obtain ⟨log, hpass⟩ := pass_closed (s := s) _
    rw [hpass]
    exact hnone _

private theorem Unfolds.failureCount_eq (h : Unfolds ds s l ds') (hkeeps : ∀ m ∈ l, m.KeepsTerminal) :
    (s.along l).terminal.map Terminal.failureCount =
      (s.terminal.map Terminal.failureCount).map (· + UInt32.ofNat (l.countP Moment.isFailure)) := by
  induction h with
  | nil => simp [along, Function.comp_def]
  | @cons ds ds' _ s m rest hstep _ ih =>
    have hfirst := hstep.failureCount_eq (hkeeps m (List.mem_cons_self ..))
    have hcount (n : UInt32) : n + UInt32.ofNat m.isFailure.toNat + UInt32.ofNat (rest.countP Moment.isFailure) =
        n + UInt32.ofNat ((m :: rest).countP Moment.isFailure) := by
      have hsum : (m :: rest).countP Moment.isFailure = m.isFailure.toNat + rest.countP Moment.isFailure := by
        rw [List.countP_cons]
        cases m.isFailure with
        | false => simp
        | true =>
          rw [Bool.toNat_true, if_pos rfl]
          omega
      rw [hsum, UInt32.ofNat_add, UInt32.add_assoc]
    rw [along_cons, ih fun m hm => hkeeps m (List.mem_cons_of_mem _ hm), hfirst, Option.map_map]
    exact congrFun (congrArg Option.map (funext hcount)) _

/-- The same of the number that 32 bits stand for. -/
private theorem Unfolds.failures_eq (h : Unfolds ds s l ds') (hkeeps : ∀ m ∈ l, m.KeepsTerminal) :
    (s.along l).terminal.map Terminal.failures =
      (s.terminal.map Terminal.failures).map fun n => (n + l.countP Moment.isFailure) % 4294967296 := by
  have hcount := congrArg (Option.map UInt32.toNat) (h.failureCount_eq hkeeps)
  rw [Option.map_map, Option.map_map, Option.map_map] at hcount
  refine hcount.trans ?_
  rw [Option.map_map]
  refine congrFun (congrArg Option.map (funext fun t => ?_)) _
  simp [Terminal.failures, UInt32.toNat_add]

/-- A chunk is written to a terminal of a run exactly if the characters of its text can be counted; otherwise the
terminal stays as it is. -/
private theorem write_ends {hear : ListenerName → Change → SceneM Unit}
    (hhear : ∀ name change s, Reached s → Leaves (hear name change) s Reached) (hs : s.Reached)
    (chunk : Bytes) :
    ((∀ e, s.emulator? = some e → (e.screen.width + 1) * e.screen.height ≤ 2147483647) →
      ∃ u, write hear chunk s = .ok () u) ∧
    ∀ e, s.emulator? = some e → 2147483647 < (e.screen.width + 1) * e.screen.height →
      ∃ u, write hear chunk s = .error (.fault .textTooLong) u ∧ u.terminal = s.terminal := by
  constructor
  · intro hroom
    obtain ⟨_, u, hu, -⟩ := write_reached hhear hs hroom chunk
    exact ⟨u, hu⟩
  · intro e he hno
    obtain ⟨t, ht, rfl⟩ := Option.map_eq_some_iff.1 he
    exact ⟨_, write_of_no_room hear ht (Nat.not_le_of_lt hno) chunk, rfl⟩

/-- Whether listeners fail, at any depth of calls within calls, or have done the same and return, makes no difference:
both runs go through the same moments up to the failures, and what they have brought about until then is the same but
for the notices and the number of failures.  In neither of them a chunk is written with a failure, as long as the
characters of the text can be counted, and in the first one the calls that have failed are counted, as far as 32 bits
go. -/
theorem failures_are_isolated (room : Nat) (commands : List Command) (hs : s.Reached) :
    untroubled (history room commands s) = calmHistory room commands s ∧
      SameButFailures (carryOut room s commands) (carryOutCalmly room s commands) ∧
      (∀ past, past <+: history room commands s → untroubled past <+: calmHistory room commands s ∧
        SameButFailures (s.along past) (s.along (untroubled past))) ∧
      (∀ past, past <+: history room commands s → ∀ more chunk,
        ((∀ e, (s.along past).emulator? = some e → (e.screen.width + 1) * e.screen.height ≤ 2147483647) →
          ∃ u, write (Scene.hear more) chunk (s.along past) = .ok () u) ∧
        ∀ e, (s.along past).emulator? = some e → 2147483647 < (e.screen.width + 1) * e.screen.height →
          ∃ u, write (Scene.hear more) chunk (s.along past) = .error (.fault .textTooLong) u ∧
            u.terminal = (s.along past).terminal) ∧
      (∀ past, past <+: calmHistory room commands s → ∀ more chunk,
        ((∀ e, (s.along past).emulator? = some e → (e.screen.width + 1) * e.screen.height ≤ 2147483647) →
          ∃ u, write (hearCalmly more) chunk (s.along past) = .ok () u) ∧
        ∀ e, (s.along past).emulator? = some e → 2147483647 < (e.screen.width + 1) * e.screen.height →
          ∃ u, write (hearCalmly more) chunk (s.along past) = .error (.fault .textTooLong) u ∧
            u.terminal = (s.along past).terminal) ∧
      ∀ past, past <+: history room commands s → (∀ m ∈ past, m.KeepsTerminal) →
        (s.along past).terminal.map Terminal.failures =
          (s.terminal.map Terminal.failures).map fun n => (n + past.countP Moment.isFailure) % 4294967296 := by
  have hmoments : untroubled (history room commands s) = calmHistory room commands s := by
    -- The calm listeners catch what the troubled ones raise, and both go through the same moments up to that.
    have halike := historyWith_alike isView_id (hearCalmly_alike room) (rfl : SeenAlike id s s) commands
    rw [(isCalm_hearCalmly room).historyWith_eq, ← history_eq] at halike
    exact halike
  obtain ⟨hunfolds, hend⟩ := history_recorded room commands s
  obtain ⟨hunfolds', hend'⟩ := calmHistory_recorded room commands s
  refine ⟨hmoments, ?_, ?_, ?_, ?_, ?_⟩
  · rw [← hend, ← hend', ← hmoments]
    exact along_untroubled isView_id s _
  · rintro past hpast
    rw [← hmoments]
    exact ⟨hpast.filter _, along_untroubled isView_id s past⟩
  · rintro past ⟨rest, hl⟩ more chunk
    rw [← hl] at hunfolds
    obtain ⟨_, hpast, -⟩ := hunfolds.split
    exact write_ends (hear_reached more) (hpast.reached hs) chunk
  · rintro past ⟨rest, hl⟩ more chunk
    rw [← hl] at hunfolds'
    obtain ⟨_, hpast, -⟩ := hunfolds'.split
    exact write_ends (hearCalmly_reached more) (hpast.reached hs) chunk
  · rintro past ⟨rest, hl⟩ hkeeps
    rw [← hl] at hunfolds
    obtain ⟨_, hpast, -⟩ := hunfolds.split
    exact hpast.failures_eq hkeeps

/-- The first listener writes another letter before it fails, and the second one fails at both changes. -/
theorem failures_are_isolated_within_calls :
    ∃ s, carryOut 2 { } [.create 2 1, .listener "a" true [[.write [0x62], .fail none]] [],
        .listener "b" true [] [.fail (some [0x21])], .subscribe (some "a") none, .subscribe (some "b") none] = s ∧
      (carryOut 2 s [.write [0x61]]).terminal.map Terminal.failures = some 3 ∧
      (carryOutCalmly 2 s [.write [0x61]]).terminal.map Terminal.failures = some 0 ∧
      SameButFailures (carryOut 2 s [.write [0x61]]) (carryOutCalmly 2 s [.write [0x61]]) := by
  obtain ⟨s, hs⟩ : ∃ s, carryOut 2 { } [.create 2 1, .listener "a" true [[.write [0x62], .fail none]] [],
      .listener "b" true [] [.fail (some [0x21])], .subscribe (some "a") none, .subscribe (some "b") none] = s :=
    ⟨_, rfl⟩
  obtain ⟨-, hsame, -⟩ := failures_are_isolated 2 [.write [0x61]] (hs ▸ reached_carryOut 2 _ : s.Reached)
  refine ⟨s, hs, ?_, ?_, hsame⟩
  · subst hs
    decide +kernel
  · subst hs
    decide +kernel

/-! ### Beyond the numbers -/

/-- Someone who always fails has heard of so many changes and is the only listener. -/
private def Pestered (e : Emulator) (count : Nat) (s : Scene) : Prop :=
  ∃ t, s.terminal = some t ∧ t.emulator = e ∧ t.registry = ⟨["a"]⟩ ∧ s.listeners = [("a", ⟨[], [.fail none], count⟩)]

private theorem Pestered.announce {e e' : Emulator} {count : Nat} (hs : Pestered e count s) (hroom : e.HasTextRoom)
    {chunk : Bytes} (htake : Emulator.take chunk e = .ok [] e') (hne : e.screen.text ≠ e'.screen.text) :
    ∃ change u, s.announce chunk = some (change, u) ∧ Pestered e' count u ∧ u.members = ["a"] := by
  obtain ⟨t, ht, rfl, hregistry, hlisteners⟩ := hs
  unfold Scene.announce
  rw [ht]
  dsimp only
  rw [htake]
  refine ⟨_, _, if_neg (not_or.2 ⟨not_not_intro hroom, hne⟩), ⟨_, rfl, rfl, hregistry, hlisteners⟩, ?_⟩
  exact congrArg Registry.members hregistry

/-- Told of a change, such a listener fails at once. -/
private theorem Pestered.told {e : Emulator} {count : Nat} (hs : Pestered e count s) (change : Change) :
    Scene.hear 1 "a" change s = .error (.raised none) (s.told "a" change) ∧
      callMoments 1 "a" change s = [.did (.fail none)] ∧ Pestered e (count + 1) (s.told "a" change) := by
  obtain ⟨t, ht, he, hregistry, hlisteners⟩ := hs
  have hanswer : s.answerOf "a" = [.fail none] := by
    unfold answerOf
    rw [hlisteners]
    rfl
  refine ⟨?_, ?_, t, ht, he, hregistry, ?_⟩
  · rw [hear_succ]
    unfold callWith
    rw [get_bind, hanswer]
    rfl
  · rw [callMoments_succ]
    unfold callMomentsWith
    rw [hanswer]
    rfl
  · unfold Scene.told
    rw [hlisteners]
    rfl

/-- One more change is one more failure. -/
private theorem Pestered.write {e e' : Emulator} {count : Nat} (hs : Pestered e count s) (hroom : e.HasTextRoom)
    {chunk : Bytes} (htake : Emulator.take chunk e = .ok [] e') (hne : e.screen.text ≠ e'.screen.text) :
    ∃ change, momentsOf (Scene.hear 1) (callMoments 1) (.write chunk) s =
        [.took chunk, .turn "a" change true, .did (.fail none), .failed (.raised none), .closed change] ∧
      Pestered e' (count + 1) (left (perform (Scene.hear 1) (.write chunk)) s) := by
  obtain ⟨change, u, ha, hu, hmembers⟩ := hs.announce hroom htake hne
  obtain ⟨hcall, hmoments, htold⟩ := hu.told change
  have hall : momentsOf (Scene.hear 1) (callMoments 1) (.write chunk) s =
      [.took chunk, .turn "a" change true, .did (.fail none), .failed (.raised none), .closed change] := by
    simp [momentsOf, ha, hmembers, turnsOf, turnOf, hcall, hmoments]
  refine ⟨change, hall, ?_⟩
  have hlast := (momentsOf_recorded (callMoments_recorded 1) (.write chunk) s).along_eq
  rw [hall, along_cons, pass_took ha] at hlast
  obtain ⟨t, ht, he, hregistry, hlisteners⟩ := htold
  obtain ⟨log, hclosed⟩ := pass_closed (s := Moment.pass (u.told "a" change) (.failed (.raised none))) change
  have hpass : left (perform (Scene.hear 1) (.write chunk)) s =
      Moment.pass (Moment.pass (u.told "a" change) (.failed (.raised none))) (.closed change) := hlast.symm
  rw [hpass, hclosed, pass_failed]
  exact ⟨{ t with failureCount := t.failureCount + 1 }, by rw [ht]; rfl, he, hregistry, hlisteners⟩

/-- Two letters in turn, each in the place of the other. -/
private def letters : Nat → List Command
  | 0 => []
  | n + 1 => .write [0x0D, 0x62] :: .write [0x0D, 0x61] :: letters n

private theorem Pestered.letters {e e' : Emulator} (hroom : e.HasTextRoom) (hroom' : e'.HasTextRoom)
    (hne : e.screen.text ≠ e'.screen.text) (hb : Emulator.take [0x0D, 0x62] e = .ok [] e')
    (ha : Emulator.take [0x0D, 0x61] e' = .ok [] e) (n : Nat) {count : Nat} (hs : Pestered e count s) :
    (history 1 (letters n) s).countP Moment.isFailure = 2 * n ∧ ∀ m ∈ history 1 (letters n) s, m.KeepsTerminal := by
  induction n generalizing count s with
  | zero => exact ⟨rfl, fun _ hm => nomatch hm⟩
  | succ n ih =>
    obtain ⟨change, hfirst, hs'⟩ := hs.write hroom hb hne
    obtain ⟨change', hsecond, hs''⟩ := hs'.write hroom' ha hne.symm
    obtain ⟨hcount, hkeeps⟩ := ih hs''
    unfold Scene.letters history history
    rw [hfirst, hsecond]
    constructor
    · rw [List.countP_append, List.countP_append, hcount]
      simp [List.countP_cons, Moment.isFailure]
      omega
    · simp only [List.mem_append, or_imp, forall_and]
      exact ⟨by simp [Moment.KeepsTerminal, Command.KeepsTerminal],
        by simp [Moment.KeepsTerminal, Command.KeepsTerminal], hkeeps⟩

/-- There is a run in which 2³² calls fail and the number of failures is none, and a terminal to which no chunk is
written without a failure. -/
theorem isolation_ends_with_the_numbers :
    (∃ s commands, s.Reached ∧ (history 1 commands s).countP Moment.isFailure = 4294967296 ∧
      (carryOut 1 s commands).terminal.map Terminal.failures = some 0) ∧
    ∃ u, write (Scene.hear 1) [0x61] (carryOut 1 { } [.create 65535 32768]) = .error (.fault .textTooLong) u := by
  constructor
  · -- Two letters take turns in one cell, so each chunk is a change of which one listener is told, and it fails.
    obtain ⟨e, he⟩ : ∃ e, left (Emulator.take [0x0D, 0x61]) { screen := .empty 2 1 } = e := ⟨_, rfl⟩
    obtain ⟨e', he'⟩ : ∃ e', left (Emulator.take [0x0D, 0x62]) e = e' := ⟨_, rfl⟩
    have hreached : e.Reached := he ▸ .take (@Emulator.Reached.create _ 2 1 rfl) _
    let s : Scene :=
      { terminal := some { emulator := e, registry := ⟨["a"]⟩ }, listeners := [("a", ⟨[], [.fail none], 0⟩)] }
    have hs : Pestered e 0 s := ⟨_, rfl, rfl, rfl, rfl⟩
    have hturns : e.HasTextRoom ∧ e'.HasTextRoom ∧ e.screen.text ≠ e'.screen.text ∧
        Succeeds (Emulator.take [0x0D, 0x62]) e (fun notices u => notices = [] ∧ u = e') ∧
        Succeeds (Emulator.take [0x0D, 0x61]) e' (fun notices u => notices = [] ∧ u = e) := by
      subst he he'
      decide +kernel
    obtain ⟨hroom, hroom', hne, ⟨_, _, hb, rfl, rfl⟩, ⟨_, _, ha, rfl, rfl⟩⟩ := hturns
    -- The number of rounds is kept as a variable, so that nothing counts up to it.
    obtain ⟨n, hn⟩ : ∃ n, 2 * n = 4294967296 := ⟨2147483648, rfl⟩
    obtain ⟨hcount, hkeeps⟩ := hs.letters hroom hroom' hne hb ha n
    obtain ⟨hunfolds, hlast⟩ := history_recorded 1 (letters n) s
    rw [hn] at hcount
    refine ⟨s, letters n, reached_of_some rfl hreached, hcount, ?_⟩
    have hfresh : s.terminal.map Terminal.failures = some 0 := rfl
    rw [← hlast, hunfolds.failures_eq hkeeps, hcount, hfresh]
    simp
  · have hcreate : Terminal.create 65535 32768 = .ok { emulator := { screen := .empty 65535 32768 } } :=
      @Terminal.create_of_hasCellRoom 65535 32768 (by decide) (by decide) (by decide)
    have hterminal : (carryOut 1 { } [.create 65535 32768]).terminal =
        some { emulator := { screen := .empty 65535 32768 } } := by
      show (Moment.pass _ (.did (.create 65535 32768))).terminal = _
      rw [pass_create, hcreate]
    have hno : ¬ Screen.HasTextRoom 65535 32768 := by decide
    exact ⟨_, write_of_no_room _ hterminal hno _⟩

end Scene

end ScreenWatch
